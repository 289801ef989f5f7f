import Handoff.Proofs.Component.Classes
import Handoff.Proofs.Render.Tags
import Handoff.Proofs.Render.Typed

/-!
The files of a component agree about its elements.

The style sheet has one rule an element. The markup of the template and that of the twig file are
read back as trees of classes: both have the shape of the annotated component, and with the
selectors and the base class put in, all three speak of the same classes.
-/

namespace Handoff

open Asset Design Naming Render Render.Reader Text

/-! ### Markup of elements -/

namespace Render

variable {g : Grammar} {tag : Element → Except Fault Tag} {cls : Element → Text}

/-- The tag of an element shows its class and can be read. -/
def TagsElement (g : Grammar) (tag : Element → Except Fault Tag) (cls : Element → Text)
    (e : Element) : Prop :=
  ∀ t, tag e = .ok t → t.cssClass = cls e ∧ Readable g t

mutual

/-- The markup of a tree of elements has its shape and its classes. -/
theorem classes_of_markupTree (t : Tree Element) {markup : Tree Tag} (hnest : OnlyContainersNest [t])
    (htag : ∀ e ∈ t.preorder, TagsElement g tag cls e) (h : markupTree tag t = .ok markup) :
    markup.map Tag.cssClass = t.map cls ∧ ∀ a ∈ markup.preorder, Readable g a := by
  match t with
  | .node e below =>
    obtain ⟨hcontainer, hbelow, -⟩ := onlyContainersNest_cons.1 hnest
    rw [Tree.preorder_node, List.forall_mem_cons] at htag
    rw [markupTree] at h
    obtain ⟨top, htop, h⟩ := bind_eq_ok.1 h
    obtain ⟨hcls, hreadable⟩ := htag.1 top htop
    split at h
    · obtain ⟨inside, hinside, h⟩ := bind_eq_ok.1 h
      cases h
      obtain ⟨hmap, hall⟩ := classes_of_markupForest below hbelow htag.2 hinside
      rw [Tree.map, Tree.map, hcls, hmap, Tree.preorder_node, List.forall_mem_cons]
      exact ⟨rfl, hreadable, hall⟩
    · -- An element that is no container has nothing inside, so nothing is left out here.
      rename_i hrole
      cases h
      have hempty : below = [] := by
        by_contra hne
        exact hrole (hcontainer hne)
      rw [hempty, Tree.map, Tree.map, hcls, Tree.preorder_node, List.forall_mem_cons]
      exact ⟨rfl, hreadable, by simp⟩

/-- The markup of elements side by side has their shape and their classes. -/
theorem classes_of_markupForest (ts : Forest Element) {markup : Markup}
    (hnest : OnlyContainersNest ts) (htag : ∀ e ∈ Tree.preorderAll ts, TagsElement g tag cls e)
    (h : markupForest tag ts = .ok markup) :
    Tree.mapAll Tag.cssClass markup = Tree.mapAll cls ts ∧
      ∀ a ∈ Tree.preorderAll markup, Readable g a := by
  match ts with
  | [] =>
    rw [markupForest] at h
    cases h
    exact ⟨by rw [Tree.mapAll, Tree.mapAll], by simp⟩
  | .node e below :: ts =>
    obtain ⟨hcontainer, hbelow, hrest⟩ := onlyContainersNest_cons.1 hnest
    have hfirst : OnlyContainersNest [.node e below] :=
      onlyContainersNest_cons.2 ⟨hcontainer, hbelow, onlyContainersNest_nil⟩
    rw [Tree.preorderAll_cons, List.forall_mem_append] at htag
    rw [markupForest] at h
    obtain ⟨first, htree, h⟩ := bind_eq_ok.1 h
    obtain ⟨rest, hforest, h⟩ := bind_eq_ok.1 h
    cases h
    obtain ⟨hmap, hall⟩ := classes_of_markupTree (.node e below) hfirst htag.1 htree
    obtain ⟨hmap', hall'⟩ := classes_of_markupForest ts hrest htag.2 hforest
    rw [Tree.mapAll, Tree.mapAll, hmap, hmap', Tree.preorderAll_cons, List.forall_mem_append]
    exact ⟨rfl, hall, hall'⟩

end

/-- The printed markup of elements reads back as their classes. -/
theorem read_markupForest (hg : g.Proper) {ts : Forest Element} {markup : Markup}
    (hnest : OnlyContainersNest ts) (htag : ∀ e ∈ Tree.preorderAll ts, TagsElement g tag cls e)
    (h : markupForest tag ts = .ok markup) (depth : Nat) :
    read g (ended (forestLines g.dialect depth markup)) = some (Tree.mapAll cls ts) := by
  obtain ⟨hmap, hall⟩ := classes_of_markupForest ts hnest htag h
  rw [read_forestLines hg depth hall, hmap]

end Render

/-! ### The files -/

/-- A style sheet with these rules, in order, inside the rule of the component. -/
def IsSheet (component : Component) (rules : List Rule) (sheet : Text) : Prop :=
  ∃ (declarations : List Declaration) (name width height : Text), sheet = unlines (
    (["@use '../variables' as *;", "", "." ++ component.cssClass ++ " \x7b"] : Lines) ++
    declarations.map (Declaration.line 1) ++
    rules.flatMap Rule.nestedLines ++
    (["",
     "  // Figma component: " ++ Text.singleSpaced name,
     "  // Original size: " ++ width ++ "x" ++ height,
     "  // Child elements: " ++ toString component.elements.length,
     "\x7d",
     ""] : Lines))

/-- A template that shows this markup inside the outermost box. -/
def IsTemplate (files : FileMap) (component : Component) (assetsImport : Text)
    (classes : Forest Text) (text : Text) : Prop :=
  ∃ (properties : List Property) (body : Lines), text = unlines (
    importLines files component assetsImport ++ headLines component ++
    (["export const " ++ component.name ++ " = (\x7b"] : Lines) ++
    properties.map Property.line ++
    (["  ...props", "\x7d) => \x7b", "  return (", rootBox component] : Lines) ++
    body ++
    (["    </div>", "  );", "\x7d;", "", "export default " ++ component.name ++ ";", ""] : Lines)) ∧
    read scriptGrammar (ended body) = some classes

/-- A twig file that sets the base class to that of the component and shows this markup inside the
outermost box. -/
def IsTwig (component : Component) (classes : Forest Text) (text : Text) : Prop :=
  ∃ body : Lines, text = unlines (
    [printed ("attach_library('frontend/" ++ component.cssClass ++ "')"),
     "",
     "\x7b% set base_class = '" ++ component.cssClass ++ "' %\x7d",
     "",
     "<div class=\"" ++ printed "base_class" ++ "\">"] ++
    body ++ (["</div>", ""] : Lines)) ∧
    read plainGrammar (ended body) = some classes

/-- The selector of an element inside the rule of its component. -/
def nestedSelector (element : Element) : Text := "&__" ++ element.elementClass

/-- The selector of a class. -/
def classSelector (cssClass : Text) : Text := "." ++ cssClass

/-- A nested selector on its own: the parent stands for the ampersand. -/
def expandedSelector (parent selector : Text) : Text :=
  match selector.toList with
  | .char '&' :: rest => parent ++ ofList rest
  | _ => parent ++ " " ++ selector

/-- A class with a value for the base class that it starts with. -/
def withBase (base cssClass : Text) : Text :=
  let slot := (printed "base_class").toList
  if slot <+: cssClass.toList then base ++ ofList (cssClass.toList.drop slot.length) else cssClass

section

variable {files : FileMap} {component : Component} {assetsImport text : Text}

lemma isSheet_of_stylesheet (h : stylesheet files component = .ok text) :
    ∃ rules, IsSheet component rules text ∧
      rules.map Rule.selector = component.elements.map nestedSelector := by
  obtain ⟨root, hroot, h⟩ := bind_eq_ok.1 h
  obtain ⟨rules, hrules, h⟩ := bind_eq_ok.1 h
  obtain ⟨width, -, h⟩ := bind_eq_ok.1 h
  obtain ⟨height, -, h⟩ := bind_eq_ok.1 h
  obtain ⟨name, -, h⟩ := bind_eq_ok.1 h
  obtain ⟨declarations, -, hroot⟩ := bind_eq_ok.1 hroot
  cases hroot
  cases h
  refine ⟨rules, ⟨declarations, name, width, height, rfl⟩, map_eq_of_mapM_eq_ok ?_ hrules⟩
  intro element rule hrule
  obtain ⟨ds, -, hrule⟩ := bind_eq_ok.1 hrule
  cases hrule
  rfl

lemma isTemplate_of_template (hnest : OnlyContainersNest component.forest)
    (hclass : ∀ e ∈ component.elements, Unquoted (e.cssClass component.name))
    (h : template files component assetsImport = .ok text) :
    IsTemplate files component assetsImport
      (Tree.mapAll (Element.cssClass component.name) component.forest) text := by
  obtain ⟨properties, -, h⟩ := bind_eq_ok.1 h
  obtain ⟨markup, hmarkup, h⟩ := bind_eq_ok.1 h
  cases h
  refine ⟨properties, _, rfl, read_markupForest proper_scriptGrammar hnest (fun e he t ht => ?_) hmarkup 3⟩
  exact readable_templateTag (hclass e he) ht

lemma isTwig_of_twig (hfiles : AreFileNames files) (hnest : OnlyContainersNest component.forest)
    (hclass : ∀ e ∈ component.elements, Unquoted e.elementClass)
    (h : twig files twigAssetsPath component = .ok text) :
    IsTwig component (Tree.mapAll twigClass component.forest) text := by
  obtain ⟨markup, hmarkup, h⟩ := bind_eq_ok.1 h
  cases h
  refine ⟨_, rfl, read_markupForest proper_plainGrammar hnest (fun e he t ht => ?_) hmarkup 1⟩
  exact readable_twigTag hfiles (hclass e he) ht

end

/-! ### Selectors and classes -/

lemma withBase_twigClass (base : Text) (e : Element) :
    withBase base (twigClass e) = base ++ "__" ++ e.elementClass := by
  have hclass : (twigClass e).toList =
      (printed "base_class").toList ++ (("__" : Text) ++ e.elementClass).toList := by
    simp [twigClass]
  unfold withBase
  simp only [hclass, List.prefix_append, if_true, List.drop_left]
  exact (append_assoc _ _ _).symm

lemma expandedSelector_nestedSelector (parent : Text) (e : Element) :
    expandedSelector parent (nestedSelector e) = parent ++ "__" ++ e.elementClass :=
  (append_assoc _ _ _).symm

/-! ### Agreement -/

/-- A card with a title above a group of two stars. -/
def card : LayerTree :=
  .node (plainLayer "1:1" "Card" "COMPONENT") [
    .node { plainLayer "1:2" "Title" "TEXT" with characters := .text "Hello" } [],
    .node (plainLayer "1:3" "Marks" "GROUP") [
      .node (plainLayer "1:4" "Star" "STAR") [],
      .node (plainLayer "1:5" "Star" "STAR") []]]

/-- The second star of the card could not be exported. -/
def cardFiles : FileMap := [(.text "1:4", some "star-1-4.svg"), (.text "1:5", none)]

lemma wellTypedTree_card : WellTypedTree card := by
  simp only [WellTypedTree, card, Tree.preorder_node, Tree.preorderAll_cons, Tree.preorderAll_nil,
    List.append_nil, List.cons_append, List.nil_append, List.forall_mem_cons]
  exact ⟨.of_plain _ _ _ "", .of_plain _ _ _ "Hello", .of_plain _ _ _ "", .of_plain _ _ _ "",
    .of_plain _ _ _ "", List.forall_mem_nil _⟩

lemma areFileNames_cardFiles : AreFileNames cardFiles := by
  intro key file h
  obtain ⟨before, after, hsplit, -⟩ := List.lookup_eq_some_iff.1 h
  have hmem : (key, some file) ∈ cardFiles := by simp [hsplit]
  rcases List.mem_cons.1 hmem with he | he
  · cases he
    exact ⟨plainLayer "1:4" "Star" "STAR", .svg, rfl⟩
  · cases List.mem_singleton.1 he

end Handoff

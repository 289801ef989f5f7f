import Handoff.Proofs.Component.Classes
import Handoff.Proofs.Component.Series
import Handoff.Proofs.Design.Memo

/-!
Components annotated one after the other are annotated as if each were the only one.

The roles decided for earlier components are handed on, so a walk may find some of its roles decided, and
which depends on what came before. When the ids of a design are apart that makes no difference: from two
memos that both read from the design, a walk does the same.
-/

namespace Handoff

open Design Naming

variable {α β : Type} {root t : LayerTree} {rules : Rules} {axis : Option Axis}

namespace Annotating

/-- The drafts differ in their memos at most, and both memos read from the design. -/
structure Akin (root : LayerTree) (d d' : Draft) : Prop where
  names : d'.names = d.names
  texts : d'.texts = d.texts
  left : d.roles.ReadsFrom root
  right : d'.roles.ReadsFrom root

/-- Whatever memo the walk finds, it fails with the same fault or gives the same value. -/
def Unswayed (root : LayerTree) (x : Annotating α) : Prop :=
  ∀ d d', Akin root d d' → SameOutcome (fun p q => q.1 = p.1 ∧ Akin root p.2 q.2) (x.run d) (x.run d')

namespace Unswayed

lemma bind {x : Annotating α} {f : α → Annotating β} (h : Unswayed root x)
    (hn : ∀ a, Unswayed root (f a)) : Unswayed root (x >>= f) := by
  intro d d' hd
  rw [StateT.run_bind, StateT.run_bind]
  refine (h d d' hd).bind ?_
  rintro ⟨a, u⟩ ⟨_, u'⟩ ⟨rfl, hu⟩
  exact hn _ u u' hu

lemma pure (a : α) : Unswayed root (Pure.pure a) := fun _ _ hd => .ok ⟨rfl, hd⟩

lemma liftM (r : Except Fault α) : Unswayed root (liftM r : Annotating α) := by
  intro d d' hd
  rcases r with fault | a
  · exact .error fault
  · exact .ok ⟨rfl, hd⟩

lemma elementClass (label : Value) : Unswayed root (Annotating.elementClass rules label) := by
  intro d d' hd
  refine SameOutcome.bind_eq (by rw [hd.names]) fun given => ?_
  exact .ok ⟨rfl, rfl, hd.texts, hd.left, hd.right⟩

lemma slot (role : Role) : Unswayed root (Annotating.slot role) := by
  intro d d' hd
  change SameOutcome _ (if _ then _ else _) (if _ then _ else _)
  split
  · rw [hd.texts]
    exact .ok ⟨rfl, hd.names, rfl, hd.left, hd.right⟩
  · exact .ok ⟨rfl, hd⟩

end Unswayed

lemma unswayed_role (hids : IdsApart root) (ht : t ∈ root.subtrees) : Unswayed root (role t) := by
  intro d d' hd
  refine ((hd.left.role_alike hids ht).join (hd.right.role_alike hids ht)).bind ?_
  rintro ⟨r, roles⟩ ⟨r', roles'⟩ ⟨own, ⟨rfl, hroles⟩, ⟨rfl, hroles'⟩⟩
  exact .ok ⟨rfl, hd.names, hd.texts, hroles, hroles'⟩

lemma unswayed_element (role : Role) (layer : Layer) :
    Unswayed root (element rules axis role layer) :=
  (Unswayed.elementClass layer.name).bind fun _ => (Unswayed.slot role).bind fun _ =>
    (Unswayed.liftM _).bind fun _ => (Unswayed.liftM _).bind fun _ => .pure _

lemma unswayed_rootImage (role : Role) (layer : Layer) : Unswayed root (rootImage rules role layer) := by
  unfold rootImage
  split
  · exact (Unswayed.elementClass _).bind fun _ => (Unswayed.liftM _).bind fun _ => .pure _
  · exact .pure none

mutual

/-- The walk over an inner tree. -/
theorem unswayed_tree (hids : IdsApart root) (axis : Option Axis) (t : LayerTree)
    (ht : t.subtrees ⊆ root.subtrees) : Unswayed root (tree rules axis t) := by
  match t with
  | .node layer children =>
    have htop : Tree.node layer children ∈ root.subtrees := ht (Tree.self_mem_subtrees _)
    rw [Tree.subtrees, List.cons_subset] at ht
    have hbelow := unswayed_forest hids layer.axis? children ht.2
    rw [tree]
    refine (unswayed_role hids htop).bind fun role => ?_
    split
    · exact .pure none
    refine (unswayed_element role layer).bind fun e => ?_
    split
    · exact hbelow.bind fun below => .pure _
    · exact .pure _

/-- The walk over inner trees side by side. -/
theorem unswayed_forest (hids : IdsApart root) (axis : Option Axis) (ts : Forest Layer)
    (hts : Tree.subtreesAll ts ⊆ root.subtrees) : Unswayed root (forest rules axis ts) := by
  match ts with
  | [] =>
    rw [forest]
    exact .pure []
  | t :: ts =>
    rw [Tree.subtreesAll, List.append_subset] at hts
    have hrest := unswayed_forest hids axis ts hts.2
    rw [forest]
    refine (unswayed_tree hids axis t hts.1).bind fun out => ?_
    cases out with
    | none => exact hrest
    | some top => exact hrest.bind fun others => .pure _

end

lemma unswayed_component (hids : IdsApart root) (ht : t ∈ root.subtrees) (name : Text) :
    Unswayed root (component rules t name) :=
  have hbelow := Tree.subtreesAll_children_subset ht
  (unswayed_role hids ht).bind fun role => (unswayed_rootImage role t.label).bind fun _ =>
    (unswayed_forest hids t.label.axis? t.children hbelow).bind fun _ =>
      (Unswayed.liftM _).bind fun _ => (Unswayed.liftM _).bind fun _ => .pure _

end Annotating

/-- The component with a name as it is annotated by itself, with no role decided before. -/
def annotateAlone (rules : Rules) (tree : LayerTree) (name : Text) : Except Fault Component :=
  Prod.fst <$> annotate rules [] tree name

/-- Trees with names annotated one after the other, with the roles decided so far. -/
def annotateEach (rules : Rules) (roles : RoleMemo) :
    List (LayerTree × Text) → Except Fault (List Component)
  | [] => .ok []
  | (tree, name) :: rest => do
    let (component, roles) ← annotate rules roles tree name
    return component :: (← annotateEach rules roles rest)

variable {memo memo' : RoleMemo}

/-- A component is annotated as if it were alone, and the memo goes on reading from the design. -/
lemma annotate_alike (hids : IdsApart root) (hmemo : memo.ReadsFrom root) (ht : t ∈ root.subtrees)
    (rules : Rules) (name : Text) :
    SameOutcome (fun p component => component = p.1 ∧ RoleMemo.ReadsFrom p.2 root)
      (annotate rules memo t name) (annotateAlone rules t name) := by
  have hdrafts : Annotating.Akin root ⟨memo, .empty, 0⟩ ⟨[], .empty, 0⟩ :=
    ⟨rfl, rfl, hmemo, RoleMemo.readsFrom_nil root⟩
  have hwalk : Annotating.Unswayed root (Annotating.component rules t name) :=
    Annotating.unswayed_component hids ht name
  unfold annotateAlone annotate
  rw [map_eq_pure_bind, bind_assoc]
  refine (hwalk _ _ hdrafts).bind ?_
  rintro ⟨component, d⟩ ⟨_, d'⟩ ⟨rfl, hd⟩
  exact .ok ⟨rfl, hd.left⟩

/-- However many components are annotated, each comes out as if it were alone. -/
lemma annotateEach_eq (hids : IdsApart root) (hmemo : memo.ReadsFrom root) (rules : Rules)
    {calls : List (LayerTree × Text)} (hcalls : ∀ call ∈ calls, call.1 ∈ root.subtrees) :
    annotateEach rules memo calls = calls.mapM fun call => annotateAlone rules call.1 call.2 := by
  induction calls generalizing memo with
  | nil => rfl
  | cons call rest ih =>
    obtain ⟨tree, name⟩ := call
    rw [List.forall_mem_cons] at hcalls
    rw [List.mapM_cons, annotateEach]
    refine ((annotate_alike hids hmemo hcalls.1 rules name).bind ?_).eq.symm
    rintro ⟨component, memo'⟩ _ ⟨rfl, hmemo'⟩
    exact SameOutcome.bind_eq (ih hmemo' hcalls.2).symm fun others => .ok rfl

/-- The components of a series are those that their trees would give alone. -/
lemma alone_of_annotateAll (hids : IdsApart root) (hmemo : memo.ReadsFrom root) {names : ComponentNames}
    {trees : List LayerTree} {components : List Component} (htrees : trees ⊆ root.subtrees)
    (h : annotateAll names memo trees = .ok components) :
    List.Forall₂ (fun tree component => annotateAlone .standard tree component.name = .ok component)
      trees components := by
  induction trees generalizing names memo components with
  | nil =>
    cases h
    exact .nil
  | cons tree rest ih =>
    obtain ⟨name, names', component, memo', others, -, hcomponent, hothers, rfl⟩ :=
      annotateAll_cons_eq_ok h
    rw [List.cons_subset] at htrees
    have halike := annotate_alike hids hmemo htrees.1 .standard name
    rw [hcomponent] at halike
    obtain ⟨other, halone, rfl, hmemo'⟩ := halike.exists_of_ok
    rw [← (name_of_annotate hcomponent).1] at halone
    exact .cons halone (ih hmemo' htrees.2 hothers)

/-- In a design whose ids are apart, whatever layers were asked about before, in any order and as often as
one likes: each question gets the role that is decided for the layer by itself, and the memo has as many
roles as there are different ids with an answer. Components that are then annotated one after the other
come out, or fail, as each would alone, and so do the components of a series with the names that it gives
them. -/
theorem annotated_alone (hids : IdsApart root) (rules : Rules) {asked : List LayerTree}
    (hasked : asked ⊆ root.subtrees) :
    (RoleMemo.askAll [] asked).1 = asked.map ownRole ∧
    (RoleMemo.askAll [] asked).2.length = (distinct (asked.filterMap answeredKey?)).length ∧
    (∀ calls : List (LayerTree × Text), (∀ call ∈ calls, call.1 ∈ root.subtrees) →
      annotateEach rules (RoleMemo.askAll [] asked).2 calls =
        calls.mapM fun call => annotateAlone rules call.1 call.2) ∧
    ∀ names trees components, trees ⊆ root.subtrees →
      annotateAll names (RoleMemo.askAll [] asked).2 trees = .ok components →
        List.Forall₂ (fun tree component => annotateAlone .standard tree component.name = .ok component)
          trees components := by
  obtain ⟨hanswers, hreads, hkeys⟩ := (RoleMemo.readsFrom_nil root).askAll hids hasked
  refine ⟨hanswers, ?_, fun calls hcalls => annotateEach_eq hids hreads rules hcalls,
    fun names trees components htrees h => alone_of_annotateAll hids hreads htrees h⟩
  have hlength := congrArg List.length hkeys
  rwa [List.length_map] at hlength

/-- A variant with a star and a text of the same name. -/
def smallButton : LayerTree :=
  .node (plainLayer "1:2" "Small" "COMPONENT") [
    .node (plainLayer "1:3" "Star" "STAR") [],
    .node { plainLayer "1:4" "Star" "TEXT" with characters := .text "Go" } []]

/-- A variant that is a photo. -/
def bigButton : LayerTree :=
  .node { plainLayer "1:5" "Big" "COMPONENT" with fills := [⟨.text "IMAGE", .null, .null, .null⟩] } []

/-- The set of both variants. -/
def buttonSet : LayerTree :=
  .node (plainLayer "1:1" "Button" "COMPONENT_SET") [smallButton, bigButton]

/-- The photo was asked about twice before the set is annotated, which contains both variants. -/
theorem annotated_alone_button : ∃ button small big,
    (RoleMemo.askAll [] [bigButton, bigButton]).2.length = 1 ∧
    annotateEach .standard (RoleMemo.askAll [] [bigButton, bigButton]).2
      [(buttonSet, "Button"), (smallButton, "Small"), (bigButton, "Big")] = .ok [button, small, big] ∧
    annotateAlone .standard smallButton "Small" = .ok small ∧
    classesOf button.forest = ["small", "star", "star-1", "big"] ∧
    classesOf small.forest = ["star", "star-1"] ∧ classesOf big.forest = ["image"] := by
  have hids : IdsApart buttonSet := by decide
  have hsub : [bigButton, bigButton] ⊆ buttonSet.subtrees := by
    simp [buttonSet, Tree.subtrees, Tree.subtreesAll, Tree.self_mem_subtrees]
  obtain ⟨-, hlength, heach, -⟩ := annotated_alone hids .standard hsub
  have hcalls := heach [(buttonSet, "Button"), (smallButton, "Small"), (bigButton, "Big")] (by
    simp [buttonSet, Tree.subtrees, Tree.subtreesAll, Tree.self_mem_subtrees])
  have hclasses (tree : LayerTree) (name : Text) (classes : List Text)
      (h : (annotateAlone .standard tree name).toOption.map (fun c => classesOf c.forest) = some classes) :
      ∃ component, annotateAlone .standard tree name = .ok component ∧
        classesOf component.forest = classes := by
    rcases halone : annotateAlone .standard tree name with fault | component
    · rw [halone] at h
      cases h
    · rw [halone] at h
      exact ⟨component, rfl, Option.some.inj h⟩
  obtain ⟨button, hbutton, hbuttonClasses⟩ := hclasses buttonSet "Button"
    ["small", "star", "star-1", "big"] (by decide +kernel)
  obtain ⟨small, hsmall, hsmallClasses⟩ := hclasses smallButton "Small" ["star", "star-1"]
    (by decide +kernel)
  obtain ⟨big, hbig, hbigClasses⟩ := hclasses bigButton "Big" ["image"] (by decide +kernel)
  refine ⟨button, small, big, hlength, ?_, hsmall, hbuttonClasses, hsmallClasses, hbigClasses⟩
  rw [hcalls, List.mapM_cons, List.mapM_cons, List.mapM_cons, List.mapM_nil, hbutton, hsmall, hbig]
  rfl

end Handoff

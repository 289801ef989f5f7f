import Handoff.Proofs.Component.Classes
import Handoff.Proofs.Render.Scope

/-!
What the markup of a template uses: printed tags use the identifiers in their expressions and no
others, whatever their classes, descriptions and texts are.
-/

namespace Handoff.Render.Scope

open Asset Design Reader Text

variable {found more last : List Text} {context : Context} {cls : Text}

/-- An attribute value that uses these identifiers. -/
def UsesValue (found : List Text) (value : Text) : Prop :=
  Uses found [.opening] value.toList [.opening]

/-- What a tag shows uses these identifiers. -/
inductive UsesContent : List Text → Content → Prop
  | box : UsesContent [] .box
  | span {found : List Text} {text : Text} (h : Uses found [.content] text.toList [.content]) :
      UsesContent found (.span text)
  | picture {found more : List Text} {source description : Text} (hs : UsesValue found source)
      (hd : UsesValue more description) : UsesContent (found ++ more) (.picture source description)
  | pictureIf {found more last : List Text} {source description : Text}
      (hn : Uses found [.code] (source ++ " ").toList [.code]) (hs : UsesValue more (braced source))
      (hd : UsesValue last description) :
      UsesContent (found ++ (more ++ last)) (.pictureIf source description)

/-- A tag that uses these identifiers. -/
structure UsesTag (found : List Text) (tag : Tag) : Prop where
  cssClass : Unquoted tag.cssClass
  content : UsesContent found tag.content

/-- Where an element may begin. -/
def IsPlace (context : Context) : Prop := context = .content ∨ context = .code

/-! ### Elements -/

lemma uses_quoted {text : Text} (h : Unquoted text) : UsesValue [] (quoted text) := by
  have hopen : Uses [] [.opening] ("\"" : Text).toList [.quoted, .opening] :=
    .of_silent fun _ _ => rfl
  have hclose : Uses [] [.quoted, .opening] ("\"" : Text).toList [.opening] :=
    .of_silent fun _ _ => rfl
  have hbody : Uses [] [.quoted] text.toList [.quoted] :=
    .of_forall (by decide) fun c hc => if_neg (h c hc)
  simp only [UsesValue, quoted, toList_append]
  exact (hopen.append (hbody.inside [.opening])).append hclose

lemma uses_classOf (hc : Unquoted cls) : UsesValue [] (scriptDialect.classOf cls) := by
  have hname : Uses [] [.opening] ("className=" : Text).toList [.opening] :=
    .of_silent fun _ _ => rfl
  exact hname.append (uses_quoted hc)

/-- A tag from its name to the place after its attributes. -/
lemma uses_openBox (hc : Unquoted cls) (hplace : IsPlace context) :
    Uses [] [context] (scriptDialect.openBox cls).toList [.content, context] := by
  have hopen : Uses [] [context] ("<div " : Text).toList [.opening, context] := by
    rcases hplace with rfl | rfl <;> exact .of_silent fun _ _ => rfl
  have hclose : Uses [] [.opening] (">" : Text).toList [.content] := .of_silent fun _ _ => rfl
  simp only [Dialect.openBox, toList_append]
  exact (hopen.append ((uses_classOf hc).inside [context])).append (hclose.inside [context])

lemma uses_closeBox : Uses [] [.content, context] ("</div>" : Text).toList [context] :=
  .of_silent fun _ _ => rfl

lemma uses_emptyBox (hc : Unquoted cls) (hplace : IsPlace context) :
    Uses [] [context] (scriptDialect.emptyBox cls).toList [context] :=
  (uses_openBox hc hplace).append uses_closeBox

lemma uses_span (hc : Unquoted cls) {text : Text} (h : Uses found [.content] text.toList [.content]) :
    Uses found [.content]
      ("<span " ++ scriptDialect.classOf cls ++ ">" ++ text ++ "</span>").toList [.content] := by
  have hopen : Uses [] [.content] ("<span " : Text).toList [.opening, .content] :=
    .of_silent fun _ _ => rfl
  have hstart : Uses [] [.opening, .content] (">" : Text).toList [.content, .content] :=
    .of_silent fun _ _ => rfl
  have hclose : Uses [] [.content, .content] ("</span>" : Text).toList [.content] :=
    .of_silent fun _ _ => rfl
  have htag := (hopen.append ((uses_classOf hc).inside [.content])).append hstart
  simp only [toList_append]
  exact (htag.append (h.inside [.content])).then_silent hclose

lemma uses_picture (hc : Unquoted cls) (hplace : IsPlace context) {source description : Text}
    (hs : UsesValue found source) (hd : UsesValue more description) :
    Uses (found ++ more) [context] (scriptDialect.picture source description cls).toList [context] := by
  have hopen : Uses [] [context] ("<img src=" : Text).toList [.opening, context] := by
    rcases hplace with rfl | rfl <;> exact .of_silent fun _ _ => rfl
  have halt : Uses [] [.opening] (" alt=" : Text).toList [.opening] := .of_silent fun _ _ => rfl
  have hblank : Uses [] [.opening] (" " : Text).toList [.opening] := .of_silent fun _ _ => rfl
  have hclose : Uses [] [.opening, context] (" />" : Text).toList [context] :=
    .of_silent fun _ _ => rfl
  have hsource : Uses found [.opening] (source.toList ++ (" alt=" : Text).toList) [.opening] :=
    Uses.then_silent hs halt
  have hattributes : Uses (found ++ more) [.opening] (source.toList ++ (" alt=" : Text).toList ++
      description.toList ++ (" " : Text).toList ++ (scriptDialect.classOf cls).toList) [.opening] :=
    ((hsource.append hd).then_silent hblank).then_silent (uses_classOf hc)
  have hall := (hopen.append (hattributes.inside [context])).then_silent hclose
  simpa only [Dialect.picture, toList_append, List.append_assoc, List.nil_append] using hall

/-! ### Lines -/

lemma uses_indented {line : Text} {after : List Context} (hplace : IsPlace context) (depth : Nat)
    (h : Uses found [context] line.toList after) :
    Uses found [context] (indented depth line).toList after :=
  (uses_blank (isBlank_replicate _) hplace).append h

lemma uses_lineEnd (hplace : IsPlace context) : Uses [] [context] [.char '\n'] [context] :=
  uses_blank (by simp [IsBlank]) hplace

/-- A line that stays in a place. -/
lemma uses_line {line : Text} (hplace : IsPlace context) (depth : Nat)
    (h : Uses found [context] line.toList [context]) :
    Uses found [context] (ended ([line].map (indented depth))) [context] := by
  have hline := (uses_indented hplace depth h).then_silent (uses_lineEnd hplace)
  simpa only [ended, List.map_cons, List.map_nil, List.flatMap_cons, List.flatMap_nil,
    List.append_nil] using hline

lemma uses_choice (hc : Unquoted cls) {source description : Text}
    (hname : Uses found [.code] (source ++ " ").toList [.code])
    (hsource : UsesValue more (braced source)) (hdescription : UsesValue last description)
    (depth : Nat) : Uses (found ++ (more ++ last)) [.content] (ended ((scriptDialect.leafLines
      ⟨cls, .pictureIf source description⟩).map (indented depth))) [.content] := by
  have hcode : IsPlace .code := Or.inr rfl
  have hopen : Uses found [.content] ("\x7b" ++ source ++ " ? (" : Text).toList [.code, .content] := by
    have hbrace : Uses [] [.content] ("\x7b" : Text).toList [.code, .content] :=
      .of_silent fun _ _ => rfl
    have hask : Uses [] [.code] ("? (" : Text).toList [.code] := .of_silent fun _ _ => rfl
    have hpieces : ("\x7b" ++ source ++ " ? (" : Text).toList = ("\x7b" : Text).toList ++
        ((source ++ " ").toList ++ ("? (" : Text).toList) := by
      simp only [toList_append, List.append_assoc]
      rfl
    rw [hpieces]
    exact hbrace.append ((hname.then_silent hask).inside [.content])
  have hline {names : List Text} (text : Text) (h : Uses names [.code] text.toList [.code]) :
      Uses names [.code, .content] ((indented depth text).toList ++ [.char '\n'])
        [.code, .content] :=
    ((uses_indented hcode depth h).then_silent (uses_lineEnd hcode)).inside [.content]
  have hpicture : Uses (more ++ last) [.code]
      ("  " ++ scriptDialect.picture (braced source) description cls : Text).toList [.code] :=
    (uses_blank (isBlank_replicate 2) hcode).append (uses_picture hc hcode hsource hdescription)
  have helse : Uses [] [.code] (") : (" : Text).toList [.code] := .of_silent fun _ _ => rfl
  have hbox : Uses [] [.code] ("  " ++ scriptDialect.emptyBox cls : Text).toList [.code] :=
    (uses_blank (isBlank_replicate 2) hcode).append (uses_emptyBox hc hcode)
  have hclose : Uses [] [.code, .content]
      ((indented depth ")\x7d").toList ++ [.char '\n']) [.content] := by
    have hend : Uses [] [.code, .content] (")\x7d" : Text).toList [.content] :=
      .of_silent fun _ _ => rfl
    exact (((uses_blank (isBlank_replicate _) hcode).inside [.content]).append hend).append
      (uses_lineEnd (Or.inl rfl))
  have hfirst : Uses found [.content]
      ((indented depth ("\x7b" ++ source ++ " ? (")).toList ++ [.char '\n']) [.code, .content] :=
    (uses_indented (Or.inl rfl) depth hopen).then_silent ((uses_lineEnd hcode).inside [.content])
  have hall := (((hfirst.append (hline _ hpicture)).then_silent (hline _ helse)).then_silent
    (hline _ hbox)).then_silent hclose
  simpa only [Dialect.leafLines, ended, List.map_cons, List.map_nil, List.flatMap_cons,
    List.flatMap_nil, List.append_nil, List.append_assoc] using hall

lemma uses_leaf {tag : Tag} (ht : UsesTag found tag) (depth : Nat) :
    Uses found [.content] (ended ((scriptDialect.leafLines tag).map (indented depth)))
      [.content] := by
  have hplace : IsPlace .content := Or.inl rfl
  obtain ⟨cls, content⟩ := tag
  obtain ⟨hc, hcontent⟩ := ht
  cases hcontent with
  | box => exact uses_line hplace depth (uses_emptyBox hc hplace)
  | span h => exact uses_line hplace depth (uses_span hc h)
  | picture hs hd => exact uses_line hplace depth (uses_picture hc hplace hs hd)
  | pictureIf hn hs hd => exact uses_choice hc hn hs hd depth

section

variable {tag : Element → Except Fault Tag} {uses : Element → List Text}

/-- Tags of elements use what is said of the elements; containers use nothing themselves. -/
structure TagsUse (tag : Element → Except Fault Tag) (uses : Element → List Text) (e : Element) :
    Prop where
  tag : ∀ a, tag e = .ok a → UsesTag (uses e) a
  container : e.role = .container → uses e = []

mutual

/-- The printed markup of a tree of elements uses what the elements use, in order. -/
theorem uses_markupTree (depth : Nat) (t : Tree Element) {out : Tree Tag}
    (hnest : OnlyContainersNest [t]) (ht : ∀ e ∈ t.preorder, TagsUse tag uses e)
    (h : markupTree tag t = .ok out) :
    Uses (t.preorder.flatMap uses) [.content] (ended (treeLines scriptDialect depth out))
      [.content] := by
  match t with
  | .node e [] =>
    rw [Tree.preorder_node, List.forall_mem_cons] at ht
    rw [markupTree] at h
    obtain ⟨top, htop, h⟩ := bind_eq_ok.1 h
    have hout : out = .node top [] := by
      split at h
      · rw [markupForest] at h
        cases h
        rfl
      · cases h
        rfl
    rw [hout, treeLines, Tree.preorder_node, Tree.preorderAll_nil, List.flatMap_singleton]
    exact uses_leaf (ht.1.tag top htop) depth
  | .node e (t :: ts) =>
    obtain ⟨hcontainer, hbelow, -⟩ := onlyContainersNest_cons.1 hnest
    have hrole := hcontainer (List.cons_ne_nil t ts)
    rw [Tree.preorder_node, List.forall_mem_cons] at ht
    rw [markupTree] at h
    obtain ⟨top, htop, h⟩ := bind_eq_ok.1 h
    rw [if_pos hrole] at h
    obtain ⟨inside, hinside, h⟩ := bind_eq_ok.1 h
    cases h
    have hforest := uses_markupForest (depth + 1) (t :: ts) hbelow ht.2 hinside
    obtain ⟨first, others, rfl⟩ : ∃ first others, inside = first :: others := by
      rw [markupForest] at hinside
      obtain ⟨first, -, hinside⟩ := bind_eq_ok.1 hinside
      obtain ⟨others, -, hinside⟩ := bind_eq_ok.1 hinside
      cases hinside
      exact ⟨first, others, rfl⟩
    have hplace : IsPlace .content := Or.inl rfl
    have hcls := (ht.1.tag top htop).cssClass
    have hlines : treeLines scriptDialect depth (.node top (first :: others)) =
        indented depth (scriptDialect.openBox top.cssClass) ::
          (forestLines scriptDialect (depth + 1) (first :: others) ++ [indented depth "</div>"]) := by
      rw [treeLines, forestLines]
      rfl
    have hend : Uses [] [.content, .content]
        ((indented depth "</div>").toList ++ [.char '\n']) [.content] :=
      (((uses_blank (isBlank_replicate _) hplace).inside [.content]).append uses_closeBox).append
        (uses_lineEnd hplace)
    have hopen : Uses [] [.content]
        ((indented depth (scriptDialect.openBox top.cssClass)).toList ++ [.char '\n'])
        [.content, .content] :=
      (uses_indented hplace depth (uses_openBox hcls hplace)).append
        ((uses_lineEnd hplace).inside [.content])
    have hall := (hopen.append (hforest.inside [.content])).then_silent hend
    rw [Tree.preorder_node, List.flatMap_cons, ht.1.container hrole, hlines, ended_cons, ended_append,
      ended_cons, ended_nil]
    simpa only [List.append_assoc, List.cons_append, List.nil_append] using hall

/-- The printed markup of elements side by side uses what the elements use, in order. -/
theorem uses_markupForest (depth : Nat) (ts : Forest Element) {out : Markup}
    (hnest : OnlyContainersNest ts) (ht : ∀ e ∈ Tree.preorderAll ts, TagsUse tag uses e)
    (h : markupForest tag ts = .ok out) :
    Uses ((Tree.preorderAll ts).flatMap uses) [.content] (ended (forestLines scriptDialect depth out))
      [.content] := by
  match ts with
  | [] =>
    rw [markupForest] at h
    cases h
    rw [forestLines, Tree.preorderAll_nil]
    exact .nil
  | .node e below :: ts =>
    obtain ⟨hcontainer, hbelow, hrest⟩ := onlyContainersNest_cons.1 hnest
    have hfirst : OnlyContainersNest [.node e below] :=
      onlyContainersNest_cons.2 ⟨hcontainer, hbelow, onlyContainersNest_nil⟩
    rw [Tree.preorderAll_cons, List.forall_mem_append] at ht
    rw [markupForest] at h
    obtain ⟨first, htree, h⟩ := bind_eq_ok.1 h
    obtain ⟨rest, hforest, h⟩ := bind_eq_ok.1 h
    cases h
    rw [Tree.preorderAll_cons, List.flatMap_append, forestLines, ended_append]
    exact (uses_markupTree depth (.node e below) hfirst ht.1 htree).append
      (uses_markupForest depth ts hrest ht.2 hforest)

end

end

end Handoff.Render.Scope

import Handoff.Proofs.Render.Reader
import Handoff.Render.Template
import Handoff.Render.Twig

/-!
Printed markup read back: the lines of a forest of tags spell its forest of classes.

What a tag shows has to be readable by itself: a class without quotes, attribute values and text that
the scan passes over.
-/

namespace Handoff.Render

open Text

namespace Reader

variable {g : Grammar} {s : St} {tag : OpenTag} {name : List CodePoint} {frames : List Frame}
  {done : Forest Text} {cls : Text}

/-- A class attribute that is a name of its own. -/
structure Grammar.Proper (g : Grammar) : Prop where
  name : ∀ c ∈ g.dialect.classAttribute.toList, c ≠ '=' ∧ c ≠ ' ' ∧ c ≠ '/' ∧ c ≠ '>'
  source : g.dialect.classAttribute ≠ "src"
  description : g.dialect.classAttribute ≠ "alt"

/-- A text without double quotes. -/
def Unquoted (text : Text) : Prop := ∀ c ∈ text.toList, c ≠ '"'

/-- An attribute value that the scan passes over, of any attribute but the class. -/
def IsValue (g : Grammar) (value : Text) : Prop :=
  ∀ tag name frames done, name ≠ g.dialect.classAttribute.toList →
    run g ⟨.value tag name, frames, done⟩ value.toList = some ⟨.attribute tag [], frames, done⟩

/-- A place that is not directly inside an expression. -/
def IsPlain (frames : List Frame) : Prop :=
  ∀ depth alternatives rest, frames ≠ .choice depth alternatives :: rest

/-- Text inside an element that the scan passes over. -/
def IsInline (g : Grammar) (text : Text) : Prop :=
  ∀ frames done, IsPlain frames →
    run g ⟨.content, frames, done⟩ text.toList = some ⟨.content, frames, done⟩

/-- A place where an element may begin. -/
def IsOpen (g : Grammar) (s : St) : Prop := step g s '<' = some ⟨.opening [], s.frames, s.done⟩

lemma isOpen_content : IsOpen g ⟨.content, frames, done⟩ := rfl

lemma isOpen_code : IsOpen g ⟨.script .code, frames, done⟩ := rfl

/-! ### Attributes -/

lemma run_quoted {value more : List CodePoint} (h : ∀ c ∈ more, c ≠ '"') :
    run g ⟨.quoted tag name value, frames, done⟩ more =
      some ⟨.quoted tag name (value ++ more), frames, done⟩ := by
  induction more generalizing value with
  | nil => simp
  | cons c rest ih =>
    rw [List.forall_mem_cons] at h
    have hstep : step g ⟨.quoted tag name value, frames, done⟩ c =
        some ⟨.quoted tag name (value ++ [c]), frames, done⟩ := if_neg h.1
    rw [run_cons, hstep, Option.bind_some, ih h.2, List.append_assoc]
    rfl

lemma run_attributeName {more : List CodePoint}
    (h : ∀ c ∈ more, c ≠ '=' ∧ c ≠ ' ' ∧ c ≠ '/' ∧ c ≠ '>') :
    run g ⟨.attribute tag name, frames, done⟩ more =
      some ⟨.attribute tag (name ++ more), frames, done⟩ := by
  induction more generalizing name with
  | nil => simp
  | cons c rest ih =>
    rw [List.forall_mem_cons] at h
    obtain ⟨⟨h1, h2, h3, h4⟩, hrest⟩ := h
    have hstep : step g ⟨.attribute tag name, frames, done⟩ c =
        some ⟨.attribute tag (name ++ [c]), frames, done⟩ := by
      simp [step, attributeStep, h1, h2, h3, h4]
    rw [run_cons, hstep, Option.bind_some, ih hrest, List.append_assoc]
    rfl

/-- A value between quotes. -/
lemma isValue_quoted {text : Text} (h : Unquoted text) : IsValue g (quoted text) := by
  intro tag name frames done hname
  have hopen : run g ⟨.value tag name, frames, done⟩ ("\"" : Text).toList =
      some ⟨.quoted tag name [], frames, done⟩ := rfl
  simp only [quoted, toList_append, List.append_assoc]
  rw [run_append_of_eq hopen, run_append_of_eq (run_quoted h)]
  simp [step, OpenTag.enter, hname]

lemma run_classOf (hg : g.Proper) (hc : Unquoted cls) (element : List CodePoint) :
    run g ⟨.attribute ⟨element, none⟩ [], frames, done⟩ (g.dialect.classOf cls).toList =
      some ⟨.attribute ⟨element, some cls.toList⟩ [], frames, done⟩ := by
  have hname : run g ⟨.attribute ⟨element, none⟩ [], frames, done⟩
      g.dialect.classAttribute.toList =
        some ⟨.attribute ⟨element, none⟩ g.dialect.classAttribute.toList, frames, done⟩ :=
    run_attributeName hg.name
  have hopen (name : List CodePoint) : run g ⟨.attribute ⟨element, none⟩ name, frames, done⟩
      (("=" : Text).toList ++ ("\"" : Text).toList) =
        some ⟨.quoted ⟨element, none⟩ name [], frames, done⟩ := rfl
  simp only [Dialect.classOf, quoted, toList_append, List.append_assoc]
  rw [run_append_of_eq hname, ← List.append_assoc, run_append_of_eq (hopen _),
    run_append_of_eq (run_quoted hc)]
  simp [step, OpenTag.enter]

/-! ### Elements -/

lemma run_openBox (hg : g.Proper) (hc : Unquoted cls) (hs : IsOpen g s) :
    run g s (g.dialect.openBox cls).toList =
      some ⟨.content, .element ("div" : Text).toList cls [] :: s.frames, s.done⟩ := by
  have hopen : run g s ("<div " : Text).toList =
      some ⟨.attribute ⟨("div" : Text).toList, none⟩ [], s.frames, s.done⟩ := by
    rw [show ("<div " : Text).toList = .char '<' :: ("div " : Text).toList from rfl, run_cons, hs]
    rfl
  simp only [Dialect.openBox, toList_append, List.append_assoc]
  rw [run_append_of_eq hopen, run_append_of_eq (run_classOf hg hc _)]
  rfl

lemma run_closeBox {inside : Forest Text} :
    run g ⟨.content, .element ("div" : Text).toList cls inside :: frames, done⟩
      ("</div>" : Text).toList = some (add [.node cls inside] frames done) := rfl

lemma run_emptyBox (hg : g.Proper) (hc : Unquoted cls) (hs : IsOpen g s) :
    run g s (g.dialect.emptyBox cls).toList = some (add [.node cls []] s.frames s.done) := by
  simp only [Dialect.emptyBox, toList_append]
  rw [run_append_of_eq (run_openBox hg hc hs)]
  exact run_closeBox

lemma run_span (hg : g.Proper) (hc : Unquoted cls) (hs : IsOpen g s) {text : Text}
    (ht : IsInline g text) :
    run g s ("<span " ++ g.dialect.classOf cls ++ ">" ++ text ++ "</span>").toList =
      some (add [.node cls []] s.frames s.done) := by
  have hopen : run g s ("<span " : Text).toList =
      some ⟨.attribute ⟨("span" : Text).toList, none⟩ [], s.frames, s.done⟩ := by
    rw [show ("<span " : Text).toList = .char '<' :: ("span " : Text).toList from rfl, run_cons, hs]
    rfl
  have hstart : run g ⟨.attribute ⟨("span" : Text).toList, some cls.toList⟩ [], s.frames, s.done⟩
      (">" : Text).toList =
        some ⟨.content, .element ("span" : Text).toList cls [] :: s.frames, s.done⟩ := rfl
  have hinside : IsPlain (.element ("span" : Text).toList cls [] :: s.frames) := nofun
  simp only [toList_append, List.append_assoc]
  rw [run_append_of_eq hopen, run_append_of_eq (run_classOf hg hc _), run_append_of_eq hstart,
    run_append_of_eq (ht _ _ hinside)]
  rfl

lemma run_picture (hg : g.Proper) (hc : Unquoted cls) (hs : IsOpen g s) {source description : Text}
    (h : IsValue g source) (h' : IsValue g description) :
    run g s (g.dialect.picture source description cls).toList =
      some (add [.node cls []] s.frames s.done) := by
  have hopen : run g s ("<img src=" : Text).toList =
      some ⟨.value ⟨("img" : Text).toList, none⟩ ("src" : Text).toList, s.frames, s.done⟩ := by
    rw [show ("<img src=" : Text).toList = .char '<' :: ("img src=" : Text).toList from rfl,
      run_cons, hs]
    rfl
  have halt (tag : OpenTag) : run g ⟨.attribute tag [], s.frames, s.done⟩ (" alt=" : Text).toList =
      some ⟨.value tag ("alt" : Text).toList, s.frames, s.done⟩ := rfl
  have hblank (tag : OpenTag) : run g ⟨.attribute tag [], s.frames, s.done⟩ (" " : Text).toList =
      some ⟨.attribute tag [], s.frames, s.done⟩ := rfl
  have hsource : ("src" : Text).toList ≠ g.dialect.classAttribute.toList :=
    fun he => hg.source (ext_toList he.symm)
  have hdescription : ("alt" : Text).toList ≠ g.dialect.classAttribute.toList :=
    fun he => hg.description (ext_toList he.symm)
  simp only [Dialect.picture, toList_append, List.append_assoc]
  rw [run_append_of_eq hopen, run_append_of_eq (h _ _ _ _ hsource), run_append_of_eq (halt _),
    run_append_of_eq (h' _ _ _ _ hdescription), run_append_of_eq (hblank _),
    run_append_of_eq (run_classOf hg hc _)]
  rfl

/-! ### Lines -/

/-- The characters of lines, each with its end. -/
def ended (lines : List Text) : List CodePoint := lines.flatMap fun line => line.toList ++ [.char '\n']

@[simp] lemma ended_nil : ended [] = [] := rfl

lemma ended_cons (line : Text) (rest : List Text) :
    ended (line :: rest) = line.toList ++ (('\n' : CodePoint) :: ended rest) := by
  simp [ended]

lemma ended_append (lines rest : List Text) : ended (lines ++ rest) = ended lines ++ ended rest :=
  List.flatMap_append

/-- Blanks and line ends. -/
def IsBlank (text : List CodePoint) : Prop := ∀ c ∈ text, c = ' ' ∨ c = '\n'

lemma isBlank_replicate (n : Nat) : IsBlank (List.replicate n (.char ' ')) :=
  fun _ hc => Or.inl (List.eq_of_mem_replicate hc)

lemma run_blank {text : List CodePoint} (h : IsBlank text) :
    run g ⟨.content, frames, done⟩ text = some ⟨.content, frames, done⟩ := by
  induction text with
  | nil => rfl
  | cons c rest ih =>
    obtain ⟨hc, hrest⟩ := List.forall_mem_cons.1 h
    have hstep : step g ⟨.content, frames, done⟩ c = some ⟨.content, frames, done⟩ := by
      rcases hc with rfl | rfl <;> cases g.hasScripts <;> simp [step, contentStep]
    rw [run_cons, hstep, Option.bind_some, ih hrest]

/-- A text without any character that has a meaning in code. -/
def IsCode (text : List CodePoint) : Prop :=
  ∀ c ∈ text, c ≠ '<' ∧ c ≠ '\x7b' ∧ c ≠ '\x7d' ∧ c ≠ apostrophe ∧ c ≠ '"' ∧ c ≠ '`' ∧ c ≠ '/'

instance : DecidablePred IsCode := fun text => inferInstanceAs (Decidable (∀ c ∈ text, _))

lemma IsCode.append {text more : List CodePoint} (h : IsCode text) (h' : IsCode more) :
    IsCode (text ++ more) :=
  List.forall_mem_append.2 ⟨h, h'⟩

lemma isCode_of_isBlank {text : List CodePoint} (h : IsBlank text) : IsCode text := by
  intro c hc
  rcases h c hc with rfl | rfl <;> decide

lemma run_code {text : List CodePoint} (h : IsCode text) {depth : Nat} {alternatives : Forest Text} :
    run g ⟨.script .code, .choice depth alternatives :: frames, done⟩ text =
      some ⟨.script .code, .choice depth alternatives :: frames, done⟩ := by
  induction text with
  | nil => rfl
  | cons c rest ih =>
    obtain ⟨⟨h1, h2, h3, h4, h5, h6, h7⟩, hrest⟩ := List.forall_mem_cons.1 h
    have hnext : Position.code.next c = some .code := by
      simp [Position.next, h4, h5, h6, h7]
    have hstep : step g ⟨.script .code, .choice depth alternatives :: frames, done⟩ c =
        some ⟨.script .code, .choice depth alternatives :: frames, done⟩ := by
      simp [step, codeStep, h1, h2, h3, hnext]
    rw [run_cons, hstep, Option.bind_some, ih hrest]

/-- A line at its depth, from a place inside an element. -/
lemma run_line {line : Text} {t : St} (depth : Nat) (more : List CodePoint)
    (h : run g ⟨.content, frames, done⟩ line.toList = some t) :
    run g ⟨.content, frames, done⟩ ((indented depth line).toList ++ more) = run g t more := by
  simp only [indented, toList_append, List.append_assoc]
  rw [run_append_of_eq (run_blank (isBlank_replicate _)), run_append_of_eq h]

/-- A line at its depth, from a place in the code of an expression. -/
lemma run_codeLine {line : Text} {t : St} (depth : Nat) (more : List CodePoint)
    {alternatives : Forest Text}
    (h : run g ⟨.script .code, .choice 0 alternatives :: frames, done⟩ line.toList = some t) :
    run g ⟨.script .code, .choice 0 alternatives :: frames, done⟩
      ((indented depth line).toList ++ more) = run g t more := by
  simp only [indented, toList_append, List.append_assoc]
  rw [run_append_of_eq (run_code (isCode_of_isBlank (isBlank_replicate _))), run_append_of_eq h]

lemma mode_add (h : IsPlain frames) (trees : Forest Text) :
    (add trees frames done).mode = .content ∧ IsPlain (add trees frames done).frames := by
  rcases frames with _ | ⟨_ | _, rest⟩
  · exact ⟨rfl, nofun⟩
  · exact ⟨rfl, nofun⟩
  · exact absurd rfl (h _ _ _)

lemma add_eq (h : IsPlain frames) (trees : Forest Text) :
    add trees frames done =
      ⟨.content, (add trees frames done).frames, (add trees frames done).done⟩ := by
  rw [← (mode_add h trees).1]

lemma add_nil (h : IsPlain frames) : add [] frames done = ⟨.content, frames, done⟩ := by
  rcases frames with _ | ⟨_ | _, rest⟩
  · simp [add]
  · simp [add]
  · exact absurd rfl (h _ _ _)

lemma add_add (h : IsPlain frames) (trees more : Forest Text) :
    add more (add trees frames done).frames (add trees frames done).done =
      add (trees ++ more) frames done := by
  rcases frames with _ | ⟨_ | _, rest⟩
  · simp [add]
  · simp [add]
  · exact absurd rfl (h _ _ _)

lemma run_lineEnd (h : IsPlain frames) (trees : Forest Text) (more : List CodePoint) :
    run g (add trees frames done) (.char '\n' :: more) = run g (add trees frames done) more := by
  have hstep : run g (add trees frames done) [.char '\n'] = some (add trees frames done) := by
    rw [add_eq h]
    exact run_blank fun c hc => Or.inr (List.mem_singleton.1 hc)
  exact run_append_of_eq hstep

/-! ### Tags -/

/-- What a tag shows can be read. -/
def IsReadable (g : Grammar) : Content → Prop
  | .box => True
  | .span text => IsInline g text
  | .picture source description => IsValue g source ∧ IsValue g description
  | .pictureIf source description => g.hasScripts = true ∧ IsCode source.toList ∧
      IsValue g (braced source) ∧ IsValue g description

/-- A tag whose class and content can be read. -/
structure Readable (g : Grammar) (tag : Tag) : Prop where
  cssClass : Unquoted tag.cssClass
  content : IsReadable g tag.content

lemma run_choice (hg : g.Proper) (hc : Unquoted cls) {source description : Text}
    (h : IsReadable g (.pictureIf source description)) (hf : IsPlain frames) (depth : Nat)
    (more : List CodePoint) :
    run g ⟨.content, frames, done⟩
      (ended ((g.dialect.leafLines ⟨cls, .pictureIf source description⟩).map (indented depth)) ++
        more) = run g (add [.node cls []] frames done) more := by
  obtain ⟨hscripts, hcode, hsource, hdescription⟩ := h
  have hopen : run g ⟨.content, frames, done⟩ ("\x7b" ++ source ++ " ? (" : Text).toList =
      some ⟨.script .code, .choice 0 [] :: frames, done⟩ := by
    have hbrace : run g ⟨.content, frames, done⟩ ("\x7b" : Text).toList =
        some ⟨.script .code, .choice 0 [] :: frames, done⟩ := by
      simp [step, contentStep, hscripts]
    simp only [toList_append, List.append_assoc]
    rw [run_append_of_eq hbrace, run_append_of_eq (run_code hcode), run_code (by decide)]
  -- Both alternatives have the class, so the expression stands for one element of it.
  have hpicture : run g ⟨.script .code, .choice 0 [] :: frames, done⟩
      ("  " ++ g.dialect.picture (braced source) description cls : Text).toList =
        some ⟨.script .code, .choice 0 [.node cls []] :: frames, done⟩ := by
    rw [toList_append, run_append_of_eq (run_code (by decide)),
      run_picture hg hc isOpen_code hsource hdescription]
    rfl
  have hbox : run g ⟨.script .code, .choice 0 [.node cls []] :: frames, done⟩
      ("  " ++ g.dialect.emptyBox cls : Text).toList =
        some ⟨.script .code, .choice 0 [.node cls [], .node cls []] :: frames, done⟩ := by
    rw [toList_append, run_append_of_eq (run_code (by decide)), run_emptyBox hg hc isOpen_code]
    rfl
  have helse : run g ⟨.script .code, .choice 0 [.node cls []] :: frames, done⟩
      (") : (" : Text).toList = some ⟨.script .code, .choice 0 [.node cls []] :: frames, done⟩ :=
    run_code (by decide)
  have hclose : run g ⟨.script .code, .choice 0 [.node cls [], .node cls []] :: frames, done⟩
      (")\x7d" : Text).toList = some (add [.node cls []] frames done) := by
    simp [step, codeStep, Position.next, areAlike, Tree.children, Tree.label, apostrophe]
  have hend (alternatives : Forest Text) (more : List CodePoint) :
      run g ⟨.script .code, .choice 0 alternatives :: frames, done⟩ (.char '\n' :: more) =
        run g ⟨.script .code, .choice 0 alternatives :: frames, done⟩ more :=
    run_append_of_eq (show run g _ [.char '\n'] = _ from run_code (by decide))
  simp only [Dialect.leafLines, List.map_cons, List.map_nil, ended_cons, ended_nil,
    List.append_assoc, List.cons_append, List.nil_append]
  rw [run_line depth _ hopen, hend, run_codeLine depth _ hpicture, hend,
    run_codeLine depth _ helse, hend, run_codeLine depth _ hbox, hend,
    run_codeLine depth _ hclose, run_lineEnd hf]

lemma run_leaf (hg : g.Proper) {tag : Tag} (ht : Readable g tag) (hf : IsPlain frames) (depth : Nat)
    (more : List CodePoint) :
    run g ⟨.content, frames, done⟩
      (ended ((g.dialect.leafLines tag).map (indented depth)) ++ more) =
        run g (add [.node tag.cssClass []] frames done) more := by
  have hline {line : Text} (h : run g ⟨.content, frames, done⟩ line.toList =
      some (add [.node tag.cssClass []] frames done)) :
      run g ⟨.content, frames, done⟩ (ended ([line].map (indented depth)) ++ more) =
        run g (add [.node tag.cssClass []] frames done) more := by
    simp only [List.map_cons, List.map_nil, ended_cons, ended_nil, List.append_assoc,
      List.cons_append, List.nil_append]
    rw [run_line depth _ h, run_lineEnd hf]
  obtain ⟨cls, content⟩ := tag
  obtain ⟨hc, hcontent⟩ := ht
  cases content with
  | box => exact hline (run_emptyBox hg hc isOpen_content)
  | span text => exact hline (run_span hg hc isOpen_content hcontent)
  | picture source description =>
    exact hline (run_picture hg hc isOpen_content hcontent.1 hcontent.2)
  | pictureIf source description => exact run_choice hg hc hcontent hf depth more

/-! ### Trees -/

mutual

/-- The lines of a tree of tags spell its tree of classes. -/
theorem run_treeLines (hg : g.Proper) (depth : Nat) (tree : Tree Tag)
    (ht : ∀ tag ∈ tree.preorder, Readable g tag) {frames : List Frame} (hf : IsPlain frames)
    (done : Forest Text) (more : List CodePoint) :
    run g ⟨.content, frames, done⟩ (ended (treeLines g.dialect depth tree) ++ more) =
      run g (add [tree.map Tag.cssClass] frames done) more := by
  match tree with
  | .node tag [] =>
    rw [treeLines, run_leaf hg (ht tag (by simp)) hf, Tree.map, Tree.mapAll]
  | .node tag (t :: ts) =>
    have hforest : ∀ tag ∈ Tree.preorderAll (t :: ts), Readable g tag := fun tag' htag =>
      ht tag' (by rw [Tree.preorder_node]; exact List.mem_cons_of_mem _ htag)
    have hcls := (ht tag (by simp)).cssClass
    have hlines : treeLines g.dialect depth (.node tag (t :: ts)) =
        indented depth (g.dialect.openBox tag.cssClass) ::
          (forestLines g.dialect (depth + 1) (t :: ts) ++ [indented depth "</div>"]) := by
      rw [treeLines, forestLines]
      rfl
    have hinside : IsPlain (.element ("div" : Text).toList tag.cssClass [] :: frames) := nofun
    have hend (more : List CodePoint) : run g
        ⟨.content, .element ("div" : Text).toList tag.cssClass [] :: frames, done⟩
        (.char '\n' :: more) = run g
          ⟨.content, .element ("div" : Text).toList tag.cssClass [] :: frames, done⟩ more :=
      run_append_of_eq (show run g _ [.char '\n'] = _ from run_blank (by simp [IsBlank]))
    rw [hlines, ended_cons, ended_append, ended_cons, ended_nil]
    simp only [List.append_assoc, List.cons_append, List.nil_append]
    rw [run_line depth _ (run_openBox hg hcls isOpen_content), hend,
      run_forestLines hg (depth + 1) (t :: ts) hforest hinside]
    exact (run_line depth _ run_closeBox).trans (run_lineEnd hf _ _)

/-- The lines of trees of tags side by side spell their trees of classes. -/
theorem run_forestLines (hg : g.Proper) (depth : Nat) (forest : Markup)
    (ht : ∀ tag ∈ Tree.preorderAll forest, Readable g tag) {frames : List Frame}
    (hf : IsPlain frames) (done : Forest Text) (more : List CodePoint) :
    run g ⟨.content, frames, done⟩ (ended (forestLines g.dialect depth forest) ++ more) =
      run g (add (Tree.mapAll Tag.cssClass forest) frames done) more := by
  match forest with
  | [] => rw [forestLines, ended_nil, List.nil_append, Tree.mapAll, add_nil hf]
  | t :: ts =>
    rw [Tree.preorderAll_cons, List.forall_mem_append] at ht
    have hplain : IsPlain (add [t.map Tag.cssClass] frames done).frames := (mode_add hf _).2
    rw [forestLines, ended_append, List.append_assoc, run_treeLines hg depth t ht.1 hf,
      add_eq hf, run_forestLines hg depth ts ht.2 hplain, add_add hf, Tree.mapAll]
    rfl

end

/-- Printed markup reads back as its classes. -/
theorem read_forestLines (hg : g.Proper) (depth : Nat) {forest : Markup}
    (ht : ∀ tag ∈ Tree.preorderAll forest, Readable g tag) :
    read g (ended (forestLines g.dialect depth forest)) =
      some (Tree.mapAll Tag.cssClass forest) := by
  have houter : IsPlain [] := nofun
  have h := run_forestLines hg depth forest ht houter [] []
  rw [List.append_nil] at h
  rw [read, h]
  simp [add]

end Reader

end Handoff.Render

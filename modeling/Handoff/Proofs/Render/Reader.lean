import Handoff.Proofs.Text.Ascii
import Handoff.Render.Markup

/-!
Reading markup back, as a one-pass scan.

The scan knows tags, attribute values between quotes and, in script markup, expressions between
braces with their string literals. An expression may hold elements: then it stands for one of them,
and they have to be alike. The scan collects the tree of the elements' classes and stops at anything
that is not properly nested.
-/

namespace Handoff.Render.Reader

open Text

/-- The markup that is read: its class attribute, and whether there are expressions in it. -/
structure Grammar where
  dialect : Dialect
  hasScripts : Bool

/-- Where an expression stands: in code, in a string literal, or after a backslash in one. -/
inductive Position where
  | code
  | literal
  | escaped

/-- A tag that is being read. -/
structure OpenTag where
  name : List CodePoint
  cssClass : Option (List CodePoint)

/-- Where the scan stands. -/
inductive Mode where
  | content
  | script (position : Position)
  | opening (name : List CodePoint)
  | closing (name : List CodePoint)
  | attribute (tag : OpenTag) (name : List CodePoint)
  | value (tag : OpenTag) (name : List CodePoint)
  | quoted (tag : OpenTag) (name value : List CodePoint)
  | braced (tag : OpenTag) (depth : Nat) (position : Position)
  | ending (tag : OpenTag)

/-- What the scan is inside of, with the trees finished there. -/
inductive Frame where
  | element (name : List CodePoint) (cssClass : Text) (inside : Forest Text)
  | choice (depth : Nat) (alternatives : Forest Text)

/-- The state of the scan: the innermost frame comes first. -/
structure St where
  mode : Mode
  frames : List Frame
  done : Forest Text

/-- Finished trees are added to the innermost frame. -/
def add (trees : Forest Text) (frames : List Frame) (done : Forest Text) : St :=
  match frames with
  | [] => ⟨.content, [], done ++ trees⟩
  | .element name cssClass inside :: rest =>
    ⟨.content, .element name cssClass (inside ++ trees) :: rest, done⟩
  | .choice depth alternatives :: rest =>
    ⟨.script .code, .choice depth (alternatives ++ trees) :: rest, done⟩

/-- The attribute of a tag. A second class attribute is refused. -/
def OpenTag.enter (g : Grammar) (tag : OpenTag) (name value : List CodePoint) : Option OpenTag :=
  if name = g.dialect.classAttribute.toList then
    if tag.cssClass.isSome then none else some { tag with cssClass := some value }
  else some tag

/-- Elements that can stand for each other: single ones of one class. -/
def areAlike : Forest Text → Bool
  | [] => true
  | first :: rest => first.children.isEmpty &&
      rest.all fun tree => tree.children.isEmpty && tree.label = first.label

/-- The next position in an expression. What begins another literal or a comment, and a line end
inside a literal, is refused. -/
def Position.next : Position → CodePoint → Option Position
  | code, c =>
    if c = apostrophe then some literal
    else if c = '"' ∨ c = '`' ∨ c = '/' then none
    else some code
  | literal, c =>
    if c = '\\' then some escaped
    else if c = apostrophe then some code
    else if c = '\n' ∨ c = '\r' then none
    else some literal
  | escaped, c => if c = '\n' ∨ c = '\r' then none else some literal

/-- A character of an element's content. -/
def contentStep (g : Grammar) (s : St) (c : CodePoint) : Option St :=
  if c = '<' then some { s with mode := .opening [] }
  else if g.hasScripts then
    if c = '{' then some ⟨.script .code, .choice 0 [] :: s.frames, s.done⟩
    else if c = '}' ∨ c = '>' then none
    else some s
  else some s

/-- A character of the code of an expression. -/
def codeStep (s : St) (c : CodePoint) : Option St :=
  if c = '<' then some { s with mode := .opening [] }
  else match s.frames with
    | .choice depth alternatives :: rest =>
      if c = '{' then some { s with frames := .choice (depth + 1) alternatives :: rest }
      else if c = '}' then
        match depth with
        | depth + 1 => some { s with frames := .choice depth alternatives :: rest }
        | 0 => if areAlike alternatives then some (add (alternatives.take 1) rest s.done) else none
      else (Position.code.next c).map fun p => { s with mode := .script p }
    | _ => none

/-- A character inside a tag, between attributes or in the name of one. -/
def attributeStep (s : St) (tag : OpenTag) (name : List CodePoint) (c : CodePoint) : Option St :=
  if c = '=' then some { s with mode := .value tag name }
  else if c = ' ' then if name = [] then some s else none
  else if c = '/' then if name = [] then some { s with mode := .ending tag } else none
  else if c = '>' then
    match name, tag.cssClass with
    | [], some cssClass => some ⟨.content, .element tag.name (ofList cssClass) [] :: s.frames, s.done⟩
    | _, _ => none
  else some { s with mode := .attribute tag (name ++ [c]) }

/-- A character of an attribute value between braces. -/
def bracedStep (s : St) (tag : OpenTag) (depth : Nat) (position : Position) (c : CodePoint) :
    Option St :=
  match position with
  | .code =>
    if c = '{' then some { s with mode := .braced tag (depth + 1) .code }
    else if c = '}' then
      match depth with
      | depth + 1 => some { s with mode := .braced tag depth .code }
      | 0 => some { s with mode := .attribute tag [] }
    else (Position.code.next c).map fun p => { s with mode := .braced tag depth p }
  | position => (position.next c).map fun p => { s with mode := .braced tag depth p }

/-- The end of an element: its name is that of the innermost frame. -/
def closeStep (s : St) (name : List CodePoint) : Option St :=
  match s.frames with
  | .element opened cssClass inside :: rest =>
    if opened = name then some (add [.node cssClass inside] rest s.done) else none
  | _ => none

/-- One character. -/
def step (g : Grammar) (s : St) (c : CodePoint) : Option St :=
  match s.mode with
  | .content => contentStep g s c
  | .script .code => codeStep s c
  | .script position => (position.next c).map fun p => { s with mode := .script p }
  | .opening name =>
    if c = '/' ∧ name = [] then some { s with mode := .closing [] }
    else if c = ' ' then some { s with mode := .attribute ⟨name, none⟩ [] }
    else if c = '>' ∨ c = '/' then none
    else some { s with mode := .opening (name ++ [c]) }
  | .closing name =>
    if c = '>' then closeStep s name else some { s with mode := .closing (name ++ [c]) }
  | .attribute tag name => attributeStep s tag name c
  | .value tag name =>
    if c = '"' then some { s with mode := .quoted tag name [] }
    else if c = '{' ∧ g.hasScripts = true ∧ name ≠ g.dialect.classAttribute.toList then
      some { s with mode := .braced tag 0 .code }
    else none
  | .quoted tag name value =>
    if c = '"' then (tag.enter g name value).map fun tag => { s with mode := .attribute tag [] }
    else some { s with mode := .quoted tag name (value ++ [c]) }
  | .braced tag depth position => bracedStep s tag depth position c
  | .ending tag =>
    match tag.cssClass with
    | some cssClass =>
      if c = '>' then some (add [.node (ofList cssClass) []] s.frames s.done) else none
    | none => none

/-- The scan of a text. -/
def run (g : Grammar) (s : St) (text : List CodePoint) : Option St := text.foldlM (step g) s

/-- The trees of classes that markup spells; nothing when it is not properly nested. -/
def read (g : Grammar) (text : List CodePoint) : Option (Forest Text) :=
  match run g ⟨.content, [], []⟩ text with
  | some ⟨.content, [], done⟩ => some done
  | _ => none

variable {g : Grammar} {s t : St} {frames : List Frame} {done : Forest Text}

@[simp] lemma run_nil : run g s [] = some s := rfl

@[simp] lemma run_cons (c : CodePoint) (text : List CodePoint) :
    run g s (c :: text) = (step g s c).bind fun t => run g t text := rfl

lemma run_append (text more : List CodePoint) :
    run g s (text ++ more) = (run g s text).bind fun t => run g t more := List.foldlM_append

lemma run_append_of_eq {text more : List CodePoint} (h : run g s text = some t) :
    run g s (text ++ more) = run g t more := by
  rw [run_append, h]
  rfl

/-- Elements are nested as their tags are; crossed tags are refused. -/
example : read ⟨⟨"class"⟩, false⟩
    ("<div class=\"a\"><img alt=\"<p>\" class=\"b\" /> <span class=\"c\">t</span></div>" : Text).toList =
      some [.node "a" [.node "b" [], .node "c" []]] ∧
    read ⟨⟨"class"⟩, false⟩
      ("<div class=\"a\"><span class=\"c\"></div></span>" : Text).toList = none := by
  exact ⟨rfl, rfl⟩

end Handoff.Render.Reader

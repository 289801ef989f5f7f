import Handoff.Config.Settings

/-!
References to variables inside values: a dollar sign, and between braces a name or a name, `:-` and
a default. A name is everything up to a closing brace or a colon. What has not this form stands for
itself.
-/

namespace Handoff.Config

/-- A piece of a value. -/
inductive Segment where
  | literal (c : CodePoint)
  | reference (name default : Text)

/-- The reference at the front, after its opening brace, and the text after it. -/
def referenceAt? (text : List CodePoint) : Option (Segment × List CodePoint) :=
  let name := text.takeWhile fun c : CodePoint => c != '\x7d' && c != ':'
  match text.drop name.length with
  | '\x7d' :: rest => some (.reference (Text.ofList name) "", rest)
  | ':' :: '-' :: rest =>
    let default := rest.takeWhile fun c : CodePoint => c != '\x7d'
    match rest.drop default.length with
    | [] => none
    | _ :: after => some (.reference (Text.ofList name) (Text.ofList default), after)
  | _ => none

/-- The pieces of a value, from left to right. Each takes at least one character. -/
def segments : Nat → List CodePoint → List Segment
  | 0, _ => []
  | _, [] => []
  | bound + 1, c :: rest =>
    match c, rest with
    | '$', '\x7b' :: inside =>
      match referenceAt? inside with
      | some (reference, after) => reference :: segments bound after
      | none => .literal c :: segments bound rest
    | _, _ => .literal c :: segments bound rest

/-- What a piece stands for. A variable without a value is empty. -/
def Segment.resolve (lookup : Text → Option (Option Text)) : Segment → Text
  | literal c => Text.ofList [c]
  | reference name default => ((lookup name).getD (some default)).getD ""

/-- A value with its references replaced. -/
def substitute (lookup : Text → Option (Option Text)) (text : Text) : Text :=
  Text.join ((segments text.length text.toList).map (Segment.resolve lookup))

/-- The bindings with their references replaced, one after the other: a name means what the
environment says, else what the bindings before say. -/
def substituteAll (env : Environment) (bindings : List (Text × Option Text)) :
    Table Text (Option Text) :=
  bindings.foldl (fun done binding =>
    let lookup (name : Text) : Option (Option Text) :=
      match env.lookup name with
      | some value => some (some value)
      | none => done.lookup name
    done.put binding.1 (binding.2.map (substitute lookup))) []

end Handoff.Config

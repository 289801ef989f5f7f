import Handoff.Config.Substitution
import Handoff.Files.Workspace
import Handoff.Journal
import Handoff.Text.Blank

/-!
Environment files: one `NAME=value` a line.

A line may start with `export`; comments start with `#`. A value in single or double quotes keeps
its blanks and may go over several lines; any other ends at a comment or at the end of the line. A
line that is not understood is passed over with a warning. Values may refer to other variables.
Names that the environment already has keep their values.
-/

namespace Handoff.Config

open Files

/-- Every end of a line becomes a line feed. -/
def unifyLineEnds : List Char → List Char
  | '\r' :: '\n' :: rest => '\n' :: unifyLineEnds rest
  | '\r' :: rest => '\n' :: unifyLineEnds rest
  | c :: rest => c :: unifyLineEnds rest
  | [] => []

/-- Blanks within a line. -/
def isInlineBlank (c : Char) : Bool := Text.isBlank c && c != '\n'

/-- The text after the blanks of the line. -/
def skipInline (text : List Char) : List Char := text.dropWhile isInlineBlank

/-- The text from the end of this line on. -/
def toLineEnd (text : List Char) : List Char := text.dropWhile fun c => c != '\n'

/-- A piece of a text with the text after it, or the text from where reading got stuck. -/
abbrev Reading := Except (List Char) (Text × List Char)

/-- The characters up to a closing quote and the text after it. A quote after a backslash closes
only if none of the later ones does. Escapes stay; `read` is what was read so far, reversed. -/
def quotedPart (quote : Char) (read : List Char) : List Char → Option (List Char × List Char)
  | [] => none
  | [c] => if c = quote then some (read.reverse, []) else none
  | c :: d :: rest =>
    if c = quote then some (read.reverse, d :: rest)
    else if c = '\\' && d = quote then
      match quotedPart quote (d :: c :: read) rest with
      | some part => some part
      | none => some ((c :: read).reverse, rest)
    else quotedPart quote (c :: read) (d :: rest)
termination_by text => text.length

/-- The character that an escape stands for in double quotes. -/
def doubleEscape? (c : Char) : Option Char :=
  if c = '\\' || c = Text.apostrophe || c = '"' then some c
  else if c = 'a' then some (Char.ofNat 7)
  else if c = 'b' then some (Char.ofNat 8)
  else if c = 'f' then some (Char.ofNat 12)
  else if c = 'n' then some '\n'
  else if c = 'r' then some '\r'
  else if c = 't' then some '\t'
  else if c = 'v' then some (Char.ofNat 11)
  else none

/-- The character that an escape stands for in single quotes. -/
def singleEscape? (c : Char) : Option Char :=
  if c = '\\' || c = Text.apostrophe then some c else none

/-- Replaces escapes by the characters they stand for. -/
def unescape (escape? : Char → Option Char) : List Char → List Char
  | '\\' :: c :: rest =>
    match escape? c with
    | some d => d :: unescape escape? rest
    | none => '\\' :: unescape escape? (c :: rest)
  | c :: rest => c :: unescape escape? rest
  | [] => []
termination_by text => text.length

/-- The part of an unquoted value before a comment, which starts after a blank. -/
def beforeComment (blank : Bool) : List Char → List Char
  | [] => []
  | c :: rest =>
    if c = '#' && blank then [] else c :: beforeComment (Text.isBlank c) rest

/-- The value after an equals sign. -/
def valueAt (text : List Char) : Reading :=
  match text with
  | [] => .ok ("", [])
  | c :: rest =>
    let quoted (escape? : Char → Option Char) : Reading :=
      match quotedPart c [] rest with
      | some (part, after) => .ok (Text.ofChars (unescape escape? part), after)
      | none => .error text
    if c = Text.apostrophe then quoted singleEscape?
    else if c = '"' then quoted doubleEscape?
    else
      let line := text.takeWhile fun c => c != '\n'
      .ok (Text.trim (Text.ofChars (beforeComment false line)), text.drop line.length)

/-- The text after the word `export` and a blank, if it starts so. -/
def skipExport (text : List Char) : List Char :=
  if "export".toList.isPrefixOf text then
    match text.drop 6 with
    | c :: rest => if isInlineBlank c then skipInline rest else text
    | [] => text
  else text

/-- The name at the front. -/
def nameAt (text : List Char) : Reading :=
  let isQuoted := text.head? = some Text.apostrophe
  let stops (c : Char) : Bool :=
    if isQuoted then c == Text.apostrophe else c == '=' || c == '#' || Text.isBlank c
  let start := if isQuoted then text.drop 1 else text
  let name := start.takeWhile fun c => !stops c
  let rest := start.drop name.length
  if name.isEmpty || (isQuoted && rest.isEmpty) then .error text
  else .ok (Text.ofChars name, if isQuoted then rest.drop 1 else rest)

/-- The text after the end of a binding: blanks, perhaps a comment, and the end of the line. -/
def afterBinding (text : List Char) : Except (List Char) (List Char) :=
  let rest := match skipInline text with
    | '#' :: comment => toLineEnd comment
    | _ => text
  match skipInline rest with
  | [] => .ok []
  | '\n' :: after => .ok after
  | _ => .error rest

/-- A statement of an environment file. -/
inductive Statement where
  | comment
  /-- A name with its value; a name without an equals sign has none. -/
  | binding (name : Text) (value : Option Text)
  /-- What is not understood, with the text from the end of the statement before it on. -/
  | unreadable (text : List Char)

/-- The statement at the front, after the blanks, and the text after its line. -/
def statementAt (text : List Char) : Except (List Char) (Statement × List Char) := do
  let text := skipExport text
  if text.head? = some '#' then return (.comment, ← afterBinding text)
  let (name, rest) ← nameAt text
  match skipInline rest with
  | '=' :: rest =>
    let (value, rest) ← valueAt (skipInline rest)
    return (.binding name (some value), ← afterBinding rest)
  | rest => return (.binding name none, ← afterBinding rest)

/-- The statements of a text in order. Every statement takes at least one character; one that is not
understood takes the rest of the line in which reading got stuck. -/
def statements : Nat → List Char → List Statement
  | 0, _ => []
  | bound + 1, text =>
    match text.dropWhile (fun c : Char => Text.isBlank c) with
    | [] => []
    | start =>
      match statementAt start with
      | .ok (statement, rest) => statement :: statements bound rest
      | .error stuck => .unreadable text :: statements bound ((toLineEnd stuck).drop 1)

/-- The bindings among statements, in order. -/
def bindingsOf (found : List Statement) : List (Text × Option Text) :=
  found.filterMap fun statement =>
    match statement with
    | .binding name value => some (name, value)
    | _ => none

/-- The number of the line in which the remaining text of a file starts. -/
def lineOf (whole remaining : List Char) : Nat :=
  whole.count '\n' - remaining.count '\n' + 1

/-- Warns of a statement that is not understood. -/
def warnOf (whole : List Char) : Statement → Logged Unit
  | .unreadable text =>
    Logged.log .warning ("Python-dotenv could not parse statement starting at line " ++
      toString (lineOf whole text))
  | _ => pure ()

/-- Whether a text holds the null character. -/
def hasNull (text : Text) : Bool := text.toList.any fun c => c.toNat = 0

/-- Adds a variable to the environment, unless it is there or has no value. -/
def addVariable (env : Environment) (name : Text) (value : Option Text) :
    Except Fault Environment :=
  match value with
  | none => .ok env
  | some value =>
    if (env.lookup name).isSome then .ok env
    else if hasNull name || hasNull value then .error .nullCharacter
    else if name.toList.contains '=' then .error .illegalName
    else .ok (env ++ [(name, value)])

/-- The environment together with the file `.env` in the current directory, if there is one. -/
def loadEnvironment (w : Workspace) (env : Environment) : Logged Environment := do
  let file := Path.parse ".env"
  if !w.isFile file then return env
  match String.fromUTF8? (← Logged.ofExcept (w.read file)) with
  | none => throw .undecodable
  | some text =>
    let text := unifyLineEnds text.toList
    let found := statements (text.length + 1) text
    found.forM (warnOf text)
    Logged.ofExcept ((substituteAll env (bindingsOf found)).foldlM
      (fun env binding => addVariable env binding.1 binding.2) env)

end Handoff.Config

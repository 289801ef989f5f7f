import Handoff.Config.Validation
import Handoff.Text.Digit

/-!
The options of the command line and how words are read as options.

A long option may be shortened to any front that no other option has, and a value may follow it
after an equals sign. One-letter options may be written together, the last of them with its value;
an equals sign after the first letter of a word is passed over, any other is part of the value.
-/

namespace Handoff.CommandLine

/-- A part of the output that can be asked for alone. -/
inductive Part where
  | tokens
  | components
  | assets
deriving DecidableEq

/-- An option of the command line. -/
inductive Choice where
  | help
  | only (part : Part)
  | verbose
  | config
  | fileKey
  | output
  | twig
  | version
deriving DecidableEq

namespace Choice

/-- The spellings of an option, in the order in which messages name them. -/
def spellings : Choice → List Text
  | help => ["-h", "--help"]
  | only .tokens => ["--tokens-only"]
  | only .components => ["--components-only"]
  | only .assets => ["--assets-only"]
  | verbose => ["--verbose", "-v"]
  | config => ["--config", "-c"]
  | fileKey => ["--file-key"]
  | output => ["--output"]
  | twig => ["--twig"]
  | version => ["--version"]

/-- All options in the order in which the help shows them. -/
def all : List Choice :=
  [help, only .tokens, only .components, only .assets, verbose, config, fileKey, output, twig,
   version]

/-- How messages name an option. -/
def name (choice : Choice) : Text := Text.intercalate "/" choice.spellings

/-- Whether an option needs a value. -/
def takesValue : Choice → Bool
  | config => true
  | fileKey => true
  | output => true
  | _ => false

/-- All spellings with their options, in order. -/
def table : List (Text × Choice) :=
  all.flatMap fun choice => choice.spellings.map fun spelling => (spelling, choice)

/-- The option of a spelling. -/
def ofSpelling? (word : Text) : Option Choice := table.lookup word

end Choice

/-- What is wrong with a command line. -/
inductive UsageError where
  | ambiguous (word : Text) (spellings : List Text)
  | valueMissing (choice : Choice)
  | valueRefused (choice : Choice) (value : Text)
  | excluded (part other : Part)
  | unrecognized (words : List Text)
deriving DecidableEq

/-- The wording of a usage error. -/
def UsageError.message : UsageError → Text
  | ambiguous word spellings =>
    "ambiguous option: " ++ word ++ " could match " ++ Text.intercalate ", " spellings
  | valueMissing choice => "argument " ++ choice.name ++ ": expected one argument"
  | valueRefused choice value =>
    "argument " ++ choice.name ++ ": ignored explicit argument " ++ Text.shown value
  | excluded part other =>
    "argument " ++ (Choice.only part).name ++ ": not allowed with argument " ++
      (Choice.only other).name
  | unrecognized words => "unrecognized arguments: " ++ Text.intercalate " " words

/-- A text written together with an option. -/
inductive Attached where
  | none
  /-- After a spelled-out option and an equals sign. -/
  | toName (text : List CodePoint)
  /-- After a one-letter option, with or without an equals sign between them. -/
  | toLetter (text : List CodePoint)

/-- A word of the command line. -/
inductive Word where
  /-- A word that is no option: a value, or of no use. -/
  | plain (text : Text)
  /-- Two hyphens; all words after them are plain. -/
  | separator
  | option (choice : Choice) (attached : Attached)
  /-- A word that looks like an option and is none. -/
  | unknown (text : Text)

/-- Whether all characters are decimal digits of some script, and there is one. -/
def isDigits (text : List CodePoint) : Bool :=
  !text.isEmpty && text.all fun c => (Text.decimalValue? c).isSome

/-- Whether a word is a negative number. A line feed at its end does no harm. -/
def isNegativeNumber (word : List CodePoint) : Bool :=
  match word with
  | '-' :: text =>
    let text := if text.getLast? = some '\n' then text.dropLast else text
    let whole := text.takeWhile fun c : CodePoint => c != '.'
    match text.drop whole.length with
    | [] => isDigits whole
    | _ :: fraction => (whole.isEmpty || isDigits whole) && isDigits fraction
  | _ => false

/-- A word that starts with a hyphen and is no option. -/
def nonOption (word : Text) : Word :=
  if isNegativeNumber word.toList || word.toList.contains ' ' then .plain word else .unknown word

/-- Whether an option is spelled out, with two hyphens. -/
def isSpelledOut (word : List CodePoint) : Bool := ("--" : Text).toList.isPrefixOf word

/-- What is attached to an option by an equals sign, if `rest` starts with one. -/
def equalsValue (front rest : List CodePoint) : Attached :=
  match rest with
  | [] => .none
  | _ :: value => if isSpelledOut front then .toName value else .toLetter value

/-- The options that a word may be short for, with what is attached to it. -/
def readings (word : List CodePoint) : List (Text × Word) :=
  if isSpelledOut word then
    let front := word.takeWhile fun c : CodePoint => c != '='
    let attached := equalsValue front (word.drop front.length)
    (Choice.table.filter fun entry => front.isPrefixOf entry.1.toList).map fun entry =>
      (entry.1, .option entry.2 attached)
  else
    (Choice.table.filter fun entry => entry.1.toList == word.take 2).map fun entry =>
      (entry.1, .option entry.2 (.toLetter (word.drop 2)))

/-- Reads a word that starts with a hyphen and goes on. -/
def readOption (word : Text) : Except UsageError Word :=
  let chars := word.toList
  let front := chars.takeWhile fun c : CodePoint => c != '='
  match Choice.ofSpelling? word, Choice.ofSpelling? (Text.ofList front) with
  | some choice, _ => .ok (.option choice .none)
  | none, some choice => .ok (.option choice (equalsValue front (chars.drop front.length)))
  | none, none =>
    match readings chars with
    | [] => .ok (nonOption word)
    | [(_, reading)] => .ok reading
    | several => .error (.ambiguous word (several.map (·.1)))

/-- Reads a word. -/
def readWord (word : Text) : Except UsageError Word :=
  match word.toList with
  | '-' :: _ :: _ => readOption word
  | _ => .ok (.plain word)

/-- Reads all words; after two hyphens they are plain. -/
def readWords : List Text → Except UsageError (List Word)
  | [] => .ok []
  | word :: rest =>
    if word = "--" then .ok (.separator :: rest.map .plain)
    else do return (← readWord word) :: (← readWords rest)

end Handoff.CommandLine

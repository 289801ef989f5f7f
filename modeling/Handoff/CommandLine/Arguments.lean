import Handoff.CommandLine.Options

/-!
Command lines: from words to the arguments of a run, or to one of the reasons to stop before it.

All words are read before any option counts, so an ambiguous option wins over everything else.
Then the options count from left to right, and the first that stops the program or is misused
decides; words that nothing takes are only reported at the end.
-/

namespace Handoff.CommandLine

/-- The arguments of a run. There is no configuration path when its value was left out. -/
structure Arguments where
  only : Option Part
  verbose : Bool
  config : Option Text
  fileKey : Option Text
  output : Option Text
  twig : Bool

/-- Why no run takes place. -/
inductive Stop where
  | help
  | version
  | misuse (error : UsageError)

namespace Arguments

/-- The arguments of an empty command line. -/
def standard : Arguments := ⟨none, false, some Config.defaultPath, none, none, false⟩

/-- The effect of an option; `value` is what an option that takes a value has got. -/
def choose (arguments : Arguments) (choice : Choice) (value : Option Text) :
    Except Stop Arguments :=
  match choice with
  | .help => .error .help
  | .version => .error .version
  | .only part =>
    match arguments.only with
    | some other =>
      if part = other then .ok arguments else .error (.misuse (.excluded part other))
    | none => .ok { arguments with only := some part }
  | .verbose => .ok { arguments with verbose := true }
  | .config => .ok { arguments with config := value }
  | .fileKey => .ok { arguments with fileKey := value }
  | .output => .ok { arguments with output := value }
  | .twig => .ok { arguments with twig := true }

/-- The effects of options without values, in order. -/
def chooseAll (arguments : Arguments) (choices : List Choice) : Except Stop Arguments :=
  choices.foldlM (fun arguments choice => arguments.choose choice none) arguments

end Arguments

/-- How a group of options in one word ends. -/
inductive Ending where
  /-- With an option that has nothing attached. -/
  | bare (choice : Choice)
  /-- With an option and its value. -/
  | value (choice : Choice) (text : Text)

/-- The options before the last one of a word, and the last one. -/
abbrev Group := List Choice × Ending

/-- The value that a text attached to an option gives it: two hyphens give it none. -/
def attachedValue (text : Text) : Option Text := if text = "--" then none else some text

/-- What is attached to a spelled-out option is its value. -/
def afterName (choice : Choice) (text : List CodePoint) : Except UsageError Group :=
  if choice.takesValue then .ok ([], .value choice (Text.ofList text))
  else .error (.valueRefused choice (Text.ofList text))

/-- What is attached to a one-letter option is its value, or more one-letter options. -/
def afterLetter (choice : Choice) (text : List CodePoint) : Except UsageError Group :=
  if choice.takesValue then .ok ([], .value choice (Text.ofList text))
  else
    match text with
    | [] => .error (.valueRefused choice "")
    | letter :: rest =>
      match Choice.ofSpelling? (Text.ofList ['-', letter]) with
      | none => .error (.valueRefused choice (Text.ofList text))
      | some next =>
        if rest.isEmpty then .ok ([choice], .bare next)
        else do
          let (choices, ending) ← afterLetter next rest
          return (choice :: choices, ending)

/-- The options of one word. -/
def groupOf (choice : Choice) : Attached → Except UsageError Group
  | .none => .ok ([], .bare choice)
  | .toName text => afterName choice text
  | .toLetter text => afterLetter choice text

/-- Goes through the words. `extra` are the words so far that nothing takes. -/
def follow (arguments : Arguments) (extra : List Text) :
    List Word → Except Stop (Arguments × List Text)
  | [] => .ok (arguments, extra)
  | .plain text :: rest => follow arguments (extra ++ [text]) rest
  | .separator :: rest => follow arguments (extra ++ [("--" : Text)]) rest
  | .unknown text :: rest => follow arguments (extra ++ [text]) rest
  | .option choice attached :: rest => do
    let (choices, ending) ← (groupOf choice attached).mapError .misuse
    match ending with
    | .value last text =>
      let arguments ← arguments.chooseAll choices
      follow (← arguments.choose last (attachedValue text)) extra rest
    | .bare last =>
      if last.takesValue then
        match rest with
        | .plain text :: rest =>
          let arguments ← arguments.chooseAll choices
          follow (← arguments.choose last (some text)) extra rest
        | _ => throw (.misuse (.valueMissing last))
      else
        let arguments ← arguments.chooseAll choices
        follow (← arguments.choose last none) extra rest

/-- Reads a command line. -/
def parse (words : List Text) : Except Stop Arguments := do
  let (arguments, extra) ←
    follow .standard [] (← (readWords words).mapError .misuse)
  if extra.isEmpty then return arguments
  else throw (.misuse (.unrecognized extra))

end Handoff.CommandLine

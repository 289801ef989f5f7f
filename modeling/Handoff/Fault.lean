import Handoff.Data.Json.Flaw
import Handoff.Text.Literal
import Handoff.Text.Utf8

/-!
What can go wrong, by cause, and the wording of each cause.

Faults of malformed design data (`noSuchField`, `wrongType`, `missingKey`, …) arise where a value
is used, not where it is read: a field that nothing looks at may hold anything.
-/

namespace Handoff

/-- How a request fails without an answer. -/
inductive TransportFailure where
  | connection
  | timeout
  | request
  | refusedArgument
  | system
deriving DecidableEq

/-- How an operation on a file fails. -/
inductive FileTrouble where
  | missing
  | alreadyExists
  | notADirectory
  | isADirectory
  | nameTooLong
deriving DecidableEq

/-- The causes of failure. -/
inductive Fault where
  /-- A value was asked for a field or a text operation that it does not have. -/
  | noSuchField
  /-- A value of this type cannot be computed with, iterated or used as a key. -/
  | wrongType
  /-- A table has no entry for a key. -/
  | missingKey
  /-- The first character of an empty text was asked for. -/
  | emptyText
  /-- A text was used as a number and is none. -/
  | notNumeric (text : Text)
  | nanToInteger
  | infinityToInteger
  | integerTooLarge
  /-- An integer to be read has more digits than can be converted. -/
  | tooManyDigits (count : Nat)
  /-- An integer to be written has more digits than can be converted. -/
  | integerTooLong
  /-- A text or a list was to be repeated more often than can be counted. -/
  | countTooLarge
  /-- A text was to be repeated beyond the greatest length. -/
  | textTooLong
  | outOfMemory
  /-- Lists and records are nested too deeply to be read. -/
  | tooDeep
  /-- A list was to be cut into pieces of no length. -/
  | zeroStep
  /-- An element of a list of pairs has another length than two. -/
  | notAPair (index length : Nat)
  /-- The answer to the file request holds no document. -/
  | noDocument
  /-- The image service refused an export. -/
  | exportRefused (reason : Text)
  | noToken
  | noFileKey
  /-- The configuration file is not JSON text. -/
  | malformedConfig (found : Json.FlawAt)
  /-- A file that should be text is not. -/
  | undecodable
  /-- The body of an answer is not JSON text. -/
  | malformedAnswer (found : Json.FlawAt)
  | transport (failure : TransportFailure) (message : Text)
  /-- The service answered with an error status. -/
  | badStatus (status : Int) (reason url : Text)
  | file (trouble : FileTrouble) (path : Text)
  /-- A text to be written, or a path, holds surrogates. -/
  | unencodable (found : Text.SurrogateRun)
  /-- A path, or a variable of the environment, holds the null character. -/
  | nullCharacter
  /-- The name of a variable of the environment holds an equals sign. -/
  | illegalName
deriving DecidableEq

namespace FileTrouble

/-- The system's number and wording. -/
def message : FileTrouble → Text
  | missing => "[Errno 2] No such file or directory"
  | alreadyExists => "[Errno 17] File exists"
  | notADirectory => "[Errno 20] Not a directory"
  | isADirectory => "[Errno 21] Is a directory"
  | nameTooLong => "[Errno 36] File name too long"

end FileTrouble

namespace Fault

/-- The greatest number of digits of an integer that is read or written. -/
def mostDigits : Nat := 4300

/-- The wording of a number of digits beyond the greatest; `detail` says more. -/
def digitsMessage (detail : Text) : Text :=
  "Exceeds the limit (" ++ toString mostDigits ++ " digits) for integer string conversion" ++
    detail ++ "; use sys.set_int_max_str_digits() to increase the limit"

/-- The wording of surrogates in a text that is to be encoded. -/
def surrogatesMessage (found : Text.SurrogateRun) : Text :=
  "'utf-8' codec can't encode " ++
    (if found.count = 1 then
      "character '" ++ Text.ofChars (Text.numberedEscape (CodePoint.surrogate found.first).toNat) ++
        "' in position " ++ toString found.offset
    else
      "characters in position " ++ toString found.offset ++ "-" ++
        toString (found.offset + found.count - 1)) ++
    ": surrogates not allowed"

/-- The wording of a fault, as it is logged and printed. -/
def message : Fault → Text
  | noSuchField => "the value has no such field"
  | wrongType => "the value has the wrong type"
  | missingKey => "the table has no such key"
  | emptyText => "string index out of range"
  | notNumeric text => "could not convert string to float: " ++ Text.shown text
  | nanToInteger => "cannot convert float NaN to integer"
  | infinityToInteger => "cannot convert float infinity to integer"
  | integerTooLarge => "int too large to convert to float"
  | tooManyDigits count => digitsMessage (": value has " ++ toString count ++ " digits")
  | integerTooLong => digitsMessage ""
  | countTooLarge => "cannot fit 'int' into an index-sized integer"
  | textTooLong => "repeated string is too long"
  | outOfMemory => "out of memory"
  | tooDeep => "maximum recursion depth exceeded"
  | zeroStep => "range() arg 3 must not be zero"
  | notAPair index length =>
    "dictionary update sequence element #" ++ toString index ++ " has length " ++
      toString length ++ "; 2 is required"
  | noDocument => "Figma file response has no 'document' node."
  | exportRefused reason => "Figma image export error: " ++ reason
  | noToken =>
    "FIGMA_TOKEN 未設定：請寫入 .env，或在 figma-codegen.config.json 的 figma.personalAccessToken 設定。"
  | noFileKey =>
    "FIGMA_FILE_KEY 未設定：請使用 --file-key、寫入 .env，或在 config 的 figma.fileKey 設定。"
  | malformedConfig found => found.message
  | undecodable => "the file is not UTF-8 text"
  | malformedAnswer found => found.message
  | transport _ message => message
  | badStatus status reason url =>
    toString status ++ (if status < 500 then " Client Error: " else " Server Error: ") ++ reason ++
      " for url: " ++ url
  | file trouble path => trouble.message ++ ": " ++ Text.shown path
  | unencodable found => surrogatesMessage found
  | nullCharacter => "embedded null byte"
  | illegalName => "illegal environment variable name"

/-- Whether a request or its answer failed: no answer, an error status, or an unreadable body. -/
def ofRequest : Fault → Bool
  | transport .connection _ => true
  | transport .timeout _ => true
  | transport .request _ => true
  | badStatus .. => true
  | malformedAnswer _ => true
  | _ => false

/-- Whether a value was of the right type and still unusable. -/
def ofContent : Fault → Bool
  | transport .refusedArgument _ => true
  | notNumeric _ => true
  | nanToInteger => true
  | tooManyDigits _ => true
  | integerTooLong => true
  | zeroStep => true
  | notAPair .. => true
  | noDocument => true
  | exportRefused _ => true
  | noToken => true
  | noFileKey => true
  | malformedConfig _ => true
  | undecodable => true
  | malformedAnswer _ => true
  | unencodable _ => true
  | nullCharacter => true
  | illegalName => true
  | _ => false

/-- Whether the system refused an operation; every failed request counts. -/
def ofSystem : Fault → Bool
  | transport .system _ => true
  | file .. => true
  | fault => fault.ofRequest

end Fault

end Handoff

import Handoff.Data.Table
import Handoff.Text.Basic

/-!
Design tokens: named values in four groups, in the order in which they were found.
-/

namespace Handoff.Token

/-- The groups of tokens. -/
inductive Group where
  | colors
  | typography
  | spacing
  | other
deriving DecidableEq

/-- The tokens of a design. -/
structure Tokens where
  colors : Table Text Text
  typography : Table Text Text
  spacing : Table Text Text
  other : Table Text Text

namespace Group

/-- The groups in the order in which they are written. -/
def all : List Group := [colors, typography, spacing, other]

/-- The heading of a group. -/
def label : Group → Text
  | colors => "Colors"
  | typography => "Typography"
  | spacing => "Spacing"
  | other => "Other"

end Group

namespace Tokens

/-- No tokens. -/
def empty : Tokens := ⟨[], [], [], []⟩

/-- The tokens of one group. -/
def group (tokens : Tokens) : Group → Table Text Text
  | .colors => tokens.colors
  | .typography => tokens.typography
  | .spacing => tokens.spacing
  | .other => tokens.other

/-- Enters a token; a name that is already in the group takes the new value. -/
def put (tokens : Tokens) (group : Group) (name value : Text) : Tokens :=
  match group with
  | .colors => { tokens with colors := tokens.colors.put name value }
  | .typography => { tokens with typography := tokens.typography.put name value }
  | .spacing => { tokens with spacing := tokens.spacing.put name value }
  | .other => { tokens with other := tokens.other.put name value }

/-- The number of tokens in all groups. -/
def count (tokens : Tokens) : Nat :=
  tokens.colors.length + tokens.typography.length + tokens.spacing.length + tokens.other.length

/-- Whether there is no token. -/
def isEmpty (tokens : Tokens) : Bool := Group.all.all fun group => (tokens.group group).isEmpty

end Tokens

end Handoff.Token

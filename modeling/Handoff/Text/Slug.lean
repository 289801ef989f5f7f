import Handoff.Text.Blank
import Handoff.Text.LowerCase

/-!
Slugs: texts over `a`–`z`, `0`–`9`, hyphen and underscore.

The slug of a label is its lower case with every run of blanks as one hyphen, without all other
characters.
-/

namespace Handoff.Text

/-- The characters of a slug. -/
def isSlugChar (c : CodePoint) : Bool :=
  ('a' ≤ c && c ≤ 'z') || ('0' ≤ c && c ≤ '9') || c == '-' || c == '_'

/-- The slug of a label. -/
def slug (label : Text) : Text :=
  Text.ofList ((hyphenate (lowerFrom [] label.toList)).filter isSlugChar)

/-- A slug with an `a`–`z` or other slug character in every place. -/
def IsSlug (text : Text) : Prop := ∀ c ∈ text.toList, isSlugChar c = true

theorem isSlug_slug (label : Text) : IsSlug (slug label) := by
  intro c hc
  simp only [slug] at hc
  exact (List.mem_filter.1 hc).2

end Handoff.Text

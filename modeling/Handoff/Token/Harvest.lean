import Handoff.Design.Style
import Handoff.Token.Group

/-!
Tokens from the layers themselves: the colours, text sizes and font families that a design uses,
each once, in the order of first appearance.
-/

namespace Handoff.Token

open Design

/-- What one layer contributes. -/
structure Traits where
  color : Option Text
  fontSize : Option Text
  fontFamily : Option Value

/-- The traits of a layer. -/
def traitsOf (layer : Layer) : Except Fault Traits := do
  let get := layer.typography.get
  let color ← layer.solidFill?
  let size := get "fontSize"
  let fontSize ← if size.truthy then some <$> measure size else pure none
  let family := get "fontFamily"
  return { color, fontSize, fontFamily := if family.truthy then some family else none }

/-- Numbers a list from 1. -/
def numberedFrom1 {α : Type} (items : List α) : List (Nat × α) :=
  items.zipIdx.map fun item => (item.2 + 1, item.1)

/-- The distinct font families: values that are one key are one family, shown as first seen. -/
def distinctFamilies (families : List Value) : Except Fault (List Value) := do
  let keyed ← families.mapM fun family => do return (← family.key, family)
  let table : Table Key Value := keyed.foldl
    (fun table entry => if (table.lookup entry.1).isSome then table else table ++ [entry]) []
  return table.map (·.2)

/-- The tokens of the layers of a design. -/
def harvest (layers : List Layer) : Except Fault Tokens := do
  let traits ← layers.mapM traitsOf
  let colors := distinct (traits.filterMap Traits.color)
  let sizes := distinct (traits.filterMap Traits.fontSize)
  let families ← distinctFamilies (traits.filterMap Traits.fontFamily)
  let sizeTokens : Table Text Text := sizes.map fun size => ("font-size-" ++ size, size ++ "px")
  let familyTokens : Table Text Text := (numberedFrom1 families).map fun family =>
    ("font-family-" ++ toString family.1, "\"" ++ family.2.display ++ "\"")
  return {
    colors := Table.ofEntries ((numberedFrom1 colors).map fun color =>
      ("color-" ++ toString color.1, color.2))
    typography := Table.ofEntries (sizeTokens ++ familyTokens)
    spacing := []
    other := [] }

end Handoff.Token

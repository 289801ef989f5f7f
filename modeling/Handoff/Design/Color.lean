import Handoff.Design.Measure

/-!
Colours: channels between 0 and 1 become whole numbers up to 255. The opacity of the paint is
multiplied in, and a colour that is not opaque is written with it.
-/

namespace Handoff.Design

/-- A channel as a whole number: 255 times the value, rounded. -/
def channel (fields : Fields) (name : Text) : Except Fault Int := do
  let value := (fields.lookup name).getD (.int 0)
  (← (← value.number).mul (.int 255)).round

/-- A colour record under an opacity as a style sheet colour; nothing for an absent colour. -/
def cssColor? (color opacity : Value) : Except Fault (Option Text) := do
  if !color.truthy then return none
  let fields ← color.fields
  let r ← channel fields "r"
  let g ← channel fields "g"
  let b ← channel fields "b"
  let alpha := (fields.lookup ("a" : Text)).getD (.int 1)
  let a ← alpha.times opacity
  let channels := (← integerText r) ++ ", " ++ (← integerText g) ++ ", " ++ (← integerText b)
  if a.ltInt 1 then
    return some ("rgba(" ++ channels ++ ", " ++ (← measureOfDouble (← a.toBinary64)) ++ ")")
  else return some ("rgb(" ++ channels ++ ")")

/-- A colour record by itself, under full opacity. -/
def opaqueColor? (color : Value) : Except Fault (Option Text) :=
  cssColor? color (.double (.finite 1))

end Handoff.Design

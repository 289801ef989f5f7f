import Handoff.Design.Role
import Handoff.Design.Style
import Handoff.Text.LowerCase

/-!
Annotated components: the part of a design that becomes code, with roles, classes and styles.

The elements of a component are its root image, if the root is itself an asset, and the layers
below the root in preorder. Its texts and its assets are read off the elements, so the generated
files cannot disagree about them.
-/

namespace Handoff

open Design

/-- One element of a component. -/
structure Element where
  layer : Layer
  key : Key
  role : Role
  elementClass : Text
  style : Style
  /-- The number of the text property that holds a text element's characters, from 1. -/
  slot : Option Nat

/-- A component with everything that the generated files need. -/
structure Component where
  name : Text
  source : Layer
  style : Style
  rootImage : Option Element
  body : Forest Element

/-- The class of the component of a given name. -/
def componentClass (name : Text) : Text := Text.lower name

/-- The name of a text property. -/
def slotName (slot : Nat) : Text := "text" ++ toString slot

namespace Element

/-- The class of an element inside a component. -/
def cssClass (component : Text) (element : Element) : Text :=
  componentClass component ++ "__" ++ element.elementClass

/-- Whether the element is a picture. -/
def isAsset (element : Element) : Bool := element.role.isAsset

end Element

namespace Component

/-- The trees directly inside the component: the root image and the annotated children. -/
def forest (component : Component) : Forest Element :=
  match component.rootImage with
  | some image => .node image [] :: component.body
  | none => component.body

/-- All elements, in preorder. -/
def elements (component : Component) : List Element := Tree.preorderAll component.forest

/-- The class of the component. -/
def cssClass (component : Component) : Text := componentClass component.name

/-- The characters of the text elements, in order. -/
def texts (component : Component) : List Value :=
  component.elements.filterMap fun e => if e.slot.isSome then some e.layer.characters else none

/-- The text properties with their characters, in order. -/
def textProps (component : Component) : List (Text × Value) :=
  component.texts.zipIdx.map fun t => (slotName (t.2 + 1), t.1)

/-- The elements that are pictures, in order. -/
def assets (component : Component) : List Element := component.elements.filter Element.isAsset

/-- Whether there is any picture. -/
def hasAssets (component : Component) : Bool := !component.assets.isEmpty

/-- The first picture, whose source and description are properties of the component. -/
def primary? (component : Component) : Option Element := component.assets.head?

end Component

end Handoff

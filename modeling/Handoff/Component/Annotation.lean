import Handoff.Component.Annotated
import Handoff.Naming.Element

/-!
Annotating a component: one walk from the top that decides roles, gives classes in preorder and
numbers the texts.

Decorations are left out with everything below them, and only containers are entered.
-/

namespace Handoff

open Design Naming

/-- What the walk carries along: the roles decided so far, the classes given and the number of
texts. -/
structure Draft where
  roles : RoleMemo
  names : ElementNames
  texts : Nat

/-- A step of the walk. -/
abbrev Annotating (α : Type) := StateT Draft (Except Fault) α

namespace Annotating

/-- The role of a layer, remembered for its id. -/
def role (tree : LayerTree) : Annotating Role := fun draft => do
  let (role, roles) ← draft.roles.role tree
  return (role, { draft with roles })

/-- The class for a label. -/
def elementClass (rules : Rules) (label : Value) : Annotating Text := fun draft => do
  let (name, names) ← draft.names.resolve rules label
  return (name, { draft with names })

/-- The number of a text element; other elements have none. -/
def slot (role : Role) : Annotating (Option Nat) := fun draft =>
  if role = .text then .ok (some (draft.texts + 1), { draft with texts := draft.texts + 1 })
  else .ok (none, draft)

/-- The element for a layer that appears. -/
def element (rules : Rules) (axis : Option Axis) (role : Role) (layer : Layer) :
    Annotating Element := do
  let elementClass ← elementClass rules layer.name
  let slot ← slot role
  let style ← styleOf layer (.child axis role.isAsset)
  let key ← layer.id.key
  return { layer, key, role, elementClass, style, slot }

mutual

/-- The annotated tree of a layer inside a container with the given axis; nothing for a
decoration. -/
def tree (rules : Rules) (axis : Option Axis) : LayerTree → Annotating (Option (Tree Element))
  | .node layer children => do
    let role ← role (.node layer children)
    if role = .decoration then return none
    let element ← element rules axis role layer
    if role = .container then
      return some (.node element (← forest rules layer.axis? children))
    else return some (.node element [])

/-- The annotated trees of layers side by side. -/
def forest (rules : Rules) (axis : Option Axis) : Forest Layer → Annotating (Forest Element)
  | [] => return []
  | t :: ts => do
    match ← tree rules axis t with
    | some annotated => return annotated :: (← forest rules axis ts)
    | none => forest rules axis ts

end

/-- The style of a root image: it fills the component. -/
def rootImageStyle : Style where
  flexBox := none
  gap := .null
  padding := none
  width := some .full
  height := some .full
  flexGrow := false
  backgroundColor := none
  borderRadius := .null
  text := none

/-- The root of a component that is itself an asset appears as a picture inside it. -/
def rootImage (rules : Rules) (role : Role) (layer : Layer) : Annotating (Option Element) := do
  if role.isAsset then
    let elementClass ← elementClass rules (.text "image")
    let key ← layer.id.key
    return some { layer, key, role, elementClass, style := rootImageStyle, slot := none }
  else return none

/-- The component with the given root and name. -/
def component (rules : Rules) (root : LayerTree) (name : Text) : Annotating Component := do
  let role ← role root
  let layer := root.label
  let rootImage ← rootImage rules role layer
  let body ← forest rules layer.axis? root.children
  let rootText ← firstTextStyle? root.preorder
  let style ← styleOf layer (.root rootText)
  return { name, source := layer, style, rootImage, body }

end Annotating

/-- Annotates a component, starting from the roles decided for earlier ones. -/
def annotate (rules : Rules) (roles : RoleMemo) (root : LayerTree) (name : Text) :
    Except Fault (Component × RoleMemo) := do
  let (component, draft) ← (Annotating.component rules root name).run ⟨roles, .empty, 0⟩
  return (component, draft.roles)

end Handoff

import Handoff.Proofs.Component.Classes
import Handoff.Proofs.Component.Elements
import Handoff.Proofs.Component.Roles

/-!
The elements of a component, read off its layers.

The walk carries the classes, the number of texts and the roles along and decides about a layer before it
enters it. What it leaves can be said without it: the layers that appear are a list, in preorder, and the
elements, their classes, the text properties and the pictures are read off that list.
-/

namespace Handoff

open Design Naming

/-! ### The layers that appear -/

namespace Design

mutual

/-- The inner trees that appear in the tree of a layer: none in a decoration, and only in a container those
below. -/
def keptTree : LayerTree → Except Fault (List LayerTree)
  | .node layer children => do
    let role ← roleOf (.node layer children)
    if role = .decoration then return []
    else if role = .container then return .node layer children :: (← keptForest children)
    else return [.node layer children]

/-- The inner trees that appear in trees side by side, in preorder. -/
def keptForest : Forest Layer → Except Fault (List LayerTree)
  | [] => return []
  | t :: ts => return (← keptTree t) ++ (← keptForest ts)

end

/-- Whether a layer has a role of a kind. -/
def hasRole (kind : Role → Bool) (tree : LayerTree) : Bool := (roleOf tree).toOption.any kind

end Design

/-- The classes for labels, given one after the other. -/
def Naming.ElementNames.resolveAll (rules : Rules) (names : ElementNames) :
    List Value → Except Fault (List Text × ElementNames)
  | [] => .ok ([], names)
  | label :: rest => do
    let (name, names) ← names.resolve rules label
    let (others, names) ← names.resolveAll rules rest
    return (name :: others, names)

lemma Naming.ElementNames.resolveAll_append {rules : Rules} {names names' names'' : ElementNames}
    {labels more : List Value} {given others : List Text}
    (h : names.resolveAll rules labels = .ok (given, names'))
    (h' : names'.resolveAll rules more = .ok (others, names'')) :
    names.resolveAll rules (labels ++ more) = .ok (given ++ others, names'') := by
  induction labels generalizing names given with
  | nil =>
    cases h
    exact h'
  | cons label rest ih =>
    obtain ⟨⟨name, u⟩, hname, h⟩ := bind_eq_ok.1 h
    obtain ⟨⟨found, v⟩, hfound, h⟩ := bind_eq_ok.1 h
    cases h
    rw [List.cons_append, resolveAll, hname, ok_bind]
    simp only [ih hfound, ok_bind]
    rfl

/-! ### What the walk leaves -/

/-- The element stands for the layer on top of the tree and has its role. -/
structure Element.Depicts (tree : LayerTree) (e : Element) : Prop where
  layer : e.layer = tree.label
  role : roleOf tree = .ok e.role

namespace Annotating

variable {root : LayerTree} {rules : Rules} {axis : Option Axis} {d d' d'' : Draft}
  {kept others : List LayerTree} {elements more : List Element}

/-- Between two drafts the layers got the elements, with the classes that their names have one after the
other, and the memo still reads from the design. -/
structure Laid (root : LayerTree) (rules : Rules) (d d' : Draft) (kept : List LayerTree)
    (elements : List Element) : Prop where
  depicts : List.Forall₂ Element.Depicts kept elements
  classes : d.names.resolveAll rules (kept.map fun t => t.label.name) =
    .ok (elements.map Element.elementClass, d'.names)
  reads : d'.roles.ReadsFrom root

lemma Laid.append (h : Laid root rules d d' kept elements) (h' : Laid root rules d' d'' others more) :
    Laid root rules d d'' (kept ++ others) (elements ++ more) where
  depicts := List.rel_append h.depicts h'.depicts
  classes := by
    rw [List.map_append, List.map_append]
    exact ElementNames.resolveAll_append h.classes h'.classes
  reads := h'.reads

end Annotating

/-! ### The component -/

/-- The text properties that hold characters, numbered from 1. -/
def numbered (characters : List Value) : List (Text × Value) :=
  characters.zipIdx.map fun t => (slotName (t.2 + 1), t.1)

/-- A component is what its layers say: the elements stand for the layers shown, in order and with their own
roles; the classes are those of the labels; the texts and the pictures are those of the layers with such a
role, and the text elements are numbered in order. -/
structure Component.Shows (rules : Rules) (shown : List LayerTree) (labels : List Value)
    (component : Component) : Prop where
  elements : List.Forall₂ Element.Depicts shown component.elements
  classes : ∃ names,
    ElementNames.empty.resolveAll rules labels = .ok (component.elements.map Element.elementClass, names)
  textProps : component.textProps =
    numbered ((shown.filter (hasRole (· = .text))).map fun t => t.label.characters)
  slots : component.textElements.map Element.slot =
    (List.range' 1 component.textElements.length).map some
  assets : component.assets.map (fun e => e.layer.id) =
    (shown.filter (hasRole Role.isAsset)).map fun t => t.label.id

variable {root tree : LayerTree} {rules : Rules} {memo memo' : RoleMemo} {name : Text}
  {component : Component}

end Handoff

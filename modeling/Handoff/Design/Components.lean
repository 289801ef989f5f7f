import Handoff.Design.Layer

/-!
The components of a design: all layers of a component type, in preorder, each id once.
-/

namespace Handoff.Design

/-- The components among layer trees, in preorder, each id once. `seen` are the ids so far. -/
def componentsAmong (seen : List Key) : List LayerTree → Except Fault (List LayerTree)
  | [] => .ok []
  | tree :: rest => do
    if (← tree.label.kind) = .component then
      let key ← tree.label.id.key
      if seen.contains key then componentsAmong seen rest
      else return tree :: (← componentsAmong (key :: seen) rest)
    else componentsAmong seen rest

/-- The components of a design: components and sets of them, with all variants. -/
def findComponents (root : LayerTree) : Except Fault (List LayerTree) :=
  componentsAmong [] root.subtrees

end Handoff.Design

import Handoff.Proofs.Component.Annotating
import Handoff.Proofs.Design.Sizing

/-!
The place of an element: what it lies in, and that its style is found there.

The walk hands the axis of a container down to its children. So the style of every element below the top is
that of its layer inside the layer of the element around it, or inside the top itself.
-/

namespace Handoff

open Design Naming

variable {component : Component} {around : Option Element} {e : Element}

/-- What lies directly inside an element, or inside the top of the component. -/
inductive Component.Holds (component : Component) : Option Element → Element → Prop
  | top {e : Element} {below : Forest Element} (h : .node e below ∈ component.body) : Holds component none e
  | inside {p e : Element} {children below : Forest Element}
      (hp : .node p children ∈ Tree.subtreesAll component.body) (h : .node e below ∈ children) :
      Holds component (some p) e

lemma Tree.mem_preorderAll_of_mem {α : Type} {ts : Forest α} {a : α} {below : Forest α}
    (h : Tree.node a below ∈ ts) : a ∈ Tree.preorderAll ts := by
  induction ts with
  | nil => cases h
  | cons t rest ih =>
    rw [Tree.preorderAll_cons, List.mem_append]
    rcases List.mem_cons.1 h with rfl | h
    · exact .inl (by simp)
    · exact .inr (ih h)

/-- What holds something is an element itself, and so is what it holds. -/
lemma Component.mem_of_inside {p e : Element} {children below : Forest Element}
    (hp : .node p children ∈ Tree.subtreesAll component.body) (h : .node e below ∈ children) :
    p ∈ Tree.preorderAll component.body ∧ e ∈ Tree.preorderAll component.body := by
  have hsub := Tree.preorder_subset_of_mem_subtreesAll component.body hp
  rw [Tree.preorder_node, List.cons_subset] at hsub
  exact ⟨hsub.1, hsub.2 (Tree.mem_preorderAll_of_mem h)⟩

lemma Component.Holds.mem (h : component.Holds around e) : e ∈ Tree.preorderAll component.body := by
  cases h with
  | top htree => exact Tree.mem_preorderAll_of_mem htree
  | inside hp htree => exact (Component.mem_of_inside hp htree).2

namespace Annotating

variable {rules : Rules} {d d' : Draft}

end Annotating

/-! ### The component -/

end Handoff

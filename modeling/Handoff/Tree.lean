/-!
Trees with a label at every node and any number of children in order.

Designs, annotated components and markup are trees over different labels; `preorder` lists the
labels with a parent before its children.
-/

namespace Handoff

/-- A label with a list of subtrees. -/
inductive Tree (α : Type) where
  | node (label : α) (children : List (Tree α))

/-- Trees side by side. -/
abbrev Forest (α : Type) := List (Tree α)

namespace Tree

variable {α β : Type}

/-- The label at the top. -/
def label : Tree α → α
  | node a _ => a

/-- The subtrees below the top. -/
def children : Tree α → Forest α
  | node _ ts => ts

mutual

/-- The labels, a parent before its children, children in order. -/
def preorder : Tree α → List α
  | node a ts => a :: preorderAll ts

/-- The labels of trees side by side. -/
def preorderAll : Forest α → List α
  | [] => []
  | t :: ts => preorder t ++ preorderAll ts

end

mutual

/-- A tree and all trees inside it, in preorder. -/
def subtrees : Tree α → List (Tree α)
  | node a ts => node a ts :: subtreesAll ts

/-- All trees inside trees side by side, in preorder. -/
def subtreesAll : Forest α → List (Tree α)
  | [] => []
  | t :: ts => subtrees t ++ subtreesAll ts

end

mutual

/-- The same shape with every label changed. -/
def map (f : α → β) : Tree α → Tree β
  | node a ts => node (f a) (mapAll f ts)

/-- The same shapes with every label changed. -/
def mapAll (f : α → β) : Forest α → Forest β
  | [] => []
  | t :: ts => map f t :: mapAll f ts

end

@[simp] theorem preorderAll_nil : preorderAll ([] : Forest α) = [] := by simp [preorderAll]

@[simp] theorem preorderAll_cons (t : Tree α) (ts : Forest α) :
    preorderAll (t :: ts) = t.preorder ++ preorderAll ts := by simp [preorderAll]

@[simp] theorem preorder_node (a : α) (ts : Forest α) :
    (node a ts).preorder = a :: preorderAll ts := by simp [preorder]

mutual

theorem map_map {γ : Type} (f : α → β) (g : β → γ) (t : Tree α) :
    (t.map f).map g = t.map fun a => g (f a) := by
  match t with
  | node a ts => rw [map, map, map, mapAll_mapAll f g ts]

theorem mapAll_mapAll {γ : Type} (f : α → β) (g : β → γ) (ts : Forest α) :
    mapAll g (mapAll f ts) = mapAll (fun a => g (f a)) ts := by
  match ts with
  | [] => rfl
  | t :: ts => rw [mapAll, mapAll, mapAll, map_map f g t, mapAll_mapAll f g ts]

end

mutual

theorem preorder_map (f : α → β) (t : Tree α) : (t.map f).preorder = t.preorder.map f := by
  match t with
  | node a ts => rw [map, preorder_node, preorder_node, List.map_cons, preorderAll_mapAll f ts]

theorem preorderAll_mapAll (f : α → β) (ts : Forest α) :
    preorderAll (mapAll f ts) = (preorderAll ts).map f := by
  match ts with
  | [] => simp [mapAll]
  | t :: ts =>
    rw [mapAll, preorderAll_cons, preorderAll_cons, List.map_append, preorder_map f t,
      preorderAll_mapAll f ts]

end

/-! ### The trees inside a tree -/

mutual

/-- There is one inner tree for each label. -/
theorem map_label_subtrees (t : Tree α) : t.subtrees.map label = t.preorder := by
  match t with
  | node a ts => rw [subtrees, List.map_cons, preorder_node, map_label_subtreesAll ts]; rfl

theorem map_label_subtreesAll (ts : Forest α) : (subtreesAll ts).map label = preorderAll ts := by
  match ts with
  | [] => rw [subtreesAll, preorderAll_nil]; rfl
  | t :: ts =>
    rw [subtreesAll, List.map_append, preorderAll_cons, map_label_subtrees t, map_label_subtreesAll ts]

end

theorem label_mem_preorder {t u : Tree α} (h : u ∈ t.subtrees) : u.label ∈ t.preorder := by
  rw [← map_label_subtrees]
  exact List.mem_map_of_mem h

theorem self_mem_subtrees (t : Tree α) : t ∈ t.subtrees := by
  match t with
  | node a ts => rw [subtrees]; exact List.mem_cons_self

mutual

/-- What is inside an inner tree is inside the whole. -/
theorem subtrees_subset (t : Tree α) {u : Tree α} (h : u ∈ t.subtrees) : u.subtrees ⊆ t.subtrees := by
  match t with
  | node a ts =>
    rw [subtrees, List.mem_cons] at h
    rcases h with rfl | h
    · exact List.Subset.refl _
    · rw [subtrees]
      exact List.subset_cons_of_subset _ (subtreesAll_subset ts h)

theorem subtreesAll_subset (ts : Forest α) {u : Tree α} (h : u ∈ subtreesAll ts) :
    u.subtrees ⊆ subtreesAll ts := by
  match ts with
  | [] =>
    rw [subtreesAll] at h
    cases h
  | t :: ts =>
    rw [subtreesAll, List.mem_append] at h
    rw [subtreesAll]
    rcases h with h | h
    · exact List.subset_append_of_subset_left _ (subtrees_subset t h)
    · exact List.subset_append_of_subset_right _ (subtreesAll_subset ts h)

end

theorem subtreesAll_children_subset {root t : Tree α} (h : t ∈ root.subtrees) :
    subtreesAll t.children ⊆ root.subtrees := by
  have hsub := subtrees_subset root h
  obtain ⟨a, ts⟩ := t
  rw [subtrees, List.cons_subset] at hsub
  exact hsub.2

/-- The labels of an inner tree are labels of the whole. -/
theorem preorder_subset_of_mem_subtrees (t : Tree α) {u : Tree α} (h : u ∈ t.subtrees) :
    u.preorder ⊆ t.preorder := by
  rw [← map_label_subtrees, ← map_label_subtrees]
  exact List.map_subset _ (subtrees_subset t h)

theorem preorder_subset_of_mem_subtreesAll (ts : Forest α) {u : Tree α}
    (h : u ∈ subtreesAll ts) : u.preorder ⊆ preorderAll ts := by
  rw [← map_label_subtrees, ← map_label_subtreesAll]
  exact List.map_subset _ (subtreesAll_subset ts h)

end Tree

end Handoff

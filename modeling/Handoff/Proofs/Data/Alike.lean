import Handoff.Fault
import Handoff.Proofs.World.Running
import Handoff.Tree
import Mathlib.Data.List.Forall2

/-!
Computations and trees that are alike up to a relation: two computations fail with the same fault or
give related values, and two trees have the same shape and related labels.
-/

namespace Handoff

variable {α β γ δ : Type}

/-- Both computations fail with the same fault, or they give related values. -/
inductive SameOutcome (r : α → β → Prop) : Except Fault α → Except Fault β → Prop
  | error (fault : Fault) : SameOutcome r (.error fault) (.error fault)
  | ok {a : α} {b : β} (h : r a b) : SameOutcome r (.ok a) (.ok b)

namespace SameOutcome

variable {r : α → β → Prop} {q : γ → δ → Prop} {x : Except Fault α} {y : Except Fault β}
  {f : α → Except Fault γ} {g : β → Except Fault δ}

lemma bind (h : SameOutcome r x y) (hn : ∀ a b, r a b → SameOutcome q (f a) (g b)) :
    SameOutcome q (x >>= f) (y >>= g) := by
  cases h with
  | error fault => exact .error fault
  | ok hab => exact hn _ _ hab

lemma imp {r' : α → β → Prop} (h : SameOutcome r x y) (hr : ∀ a b, r a b → r' a b) :
    SameOutcome r' x y := by
  cases h with
  | error fault => exact .error fault
  | ok hab => exact .ok (hr _ _ hab)

/-- What is alike a success is one. -/
lemma exists_of_ok {a : α} (h : SameOutcome r (.ok a) y) : ∃ b, y = .ok b ∧ r a b := by
  obtain _ | hab := h
  exact ⟨_, rfl, hab⟩

/-- The same computation gives the same value. -/
lemma refl (x : Except Fault α) : SameOutcome (fun a b => b = a) x x := by
  cases x with
  | error fault => exact .error fault
  | ok a => exact .ok rfl

lemma of_eq {x y : Except Fault α} (h : y = x) : SameOutcome (fun a b => b = a) x y := h ▸ refl x

lemma eq {x y : Except Fault α} (h : SameOutcome (fun a b => b = a) x y) : y = x := by
  cases h with
  | error fault => rfl
  | ok hab => rw [hab]

/-- A step that both computations have in common. -/
lemma bind_eq {f : γ → Except Fault α} {g : γ → Except Fault β} {x y : Except Fault γ} (h : y = x)
    (hn : ∀ a, SameOutcome r (f a) (g a)) : SameOutcome r (x >>= f) (y >>= g) := by
  refine (of_eq h).bind ?_
  rintro _ a rfl
  exact hn a

/-- Two computations that both have the outcome of a third. -/
lemma join {z : Except Fault γ} {r : α → γ → Prop} {q : β → γ → Prop} (h : SameOutcome r x z)
    (h' : SameOutcome q y z) : SameOutcome (fun a b => ∃ c, r a c ∧ q b c) x y := by
  cases h with
  | error fault =>
    obtain _ | _ := h'
    exact .error fault
  | ok ha =>
    obtain _ | hb := h'
    exact .ok ⟨_, ha, hb⟩

/-- Computations over related items, one after the other. -/
lemma mapM {as : List α} {bs : List β} (h : List.Forall₂ r as bs)
    (hf : ∀ a b, r a b → SameOutcome q (f a) (g b)) :
    SameOutcome (List.Forall₂ q) (as.mapM f) (bs.mapM g) := by
  induction h with
  | nil => exact .ok .nil
  | cons hab _ ih =>
    rw [List.mapM_cons, List.mapM_cons]
    exact (hf _ _ hab).bind fun c d hcd => ih.bind fun cs ds hrest => .ok (.cons hcd hrest)

/-- Computations over related items that give the same for each. -/
lemma mapM_eq {f : α → Except Fault γ} {g : β → Except Fault γ} {as : List α} {bs : List β}
    (h : List.Forall₂ r as bs) (hf : ∀ a b, r a b → g b = f a) : bs.mapM g = as.mapM f := by
  induction h with
  | nil => rfl
  | cons hab _ ih => rw [List.mapM_cons, List.mapM_cons, hf _ _ hab, ih]

end SameOutcome

/-! ### Related lists -/

/-- What is read off related items alike is read off the lists alike. -/
lemma map_eq_of_forall₂ {r : α → β → Prop} {as : List α} {bs : List β} {f : α → γ} {g : β → γ}
    (h : List.Forall₂ r as bs) (hf : ∀ a b, r a b → g b = f a) : bs.map g = as.map f := by
  induction h with
  | nil => rfl
  | cons hab _ ih => rw [List.map_cons, List.map_cons, hf _ _ hab, ih]

lemma filterMap_eq_of_forall₂ {r : α → β → Prop} {as : List α} {bs : List β} {f : α → Option γ}
    {g : β → Option γ} (h : List.Forall₂ r as bs) (hf : ∀ a b, r a b → g b = f a) :
    bs.filterMap g = as.filterMap f := by
  induction h with
  | nil => rfl
  | cons hab _ ih => rw [List.filterMap_cons, List.filterMap_cons, hf _ _ hab, ih]

/-! ### Related trees -/

namespace Tree

mutual

/-- The trees have the same shape and related labels. -/
def Related (r : α → β → Prop) : Tree α → Tree β → Prop
  | node a ts, node b us => r a b ∧ RelatedAll r ts us

/-- The trees side by side are as many, of the same shapes and with related labels. -/
def RelatedAll (r : α → β → Prop) : Forest α → Forest β → Prop
  | [], [] => True
  | t :: ts, u :: us => Related r t u ∧ RelatedAll r ts us
  | _, _ => False

end

variable {r : α → β → Prop}

lemma RelatedAll.isEmpty {ts : Forest α} {us : Forest β} (h : RelatedAll r ts us) :
    us.isEmpty = ts.isEmpty := by
  match ts, us with
  | [], [] => rfl
  | [], u :: us => simp [RelatedAll] at h
  | t :: ts, [] => simp [RelatedAll] at h
  | t :: ts, u :: us => rfl

mutual

lemma Related.preorder (t : Tree α) (u : Tree β) (h : Related r t u) :
    List.Forall₂ r t.preorder u.preorder := by
  match t, u with
  | node a ts, node b us =>
    rw [Related] at h
    rw [preorder_node, preorder_node]
    exact .cons h.1 (RelatedAll.preorderAll ts us h.2)

lemma RelatedAll.preorderAll (ts : Forest α) (us : Forest β) (h : RelatedAll r ts us) :
    List.Forall₂ r (preorderAll ts) (preorderAll us) := by
  match ts, us with
  | [], [] =>
    rw [preorderAll_nil, preorderAll_nil]
    exact .nil
  | [], u :: us => simp [RelatedAll] at h
  | t :: ts, [] => simp [RelatedAll] at h
  | t :: ts, u :: us =>
    rw [RelatedAll] at h
    rw [preorderAll_cons, preorderAll_cons]
    exact List.rel_append (Related.preorder t u h.1) (RelatedAll.preorderAll ts us h.2)

end

end Tree

end Handoff

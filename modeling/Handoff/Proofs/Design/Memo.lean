import Handoff.Proofs.Data.Alike
import Handoff.Proofs.Design.Roles
import Mathlib.Data.List.Pairwise

/-!
The memo of roles.

A role is kept under the id of its layer. When no two layers of a design share an id, the memo has nothing
but what would be decided anew, whatever layers were asked about before. It has one entry for each id
that got an answer.
-/

namespace Handoff.Design

variable {root t u : LayerTree} {memo memo' : RoleMemo}

/-! ### Ids -/

/-- The ids of the layers are different keys, if they are keys at all. -/
def Layer.Apart (a b : Layer) : Prop := ∀ key, a.id.key = .ok key → b.id.key ≠ .ok key

instance : DecidableRel Layer.Apart := fun a b =>
  match h : a.id.key with
  | .error _ => .isTrue fun _ hkey => by rw [h] at hkey; cases hkey
  | .ok key => decidable_of_iff (b.id.key ≠ .ok key)
      ⟨fun hne _ hkey => by rw [h] at hkey; cases hkey; exact hne, fun hapart => hapart key h⟩

lemma Layer.Apart.symm {a b : Layer} (h : a.Apart b) : b.Apart a := fun key hb ha => h key ha hb

/-- No two layers of a design have one id. -/
def IdsApart (root : LayerTree) : Prop := root.preorder.Pairwise Layer.Apart

instance : DecidablePred IdsApart := fun root =>
  inferInstanceAs (Decidable (root.preorder.Pairwise Layer.Apart))

/-- Distinct ids of the right type are different keys. -/
lemma IdsApart.of_nodup (hids : (root.preorder.map Layer.id).Nodup)
    (htyped : ∀ layer ∈ root.preorder, layer.ExportTyped) : IdsApart root := by
  refine (List.pairwise_map.1 hids).imp_of_mem fun ha hb hne key hakey hbkey => hne ?_
  exact (htyped _ ha).id.eq_of_key_eq (htyped _ hb).id (hakey.trans hbkey.symm)

/-- When ids are apart, an inner tree is known by its key. -/
lemma IdsApart.eq_of_key (hids : IdsApart root) (ht : t ∈ root.subtrees) (hu : u ∈ root.subtrees)
    {key : Key} (htkey : t.label.id.key = .ok key) (hukey : u.label.id.key = .ok key) : t = u := by
  rw [IdsApart, ← Tree.map_label_subtrees, List.pairwise_map] at hids
  have hsymm : Std.Symm fun a b : LayerTree => a.label.Apart b.label := ⟨fun _ _ => Layer.Apart.symm⟩
  by_contra hne
  exact hids.forall ht hu hne key htkey hukey

/-! ### What the memo has -/

/-- Every role in the memo is that of a layer inside the design with the id under which it stands. -/
def RoleMemo.ReadsFrom (memo : RoleMemo) (root : LayerTree) : Prop :=
  ∀ key role, memo.lookup key = some role →
    ∃ u ∈ root.subtrees, u.label.id.key = .ok key ∧ roleOf u = .ok role

lemma RoleMemo.readsFrom_nil (root : LayerTree) : RoleMemo.ReadsFrom [] root := nofun

/-- The role of a layer that is in the memo. -/
lemma RoleMemo.ReadsFrom.roleOf_of_lookup {key : Key} {role : Role} (h : memo.ReadsFrom root)
    (hids : IdsApart root) (ht : t ∈ root.subtrees) (hkey : t.label.id.key = .ok key)
    (hlookup : memo.lookup key = some role) : roleOf t = .ok role := by
  obtain ⟨u, hu, hukey, hurole⟩ := h key role hlookup
  rwa [hids.eq_of_key ht hu hkey hukey]

lemma RoleMemo.ReadsFrom.put {key : Key} {role : Role} (h : memo.ReadsFrom root)
    (ht : t ∈ root.subtrees) (hkey : t.label.id.key = .ok key) (hrole : roleOf t = .ok role) :
    RoleMemo.ReadsFrom (memo.put key role) root := by
  intro k r hlookup
  rw [Table.lookup_put] at hlookup
  split at hlookup
  · rename_i hsame
    cases hlookup
    exact ⟨t, ht, by rw [eq_of_beq hsame, hkey], hrole⟩
  · exact h k r hlookup

/-- The role of a layer as it is decided without a memo; a layer whose id is no key has none. -/
def ownRole (tree : LayerTree) : Except Fault Role := do
  let _ ← tree.label.id.key
  roleOf tree

/-- A memo that reads from the design answers what would be decided anew, and goes on reading from the
design. -/
lemma RoleMemo.ReadsFrom.role_alike (h : memo.ReadsFrom root) (hids : IdsApart root)
    (ht : t ∈ root.subtrees) :
    SameOutcome (fun answer role => answer.1 = role ∧ RoleMemo.ReadsFrom answer.2 root)
      (memo.role t) (ownRole t) := by
  rw [RoleMemo.role, ownRole]
  rcases hkey : t.label.id.key with fault | key
  · exact .error fault
  rw [ok_bind, ok_bind]
  rcases hlookup : memo.lookup key with _ | role
  · rcases hrole : roleOf t with fault | role
    · exact .error fault
    · exact .ok ⟨rfl, h.put ht hkey hrole⟩
  · rw [h.roleOf_of_lookup hids ht hkey hlookup]
    exact .ok ⟨rfl, h⟩

/-- A role that the memo gives is the role of the layer. -/
lemma RoleMemo.ReadsFrom.roleOf_eq {role : Role} (h : memo.ReadsFrom root) (hids : IdsApart root)
    (ht : t ∈ root.subtrees) (hrole : memo.role t = .ok (role, memo')) :
    roleOf t = .ok role ∧ memo'.ReadsFrom root := by
  have halike := h.role_alike hids ht
  rw [hrole] at halike
  obtain ⟨own, hown, rfl, hmemo'⟩ := halike.exists_of_ok
  obtain ⟨-, -, hdecided⟩ := bind_eq_ok.1 hown
  exact ⟨hdecided, hmemo'⟩

/-! ### Asking about one layer after another -/

/-- Asks the memo about a layer; a question without an answer leaves the memo as it is. -/
def RoleMemo.ask (memo : RoleMemo) (tree : LayerTree) : Except Fault Role × RoleMemo :=
  match memo.role tree with
  | .ok (role, memo) => (.ok role, memo)
  | .error fault => (.error fault, memo)

/-- The answers about layers, one after the other, and the memo after them. -/
def RoleMemo.askAll (memo : RoleMemo) : List LayerTree → List (Except Fault Role) × RoleMemo
  | [] => ([], memo)
  | tree :: rest =>
    let (answer, memo) := memo.ask tree
    let (answers, memo) := memo.askAll rest
    (answer :: answers, memo)

/-- The key of the id of a layer that gets an answer. -/
def answeredKey? (tree : LayerTree) : Option Key :=
  match tree.label.id.key, roleOf tree with
  | .ok key, .ok _ => some key
  | _, _ => none

/-- The keys of a memo after an answer under a key. -/
def withKey (keys : List Key) (key : Key) : List Key := if keys.contains key then keys else keys ++ [key]

/-- What a question gets is decided as if it were the first, and a new id that gets an answer is
entered. -/
lemma RoleMemo.ReadsFrom.ask (h : memo.ReadsFrom root) (hids : IdsApart root)
    (ht : t ∈ root.subtrees) :
    (memo.ask t).1 = ownRole t ∧ (memo.ask t).2.ReadsFrom root ∧
      (memo.ask t).2.map Prod.fst = (answeredKey? t).toList.foldl withKey (memo.map Prod.fst) := by
  rw [RoleMemo.ask, RoleMemo.role, ownRole, answeredKey?]
  rcases hkey : t.label.id.key with fault | key
  · exact ⟨rfl, h, rfl⟩
  rw [ok_bind, ok_bind]
  rcases hlookup : memo.lookup key with _ | role
  · rcases hrole : roleOf t with fault | role
    · exact ⟨rfl, h, rfl⟩
    · exact ⟨rfl, h.put ht hkey hrole, Table.keys_put memo key role⟩
  · rw [h.roleOf_of_lookup hids ht hkey hlookup]
    have hmem : (memo.map Prod.fst).contains key = true := by
      obtain ⟨before, after, hsplit, -⟩ := List.lookup_eq_some_iff.1 hlookup
      simp [hsplit]
    exact ⟨rfl, h, (if_pos hmem).symm⟩

/-- What all the questions get, and what the memo has after them. -/
theorem RoleMemo.ReadsFrom.askAll (hids : IdsApart root) {trees : List LayerTree}
    (htrees : trees ⊆ root.subtrees) (h : memo.ReadsFrom root) :
    (memo.askAll trees).1 = trees.map ownRole ∧ (memo.askAll trees).2.ReadsFrom root ∧
      (memo.askAll trees).2.map Prod.fst =
        (trees.filterMap answeredKey?).foldl withKey (memo.map Prod.fst) := by
  induction trees generalizing memo with
  | nil => exact ⟨rfl, h, rfl⟩
  | cons tree rest ih =>
    rw [List.cons_subset] at htrees
    obtain ⟨hanswer, hreads, hkeys⟩ := h.ask hids htrees.1
    obtain ⟨hanswers, hreads', hkeys'⟩ := ih htrees.2 hreads
    refine ⟨?_, hreads', ?_⟩
    · exact congrArg₂ List.cons hanswer hanswers
    · rw [List.filterMap_cons]
      refine hkeys'.trans ?_
      rw [hkeys]
      cases answeredKey? tree <;> rfl

end Handoff.Design

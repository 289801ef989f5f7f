import Handoff.Proofs.Text.Ascii
import Handoff.Proofs.Token.Contributions
import Handoff.Proofs.Token.Typed

/-!
The tokens of typed layers are the inventory of what the layers show: every colour, every text size and
every font family once, in the order in which they first appear.
-/

namespace Handoff.Token

open Design Text

/-! ### Inventories -/

section

variable {β : Type} {shows : β → Option Text} {items : List β} {a b : Text}

/-- Among the items, one that shows the first value comes before any that shows the second. -/
def AppearsBefore (shows : β → Option Text) (items : List β) (a b : Text) : Prop :=
  ∃ front item back, items = front ++ item :: back ∧ shows item = some a ∧
    ∀ other ∈ front ++ [item], shows other ≠ some b

/-- The values that items show, each once, in the order in which they first appear. -/
structure Inventory (shows : β → Option Text) (items : List β) (values : List Text) : Prop where
  mem : ∀ a, a ∈ values ↔ ∃ item ∈ items, shows item = some a
  ordered : values.Pairwise (AppearsBefore shows items)

lemma AppearsBefore.concat (h : AppearsBefore shows items a b) (item : β) :
    AppearsBefore shows (items ++ [item]) a b := by
  obtain ⟨front, found, back, rfl, hshows, hnone⟩ := h
  exact ⟨front, found, back ++ [item], by simp, hshows, hnone⟩

/-- A value does not appear before itself, so that no value is listed twice. -/
lemma AppearsBefore.ne (h : AppearsBefore shows items a b) : a ≠ b := by
  obtain ⟨front, item, back, -, hshows, hnone⟩ := h
  rintro rfl
  exact hnone item (by simp) hshows

lemma Inventory.nodup {values : List Text} (h : Inventory shows items values) : values.Nodup :=
  h.ordered.imp AppearsBefore.ne

/-- The distinct values that are shown are an inventory: an item more adds its value at the end, unless
the value is there. -/
theorem inventory_distinct (shows : β → Option Text) (items : List β) :
    Inventory shows items (distinct (items.filterMap shows)) := by
  refine ⟨fun a => by rw [mem_distinct, List.mem_filterMap], ?_⟩
  induction items using List.reverseRecOn with
  | nil => exact .nil
  | append_singleton items item ih =>
    have hmono := ih.imp fun h => h.concat item
    cases hshows : shows item with
    | none => simpa [List.filterMap_append, hshows] using hmono
    | some b =>
      rw [List.filterMap_append, List.filterMap_cons_some hshows, List.filterMap_nil, distinct_concat]
      split
      · exact hmono
      · rename_i hnew
        have hnew : b ∉ items.filterMap shows := by
          rwa [List.contains_iff_mem, mem_distinct] at hnew
        refine List.pairwise_append.2 ⟨hmono, List.pairwise_singleton .., fun a ha b' hb => ?_⟩
        obtain rfl := List.mem_singleton.1 hb
        obtain ⟨first, hfirst, hfound⟩ := List.mem_filterMap.1 (mem_distinct.1 ha)
        obtain ⟨front, back, rfl⟩ := List.append_of_mem hfirst
        refine ⟨front, first, back ++ [item], by simp, hfound, fun other hother hsame => ?_⟩
        have hmem : other ∈ front ++ first :: back := by
          rw [List.append_cons]
          exact List.mem_append_left _ hother
        exact hnew (List.mem_filterMap.2 ⟨other, hmem, hsame⟩)

end

/-! ### Names -/

variable {sizes : List Text}

/-- Names differ when their leads do. -/
lemma append_ne_append {lead lead' : Text} (k : Nat) (hk : k ≤ lead.toList.length)
    (hk' : k ≤ lead'.toList.length) (h : lead.toList.take k ≠ lead'.toList.take k) (a b : Text) :
    lead ++ a ≠ lead' ++ b := by
  intro he
  have hlist := congrArg (fun name => name.toList.take k) he
  simp only [toList_append, List.take_append_of_le_length hk, List.take_append_of_le_length hk'] at hlist
  exact h hlist

lemma keys_sizeEntries (sizes : List Text) :
    (sizeEntries sizes).map Prod.fst = sizes.map fun size : Text => "font-size-" ++ size := by
  rw [sizeEntries, List.map_map]
  rfl

/-- A text size and a family never have one name, whatever the size is. -/
lemma nodup_typography (h : sizes.Nodup) (families : List Text) :
    ((sizeEntries sizes ++ familyEntries families).map Prod.fst).Nodup := by
  rw [List.map_append, keys_sizeEntries]
  refine List.nodup_append.2 ⟨h.map fun _ _ he => append_left_cancel he, nodup_numberedEntries .., ?_⟩
  intro name hsize name' hfamily
  rw [familyEntries, keys_numberedEntries] at hfamily
  obtain ⟨size, -, rfl⟩ := List.mem_map.1 hsize
  obtain ⟨i, -, rfl⟩ := List.mem_map.1 hfamily
  refine append_ne_append 6 ?_ ?_ ?_ _ _ <;> decide

/-- No colour has the name of a text size or a family. -/
lemma nodup_names (colors : List Text) (h : sizes.Nodup) (families : List Text) :
    ((numberedEntries "color-" colors ++ (sizeEntries sizes ++ familyEntries families)).map Prod.fst).Nodup := by
  rw [List.map_append]
  refine List.nodup_append.2 ⟨nodup_numberedEntries .., nodup_typography h families, ?_⟩
  intro name hcolor name' hother
  rw [keys_numberedEntries] at hcolor
  rw [List.map_append, keys_sizeEntries, familyEntries, keys_numberedEntries] at hother
  obtain ⟨i, -, rfl⟩ := List.mem_map.1 hcolor
  rcases List.mem_append.1 hother with hsize | hfamily
  · obtain ⟨size, -, rfl⟩ := List.mem_map.1 hsize
    refine append_ne_append 1 ?_ ?_ ?_ _ _ <;> decide
  · obtain ⟨j, -, rfl⟩ := List.mem_map.1 hfamily
    refine append_ne_append 1 ?_ ?_ ?_ _ _ <;> decide

/-! ### The inventory of layers -/

/-- The tokens are the inventories of the colours, text sizes and font families that layers show, with
distinct names: colours and families are numbered from 1, sizes come before families. -/
structure IsHarvest (layers : List Layer) (colors sizes families : List Text) (tokens : Tokens) :
    Prop where
  inventoryOfColors : Inventory colorOf? layers colors
  inventoryOfSizes : Inventory sizeOf? layers sizes
  inventoryOfFamilies : Inventory familyOf? layers families
  count : tokens.count = colors.length + sizes.length + families.length
  colors : tokens.colors = numberedEntries "color-" colors
  typography : tokens.typography = sizeEntries sizes ++ familyEntries families
  spacing : tokens.spacing = []
  other : tokens.other = []
  names : (tokens.entries.map Prod.fst).Nodup

/-- The layers of a tree with typed fields give an inventory of what they show. -/
theorem inventory_of_harvest (root : LayerTree) (h : ∀ layer ∈ root.preorder, TypedTraits layer) :
    ∃ colors sizes families tokens, harvest root.preorder = .ok tokens ∧
      IsHarvest root.preorder colors sizes families tokens := by
  have hcolors := inventory_distinct colorOf? root.preorder
  have hsizes := inventory_distinct sizeOf? root.preorder
  have hfamilies := inventory_distinct familyOf? root.preorder
  have hcolorTable := Table.ofEntries_of_keyed (nodup_numberedEntries "color-"
    (distinct (root.preorder.filterMap colorOf?)))
  have htypography := Table.ofEntries_of_keyed (nodup_typography hsizes.nodup
    (distinct (root.preorder.filterMap familyOf?)))
  have htokens := harvest_eq h
  rw [hcolorTable, htypography] at htokens
  refine ⟨_, _, _, _, htokens, hcolors, hsizes, hfamilies, ?_, rfl, rfl, rfl, rfl, ?_⟩
  · simp [Tokens.count, numberedEntries, sizeEntries, familyEntries, Nat.add_assoc]
  · simpa [Tokens.entries, Group.all, Tokens.group] using nodup_names _ hsizes.nodup _

/-- A text with a black fill. -/
def blackText (id : Text) (size : Value) (family : Text) : Layer :=
  { plainLayer id "Line" "TEXT" with
    fills := [⟨.text "SOLID", .record [("r", .int 0), ("g", .int 0), ("b", .int 0)], .int 1, .bool true⟩]
    typography := [(.text "fontSize", size), (.text "fontFamily", .text family)] }

lemma typedTraits_blackText (id family : Text) {n : Int} (hn : |(n : ℚ)| ≤ 100) :
    TypedTraits (blackText id (.int n) family) where
  fills paint hpaint := by
    obtain rfl := List.mem_singleton.1 hpaint
    refine ⟨.inr ⟨_, rfl, fun name _ channel hchannel => ?_⟩, Value.isNumber_int (by norm_num)⟩
    have hmem := Table.mem_of_lookup hchannel
    simp only [List.mem_cons, List.not_mem_nil, or_false, Prod.mk.injEq] at hmem
    have hzero : channel = .int 0 := by tauto
    rw [hzero]
    exact Value.isNumber_int (by norm_num)
  fontSize := .inr (Value.isNumber_int (Numeric.Binary64.le_largest (hn.trans (by norm_num))))
  fontFamily := .inr ⟨family, rfl⟩

/-- A poster of four lines; one has neither size nor family. -/
def poster : LayerTree :=
  .node (blackText "1:1" (.int 12) "Inter") [
    .node (blackText "1:2" (.int 0) "") [],
    .node (blackText "1:3" (.int 8) "Roboto") [
      .node (blackText "1:4" (.int 12) "Inter") []]]

theorem inventory_of_harvest_poster : ∃ colors sizes families tokens,
    harvest poster.preorder = .ok tokens ∧ IsHarvest poster.preorder colors sizes families tokens ∧
      tokens = ⟨[("color-1", "rgb(0, 0, 0)")], [("font-size-12", "12px"), ("font-size-8", "8px"),
        ("font-family-1", "\"Inter\""), ("font-family-2", "\"Roboto\"")], [], []⟩ := by
  have htyped : ∀ layer ∈ poster.preorder, TypedTraits layer := by
    simp only [poster, Tree.preorder_node, Tree.preorderAll_cons, Tree.preorderAll_nil, List.append_nil,
      List.cons_append, List.nil_append, List.forall_mem_cons]
    exact ⟨typedTraits_blackText _ _ (by norm_num), typedTraits_blackText _ _ (by norm_num),
      typedTraits_blackText _ _ (by norm_num), typedTraits_blackText _ _ (by norm_num),
      List.forall_mem_nil _⟩
  obtain ⟨colors, sizes, families, tokens, htokens, hharvest⟩ := inventory_of_harvest poster htyped
  have hfound : harvest poster.preorder = .ok ⟨[("color-1", "rgb(0, 0, 0)")],
      [("font-size-12", "12px"), ("font-size-8", "8px"), ("font-family-1", "\"Inter\""),
        ("font-family-2", "\"Roboto\"")], [], []⟩ := by
    decide +kernel
  exact ⟨colors, sizes, families, tokens, htokens, hharvest, Except.ok.inj (htokens.symm.trans hfound)⟩

end Handoff.Token

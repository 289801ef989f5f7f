import Handoff.Proofs.Data.Table
import Handoff.Proofs.Design.Styling
import Handoff.Proofs.Text.Ascii
import Handoff.Token.Harvest

/-!
The tokens of typed layers are always found, and are made of their distinct colours, text sizes and font
families.
-/

namespace Handoff.Token

open Design Text

variable {layer : Layer} {layers : List Layer}

/-- The fields that tokens are read from have their types; text sizes are within the range of doubles, and
the channels of colours and the opacities are at most 1. -/
structure TypedTraits (layer : Layer) : Prop where
  fills : ∀ paint ∈ layer.fills, paint.color.IsColor ∧ paint.opacity.IsNumber 1
  fontSize : (layer.typography.get "fontSize").IsLengthWithin Numeric.Binary64.largest
  fontFamily : (layer.typography.get "fontFamily").IsTextOrNull

/-- The colour of a layer's solid fill, if it has any. -/
def colorOf? (layer : Layer) : Option Text := layer.solidFill?.toOption.join

/-- The text size of a layer as it is written, if there is one and it is not zero. -/
def sizeOf? (layer : Layer) : Option Text :=
  let size := layer.typography.get "fontSize"
  if size.truthy then (measure size).toOption else none

/-- The font family of a layer, if there is one and it is not empty. -/
def familyOf? (layer : Layer) : Option Text :=
  match layer.typography.get "fontFamily" with
  | .text family => if family.isEmpty then none else some family
  | _ => none

/-- The traits of a typed layer. -/
lemma traitsOf_eq_ok (h : TypedTraits layer) : traitsOf layer =
    .ok ⟨colorOf? layer, sizeOf? layer, (familyOf? layer).map .text⟩ := by
  obtain ⟨color, hcolor⟩ := solidFill_eq_ok h.fills
  have hcolorOf : colorOf? layer = color := by
    rw [colorOf?, hcolor]
    rfl
  have hfamily : (if (layer.typography.get "fontFamily").truthy
      then some (layer.typography.get "fontFamily") else none) = (familyOf? layer).map .text := by
    unfold familyOf?
    rcases h.fontFamily with hnull | ⟨family, hfamily⟩
    · simp only [hnull]
      rfl
    · simp only [hfamily, Value.truthy]
      cases family.isEmpty <;> rfl
  unfold traitsOf
  dsimp only
  rw [hcolor, ok_bind, hcolorOf, hfamily]
  split
  · rename_i htruthy
    rcases h.fontSize with hnull | hnumber
    · rw [hnull] at htruthy
      cases htruthy
    · obtain ⟨size, hsize⟩ := measure_eq_ok hnumber le_rfl
      have hsizeOf : sizeOf? layer = some size := by
        rw [sizeOf?, if_pos htruthy, hsize]
        rfl
      rw [hsize, hsizeOf]
      rfl
  · rename_i hfalse
    have hsizeOf : sizeOf? layer = none := if_neg hfalse
    rw [hsizeOf]
    rfl

/-! ### Families -/

/-- One step of collecting families: the first of a key counts. -/
def enterOnce (table : Table Key Value) (entry : Key × Value) : Table Key Value :=
  if (table.lookup entry.1).isSome then table else table ++ [entry]

lemma foldl_enterOnce_texts (families : List Text) :
    (families.map fun family => (Key.text family, Value.text family)).foldl enterOnce [] =
      (distinct families).map fun family => (Key.text family, Value.text family) := by
  induction families using List.reverseRecOn with
  | nil => rfl
  | append_singleton families family ih =>
    have hseen : (((distinct families).map fun family => (Key.text family, Value.text family)).lookup
        (Key.text family)).isSome = (distinct families).contains family := by
      rw [Bool.eq_iff_iff, Option.isSome_iff_ne_none, Ne, List.lookup_eq_none_iff, List.contains_iff_mem]
      simp
    rw [List.map_append, List.foldl_append, ih, distinct_concat, List.map_singleton, List.foldl_cons,
      List.foldl_nil, enterOnce, hseen]
    split <;> simp

/-- Texts as families are known by themselves. -/
lemma distinctFamilies_texts (families : List Text) :
    distinctFamilies (families.map .text) = .ok ((distinct families).map .text) := by
  have hkeyed : (families.map Value.text).mapM (fun family => do return (← family.key, family)) =
      (.ok (families.map fun family => (Key.text family, Value.text family)) : Except Fault _) := by
    rw [mapM_eq_ok_of_forall (g := fun family : Value => (Key.text family.display, family))]
    · rw [List.map_map]
      rfl
    · intro family hmem
      obtain ⟨text, -, rfl⟩ := List.mem_map.1 hmem
      rfl
  have hfold : (families.map fun family => (Key.text family, Value.text family)).foldl
      (fun table entry => if (table.lookup entry.1).isSome then table else table ++ [entry]) [] =
        (distinct families).map fun family => (Key.text family, Value.text family) :=
    foldl_enterOnce_texts families
  unfold distinctFamilies
  rw [hkeyed, ok_bind]
  dsimp only
  rw [hfold, List.map_map]
  rfl

/-! ### Tokens -/

/-- Entries of values that are numbered from 1 behind a lead. -/
def numberedEntries (lead : Text) (values : List Text) : List (Text × Text) :=
  values.mapIdx fun i value => (lead ++ toString (i + 1), value)

/-- The entries of text sizes. -/
def sizeEntries (sizes : List Text) : List (Text × Text) :=
  sizes.map fun size => ("font-size-" ++ size, size ++ "px")

/-- The entries of font families, between quotes. -/
def familyEntries (families : List Text) : List (Text × Text) :=
  numberedEntries "font-family-" (families.map fun family => "\"" ++ family ++ "\"")

lemma map_numberedFrom1 {α : Type} (lead : Text) (written : α → Text) (items : List α) :
    (numberedFrom1 items).map (fun item => (lead ++ toString item.1, written item.2)) =
      numberedEntries lead (items.map written) := by
  rw [numberedFrom1, numberedEntries, List.mapIdx_eq_zipIdx_map, List.zipIdx_map, List.map_map, List.map_map]
  rfl

lemma keys_numberedEntries (lead : Text) (values : List Text) :
    (numberedEntries lead values).map Prod.fst =
      (List.range values.length).map fun i => lead ++ toString (i + 1) :=
  List.ext_getElem (by simp [numberedEntries]) fun i _ _ => by simp [numberedEntries]

lemma nodup_numberedEntries (lead : Text) (values : List Text) :
    ((numberedEntries lead values).map Prod.fst).Nodup := by
  rw [keys_numberedEntries]
  exact List.nodup_range.map fun _ _ he => Nat.succ.inj (numbered_inj he)

/-- The tokens of typed layers. -/
theorem harvest_eq (h : ∀ layer ∈ layers, TypedTraits layer) : harvest layers = .ok {
    colors := Table.ofEntries (numberedEntries "color-" (distinct (layers.filterMap colorOf?)))
    typography := Table.ofEntries (sizeEntries (distinct (layers.filterMap sizeOf?)) ++
      familyEntries (distinct (layers.filterMap familyOf?)))
    spacing := []
    other := [] } := by
  have htraits : layers.mapM traitsOf = .ok (layers.map fun layer =>
      ⟨colorOf? layer, sizeOf? layer, (familyOf? layer).map .text⟩) :=
    mapM_eq_ok_of_forall fun layer hl => traitsOf_eq_ok (h layer hl)
  have hfamilies : (layers.filterMap fun layer => (familyOf? layer).map Value.text) =
      (layers.filterMap familyOf?).map .text := by
    rw [List.map_filterMap]
  unfold harvest
  rw [htraits, ok_bind]
  simp only [List.filterMap_map, Function.comp_def, hfamilies, distinctFamilies_texts, ok_bind]
  rw [map_numberedFrom1 "color-" fun color => color, List.map_id',
    map_numberedFrom1 "font-family-" fun family : Value => "\"" ++ family.display ++ "\"", List.map_map]
  rfl

end Handoff.Token

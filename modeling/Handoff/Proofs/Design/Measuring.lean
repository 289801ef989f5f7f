import Handoff.Design.Color
import Handoff.Proofs.Numeric.Largest
import Handoff.Proofs.World.Running

/-!
Measures and colours are always found for numbers within the range of doubles.
-/

namespace Handoff

open Numeric

namespace Value

/-- The value is a finite number of at most this size. -/
def IsNumber (bound : ℚ) (value : Value) : Prop := ∃ n, value.number = .ok n ∧ n.IsAtMost bound

/-- The value is null or a finite number of at most this size. -/
def IsLengthWithin (bound : ℚ) (value : Value) : Prop := value = .null ∨ value.IsNumber bound

/-- The value is null or a colour: a record whose channels are between 0 and 1, in size. -/
def IsColor (value : Value) : Prop :=
  value = .null ∨ ∃ fields, value = .record fields ∧
    ∀ name ∈ (["r", "g", "b", "a"] : List Text), ∀ channel, fields.lookup name = some channel →
      channel.IsNumber 1

variable {value other : Value} {bound a b : ℚ}

lemma isNumber_int {n : Int} (h : |(n : ℚ)| ≤ bound) : (Value.int n).IsNumber bound := ⟨_, rfl, h⟩

lemma IsNumber.toBinary64 (h : value.IsNumber bound) (hb : bound < Binary64.overflowBound) :
    ∃ x, value.toBinary64 = .ok x ∧ x.IsAtMost (3 / 2 * bound + 1) := by
  obtain ⟨n, hn, hle⟩ := h
  obtain ⟨x, hx, hxle⟩ := hle.toBinary64 hb
  have hvalue : value.toBinary64 = value.number >>= Number.toBinary64 := by
    cases value <;> first | rfl | cases hn
  exact ⟨x, by rw [hvalue, hn, ok_bind, hx], hxle⟩

lemma IsNumber.times (h : value.IsNumber a) (h' : other.IsNumber b)
    (hab : Number.productBound a b < Binary64.overflowBound) :
    ∃ n, value.times other = .ok n ∧ n.IsAtMost (Number.productBound a b) := by
  obtain ⟨m, hm, hma⟩ := h
  obtain ⟨n, hn, hnb⟩ := h'
  obtain ⟨k, hk, hkle⟩ := hma.mul hnb hab
  have hvalue : value.repeatable? = none := by
    cases value <;> first | rfl | cases hm
  have hother : other.repeatable? = none := by
    cases other <;> first | rfl | cases hn
  refine ⟨k, ?_, hkle⟩
  unfold Value.times
  rw [hvalue, hother]
  simp only [hm, hn, ok_bind, hk]

/-- Whatever its size, a number that is at most the largest double becomes a double like that. -/
lemma IsNumber.toBinary64_largest (h : value.IsNumber bound) (hb : bound ≤ Binary64.largest) :
    ∃ x, value.toBinary64 = .ok x ∧ x.IsAtMost Binary64.largest := by
  obtain ⟨n, hn, hle⟩ := h
  obtain ⟨x, hx, hxle⟩ := hle.toBinary64_largest hb
  have hvalue : value.toBinary64 = value.number >>= Number.toBinary64 := by
    cases value <;> first | rfl | cases hn
  exact ⟨x, by rw [hvalue, hn, ok_bind, hx], hxle⟩

lemma IsLengthWithin.round (h : value.IsLengthWithin bound) (hne : value.isNull = false) :
    ∃ n, value.round = .ok n := by
  rcases h with rfl | ⟨n, hn, hle⟩
  · cases hne
  · obtain ⟨k, hk, -⟩ := hle.round
    exact ⟨k, bind_eq_ok.2 ⟨n, hn, hk⟩⟩

end Value

lemma integerText_eq_ok {n : Int} (h : |(n : ℚ)| ≤ 2000) : ∃ s, integerText n = .ok s := by
  have habs : n.natAbs ≤ 2000 := by
    have hcast : ((n.natAbs : ℕ) : ℚ) ≤ (2000 : ℕ) := by
      rw [Nat.cast_natAbs, Int.cast_abs]
      exact_mod_cast h
    exact_mod_cast hcast
  have hlength : (toString n.natAbs).length ≤ 4 := by
    rw [Nat.toString_eq_repr, Nat.length_repr_le_iff (by decide)]
    omega
  unfold integerText
  simp only
  rw [if_neg (by unfold Fault.mostDigits; omega)]
  exact ⟨_, rfl⟩

namespace Design

open Value

variable {value color opacity : Value} {fields : Fields} {name : Text} {x : Binary64} {bound : ℚ}

/-! ### Measures -/

lemma measureOfDouble_eq_ok (h : x.IsAtMost bound) (hb : bound + 1 < Binary64.overflowBound) :
    ∃ s, measureOfDouble x = .ok s := by
  obtain ⟨c, hc⟩ := h.toHundredths hb
  obtain ⟨n, hn⟩ := hc.truncate
  unfold measureOfDouble
  simp only [hn, ok_bind]
  split
  · exact ⟨_, rfl⟩
  · exact ⟨_, rfl⟩

/-- A number within the range of doubles is written. -/
lemma measure_eq_ok (h : value.IsNumber bound) (hb : bound ≤ Binary64.largest) :
    ∃ s, measure value = .ok s := by
  obtain ⟨x, hx, hle⟩ := h.toBinary64_largest hb
  obtain ⟨s, hs⟩ := measureOfDouble_eq_ok hle Binary64.largest_lt_overflowBound
  exact ⟨s, bind_eq_ok.2 ⟨x, hx, hs⟩⟩

lemma small_lt_overflowBound : (3000 : ℚ) < Binary64.overflowBound := by
  have hone : (1 : ℚ) ≤ 2 ^ 970 := one_le_pow₀ (by norm_num)
  rw [Binary64.overflowBound_eq]
  generalize (2 : ℚ) ^ 970 = unit at hone ⊢
  norm_num
  linarith

lemma channel_eq_ok (h : ((fields.lookup name).getD (.int 0)).IsNumber 1) :
    ∃ n, channel fields name = .ok n ∧ |(n : ℚ)| ≤ 2000 := by
  obtain ⟨m, hm, hle⟩ := h
  have hsmall := small_lt_overflowBound
  have hfull : Number.IsAtMost 255 (.int 255) := by
    change |((255 : Int) : ℚ)| ≤ 255
    norm_num
  have hbound : Number.productBound 1 255 ≤ 1999 := by norm_num [Number.productBound]
  obtain ⟨k, hk, hkle⟩ := hle.mul hfull (by linarith)
  obtain ⟨n, hn, hnle⟩ := hkle.round
  exact ⟨n, bind_eq_ok.2 ⟨m, hm, bind_eq_ok.2 ⟨k, hk, hn⟩⟩, by linarith⟩

/-- A colour is written whatever its channels are. -/
theorem cssColor_eq_ok (hc : color.IsColor) (ho : opacity.IsNumber 1) :
    ∃ s, cssColor? color opacity = .ok s := by
  unfold cssColor?
  rcases hc with rfl | ⟨fields, rfl, hfields⟩
  · exact ⟨none, rfl⟩
  split
  · exact ⟨none, rfl⟩
  have hchannel (name : Text) (missing : Int) (hm : |(missing : ℚ)| ≤ 1)
      (hn : name ∈ (["r", "g", "b", "a"] : List Text)) :
      ((fields.lookup name).getD (.int missing)).IsNumber 1 := by
    cases hl : fields.lookup name with
    | none => exact isNumber_int hm
    | some channel => exact hfields name hn channel hl
  have hsmall := small_lt_overflowBound
  have hbound : Number.productBound 1 1 ≤ 11 := by norm_num [Number.productBound]
  obtain ⟨r, hr, hrle⟩ := channel_eq_ok (hchannel "r" 0 (by norm_num) (by decide))
  obtain ⟨g, hg, hgle⟩ := channel_eq_ok (hchannel "g" 0 (by norm_num) (by decide))
  obtain ⟨b, hb, hble⟩ := channel_eq_ok (hchannel "b" 0 (by norm_num) (by decide))
  obtain ⟨a, ha, hale⟩ := (hchannel "a" 1 (by norm_num) (by decide)).times ho (by linarith)
  obtain ⟨rt, hrt⟩ := integerText_eq_ok hrle
  obtain ⟨gt, hgt⟩ := integerText_eq_ok hgle
  obtain ⟨bt, hbt⟩ := integerText_eq_ok hble
  simp only [Value.fields, ok_bind, hr, hg, hb, ha, hrt, hgt, hbt]
  split
  · obtain ⟨x, hx, hxle⟩ := hale.toBinary64 (by linarith)
    obtain ⟨s, hs⟩ := measureOfDouble_eq_ok hxle (by linarith)
    rw [hx, ok_bind, hs]
    exact ⟨_, rfl⟩
  · exact ⟨_, rfl⟩

end Design

end Handoff

import Mathlib.Algebra.Group.Int.Defs
import Mathlib.Algebra.Group.Nat.Defs
import Mathlib.Data.List.Sort
import Mathlib.Order.Defs.LinearOrder

/-!
Unsigned machine words as a linear order, and intervals of consecutive words.

Arithmetic on `UInt32` wraps. Every statement here that counts or compares goes
through `UInt32.toNat`, and the side condition under which a sum or a successor
does not wrap is explicit; `tally` is the number in a counter that is a signed
word. `interval lo hi` lists the words `lo ≤ w < hi` in
increasing order; a counting loop builds it one word at a time
(`interval_succ`).
-/

namespace GlibController.Lib

instance linearOrderUInt32 : LinearOrder UInt32 where
  le_refl a := UInt32.le_refl a
  le_trans _ _ _ h k := UInt32.le_trans h k
  le_antisymm _ _ h k := UInt32.le_antisymm h k
  le_total a b := UInt32.le_total a b
  lt_iff_le_not_ge a b := by
    simp only [UInt32.lt_iff_toNat_lt, UInt32.le_iff_toNat_le]
    omega
  toDecidableLE := inferInstance
  toDecidableLT := inferInstance
  toDecidableEq := inferInstance

/-! ### Words as numbers -/

theorem toNat_lt_size (a : UInt32) : a.toNat < UInt32.size := a.toNat_lt

/-- The successor of a word below another word does not wrap. -/
theorem toNat_succ {a b : UInt32} (h : a < b) : (a + 1).toNat = a.toNat + 1 := by
  rw [UInt32.lt_iff_toNat_lt] at h
  have bound := b.toNat_lt
  rw [UInt32.toNat_add, UInt32.toNat_one]
  omega

/-- A sum that stays below `2 ^ 32` is the sum of the numbers. -/
theorem toNat_add_of_lt {a b : UInt32} (h : a.toNat + b.toNat < UInt32.size) :
    (a + b).toNat = a.toNat + b.toNat := by
  rw [UInt32.toNat_add]
  exact Nat.mod_eq_of_lt h

theorem toNat_ofNat_of_lt {n : Nat} (h : n < UInt32.size) : (UInt32.ofNat n).toNat = n :=
  UInt32.toNat_ofNat_of_lt' h

/-! ### Signed words -/

/-- The signed reading of a word's bits. -/
theorem toInt_eq_toUInt32 (a : Int32) :
    a.toInt = if 2 * a.toUInt32.toNat < 2 ^ 32 then (a.toUInt32.toNat : Int)
      else (a.toUInt32.toNat : Int) - 2 ^ 32 :=
  BitVec.toInt_eq_toNat_cond a.toBitVec

/-- A signed word that is not negative keeps its number as an unsigned word. -/
theorem toNat_toUInt32 {a : Int32} (h : 0 ≤ a.toInt) : a.toUInt32.toNat = a.toInt.toNat := by
  have cond := toInt_eq_toUInt32 a
  have bound := a.toUInt32.toNat_lt
  split at cond <;> omega

/-- A signed word below zero is in the upper half of the unsigned words. -/
theorem le_toNat_toUInt32 {a : Int32} (h : a.toInt < 0) : 2 ^ 31 ≤ a.toUInt32.toNat := by
  have cond := toInt_eq_toUInt32 a
  split at cond <;> omega

/-- An unsigned word below `2 ^ 31` keeps its number as a signed word. -/
theorem toInt_toInt32 {a : UInt32} (h : a.toNat < 2 ^ 31) : a.toInt32.toInt = a.toNat := by
  rw [toInt_eq_toUInt32, UInt32.toUInt32_toInt32, if_pos (by omega)]

/-! ### Counters -/

/-- The number in a counter that is a signed word: its bits, read as an unsigned word. -/
def tally (a : Int32) : Nat := a.toUInt32.toNat

theorem tally_injective {a b : Int32} (h : tally a = tally b) : a = b := by
  have words := congrArg UInt32.toInt32 (UInt32.toNat_inj.mp h)
  rwa [Int32.toInt32_toUInt32, Int32.toInt32_toUInt32] at words

@[simp] theorem tally_one : tally 1 = 1 := rfl

theorem tally_eq_one {a : Int32} : tally a = 1 ↔ a = 1 := by
  constructor
  · intro h
    exact tally_injective (h.trans tally_one.symm)
  · rintro rfl
    exact tally_one

/-- An increment that does not wrap. -/
theorem tally_succ {a : Int32} (h : tally a + 1 < UInt32.size) :
    tally (a + 1) = tally a + 1 := by
  rw [tally, Int32.toUInt32_add]
  exact toNat_add_of_lt h

/-- A decrement that does not wrap. -/
theorem tally_pred {a : Int32} (h : 0 < tally a) : tally (a - 1) = tally a - 1 := by
  have one : (1 : UInt32) ≤ a.toUInt32 := by
    rw [UInt32.le_iff_toNat_le]
    exact h
  rw [tally, Int32.toUInt32_sub]
  exact UInt32.toNat_sub_of_le _ _ one

theorem tally_pred_eq_zero {a : Int32} : tally (a - 1) = 0 ↔ a = 1 := by
  constructor
  · intro h
    have zero : a - 1 = 0 := tally_injective (h.trans (rfl : 0 = tally 0))
    rwa [Int32.sub_eq_iff_eq_add, Int32.zero_add] at zero
  · rintro rfl
    rfl

/-! ### Intervals -/

/-- The words from `lo` up to, and without, `hi`. -/
def interval (lo hi : UInt32) : List UInt32 :=
  (List.range' lo.toNat (hi.toNat - lo.toNat)).map UInt32.ofNat

@[simp] theorem length_interval (lo hi : UInt32) :
    (interval lo hi).length = hi.toNat - lo.toNat := by
  simp [interval]

@[simp] theorem mem_interval {lo hi w : UInt32} : w ∈ interval lo hi ↔ lo ≤ w ∧ w < hi := by
  simp only [interval, List.mem_map, List.mem_range'_1, UInt32.le_iff_toNat_le,
    UInt32.lt_iff_toNat_lt]
  have bound := hi.toNat_lt
  constructor
  · rintro ⟨n, ⟨low, high⟩, rfl⟩
    rw [toNat_ofNat_of_lt (by simp only [UInt32.size]; omega)]
    omega
  · rintro ⟨low, high⟩
    exact ⟨w.toNat, by omega, UInt32.ofNat_toNat⟩

/-- An interval whose end is not above its start is empty. -/
theorem interval_eq_nil {lo hi : UInt32} (h : hi ≤ lo) : interval lo hi = [] := by
  rw [UInt32.le_iff_toNat_le] at h
  exact List.eq_nil_of_length_eq_zero (by rw [length_interval]; omega)

/-- One more word at the end. -/
theorem interval_succ {lo w hi : UInt32} (low : lo ≤ w) (high : w < hi) :
    interval lo (w + 1) = interval lo w ++ [w] := by
  rw [UInt32.le_iff_toNat_le] at low
  have step : w.toNat + 1 - lo.toNat = (w.toNat - lo.toNat) + 1 := by omega
  have last : lo.toNat + (w.toNat - lo.toNat) = w.toNat := by omega
  simp only [interval, toNat_succ high, step, List.range'_concat, List.map_append, List.map_cons,
    List.map_nil, Nat.one_mul, last, UInt32.ofNat_toNat]

theorem getElem_interval {lo hi : UInt32} {i : Nat} (h : i < (interval lo hi).length) :
    (interval lo hi)[i].toNat = lo.toNat + i := by
  have bound := hi.toNat_lt
  rw [length_interval] at h
  simp only [interval, List.getElem_map, List.getElem_range', Nat.one_mul]
  exact toNat_ofNat_of_lt (by simp only [UInt32.size]; omega)

theorem sortedLT_interval (lo hi : UInt32) : (interval lo hi).SortedLT := by
  rw [List.sortedLT_iff_getElem_lt_getElem_of_lt]
  intro i j hi' hj lt
  rw [UInt32.lt_iff_toNat_lt, getElem_interval hi', getElem_interval hj]
  omega

end GlibController.Lib

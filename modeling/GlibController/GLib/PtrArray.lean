import GlibController.GLib.Array

/-!
`GPtrArray`, as an array of pointers to strings.

As `GArray`, it is a class: the operations that the simple model calls, and their
documented behaviour as laws about `strings`, the strings at the pointers below the
length. A removal at a position that is not below the length does nothing.

`g_ptr_array_index` does not check its position, so `index` is a fault outside.

`Strings` is one implementation, used where the model is evaluated.
-/

namespace GlibController

open Lib

/-- `GPtrArray` with pointers to strings. -/
class GPtrArray (PArr : Type) where
  /-- The strings at the pointers below the length. -/
  strings : PArr → List String
  /-- `g_ptr_array_new`. -/
  new : PArr
  /-- `g_ptr_array_add`. -/
  add : PArr → String → Except Fault PArr
  /-- `g_ptr_array_remove_index`. -/
  removeIndex : PArr → Guint → PArr
  length_lt : ∀ arr, (strings arr).length < UInt32.size
  strings_new : strings new = []
  add_ok : ∀ {arr arr' : PArr} {text : String}, add arr text = .ok arr' →
    strings arr' = strings arr ++ [text]
  add_room : ∀ arr text, (strings arr).length + 1 < UInt32.size → ∃ arr', add arr text = .ok arr'
  /-- Removing moves the pointers behind the position one place forward. -/
  strings_removeIndex : ∀ arr (i : Guint),
    strings (removeIndex arr i) = (strings arr).eraseIdx i.toNat

namespace GPtrArray

variable {PArr : Type} [GPtrArray PArr]

attribute [simp] strings_new strings_removeIndex

/-- The `len` member. -/
def len (arr : PArr) : Guint := UInt32.ofNat (strings arr).length

/-- `g_ptr_array_index`. -/
def index (arr : PArr) (i : Gint) : Except Fault String :=
  if i < 0 then .error (.outOfBounds i.toUInt32.toNat (strings arr).length)
  else
    match (strings arr)[i.toUInt32.toNat]? with
    | none => .error (.outOfBounds i.toUInt32.toNat (strings arr).length)
    | some text => .ok text

@[simp] theorem toNat_len (arr : PArr) : (len arr).toNat = (strings arr).length :=
  toNat_ofNat_of_lt (length_lt arr)

theorem index_eq {arr : PArr} {i : Gint} {text : String} (nonneg : 0 ≤ i.toInt)
    (here : (strings arr)[i.toInt.toNat]? = some text) : index arr i = .ok text := by
  have sign : ¬ i < 0 := by
    rw [Int32.lt_iff_toInt_lt, Int32.toInt_zero]
    omega
  unfold index
  rw [if_neg sign, toNat_toUInt32 nonneg, here]

theorem index_of_neg {arr : PArr} {i : Gint} (negative : i < 0) :
    index arr i = .error (.outOfBounds i.toUInt32.toNat (strings arr).length) :=
  if_pos negative

/-- An array with room takes one more string, at its end. -/
theorem add_last (arr : PArr) (text : String) (room : (strings arr).length + 1 < UInt32.size) :
    ∃ arr', add arr text = .ok arr' ∧ strings arr' = strings arr ++ [text] := by
  obtain ⟨arr', added⟩ := add_room arr text room
  exact ⟨arr', added, add_ok added⟩

end GPtrArray

/-- An array as its list of strings. -/
structure Strings where
  data : List String
  bound : data.length < UInt32.size
  deriving DecidableEq, Repr

/-- Addition to a list of strings that has room. -/
def Strings.add (arr : Strings) (text : String) : Except Fault Strings :=
  if room : arr.data.length + 1 < UInt32.size then
    .ok ⟨arr.data ++ [text], by rwa [List.length_append, List.length_singleton]⟩
  else .error .arrayOverflow

instance : GPtrArray Strings where
  strings := Strings.data
  new := ⟨[], by decide⟩
  add := Strings.add
  removeIndex arr i :=
    ⟨arr.data.eraseIdx i.toNat, lt_of_le_of_lt (List.length_eraseIdx_le _ _) arr.bound⟩
  length_lt := Strings.bound
  strings_new := rfl
  add_ok {arr arr' text} h := by
    rw [Strings.add] at h
    split at h
    · cases h
      rfl
    · cases h
  add_room arr text room := ⟨_, dif_pos room⟩
  strings_removeIndex _ _ := rfl

end GlibController

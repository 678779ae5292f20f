import GlibController.Lib.Word

/-!
What the code relies on of GLib: integer types, the ways a call goes wrong, and
`GArray`.

GLib is not part of this repository, so `GArray` is a class: the operations the
index set calls, and their documented behaviour as laws about `elems`, the
elements that `g_array_index` reads at the positions below the length. Two
points of that behaviour carry weight here. Growing an array that was created
with `clear_ = FALSE` adds elements with undefined values, so the law for
`setSize` leaves them open (`junk`). The length is a `guint`, and GLib aborts
rather than grow past `G_MAXUINT` elements.

`g_array_index` does not check its position. `index` is a fault behind the length,
and `read` has what lies there as a parameter (`Behind`).

`Words` is one implementation, used where the model is evaluated. `Blocks` is
another, whose arrays keep their old words behind the length, as GLib's do.
-/

namespace GlibController

open Lib

/-- `guint`. -/
abbrev Guint := UInt32

/-- `gint`. -/
abbrev Gint := Int32

/-- `G_MAXUINT`. -/
def maxUint : Guint := 4294967295

/-- The ways a C call goes wrong. -/
inductive Fault where
  /-- A member of the object at `NULL` is read. -/
  | nullDereference
  /-- An object that was freed, or was never allocated, is used. -/
  | danglingPointer
  /-- An element at a position that is not below the length is read. -/
  | outOfBounds (position length : Nat)
  /-- GLib aborts: an array would grow past `G_MAXUINT` elements. -/
  | arrayOverflow
  /-- A reference that nobody holds is released. -/
  | noReference
  /-- A variadic argument that was not passed is read. -/
  | missingArgument
  /-- A `g_value_get_*` function is called on a value of another type. -/
  | wrongValueType
  /-- A `g_assert` does not hold. -/
  | assertionFailed
  deriving DecidableEq, Repr

/-- `g_assert`, and the comparisons `g_assert_cmpint` and `g_assert_cmpstr`. -/
def gAssert (p : Prop) [Decidable p] : Except Fault Unit :=
  if p then .ok () else .error .assertionFailed

theorem gAssert_bind_iff {α : Type} {p : Prop} [Decidable p] {rest : Except Fault α} {a : α} :
    (gAssert p >>= fun _ => rest) = .ok a ↔ p ∧ rest = .ok a := by
  unfold gAssert
  split
  next holds => exact (and_iff_right holds).symm
  next fails =>
    constructor
    · rintro ⟨⟩
    · rintro ⟨holds, -⟩
      exact absurd holds fails

/-- `GArray` with `guint` elements, neither zero-terminated nor cleared. -/
class GArray (Arr : Type) where
  /-- The elements below the length. -/
  elems : Arr → List Guint
  /-- `g_array_new (FALSE, FALSE, sizeof (guint))`. -/
  new : Arr
  /-- `g_array_set_size`. -/
  setSize : Arr → Guint → Arr
  /-- `g_array_insert_val`: array, position, value. -/
  insertVal : Arr → Guint → Guint → Except Fault Arr
  length_lt : ∀ arr, (elems arr).length < UInt32.size
  elems_new : elems new = []
  /-- Shrinking keeps the first elements. Growing keeps all elements and adds
  undefined ones. -/
  elems_setSize : ∀ arr (n : Guint), ∃ junk : List Guint,
    elems (setSize arr n) = (elems arr).take n.toNat ++ junk ∧
      junk.length = n.toNat - (elems arr).length
  /-- Inserting moves the elements from the position on one place back. -/
  insertVal_ok : ∀ {arr arr' : Arr} {i x : Guint}, i.toNat ≤ (elems arr).length →
    insertVal arr i x = .ok arr' → elems arr' = (elems arr).insertIdx i.toNat x
  insertVal_room : ∀ arr (i x : Guint), i.toNat ≤ (elems arr).length →
    (elems arr).length + 1 < UInt32.size → ∃ arr', insertVal arr i x = .ok arr'

namespace GArray

variable {Arr : Type} [GArray Arr]

attribute [simp] elems_new

/-- The `len` member. -/
def len (arr : Arr) : Guint := UInt32.ofNat (elems arr).length

/-- `g_array_index (arr, guint, i)`, which does not check its position. -/
def index (arr : Arr) (i : Guint) : Except Fault Guint :=
  match (elems arr)[i.toNat]? with
  | some x => .ok x
  | none => .error (.outOfBounds i.toNat (elems arr).length)

/-- What lies behind the length of an array: at each position a word of the block that
the array once had there, or nothing that can be read. -/
abbrev Behind (Arr : Type) := Arr → Guint → Except Fault Guint

/-- `g_array_index (arr, guint, i)`, with what it reads behind the length. -/
def read (behind : Behind Arr) (arr : Arr) (i : Guint) : Except Fault Guint :=
  match (elems arr)[i.toNat]? with
  | some x => .ok x
  | none => behind arr i

@[simp] theorem toNat_len (arr : Arr) : (len arr).toNat = (elems arr).length :=
  toNat_ofNat_of_lt (length_lt arr)

theorem index_of_lt {arr : Arr} {i : Guint} (h : i.toNat < (elems arr).length) :
    index arr i = .ok (elems arr)[i.toNat] := by
  rw [index, List.getElem?_eq_getElem h]

theorem index_of_ge {arr : Arr} {i : Guint} (h : (elems arr).length ≤ i.toNat) :
    index arr i = .error (.outOfBounds i.toNat (elems arr).length) := by
  rw [index, List.getElem?_eq_none h]

theorem read_of_lt {arr : Arr} {i : Guint} (behind : Behind Arr)
    (h : i.toNat < (elems arr).length) : read behind arr i = index arr i := by
  rw [index_of_lt h, read, List.getElem?_eq_getElem h]

theorem read_of_ge {arr : Arr} {i : Guint} (behind : Behind Arr)
    (h : (elems arr).length ≤ i.toNat) : read behind arr i = behind arr i := by
  rw [read, List.getElem?_eq_none h]

/-- Emptying an array. -/
@[simp] theorem elems_setSize_zero (arr : Arr) : elems (setSize arr 0) = [] := by
  obtain ⟨junk, helems, hjunk⟩ := elems_setSize arr 0
  rw [UInt32.toNat_zero, Nat.zero_sub] at hjunk
  rw [helems, List.eq_nil_of_length_eq_zero hjunk]
  rfl

/-- Whatever the undefined elements are, `setSize` gives the array the length asked for. -/
theorem length_setSize (arr : Arr) (n : Guint) : (elems (setSize arr n)).length = n.toNat := by
  obtain ⟨junk, helems, hjunk⟩ := elems_setSize arr n
  rw [helems, List.length_append, List.length_take, hjunk]
  omega

/-- Shrinking leaves nothing undefined. -/
theorem elems_setSize_of_le {arr : Arr} {n : Guint} (h : n.toNat ≤ (elems arr).length) :
    elems (setSize arr n) = (elems arr).take n.toNat := by
  obtain ⟨junk, helems, hjunk⟩ := elems_setSize arr n
  rw [helems, List.eq_nil_of_length_eq_zero (hjunk.trans (Nat.sub_eq_zero_of_le h)),
    List.append_nil]

end GArray

/-! ### One implementation -/

/-- An array as its list of elements. -/
structure Words where
  data : List Guint
  bound : data.length < UInt32.size
  deriving DecidableEq, Repr

/-- Insertion into a list of words that has room. -/
def Words.insert (arr : Words) (i x : Guint) : Except Fault Words :=
  if room : arr.data.length + 1 < UInt32.size then
    .ok ⟨arr.data.insertIdx i.toNat x,
      lt_of_le_of_lt List.length_insertIdx_le_succ room⟩
  else .error .arrayOverflow

/-- The elements that growing adds are zero here: one of the values they may have. -/
def Words.resize (arr : Words) (n : Guint) : Words :=
  ⟨arr.data.take n.toNat ++ List.replicate (n.toNat - arr.data.length) 0, by
    have bound := toNat_lt_size n
    rw [List.length_append, List.length_take, List.length_replicate]
    omega⟩

instance : GArray Words where
  elems := Words.data
  new := ⟨[], by decide⟩
  setSize := Words.resize
  insertVal := Words.insert
  length_lt := Words.bound
  elems_new := rfl
  elems_setSize arr n := ⟨List.replicate (n.toNat - arr.data.length) 0, rfl, by simp⟩
  insertVal_ok {arr arr' i x} _ h := by
    rw [Words.insert] at h
    split at h
    · cases h
      rfl
    · cases h
  insertVal_room arr i x _ room := ⟨_, dif_pos room⟩

/-! ### An implementation with blocks -/

/-- An array as a block of words. Those below the length are its elements. -/
structure Blocks where
  block : List Guint
  length : Nat
  inside : length ≤ block.length
  bound : length < UInt32.size
  deriving DecidableEq, Repr

namespace Blocks

def data (arr : Blocks) : List Guint := arr.block.take arr.length

theorem length_data (arr : Blocks) : arr.data.length = arr.length := by
  rw [data, List.length_take, Nat.min_eq_left arr.inside]

/-- The elements from the position on move over the word behind them. -/
def insert (arr : Blocks) (i x : Guint) : Except Fault Blocks :=
  let inserted := arr.data.insertIdx i.toNat x
  if room : arr.length + 1 < UInt32.size then
    .ok ⟨inserted ++ arr.block.drop (arr.length + 1), inserted.length,
      by rw [List.length_append]; exact Nat.le_add_right _ _,
      lt_of_le_of_lt (List.length_insertIdx_le_succ.trans_eq (congrArg (· + 1) arr.length_data)) room⟩
  else .error .arrayOverflow

/-- The block grows where it has to, by words that are zero here. It never shrinks. -/
def resize (arr : Blocks) (n : Guint) : Blocks where
  block := arr.block ++ List.replicate (n.toNat - arr.block.length) 0
  length := n.toNat
  inside := by rw [List.length_append, List.length_replicate]; omega
  bound := toNat_lt_size n

/-- The words of the block are there, also behind the length. -/
def behind (arr : Blocks) (i : Guint) : Except Fault Guint :=
  match arr.block[i.toNat]? with
  | some x => .ok x
  | none => .error (.outOfBounds i.toNat arr.length)

theorem data_resize (arr : Blocks) (n : Guint) :
    (arr.resize n).data = arr.data.take n.toNat ++ ((arr.resize n).data).drop arr.length := by
  have inside := arr.inside
  have first : ((arr.resize n).data).take arr.length = arr.data.take n.toNat := by
    rw [data, data, resize, List.take_take, List.take_take, Nat.min_comm,
      List.take_append_of_le_length (by omega)]
  rw [← first, List.take_append_drop]

end Blocks

instance : GArray Blocks where
  elems := Blocks.data
  new := ⟨[], 0, Nat.le_refl _, by decide⟩
  setSize := Blocks.resize
  insertVal := Blocks.insert
  length_lt arr := arr.length_data.trans_lt arr.bound
  elems_new := rfl
  elems_setSize arr n := ⟨((arr.resize n).data).drop arr.length, arr.data_resize n, by
    rw [List.length_drop, Blocks.length_data, Blocks.length_data, Blocks.resize]⟩
  insertVal_ok {arr arr' i x} _ h := by
    rw [Blocks.insert] at h
    split at h
    · cases h
      exact List.take_left
    · cases h
  insertVal_room arr i x _ room := ⟨_, dif_pos (by rwa [Blocks.length_data] at room)⟩

/-- An emptied array is a new one only if it never had a word. -/
theorem Blocks.emptied_eq_new (arr : Blocks) :
    GArray.setSize arr 0 = GArray.new ↔ arr.block = [] := by
  obtain ⟨block, length, inside, bound⟩ := arr
  show Blocks.mk _ _ _ _ = Blocks.mk _ _ _ _ ↔ _
  simp

end GlibController

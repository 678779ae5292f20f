import GlibController.GLib.Array

/-!
Values that carry their type (`GValue`), arrays of them (`GValueArray`), the
collection of values from variadic arguments (`G_VALUE_COLLECT_INIT`) and their
delivery to return locations among such arguments (`G_VALUE_LCOPY`).

The contents of a value depend on its type, so a value whose contents belong to
another type cannot be written. `GType.other` stands for every further type; its
contents are a code. Distinct types of the model are not compatible with each
other.

`GValueArray`, `ValueCollector` and `ValueLocation` are what the sources rely on from
GLib. Lists of values implement the first, and variables of a type the last.
-/

namespace GlibController

open Lib

/-! ### Types and values -/

/-- `GType`. -/
inductive GType where
  | invalid
  | int
  | uint
  | string
  | pointer
  | other (id : Nat)
  deriving DecidableEq, Repr

namespace GType

/-- What a value of the type holds. A string and a pointer may be `NULL`. -/
abbrev Payload : GType → Type
  | invalid => Unit
  | int => Gint
  | uint => Guint
  | string => Option String
  | pointer => Nat
  | other _ => Nat

instance (t : GType) : DecidableEq t.Payload := by
  cases t <;> exact inferInstance

/-- The contents of a value just initialised. -/
def zero : (t : GType) → t.Payload
  | invalid => ()
  | int => 0
  | uint => 0
  | string => none
  | pointer => 0
  | other _ => 0

end GType

/-- `GValue`. -/
structure GValue where
  gType : GType
  data : gType.Payload
  deriving DecidableEq

namespace GValue

/-- A value with all bytes zero: not initialised. -/
def unset : GValue := ⟨.invalid, ()⟩

/-- `g_value_init`. -/
def init (t : GType) : GValue := ⟨t, t.zero⟩

/-- `g_value_copy`: a destination of another type is left alone. -/
def copy (src dest : GValue) : GValue :=
  if src.gType = dest.gType then src else dest

/-- The functions `g_value_get_int` and so on. -/
def get (t : GType) (value : GValue) : Except Fault t.Payload :=
  if h : value.gType = t then .ok (h ▸ value.data) else .error .wrongValueType

/-- A copy into a value initialised with the same type is the value. -/
@[simp] theorem copy_init (value : GValue) : value.copy (init value.gType) = value :=
  if_pos rfl

theorem get_eq_ok {t : GType} {value : GValue} (h : value.gType = t) :
    ∃ data, value.get t = .ok data :=
  ⟨_, dif_pos h⟩

end GValue

/-! ### Arrays of values -/

/-- `GValueArray`. -/
class GValueArray (VArr : Type) where
  /-- The values below `n_values`. -/
  values : VArr → List GValue
  /-- `g_value_array_new`, with room for a number of values. -/
  new : Guint → VArr
  /-- `g_value_array_insert`: array, position, value. `NULL` inserts a value that is
  not initialised. -/
  insert : VArr → Guint → Option GValue → Except Fault VArr
  /-- An assignment through `&arr->values[i]`. -/
  store : VArr → Guint → GValue → VArr
  /-- `g_value_array_copy`. -/
  copy : VArr → VArr
  length_lt : ∀ arr, (values arr).length < UInt32.size
  values_new : ∀ n, values (new n) = []
  /-- Inserting copies the value to the position and moves the values from there on
  one place back. -/
  insert_ok : ∀ {arr arr' : VArr} {i : Guint} {value : Option GValue},
    i.toNat ≤ (values arr).length → insert arr i value = .ok arr' →
      values arr' = (values arr).insertIdx i.toNat (value.getD GValue.unset)
  insert_room : ∀ arr (i : Guint) value, i.toNat ≤ (values arr).length →
    (values arr).length + 1 < UInt32.size → ∃ arr', insert arr i value = .ok arr'
  values_store : ∀ arr (i : Guint) value,
    values (store arr i value) = (values arr).set i.toNat value
  values_copy : ∀ arr, values (copy arr) = values arr

namespace GValueArray

variable {VArr : Type} [GValueArray VArr]

attribute [simp] values_new values_store values_copy

/-- The `n_values` member. -/
def nValues (arr : VArr) : Guint := UInt32.ofNat (values arr).length

/-- `g_value_array_get_nth`: `NULL` at a position that is not below `n_values`. -/
def getNth (arr : VArr) (i : Guint) : Option GValue := (values arr)[i.toNat]?

/-- `g_value_array_append`. -/
def append (arr : VArr) (value : Option GValue) : Except Fault VArr :=
  insert arr (nValues arr) value

@[simp] theorem toNat_nValues (arr : VArr) : (nValues arr).toNat = (values arr).length :=
  toNat_ofNat_of_lt (length_lt arr)

theorem append_ok {arr arr' : VArr} {value : Option GValue} (h : append arr value = .ok arr') :
    values arr' = values arr ++ [value.getD GValue.unset] := by
  rw [insert_ok (toNat_nValues arr).le h, toNat_nValues, List.insertIdx_length_self]

theorem append_room {arr : VArr} (value : Option GValue)
    (room : (values arr).length + 1 < UInt32.size) : ∃ arr', append arr value = .ok arr' :=
  insert_room arr _ value (toNat_nValues arr).le room

end GValueArray

/-- An array as its list of values. -/
structure Values where
  data : List GValue
  bound : data.length < UInt32.size
  deriving DecidableEq

/-- Insertion into a list of values that has room. -/
def Values.insert (arr : Values) (i : Guint) (value : Option GValue) : Except Fault Values :=
  if room : arr.data.length + 1 < UInt32.size then
    .ok ⟨arr.data.insertIdx i.toNat (value.getD GValue.unset),
      lt_of_le_of_lt List.length_insertIdx_le_succ room⟩
  else .error .arrayOverflow

instance : GValueArray Values where
  values := Values.data
  new _ := ⟨[], by decide⟩
  insert := Values.insert
  store arr i value := ⟨arr.data.set i.toNat value, by rw [List.length_set]; exact arr.bound⟩
  copy arr := arr
  length_lt := Values.bound
  values_new _ := rfl
  insert_ok {arr arr' i value} _ h := by
    rw [Values.insert] at h
    split at h
    · cases h
      rfl
    · cases h
  insert_room arr i value _ room := ⟨_, dif_pos room⟩
  values_store _ _ _ := rfl
  values_copy _ := rfl

/-! ### Collection -/

/-- The `collect_value` functions of the types: what collecting from an argument
leaves in a value, and the error message, if there is one. `Arg` is what one
collection takes from the variadic arguments. -/
class ValueCollector (Arg : Type) where
  collectValue : (t : GType) → Arg → t.Payload × Option String

/-- `G_VALUE_COLLECT_INIT`: the value has the type even after an error. -/
def collectInit {Arg : Type} [ValueCollector Arg] (t : GType) (arg : Arg) :
    GValue × Option String :=
  let (data, error) := ValueCollector.collectValue t arg
  (⟨t, data⟩, error)

/-- The arguments that C programs pass for the types of the typed accessors, and for object
types. -/
inductive Vararg where
  | word (w : Guint)
  | string (s : Option String)
  | address (p : Nat)
  /-- The address of an object, with the type that the object says it is of. -/
  | object (id p : Nat)
  deriving DecidableEq, Repr

instance : ValueCollector Vararg where
  collectValue
    | .int, .word w => (w.toInt32, none)
    | .uint, .word w => (w, none)
    | .string, .string s => (s, none)
    | .pointer, .address p => (p, none)
    | .other id, .object id' p =>
        if id' = id then (p, none) else (0, some "invalid object type")
    | t, _ => (t.zero, some "no value of the type")

/-! ### Delivery -/

/-- The return locations that a caller passes for `G_VALUE_LCOPY`. -/
class ValueLocation (Loc : Type) where
  /-- The location takes values of the type. -/
  Valid : GType → Loc → Prop
  /-- The value that is in the location, if the location is one. -/
  load : Loc → Option GValue
  /-- The `lcopy_value` functions of the types: the location after the copy, and the
  error message, if there is one. -/
  lcopyValue : GValue → Loc → Loc × Option String
  /-- A valid location receives the value. -/
  lcopyValue_valid : ∀ {value : GValue} {loc : Loc}, Valid value.gType loc →
    ∃ loc', lcopyValue value loc = (loc', none) ∧ load loc' = some value

/-- The locations that C programs pass: `NULL`, or the address of a variable. -/
inductive ReturnLocation where
  | null
  | address (held : GValue)
  deriving DecidableEq

namespace ReturnLocation

def load : ReturnLocation → Option GValue
  | null => none
  | address held => some held

def lcopyValue (value : GValue) : ReturnLocation → ReturnLocation × Option String
  | null => (null, some "value location passed as NULL")
  | address held =>
      if held.gType = value.gType then (address value, none)
      else (address held, some "location of another type")

end ReturnLocation

instance valueLocationReturnLocation : ValueLocation ReturnLocation where
  Valid t loc := ∃ held, loc.load = some held ∧ held.gType = t
  load := ReturnLocation.load
  lcopyValue := ReturnLocation.lcopyValue
  lcopyValue_valid {value loc} h := by
    obtain ⟨held, hload, same⟩ := h
    cases loc with
    | null => cases hload
    | address here =>
        cases hload
        exact ⟨.address value, if_pos same, rfl⟩

end GlibController

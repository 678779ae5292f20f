import GlibController.Lib.Loop
import GlibController.GLib.Array

/-!
The index set (`gindexset.c`, `gindexset.h`, `grange.h`).

A set is a reference count and an array that is `NULL` until the first
initialiser runs. The functions that take one set act on the set itself;
`Store` holds any number of them at addresses, and `Store.exec` is one call of
the public interface through pointers, with the `g_return_if_fail` guards on
`NULL`. `initWithSet` takes two pointers that may be equal, so it is defined on
the store alone.

`enumerate` uses a variable `i` and a bound `len` that the source never
declares. `i` is read as a `guint`, and `Bound` names the two readings of `len`.
-/

namespace GlibController

open Lib

/-- `GRange`. -/
structure GRange where
  location : Guint
  length : Guint
  deriving DecidableEq, Repr

/-- `GIndexSetPredicate`. -/
inductive GIndexSetPredicate where
  | lessThan
  | lessThanOrEqual
  | greaterThanOrEqual
  | greaterThan
  deriving DecidableEq, Repr

/-- The comparison a predicate makes between an element and the bound. -/
def GIndexSetPredicate.holds (predicate : GIndexSetPredicate) (idx index_ : Guint) : Bool :=
  match predicate with
  | .lessThan => idx < index_
  | .lessThanOrEqual => idx ≤ index_
  | .greaterThanOrEqual => idx ≥ index_
  | .greaterThan => idx > index_

/-- `GIndexSet`. -/
structure GIndexSet (Arr : Type) where
  refCount : Gint
  indices : Option Arr
  deriving DecidableEq, Repr

namespace GIndexSet

open GArray

variable {Arr : Type} [GArray Arr]

/-- `G_INDEX_NOT_FOUND`, which is `G_MAXINT`. -/
def indexNotFound : Guint := 2147483647

/-- `G_INDEX_SET_ENUMERATE_REVERSE`. -/
def enumerateReverse : Guint := 1

/-! ### Initialisers -/

def alloc : GIndexSet Arr := ⟨1, none⟩

/-- The opening lines that `init`, `initWithIndex` and `initWithSet` share: a new
array, or the old one emptied. -/
def emptied (set : GIndexSet Arr) : Arr :=
  match set.indices with
  | none => new
  | some arr => setSize arr 0

def init (set : GIndexSet Arr) : GIndexSet Arr :=
  { set with indices := some (emptied set) }

def initWithIndex (set : GIndexSet Arr) (index_ : Guint) : Except Fault (GIndexSet Arr) := do
  let arr ← insertVal (emptied set) 0 index_
  return { set with indices := some arr }

/-- One pass of the loop in `initWithRange`. -/
def rangePass (range : GRange) (i : Guint) (arr : Arr) : Except Fault (Flow Arr Empty) := do
  let arr ← insertVal arr (i - range.location) i
  return .next arr

/-- The loop of `initWithRange`: its guard compares `i` with the length of the
range, not with its end. -/
def rangeLoop (range : GRange) (arr : Arr) : Except Fault (Flow Arr Empty) :=
  forBelow (fun _ => range.length) (rangePass range) range.location arr

/-- A reused array is resized to the length of the range, not emptied. -/
def resized (set : GIndexSet Arr) (range : GRange) : Arr :=
  match set.indices with
  | none => new
  | some arr => setSize arr range.length

def initWithRange (set : GIndexSet Arr) (range : GRange) : Except Fault (GIndexSet Arr) := do
  match ← rangeLoop range (resized set range) with
  | .next arr => return { set with indices := some arr }

/-! ### Queries -/

def count (set : GIndexSet Arr) : Guint :=
  match set.indices with
  | none => indexNotFound
  | some arr => len arr

/-- A loop over the array that returns at the first element with an answer. -/
def scan (arr : Arr) (test : Guint → Option ρ) : Except Fault (Flow Unit ρ) :=
  forBelow (fun _ => len arr) (fun i _ => do
    let idx ← index arr i
    return Flow.ofOption (test idx)) 0 ()

def containsIndex (set : GIndexSet Arr) (index_ : Guint) : Except Fault Bool :=
  match set.indices with
  | none => .ok false
  | some arr => do
      match ← scan arr (fun idx => if index_ = idx then some true else none) with
      | .done found => return found
      | .next _ => return false

def firstIndex (set : GIndexSet Arr) : Except Fault Guint :=
  match set.indices with
  | none => .ok indexNotFound
  | some arr => index arr 0

def lastIndex (set : GIndexSet Arr) : Except Fault Guint :=
  match set.indices with
  | none => .ok indexNotFound
  | some arr => index arr (len arr - 1)

def getIndex (set : GIndexSet Arr) (predicate : GIndexSetPredicate) (index_ : Guint) :
    Except Fault Guint :=
  match set.indices with
  | none => .ok indexNotFound
  | some arr => do
      match ← scan arr (fun idx => if predicate.holds idx index_ then some idx else none) with
      | .done idx => return idx
      | .next _ => return indexNotFound

/-! ### Enumeration -/

/-- The two readings of the undeclared loop bound `len`. -/
inductive Bound where
  /-- The computed variable `end`. -/
  | computedEnd
  /-- `set->indices->len`. -/
  | arrayLen
  deriving DecidableEq, Repr

/-- The counter, the indices the callback was called on, in order, and the user data. -/
structure EnumState (σ : Type) where
  i : Guint
  visited : List Guint
  data : σ
  deriving DecidableEq, Repr

/-- One pass of `for (i = start; i <= bound; i += step)`. -/
def enumeratePass {σ : Type} (arr : Arr) (bound step : Guint) (func : Guint → σ → Bool × σ)
    (s : EnumState σ) : Except Fault (Flow (EnumState σ) (List Guint × σ)) :=
  if s.i ≤ bound then do
    let idx ← index arr s.i
    let (stop, data) := func idx s.data
    if stop then return .done (s.visited ++ [idx], data)
    else return .next ⟨s.i + step, s.visited ++ [idx], data⟩
  else return .done (s.visited, s.data)

/-- The variables `start`, `end` and `step`. -/
def enumerateSetup (arr : Arr) (flags : Guint) : Guint × Guint × Guint :=
  if flags &&& enumerateReverse ≠ 0 then (len arr - 1, 0, -1) else (0, len arr - 1, 1)

/-- `g_index_set_enumerate`, with the calls it makes and the final user data.
`none` says that `fuel` passes were not enough. -/
def enumerate {σ : Type} (reading : Bound) (fuel : Nat) (set : GIndexSet Arr) (flags : Guint)
    (func : Guint → σ → Bool × σ) (data : σ) : Option (Except Fault (List Guint × σ)) :=
  match set.indices with
  | none => some (.error .nullDereference)
  | some arr =>
      let (start, end_, step) := enumerateSetup arr flags
      let bound := match reading with
        | .computedEnd => end_
        | .arrayLen => len arr
      runFuel (enumeratePass arr bound step func) fuel ⟨start, [], data⟩

end GIndexSet

/-! ### The store -/

/-- A pointer to an index set: `none` is `NULL`. -/
abbrev SetPtr := Option Nat

/-- Memory that holds index sets: the set at each address, and the first address
that no set was allocated at. -/
structure Store (Arr : Type) where
  sets : Nat → Option (GIndexSet Arr)
  fresh : Nat

namespace Store

open GArray

variable {Arr : Type} [GArray Arr]

def empty : Store Arr := ⟨fun _ => none, 0⟩

def deref (st : Store Arr) (addr : Nat) : Except Fault (GIndexSet Arr) :=
  match st.sets addr with
  | none => .error .danglingPointer
  | some set => .ok set

def write (st : Store Arr) (addr : Nat) (set : GIndexSet Arr) : Store Arr :=
  { st with sets := Function.update st.sets addr (some set) }

/-- `addr->indices`, about to be read through. -/
def indicesAt (st : Store Arr) (addr : Nat) : Except Fault Arr := do
  match (← st.deref addr).indices with
  | none => .error .nullDereference
  | some arr => return arr

/-- `addr->indices = arr`. -/
def setIndices (st : Store Arr) (addr : Nat) (arr : Arr) : Except Fault (Store Arr) := do
  let set ← st.deref addr
  return st.write addr { set with indices := some arr }

def alloc (st : Store Arr) : Store Arr × SetPtr :=
  ({ (st.write st.fresh GIndexSet.alloc) with fresh := st.fresh + 1 }, some st.fresh)

/-- A function of one set, called through a pointer that is checked against
`NULL` and returned. -/
def through (st : Store Arr) (set : SetPtr)
    (f : GIndexSet Arr → Except Fault (GIndexSet Arr)) : Except Fault (Store Arr × SetPtr) :=
  match set with
  | none => .ok (st, none)
  | some addr => do
      let set' ← f (← st.deref addr)
      return (st.write addr set', some addr)

/-- The count is a word, which wraps. -/
def ref (st : Store Arr) (set : SetPtr) : Except Fault (Store Arr × SetPtr) :=
  st.through set fun s => .ok { s with refCount := s.refCount + 1 }

/-- The reference that brings the count to zero frees the set. -/
def unref (st : Store Arr) (set : SetPtr) : Except Fault (Store Arr × SetPtr) :=
  match set with
  | none => .ok (st, none)
  | some addr => do
      let s ← st.deref addr
      if s.refCount = 1 then
        return ({ st with sets := Function.update st.sets addr none }, none)
      else return (st.write addr { s with refCount := s.refCount - 1 }, none)

def init (st : Store Arr) (set : SetPtr) : Except Fault (Store Arr × SetPtr) :=
  st.through set fun s => .ok s.init

def initWithIndex (st : Store Arr) (set : SetPtr) (index_ : Guint) :
    Except Fault (Store Arr × SetPtr) :=
  st.through set fun s => s.initWithIndex index_

def initWithRange (st : Store Arr) (set : SetPtr) (range : Option GRange) :
    Except Fault (Store Arr × SetPtr) :=
  match set, range with
  | none, _ => .ok (st, none)
  | some addr, none => .ok (st, some addr)
  | some addr, some r => st.through (some addr) fun s => s.initWithRange r

/-- `source->indices->len`, read before every pass. The pointer is not `NULL` once
the loop is entered. -/
def sourceLen (source : Nat) (st : Store Arr) : Guint :=
  match st.indicesAt source with
  | .ok arr => len arr
  | .error _ => 0

/-- One pass of the loop in `initWithSet`. -/
def copyPass (set source : Nat) (i : Guint) (st : Store Arr) :
    Except Fault (Flow (Store Arr) Empty) := do
  let idx ← index (← st.indicesAt source) i
  let arr ← insertVal (← st.indicesAt set) i idx
  return .next (← st.setIndices set arr)

/-- The target is emptied before the source is read: `set` and `source` may be
one object. -/
def initWithSet (st : Store Arr) (set source : SetPtr) : Except Fault (Store Arr × SetPtr) :=
  match set, source with
  | none, _ => .ok (st, none)
  | some a, none => .ok (st, some a)
  | some a, some b => do
      let st ← st.setIndices a (← st.deref a).emptied
      match (← st.deref b).indices with
      | none => return (st, some a)
      | some _ =>
          match ← forBelow (sourceLen b) (copyPass a b) 0 st with
          | .next st => return (st, some a)

/-- One call of the public interface that makes or changes a set. -/
inductive Call where
  | alloc
  | ref (set : SetPtr)
  | unref (set : SetPtr)
  | init (set : SetPtr)
  | initWithIndex (set : SetPtr) (index_ : Guint)
  | initWithRange (set : SetPtr) (range : Option GRange)
  | initWithSet (set source : SetPtr)
  deriving DecidableEq, Repr

/-- The call, with the pointer it returns. -/
def exec (st : Store Arr) : Call → Except Fault (Store Arr × SetPtr)
  | .alloc => .ok st.alloc
  | .ref set => st.ref set
  | .unref set => st.unref set
  | .init set => st.init set
  | .initWithIndex set index_ => st.initWithIndex set index_
  | .initWithRange set range => st.initWithRange set range
  | .initWithSet set source => st.initWithSet set source

end Store

end GlibController

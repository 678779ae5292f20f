import GlibController.Lib.Ledger
import GlibController.Lib.Loop
import GlibController.GLib.Array

/-!
Reference counts, and objects with virtual destructors (`GObject`).

A class is the pair of its `dispose` and `finalize` slots. `defineType` copies the
slots of the parent and runs the class initialiser on the copy, so a slot that the
initialiser does not set is inherited. `ref`, `unref` and `runDispose` are the
functions of `GObject`: `runDispose` calls the `dispose` slot, and the last `unref`
the `dispose` slot and then, without a reference left, the `finalize` slot.

An `Instance` is one object together with the surroundings its functions change.
Its `marks` record what happened to it; no function reads them.
-/

namespace GlibController

open Lib

/-! ### Reference counts -/

/-- How many references there are on each thing. A thing that is freed, or not
allocated, has none. -/
abbrev RefCounts (α : Type) := α → Nat

namespace RefCounts

variable {α : Type} [DecidableEq α]

def ref (counts : RefCounts α) (a : α) : Except Fault (RefCounts α) :=
  if counts a = 0 then .error .danglingPointer
  else .ok (Function.update counts a (counts a + 1))

def unref (counts : RefCounts α) (a : α) : Except Fault (RefCounts α) :=
  if counts a = 0 then .error .noReference
  else .ok (Function.update counts a (counts a - 1))

/-- `if (p != NULL) ref (p)`. -/
def refPtr (counts : RefCounts α) : Option α → Except Fault (RefCounts α)
  | none => .ok counts
  | some a => counts.ref a

/-- `if (p != NULL) unref (p)`. -/
def unrefPtr (counts : RefCounts α) : Option α → Except Fault (RefCounts α)
  | none => .ok counts
  | some a => counts.unref a

variable {counts : RefCounts α}

theorem ref_eq {a : α} (h : 0 < counts a) : counts.ref a = .ok (plus counts (some a)) := by
  rw [ref, if_neg h.ne', update_succ]

theorem unref_eq {a : α} (h : 0 < counts a) : counts.unref a = .ok (minus counts a) :=
  if_neg h.ne'

theorem refPtr_eq {p : Option α} (h : ∀ a, p = some a → 0 < counts a) :
    counts.refPtr p = .ok (plus counts p) := by
  cases p with
  | none => rw [plus_none, refPtr]
  | some a => exact ref_eq (h a rfl)

/-- A reference that was counted can be released. -/
theorem unrefPtr_plus (counts : RefCounts α) (p : Option α) :
    unrefPtr (plus counts p) p = .ok counts := by
  cases p with
  | none => rw [plus_none, unrefPtr]
  | some a => rw [unrefPtr, unref_eq (by simp), minus_plus]

end RefCounts

/-! ### Objects and classes -/

/-- What happens to an object. -/
inductive Mark where
  /-- The `dispose` function of its own class begins. -/
  | dispose
  /-- The `dispose` function of `GObject` runs. -/
  | parentDispose
  /-- The `finalize` function of `GObject` runs, at a reference count. -/
  | parentFinalize (refCount : Nat)
  /-- A reference that the object holds is released. -/
  | release
  /-- An array that the object owns is freed. -/
  | free
  /-- A property notification is emitted. -/
  | notify
  deriving DecidableEq, Repr

def Mark.isParentFinalize : Mark → Bool
  | .parentFinalize _ => true
  | _ => false

structure GObject (Priv : Type) where
  refCount : Nat
  priv : Priv
  marks : List Mark

/-- An object within its surroundings. -/
structure Instance (Env Priv : Type) extends GObject Priv where
  env : Env

section Classes

variable {Env Priv : Type}

def Instance.mark (o : Instance Env Priv) (m : Mark) : Instance Env Priv :=
  { o with marks := o.marks ++ [m] }

def Instance.withCount (o : Instance Env Priv) (n : Nat) : Instance Env Priv :=
  { o with refCount := n }

/-- A virtual function without arguments. -/
abbrev Slot (Env Priv : Type) := Instance Env Priv → Except Fault (Instance Env Priv)

/-- `GObjectClass`, as far as destruction goes. -/
structure Slots (Env Priv : Type) where
  dispose : Slot Env Priv
  finalize : Slot Env Priv

/-- The class of `GObject`. -/
def objectClass : Slots Env Priv where
  dispose o := .ok (o.mark .parentDispose)
  finalize o := .ok (o.mark (.parentFinalize o.refCount))

/-- `G_DEFINE_TYPE`: the class initialiser sees the parent class, and changes a copy
of its slots. -/
def defineType (parent : Slots Env Priv) (classInit : Slots Env Priv → Slots Env Priv → Slots Env Priv) :
    Slots Env Priv :=
  classInit parent parent

namespace Slots

/-- `g_object_ref`. -/
def ref (o : Instance Env Priv) : Except Fault (Instance Env Priv) :=
  if o.refCount = 0 then .error .danglingPointer
  else .ok (o.withCount (o.refCount + 1))

/-- `g_object_unref`. -/
def unref (klass : Slots Env Priv) (o : Instance Env Priv) : Except Fault (Instance Env Priv) :=
  if o.refCount = 0 then .error .noReference
  else if 1 < o.refCount then .ok (o.withCount (o.refCount - 1))
  else do
    let o ← klass.dispose o
    -- the function may have taken a new reference
    if 1 < o.refCount then return o.withCount (o.refCount - 1)
    else klass.finalize (o.withCount 0)

/-- `g_object_run_dispose`. -/
def runDispose (klass : Slots Env Priv) (o : Instance Env Priv) :
    Except Fault (Instance Env Priv) := do
  let o ← ref o
  let o ← klass.dispose o
  klass.unref o

end Slots

end Classes

/-! ### The fields of an updated object -/

section Fields

variable {Env Priv : Type} (o : Instance Env Priv) (m : Mark) (n : Nat)

@[simp] theorem Instance.mark_refCount : (o.mark m).refCount = o.refCount := rfl

@[simp] theorem Instance.mark_priv : (o.mark m).priv = o.priv := rfl

@[simp] theorem Instance.mark_env : (o.mark m).env = o.env := rfl

@[simp] theorem Instance.mark_marks : (o.mark m).marks = o.marks ++ [m] := rfl

@[simp] theorem Instance.withCount_refCount : (o.withCount n).refCount = n := rfl

@[simp] theorem Instance.withCount_priv : (o.withCount n).priv = o.priv := rfl

@[simp] theorem Instance.withCount_env : (o.withCount n).env = o.env := rfl

@[simp] theorem Instance.withCount_marks : (o.withCount n).marks = o.marks := rfl

end Fields

/-! ### Classes that leave the count alone -/

section KeepsCount

variable {Env Priv : Type}

/-- The `dispose` slot neither takes nor drops references on its own object. -/
def Slots.KeepsCount (klass : Slots Env Priv) : Prop :=
  ∀ o o', klass.dispose o = .ok o' → o'.refCount = o.refCount

variable {klass : Slots Env Priv} {o : Instance Env Priv}

theorem Slots.ref_eq (h : 0 < o.refCount) : Slots.ref o = .ok (o.withCount (o.refCount + 1)) :=
  if_neg h.ne'

/-- An `unref` that is not the last only counts. -/
theorem Slots.unref_many (h : 1 < o.refCount) :
    klass.unref o = .ok (o.withCount (o.refCount - 1)) := by
  rw [Slots.unref, if_neg (by omega), if_pos h]

/-- The last `unref` disposes and finalises. -/
theorem Slots.unref_last (keeps : klass.KeepsCount) (h : o.refCount = 1) :
    klass.unref o = klass.dispose o >>= fun d => klass.finalize (d.withCount 0) := by
  rw [Slots.unref, if_neg (by omega), if_neg (by omega)]
  cases hd : klass.dispose o with
  | error e => rfl
  | ok d =>
      have count := keeps o d hd
      rw [ok_bind, ok_bind, if_neg (by omega)]

/-- `runDispose` is the `dispose` slot, run with one more reference. -/
theorem Slots.runDispose_eq (keeps : klass.KeepsCount) (h : 0 < o.refCount) :
    klass.runDispose o = klass.dispose (o.withCount (o.refCount + 1)) >>= fun d =>
      .ok (d.withCount o.refCount) := by
  rw [Slots.runDispose, Slots.ref_eq h, ok_bind]
  cases hd : klass.dispose (o.withCount (o.refCount + 1)) with
  | error e => rfl
  | ok d =>
      have count : d.refCount = o.refCount + 1 := keeps _ d hd
      rw [ok_bind, ok_bind, Slots.unref_many (by omega), count, Nat.add_sub_cancel]

end KeepsCount

/-! ### Runs -/

/-- A call on one object that counts or disposes. -/
inductive ObjectCall where
  | ref
  | unref
  | runDispose
  deriving DecidableEq, Repr

namespace Slots

variable {Env Priv : Type}

def call (klass : Slots Env Priv) (o : Instance Env Priv) :
    ObjectCall → Except Fault (Instance Env Priv)
  | .ref => ref o
  | .unref => klass.unref o
  | .runDispose => klass.runDispose o

/-- The calls, in order. -/
def calls (klass : Slots Env Priv) (o : Instance Env Priv) :
    List ObjectCall → Except Fault (Instance Env Priv)
  | [] => .ok o
  | c :: cs => do klass.calls (← klass.call o c) cs

/-- Invariant rule: what every call keeps, a sequence of calls keeps. -/
theorem calls_invariant {klass : Slots Env Priv} (Inv : Instance Env Priv → Prop)
    (keep : ∀ o c o', Inv o → klass.call o c = .ok o' → Inv o') {o o' : Instance Env Priv}
    {cs : List ObjectCall} (init : Inv o) (run : klass.calls o cs = .ok o') : Inv o' := by
  induction cs generalizing o with
  | nil =>
      cases run
      exact init
  | cons c cs ih =>
      obtain ⟨next, hnext, rest⟩ := bind_eq_ok.mp run
      exact ih (keep o c next init hnext) rest

end Slots

end GlibController

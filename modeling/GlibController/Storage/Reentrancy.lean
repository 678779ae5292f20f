import GlibController.Lib.Reentrancy
import GlibController.Storage.Lockstep

/-!
A storage controller and the code that runs inside its functions.

Dropping the last reference on a storage runs the destroy functions of its elements,
after the count has become zero and before the `unref` returns; the setter then
notifies its handlers, with a reference on the controller in hand. Both are code of the
application, which may call the controller again. `Reentry` has the functions of a
controller with these two points in them, and `Reentry.alone_enter` says that they are
those of `Storage.Controller` when nobody interferes. `destroys` are the storages with
destroy functions.

The setter and `dispose` release the old storage while the controller still points at
it. Where that is not the last reference on a storage with destroy functions (`Spared`),
nobody is called there, and only the handlers of the setter are.
-/

namespace GlibController

open Lib StorageController

/-! ### The functions, with the code they call -/

/-- A function of a storage controller that may call other code. -/
abbrev StorageCode := Reentrant StorageController Fault StorageController

/-- The virtual functions of a storage controller, with the code they call. -/
structure StorageCodeSlots where
  dispose : StorageController → StorageCode
  finalize : StorageController → StorageCode

namespace Reentry

variable (destroys : Storage → Bool)

/-- `unref` of a storage. The count is zero before the destroy functions run. -/
def unrefStorage (o : StorageController) (s : Storage) : StorageCode := do
  let env ← .lift (o.env.unref s)
  let dropped : StorageController := { o with env }
  if env s = 0 ∧ destroys s = true then .callOut dropped else return dropped

/-- `if (priv->array != NULL)` and the `unref` behind it. The pointer is still set. -/
def unrefHeld (kind : StorageKind) (o : StorageController) : StorageCode :=
  match o.priv.storage with
  | none => return o
  | some addr => unrefStorage destroys o ⟨kind, addr⟩

def releaseStorage (kind : StorageKind) (o : StorageController) : StorageCode :=
  match o.priv.storage with
  | none => return o
  | some addr => do
      let o ← unrefStorage destroys o ⟨kind, addr⟩
      let released : StorageController := { o with priv := ⟨none⟩ }
      return released.mark .release

def dispose (kind : StorageKind) (parent : StorageCodeSlots) (o : StorageController) :
    StorageCode := do
  let o ← releaseStorage destroys kind (o.mark .dispose)
  parent.dispose o

/-- The slots of `GController`. -/
def parentSlots : StorageCodeSlots where
  dispose o := .lift (GController.slots.dispose o)
  finalize o := .lift (GController.slots.finalize o)

/-- The class initialisers. -/
def slots : StorageKind → StorageCodeSlots
  | .array => { parentSlots with dispose := dispose destroys .array parentSlots }
  | .ptrArray => { parentSlots with finalize := dispose destroys .ptrArray parentSlots }
  | .hash => { parentSlots with dispose := dispose destroys .hash parentSlots }

/-- `g_object_unref`. -/
def unref (klass : StorageCodeSlots) (o : StorageController) : StorageCode :=
  if o.refCount = 0 then .fault .noReference
  else if 1 < o.refCount then return o.withCount (o.refCount - 1)
  else do
    let o ← klass.dispose o
    if 1 < o.refCount then return o.withCount (o.refCount - 1)
    else klass.finalize (o.withCount 0)

/-- `g_object_run_dispose`. -/
def runDispose (klass : StorageCodeSlots) (o : StorageController) : StorageCode := do
  let o ← .lift (Slots.ref o)
  let o ← klass.dispose o
  unref klass o

/-- `g_object_notify_by_pspec`: it holds a reference while the handlers run. -/
def notify (klass : StorageCodeSlots) (o : StorageController) : StorageCode := do
  let o ← .lift (Slots.ref o)
  let o ← .callOut o
  unref klass o

/-- The setter, with the handlers of the notification. -/
def setStorage (kind : StorageKind) (o : StorageController) (storage : Option Nat) :
    StorageCode :=
  if o.priv.storage = storage then return o
  else do
    let o ← unrefHeld destroys kind o
    let env ← .lift (o.env.refPtr (kind.at storage))
    let stored : StorageController := { o with priv := ⟨storage⟩, env }
    notify (slots destroys kind) (stored.mark .notify)

/-- An operation on a controller of a kind. -/
def enter (kind : StorageKind) (o : StorageController) : StorageOp → StorageCode
  | .set storage =>
      if o.refCount = 0 then .fault .danglingPointer else setStorage destroys kind o storage
  | .get => if o.refCount = 0 then .fault .danglingPointer else return o
  | .runDispose => runDispose (slots destroys kind) o
  | .unref => unref (slots destroys kind) o

/-! ### Nobody interferes -/

section Alone

variable {destroys} {kind : StorageKind} {o : StorageController}

@[simp] theorem alone_unrefStorage (o : StorageController) (s : Storage) :
    (unrefStorage destroys o s).alone = o.env.unref s >>= fun env => .ok { o with env } := by
  unfold unrefStorage
  rw [Reentrant.alone_bind, Reentrant.alone_lift]
  congr 1
  funext env
  split <;> rfl

theorem alone_unrefHeld (o : StorageController) :
    (unrefHeld destroys kind o).alone =
      o.env.unrefPtr (kind.at o.priv.storage) >>= fun env => .ok { o with env } := by
  unfold unrefHeld
  cases o.priv.storage with
  | none => rfl
  | some addr => exact alone_unrefStorage o ⟨kind, addr⟩

theorem alone_dispose (o : StorageController) :
    (dispose destroys kind parentSlots o).alone =
      StorageController.dispose kind GController.slots o := by
  unfold dispose StorageController.dispose releaseStorage StorageController.releaseStorage
  rw [Reentrant.alone_bind]
  cases hp : (o.mark .dispose).priv.storage with
  | none => rfl
  | some addr =>
      dsimp only
      rw [Reentrant.alone_bind, alone_unrefStorage]
      cases (o.mark .dispose).env.unref ⟨kind, addr⟩ with
      | error e => rfl
      | ok env => rfl

theorem alone_slots (destroys : Storage → Bool) (kind : StorageKind) (o : StorageController) :
    ((slots destroys kind).dispose o).alone = kind.slots.dispose o ∧
      ((slots destroys kind).finalize o).alone = kind.slots.finalize o := by
  cases kind with
  | array => exact ⟨alone_dispose o, rfl⟩
  | ptrArray => exact ⟨rfl, alone_dispose o⟩
  | hash => exact ⟨alone_dispose o, rfl⟩

theorem alone_unref (o : StorageController) :
    (unref (slots destroys kind) o).alone = kind.slots.unref o := by
  unfold unref Slots.unref
  split
  · rfl
  · split
    · rfl
    · rw [Reentrant.alone_bind, (alone_slots destroys kind o).1]
      congr 1
      funext d
      split
      · rfl
      · exact (alone_slots destroys kind _).2

theorem alone_runDispose (o : StorageController) :
    (runDispose (slots destroys kind) o).alone = kind.slots.runDispose o := by
  unfold runDispose Slots.runDispose
  rw [Reentrant.alone_bind, Reentrant.alone_lift]
  congr 1
  funext o
  rw [Reentrant.alone_bind, (alone_slots destroys kind o).1]
  congr 1
  funext d
  exact alone_unref d

/-- Handlers that do nothing leave the controller as it was. -/
theorem alone_notify (alive : 0 < o.refCount) :
    (notify (slots destroys kind) o).alone = .ok o := by
  have many : 1 < (o.withCount (o.refCount + 1)).refCount := Nat.succ_lt_succ alive
  unfold notify
  rw [Slots.ref_eq alive, Reentrant.lift_ok, Reentrant.done_bind, Reentrant.alone_bind,
    Reentrant.alone_callOut, ok_bind, alone_unref, Slots.unref_many many]
  rfl

theorem alone_setStorage (alive : 0 < o.refCount) (storage : Option Nat) :
    (setStorage destroys kind o storage).alone = StorageController.setStorage kind o storage := by
  unfold setStorage StorageController.setStorage
  split
  · rfl
  · rw [Reentrant.alone_bind, alone_unrefHeld]
    cases o.env.unrefPtr (kind.at o.priv.storage) with
    | error e => rfl
    | ok env =>
        simp only [ok_bind, Reentrant.alone_bind, Reentrant.alone_lift]
        congr 1
        funext stored
        exact alone_notify alive

/-- Without other code, an operation is the operation of the controller. -/
theorem alone_enter (destroys : Storage → Bool) (kind : StorageKind) (o : StorageController)
    (op : StorageOp) : (enter destroys kind o op).alone = op.exec kind o := by
  unfold enter StorageOp.exec
  cases op with
  | set storage =>
      dsimp only
      split
      next => rfl
      next alive => rw [alone_setStorage (Nat.pos_of_ne_zero alive), StorageKind.set_eq]
  | get =>
      dsimp only
      split <;> rfl
  | runDispose => exact alone_runDispose o
  | unref => exact alone_unref o

end Alone

/-! ### Nobody is called -/

section Quiet

variable {destroys : Storage → Bool} {kind : StorageKind} {o : StorageController}

/-- The reference of the controller on its storage is not the last, or there are no
destroy functions to run. -/
def Spared (destroys : Storage → Bool) (kind : StorageKind) (o : StorageController) : Prop :=
  ∀ s, kind.at o.priv.storage = some s → destroys s = true → 1 < o.env s

theorem quiet_unrefStorage {s : Storage} (spared : destroys s = true → 1 < o.env s) :
    (unrefStorage destroys o s).Quiet := by
  unfold unrefStorage RefCounts.unref
  split
  · exact Reentrant.quiet_fault _
  · rw [Reentrant.lift_ok, Reentrant.done_bind, Function.update_self]
    split
    next last =>
      have many := spared last.2
      omega
    next => exact Reentrant.quiet_done _

theorem quiet_unrefHeld (spared : Spared destroys kind o) : (unrefHeld destroys kind o).Quiet := by
  unfold unrefHeld
  cases hp : o.priv.storage with
  | none => exact Reentrant.quiet_done _
  | some addr => exact quiet_unrefStorage (spared _ (congrArg kind.at hp))

theorem quiet_dispose (spared : Spared destroys kind o) :
    (dispose destroys kind parentSlots o).Quiet := by
  unfold dispose releaseStorage
  apply Reentrant.Quiet.bind
  · cases hp : (o.mark .dispose).priv.storage with
    | none => exact Reentrant.quiet_done _
    | some addr =>
        have held : kind.at o.priv.storage = some ⟨kind, addr⟩ := congrArg kind.at hp
        apply Reentrant.Quiet.bind (quiet_unrefStorage (o := o.mark .dispose) (spared _ held))
        intro d _
        exact Reentrant.quiet_done _
  · intro d _
    exact Reentrant.quiet_done _

theorem quiet_dispose_slot (spared : kind.wiring = .inDispose → Spared destroys kind o) :
    ((slots destroys kind).dispose o).Quiet := by
  cases kind with
  | array => exact quiet_dispose (spared rfl)
  | ptrArray => exact Reentrant.quiet_done _
  | hash => exact quiet_dispose (spared rfl)

theorem quiet_unref (spared : o.refCount = 1 → Spared destroys kind o) :
    (unref (slots destroys kind) o).Quiet := by
  unfold unref
  split
  next => exact Reentrant.quiet_fault _
  next alive =>
    split
    next => exact Reentrant.quiet_done _
    next last =>
      have here := spared (by omega)
      apply Reentrant.Quiet.bind (quiet_dispose_slot fun _ => here)
      intro d disposed
      split
      · exact Reentrant.quiet_done _
      · cases kind with
        | array => exact Reentrant.quiet_done _
        | hash => exact Reentrant.quiet_done _
        | ptrArray =>
            -- the storage is still there: the slot before was that of the parent
            cases disposed
            exact quiet_dispose here

theorem quiet_runDispose (spared : kind.wiring = .inDispose → Spared destroys kind o) :
    (runDispose (slots destroys kind) o).Quiet := by
  unfold runDispose
  apply Reentrant.Quiet.bind (Reentrant.quiet_lift _)
  intro taken run
  rw [Reentrant.alone_lift, Slots.ref] at run
  split at run
  · cases run
  · cases run
    apply Reentrant.Quiet.bind
      (quiet_dispose_slot (o := o.withCount (o.refCount + 1)) spared)
    intro d disposed
    apply quiet_unref
    intro one
    rw [(alone_slots destroys kind _).1] at disposed
    have count : d.refCount = o.refCount + 1 := kind.keepsCount _ d disposed
    omega

end Quiet

/-! ### The destroy functions run -/

section Last

variable {destroys : Storage → Bool} {kind : StorageKind} {o : StorageController}
  {others : RefCounts Storage} {addr : Nat}

/-- Other code runs while the controller still points at the storage, and only the
references of the others are left. -/
def Exposes (addr : Nat) (others : RefCounts Storage) (code : StorageCode) : Prop :=
  ∃ seen resume, code = .foreign seen resume ∧ seen.priv.storage = some addr ∧ seen.env = others

theorem Exposes.bind {code : StorageCode} (exposes : Exposes addr others code)
    (f : StorageController → StorageCode) : Exposes addr others (code >>= f) := by
  obtain ⟨seen, resume, rfl, rest⟩ := exposes
  exact ⟨seen, _, rfl, rest⟩

/-- The last reference on a storage of destroy functions. -/
structure Last (destroys : Storage → Bool) (kind : StorageKind) (others : RefCounts Storage)
    (addr : Nat) (o : StorageController) : Prop where
  points : o.priv.storage = some addr
  counts : o.env = plus others (some ⟨kind, addr⟩)
  last : others ⟨kind, addr⟩ = 0
  runs : destroys ⟨kind, addr⟩ = true

theorem unrefStorage_exposes (h : Last destroys kind others addr o) :
    Exposes addr others (unrefStorage destroys o ⟨kind, addr⟩) := by
  refine ⟨{ o with env := others }, .done, ?_, h.points, rfl⟩
  unfold unrefStorage
  rw [h.counts, RefCounts.unref_eq (by simp), minus_plus, Reentrant.lift_ok, Reentrant.done_bind,
    if_pos ⟨h.last, h.runs⟩]
  rfl

theorem setStorage_exposes (h : Last destroys kind others addr o) {storage : Option Nat}
    (other : o.priv.storage ≠ storage) :
    Exposes addr others (setStorage destroys kind o storage) := by
  unfold setStorage unrefHeld
  rw [if_neg other, h.points]
  exact (unrefStorage_exposes h).bind _

theorem dispose_exposes (h : Last destroys kind others addr o) :
    Exposes addr others (dispose destroys kind parentSlots o) := by
  have marked : Last destroys kind others addr (o.mark .dispose) :=
    ⟨h.points, h.counts, h.last, h.runs⟩
  unfold dispose releaseStorage
  rw [marked.points]
  exact ((unrefStorage_exposes marked).bind _).bind _

theorem runDispose_exposes (h : Last destroys kind others addr o) (alive : 0 < o.refCount)
    (wired : kind.wiring = .inDispose) :
    Exposes addr others (runDispose (slots destroys kind) o) := by
  have taken : Last destroys kind others addr (o.withCount (o.refCount + 1)) :=
    ⟨h.points, h.counts, h.last, h.runs⟩
  unfold runDispose
  rw [Slots.ref_eq alive, Reentrant.lift_ok, Reentrant.done_bind]
  cases kind with
  | array => exact (dispose_exposes taken).bind _
  | ptrArray => cases wired
  | hash => exact (dispose_exposes taken).bind _

theorem unref_exposes (h : Last destroys kind others addr o) (one : o.refCount = 1) :
    Exposes addr others (unref (slots destroys kind) o) := by
  unfold unref
  rw [if_neg (by omega), if_neg (by omega)]
  cases kind with
  | array => exact (dispose_exposes h).bind _
  | hash => exact (dispose_exposes h).bind _
  | ptrArray =>
      have parent : (slots destroys .ptrArray).dispose o = .done (o.mark .parentDispose) := rfl
      have finalized : Last destroys .ptrArray others addr ((o.mark .parentDispose).withCount 0) :=
        ⟨h.points, h.counts, h.last, h.runs⟩
      rw [parent, Reentrant.done_bind, if_neg (by rw [Instance.mark_refCount]; omega)]
      exact dispose_exposes finalized

end Last

end Reentry

end GlibController

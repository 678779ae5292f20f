import GlibController.Storage.Reentrancy

/-!
Calls of a storage controller nested in its own functions.

A session is a controller and the code around it, which holds references of its own
(`Elsewhere`), and which may call the controller again from every point where it is
called out to. The controller is `Safe` in a state when its getter returns a storage on
which it still holds a reference, and when it has not released a reference of others.

`Spares` is the condition on a turn: it does not make the controller drop the last
reference on a storage with destroy functions. `safe_of_run` says that sessions of such
turns, however deep, are safe throughout and never fault, and that the first turn which
is not one leads to a state that is not safe.
-/

namespace GlibController

open Lib StorageController

/-! ### The code around a controller -/

/-- The references that the code around a controller holds: on storages, and on the
controller. -/
structure Elsewhere where
  storages : RefCounts Storage
  controller : Nat

/-- What the code around a controller does by itself. -/
inductive OwnStep where
  | newStorage (s : Storage)
  | refStorage (s : Storage)
  | unrefStorage (s : Storage)
  | refController
  deriving DecidableEq, Repr

def OwnStep.exec (o : StorageController) (other : Elsewhere) :
    OwnStep → Except Fault (StorageController × Elsewhere)
  | .newStorage s =>
      .ok ({ o with env := plus o.env (some s) },
        { other with storages := plus other.storages (some s) })
  | .refStorage s => do
      let env ← o.env.ref s
      return ({ o with env }, { other with storages := plus other.storages (some s) })
  | .unrefStorage s => do
      let env ← o.env.unref s
      return ({ o with env }, { other with storages := minus other.storages s })
  | .refController => do
      let o ← Slots.ref o
      return (o, { other with controller := other.controller + 1 })

/-- The caller of `unref` gives up a reference. -/
def StorageOp.hand (other : Elsewhere) : StorageOp → Elsewhere
  | .unref => { other with controller := other.controller - 1 }
  | _ => other

abbrev ControllerSession := Session StorageController Elsewhere Fault

abbrev ControllerTurn := Turn StorageOp OwnStep

namespace StorageKind

variable (kind : StorageKind) (destroys : Storage → Bool)

def program : Program StorageController Elsewhere Fault StorageOp OwnStep where
  enter op o := Reentry.enter destroys kind o op
  hand op other := op.hand other
  own step o other := step.exec o other

/-- A new controller, and its first reference in the hands of the caller. -/
def Begins (o : StorageController) (other : Elsewhere) : Prop :=
  kind.new other.storages = .ok o ∧ other.controller = 1

/-- The sessions of a controller. -/
def sessions : Machine ControllerSession ControllerTurn :=
  (kind.program destroys).machine kind.Begins

end StorageKind

/-! ### Conditions on a turn -/

section Conditions

variable (kind : StorageKind) (destroys : Storage → Bool)

/-- The other code holds a reference on the storage, or is handed it out by the getter. -/
def Reaches (x : ControllerSession) (s : Storage) : Prop :=
  0 < x.other.storages s ∨ kind.at (kind.get x.state) = some s

/-- The other code reaches what it passes, holds what it drops, and calls a controller
that is not finalised. A new storage is in memory that is free. -/
def TurnHolds (x : ControllerSession) : ControllerTurn → Prop
  | .call (.set storage) => 0 < x.state.refCount ∧ ∀ s, kind.at storage = some s → Reaches kind x s
  | .call .get => 0 < x.state.refCount
  | .call .runDispose => 0 < x.state.refCount
  | .call .unref => 0 < x.other.controller
  | .own (.newStorage s) => x.state.env s = 0
  | .own (.refStorage s) => Reaches kind x s
  | .own (.unrefStorage s) => 0 < x.other.storages s
  | .own .refController => 0 < x.state.refCount
  | .ret => True

/-- The turn makes the controller release the storage it points at. The return from a
notification gives up the reference that was held for it. -/
def Releases (x : ControllerSession) : ControllerTurn → Prop
  | .call (.set storage) => x.state.priv.storage ≠ storage
  | .call .get => False
  | .call .runDispose => kind.wiring = .inDispose
  | .call .unref => x.state.refCount = 1
  | .own _ => False
  | .ret => x.frames ≠ [] ∧ x.state.refCount = 1

/-- A storage that the turn makes the controller release has another reference on it, or
no destroy functions. -/
def Spares (x : ControllerSession) (turn : ControllerTurn) : Prop :=
  Releases kind x turn → ∀ s, kind.at x.state.priv.storage = some s → destroys s = true →
    0 < x.other.storages s

/-- What the other code can rely on where it runs: what the getter returns is held by
the controller as well, and no reference of others was released. -/
structure Safe (x : ControllerSession) : Prop where
  getter : ∀ s, kind.at (kind.get x.state) = some s → x.other.storages s < x.state.env s
  others : ∀ s, x.other.storages s ≤ x.state.env s

end Conditions

/-! ### The invariant -/

/-- The counts of the storages are those of the other code and the one of the
controller. The references on the controller are those of the other code and one for
every notification that goes on. -/
structure Held (kind : StorageKind) (depth : Nat) (o : StorageController) (other : Elsewhere) :
    Prop where
  counts : o.env = plus other.storages (kind.at o.priv.storage)
  refs : o.refCount = other.controller + depth

/-- What waits to be resumed is the end of a notification. -/
def Notifying (kind : StorageKind) (destroys : Storage → Bool)
    (resume : StorageController → StorageCode) : Prop :=
  resume = Reentry.unref (Reentry.slots destroys kind)

section Invariant

variable {kind : StorageKind} {destroys : Storage → Bool} {o : StorageController}
  {other : Elsewhere} {x : ControllerSession} {depth : Nat}

theorem held_begins (begins : kind.Begins o other) : Held kind 0 o other := by
  obtain ⟨run, one⟩ := begins
  rw [StorageKind.new_ok] at run
  cases run
  exact ⟨(plus_none _).symm, one.symm⟩

theorem Held.own (held : Held kind depth o other) (s : Storage) :
    o.env s = other.storages s + if kind.at o.priv.storage = some s then 1 else 0 := by
  rw [held.counts]
  rfl

/-- The reference of the controller is the last exactly if the other code has none. -/
theorem Held.spared_iff (held : Held kind depth o other) :
    Reentry.Spared destroys kind o ↔
      ∀ s, kind.at o.priv.storage = some s → destroys s = true → 0 < other.storages s := by
  unfold Reentry.Spared
  constructor
  · intro spared s points runs
    have many := spared s points runs
    rw [held.own, if_pos points] at many
    omega
  · intro others s points runs
    have other := others s points runs
    rw [held.own, if_pos points]
    omega

theorem safe_of_held (held : Held kind depth x.state x.other) : Safe kind x where
  getter s returned := by
    rw [StorageKind.get_eq] at returned
    rw [held.own, if_pos (show kind.at x.state.priv.storage = some s from returned)]
    omega
  others s := by
    rw [held.own]
    omega

/-- A storage that the other code reaches has references. -/
theorem Held.pos_of_reaches (held : Held kind depth x.state x.other) {s : Storage}
    (reaches : Reaches kind x s) : 0 < x.state.env s := by
  rw [held.own]
  rcases reaches with other | returned
  · omega
  · rw [StorageKind.get_eq] at returned
    rw [if_pos (show kind.at x.state.priv.storage = some s from returned)]
    omega

/-- The steps of the other code keep the invariant. -/
theorem held_own (held : Held kind depth x.state x.other) {step : OwnStep}
    (holds : TurnHolds kind x (.own step)) :
    ∃ o other, step.exec x.state x.other = .ok (o, other) ∧ Held kind depth o other := by
  obtain ⟨counts, refs⟩ := held
  cases step with
  | newStorage s => exact ⟨_, _, rfl, by rw [counts]; exact plus_comm _ _ _, refs⟩
  | refStorage s =>
      have pos := Held.pos_of_reaches ⟨counts, refs⟩ holds
      have run : (OwnStep.refStorage s).exec x.state x.other =
          .ok ({ x.state with env := plus x.state.env (some s) },
            { x.other with storages := plus x.other.storages (some s) }) := by
        simp only [OwnStep.exec, RefCounts.ref_eq pos, ok_bind, pure_eq_ok]
      exact ⟨_, _, run, by rw [counts]; exact plus_comm _ _ _, refs⟩
  | unrefStorage s =>
      have own : 0 < x.other.storages s := holds
      have pos : 0 < x.state.env s := Held.pos_of_reaches ⟨counts, refs⟩ (.inl own)
      have run : (OwnStep.unrefStorage s).exec x.state x.other =
          .ok ({ x.state with env := minus x.state.env s },
            { x.other with storages := minus x.other.storages s }) := by
        simp only [OwnStep.exec, RefCounts.unref_eq pos, ok_bind, pure_eq_ok]
      exact ⟨_, _, run, by rw [counts]; exact minus_plus_of_pos _ own, refs⟩
  | refController =>
      have run : OwnStep.refController.exec x.state x.other =
          .ok (x.state.withCount (x.state.refCount + 1),
            { x.other with controller := x.other.controller + 1 }) := by
        simp only [OwnStep.exec, Slots.ref_eq (o := x.state) holds, ok_bind, pure_eq_ok]
      refine ⟨_, _, run, counts, ?_⟩
      rw [Instance.withCount_refCount, refs]
      exact Nat.add_right_comm _ _ _

/-! ### The calls -/

/-- A computation that calls nobody meets what holds after it. -/
theorem meets_of_quiet {code : StorageCode} (quiet : code.Quiet) {o' : StorageController}
    (run : code.alone = .ok o') (held : Held kind depth o' other) :
    code.Meets (Held kind) (Notifying kind destroys) depth other := by
  rw [quiet, run]
  exact held

/-- A reference on the controller is dropped, and its storage is spared. -/
theorem meets_unref (counts : o.env = plus other.storages (kind.at o.priv.storage))
    (refs : o.refCount = other.controller + depth + 1)
    (spared : o.refCount = 1 → Reentry.Spared destroys kind o) :
    (Reentry.unref (Reentry.slots destroys kind) o).Meets (Held kind) (Notifying kind destroys)
      depth other := by
  have alive : 0 < o.refCount := by omega
  obtain ⟨o', run, count, counts', -⟩ := StorageKind.unref_ok counts alive
  have held : Held kind depth o' other := ⟨counts', by omega⟩
  exact meets_of_quiet (Reentry.quiet_unref spared) ((Reentry.alone_unref o).trans run) held

/-- The handlers run with one reference more. -/
theorem meets_notify (held : Held kind depth o other) (alive : 0 < o.refCount) :
    (Reentry.notify (Reentry.slots destroys kind) o).Meets (Held kind) (Notifying kind destroys)
      depth other := by
  unfold Reentry.notify
  rw [Slots.ref_eq alive, Reentrant.lift_ok, Reentrant.done_bind]
  have deeper : Held kind (depth + 1) (o.withCount (o.refCount + 1)) other :=
    ⟨held.counts, congrArg (· + 1) held.refs⟩
  exact ⟨deeper, rfl⟩

/-- The setter with its storage spared: only its handlers run. -/
theorem meets_set (held : Held kind depth x.state x.other) {storage : Option Nat}
    (holds : TurnHolds kind x (.call (.set storage)))
    (spares : Spares kind destroys x (.call (.set storage))) :
    (Reentry.enter destroys kind x.state (.set storage)).Meets (Held kind)
      (Notifying kind destroys) depth x.other := by
  obtain ⟨alive, reaches⟩ := holds
  unfold Reentry.enter Reentry.setStorage
  dsimp only
  rw [if_neg alive.ne']
  split
  next => exact held
  next other =>
    have spared := held.spared_iff.mpr (spares other)
    have released : Reentry.unrefHeld destroys kind x.state =
        .done { x.state with env := x.other.storages } := by
      rw [Reentry.quiet_unrefHeld spared, Reentry.alone_unrefHeld, held.counts,
        RefCounts.unrefPtr_plus]
      rfl
    have exist : ∀ s, kind.at storage = some s → 0 < x.other.storages s := by
      intro s passed
      rcases reaches s passed with own | returned
      · exact own
      · rw [StorageKind.get_eq] at returned
        exact absurd (kind.at_injective (returned.trans passed.symm)) other
    rw [released, Reentrant.done_bind, RefCounts.refPtr_eq exist]
    have stored : Held kind depth
        (Instance.mark ⟨⟨x.state.refCount, ⟨storage⟩, x.state.marks⟩,
          plus x.other.storages (kind.at storage)⟩ .notify) x.other := ⟨rfl, held.refs⟩
    exact meets_notify stored alive

/-- Calls that spare the storage of the controller meet the invariant. -/
theorem meets_enter (held : Held kind depth x.state x.other) {op : StorageOp}
    (holds : TurnHolds kind x (.call op)) (spares : Spares kind destroys x (.call op)) :
    (Reentry.enter destroys kind x.state op).Meets (Held kind) (Notifying kind destroys)
      depth (op.hand x.other) := by
  cases op with
  | set storage => exact meets_set held holds spares
  | get =>
      unfold Reentry.enter
      dsimp only
      rw [if_neg (Nat.pos_iff_ne_zero.mp holds)]
      exact held
  | runDispose =>
      have spared : kind.wiring = .inDispose → Reentry.Spared destroys kind x.state :=
        fun wired => held.spared_iff.mpr (spares wired)
      obtain ⟨o', run, count, counts⟩ := StorageKind.runDispose_ok held.counts holds
      exact meets_of_quiet (Reentry.quiet_runDispose spared)
        ((Reentry.alone_enter destroys kind x.state .runDispose).trans run) ⟨counts, count.trans held.refs⟩
  | unref =>
      have pos : 0 < x.other.controller := holds
      have refs : x.state.refCount = x.other.controller - 1 + depth + 1 := by
        rw [held.refs]
        omega
      apply meets_unref
      · exact held.counts
      · exact refs
      · exact fun one => held.spared_iff.mpr (spares one)

theorem keeps_held (kind : StorageKind) (destroys : Storage → Bool) :
    (kind.program destroys).Keeps
      (fun x turn => TurnHolds kind x turn ∧ Spares kind destroys x turn) (Held kind)
      (Notifying kind destroys) where
  enter _ _ good ok := meets_enter good.holds ok.1 ok.2
  own _ _ good ok := held_own good.holds ok.1
  ret x resume frames good ok waiting := by
    obtain ⟨holds, waits⟩ := good
    obtain rfl : Notifying kind destroys resume := waits resume (waiting ▸ List.mem_cons_self)
    have refs := holds.refs
    rw [waiting, List.length_cons] at refs
    apply meets_unref holds.counts refs
    intro one
    exact holds.spared_iff.mpr (ok.2 ⟨by rw [waiting]; exact List.cons_ne_nil _ _, one⟩)

/-! ### Turns that do not spare the storage -/

/-- A call that releases the last reference exposes the storage before it returns. -/
theorem exposes_enter {addr : Nat}
    (exposed : Reentry.Last destroys kind x.other.storages addr x.state) {op : StorageOp}
    (holds : TurnHolds kind x (.call op)) (releases : Releases kind x (.call op)) :
    Reentry.Exposes addr x.other.storages (Reentry.enter destroys kind x.state op) := by
  unfold Reentry.enter
  cases op with
  | set storage =>
      dsimp only
      rw [if_neg holds.1.ne']
      exact Reentry.setStorage_exposes exposed releases
  | get => exact releases.elim
  | runDispose => exact Reentry.runDispose_exposes exposed holds releases
  | unref => exact Reentry.unref_exposes exposed releases

/-- Where a storage is exposed, the getter returns what the controller has released. -/
theorem not_safe_of_exposes {addr : Nat} (last : x.other.storages ⟨kind, addr⟩ = 0)
    {code : StorageCode} (exposes : Reentry.Exposes addr x.other.storages code) :
    ∃ y, x.settle code = .ok y ∧ ¬ Safe kind y := by
  obtain ⟨seen, resume, rfl, points, counts⟩ := exposes
  refine ⟨_, rfl, ?_⟩
  intro safe
  have returned : kind.at (kind.get seen) = some ⟨kind, addr⟩ := by
    rw [StorageKind.get_eq]
    exact congrArg kind.at points
  have more := safe.getter _ returned
  dsimp only at more
  rw [counts, last] at more
  omega

/-- A turn that does not spare the storage leads to a state that is not safe. -/
theorem not_safe_of_exec (good : x.Good (Held kind) (Notifying kind destroys))
    {turn : ControllerTurn} (holds : TurnHolds kind x turn)
    (spares : ¬ Spares kind destroys x turn) :
    ∃ y, (kind.program destroys).exec x turn = .ok y ∧ ¬ Safe kind y := by
  simp only [Spares, not_forall, Nat.not_lt, Nat.le_zero] at spares
  obtain ⟨releases, s, points, runs, last⟩ := spares
  obtain ⟨addr, pointer, rfl⟩ := Option.map_eq_some_iff.mp points
  have exposed : Reentry.Last destroys kind x.other.storages addr x.state :=
    ⟨pointer, points ▸ good.holds.counts, last, runs⟩
  cases turn with
  | call op =>
      have handed : (op.hand x.other).storages = x.other.storages := by
        cases op <;> rfl
      have exposes := exposes_enter exposed holds releases
      rw [← handed] at last exposes
      exact not_safe_of_exposes (x := { x with other := op.hand x.other }) last exposes
  | own step => exact releases.elim
  | ret =>
      obtain ⟨nested, one⟩ := releases
      obtain ⟨resume, frames, waiting⟩ := List.exists_cons_of_ne_nil nested
      obtain rfl : Notifying kind destroys resume :=
        good.waits resume (waiting ▸ List.mem_cons_self)
      unfold Program.exec
      rw [waiting]
      exact not_safe_of_exposes (x := { x with frames }) last (Reentry.unref_exposes exposed one)

end Invariant

/-! ### Sessions -/

/-- Sessions of calls that spare the storage of the controller are safe at every point
where other code runs, and no turn of a caller that holds what it passes faults. The
next turn keeps the controller safe exactly if it spares the storage as well. -/
theorem safe_of_run {kind : StorageKind} {destroys : Storage → Bool} {x : ControllerSession}
    (run : (kind.sessions destroys).ReachBy
      (fun x turn => TurnHolds kind x turn ∧ Spares kind destroys x turn) x) :
    Safe kind x ∧ ∀ turn, TurnHolds kind x turn →
      ∃ y, (kind.program destroys).exec x turn = .ok y ∧
        (Safe kind y ↔ Spares kind destroys x turn) := by
  have keeps := keeps_held kind destroys
  have good := Program.good_of_reach keeps (fun _ _ => held_begins) run
  refine ⟨safe_of_held good.holds, ?_⟩
  intro turn holds
  by_cases spares : Spares kind destroys x turn
  · obtain ⟨y, next, good'⟩ := Program.exec_good keeps good ⟨holds, spares⟩
    exact ⟨y, next, iff_of_true (safe_of_held good'.holds) spares⟩
  · obtain ⟨y, next, exposed⟩ := not_safe_of_exec good holds spares
    exact ⟨y, next, iff_of_false exposed spares⟩

/-- A handler of the setter unsets the storage again, which the caller still holds. -/
theorem safe_of_run_handler :
    ∃ x : ControllerSession, x.frames.length = 2 ∧ x.state.priv.storage = none ∧ Safe .hash x := by
  have first : (StorageKind.hash.sessions fun _ => true).ReachBy
      (fun x turn => TurnHolds .hash x turn ∧ Spares .hash (fun _ => true) x turn)
      ⟨init fun _ => 0, ⟨fun _ => 0, 1⟩, []⟩ := .start ⟨⟨rfl, rfl⟩, rfl⟩
  have stored := first.step (a := .own (.newStorage ⟨.hash, 0⟩)) (by exact ⟨rfl, False.elim⟩) (by rfl)
  have notified := stored.step (a := .call (.set (some 0)))
    (by exact ⟨⟨Nat.one_pos, by rintro s ⟨⟩; exact .inl Nat.one_pos⟩, by rintro - s ⟨⟩⟩) (by rfl)
  have unset := notified.step (a := .call (.set none))
    (by exact ⟨⟨Nat.two_pos, by rintro s ⟨⟩⟩, by rintro - s ⟨⟩ -; exact Nat.one_pos⟩) (by rfl)
  exact ⟨_, rfl, rfl, (safe_of_run unset).1⟩

/-- The destroy functions of a hash table whose last reference was that of the
controller are handed out the hash table. -/
theorem destroyed_storage_handed_out :
    ¬ ∀ (kind : StorageKind) (destroys : Storage → Bool) (x : ControllerSession),
      (kind.sessions destroys).ReachBy (TurnHolds kind) x → Safe kind x := by
  intro all
  have first : (StorageKind.hash.sessions fun _ => true).ReachBy (TurnHolds .hash)
      ⟨init fun _ => 0, ⟨fun _ => 0, 1⟩, []⟩ := .start ⟨⟨rfl, rfl⟩, rfl⟩
  have stored := first.step (a := .own (.newStorage ⟨.hash, 0⟩)) (by rfl) (by rfl)
  have notified := stored.step (a := .call (.set (some 0)))
    (by exact ⟨Nat.one_pos, by rintro s ⟨⟩; exact .inl Nat.one_pos⟩) (by rfl)
  have returned := notified.step (a := .ret) (by trivial) (by rfl)
  have dropped := returned.step (a := .own (.unrefStorage ⟨.hash, 0⟩))
    (by exact Nat.one_pos) (by rfl)
  have destroying := dropped.step (a := .call (.set none))
    (by exact ⟨Nat.one_pos, by rintro s ⟨⟩⟩) (by rfl)
  exact absurd ((all .hash _ _ destroying).getter ⟨.hash, 0⟩ rfl) (by decide)

end GlibController

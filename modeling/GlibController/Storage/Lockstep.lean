import GlibController.Lib.Machine
import GlibController.Storage.Holding

/-!
The three storage controllers side by side.

`Holder` is what a storage controller is for: it holds at most one storage, and
being disposed drops it. A controller of either wiring refines the holder of that
wiring (`represents_step`), so that what a user sees of a controller is what the
holder shows. `Fits` says for which sequences of operations the two wirings show
the same, and `lockstep_iff` that for these, and no others, the three controllers
are one state machine which keeps to its documentation.
-/

namespace GlibController

open Lib

/-! ### Operations and what is seen -/

/-- An operation on a controller. -/
inductive StorageOp where
  | set (storage : Option Nat)
  | get
  | runDispose
  | unref
  deriving DecidableEq, Repr

/-- The operation on a controller of a kind. A finalised controller takes none. -/
def StorageOp.exec (kind : StorageKind) (o : StorageController) :
    StorageOp → Except Fault StorageController
  | .set storage => if o.refCount = 0 then .error .danglingPointer else kind.set o storage
  | .get => if o.refCount = 0 then .error .danglingPointer else .ok o
  | .runDispose => kind.slots.runDispose o
  | .unref => kind.slots.unref o

/-- The operation, as a step that may not be possible. -/
def StorageKind.step (kind : StorageKind) (o : StorageController) (op : StorageOp) :
    Option StorageController :=
  (op.exec kind o).toOption

/-- What is seen of a controller: the result of its getter, the references on the
storages, and how often the destructors of the parent ran. -/
structure Seen where
  getter : Option Nat
  refs : Nat → Nat
  parentDisposes : Nat
  parentFinalizes : Nat

def StorageKind.see (kind : StorageKind) (o : StorageController) : Seen where
  getter := if o.refCount = 0 then none else kind.get o
  refs addr := o.env ⟨kind, addr⟩
  parentDisposes := o.marks.count .parentDispose
  parentFinalizes := o.marks.countP Mark.isParentFinalize

/-- Corresponding storages of the three kinds have the same references on them. -/
def corresponding (refs : Nat → Nat) : RefCounts Storage := fun storage => refs storage.addr

/-- The controller a sequence of operations makes of a new one. -/
def StorageKind.runNew (kind : StorageKind) (refs : Nat → Nat) (ops : List StorageOp) :
    Option StorageController :=
  (kind.new (corresponding refs)).toOption.bind fun o => run kind.step o ops

/-- What is seen of a new controller after each operation. -/
def StorageKind.traceNew (kind : StorageKind) (refs : Nat → Nat) (ops : List StorageOp) :
    List Seen :=
  match kind.new (corresponding refs) with
  | .error _ => []
  | .ok o => trace kind.step kind.see o ops

/-! ### The abstract controller -/

/-- A holder of at most one storage, with counts of the parent's destructors. -/
structure Holder where
  storage : Option Nat
  live : Bool
  disposes : Nat
  finalizes : Nat
  deriving DecidableEq, Repr

namespace Holder

def new : Holder := ⟨none, true, 0, 0⟩

/-- A live holder after an operation. With its function in the `dispose` slot,
disposing drops the storage. In the `finalize` slot, only the last reference does, and
the parent is disposed twice and not finalised. -/
def next (wiring : Wiring) (h : Holder) : StorageOp → Holder
  | .set storage => { h with storage }
  | .get => h
  | .runDispose =>
      match wiring with
      | .inDispose => { h with storage := none, disposes := h.disposes + 1 }
      | .inFinalize => { h with disposes := h.disposes + 1 }
  | .unref =>
      match wiring with
      | .inDispose => ⟨none, false, h.disposes + 1, h.finalizes + 1⟩
      | .inFinalize => ⟨none, false, h.disposes + 2, h.finalizes⟩

def step (wiring : Wiring) (h : Holder) (op : StorageOp) : Option Holder :=
  if h.live then some (h.next wiring op) else none

theorem step_live {h : Holder} (live : h.live = true) (wiring : Wiring) (op : StorageOp) :
    h.step wiring op = some (h.next wiring op) :=
  if_pos live

theorem step_dead {h : Holder} (dead : h.live = false) (wiring : Wiring) (op : StorageOp) :
    h.step wiring op = none := by
  rw [step, dead, if_neg Bool.false_ne_true]

/-- The references on a storage: those of others, and the holder's own. -/
def see (refs : Nat → Nat) (h : Holder) : Seen where
  getter := if h.live then h.storage else none
  refs addr := refs addr + if h.storage = some addr then 1 else 0
  parentDisposes := h.disposes
  parentFinalizes := h.finalizes

end Holder

/-! ### Refinement -/

/-- A controller in the state of a holder. The parent's `finalize` has not run while
there were references. -/
structure Represents (kind : StorageKind) (refs : Nat → Nat) (o : StorageController) (h : Holder) :
    Prop where
  refCount : o.refCount = if h.live then 1 else 0
  storage : o.priv.storage = h.storage
  counts : o.env = plus (corresponding refs) (kind.at h.storage)
  disposes : o.marks.count .parentDispose = h.disposes
  finalizes : o.marks.filter Mark.isParentFinalize = List.replicate h.finalizes (.parentFinalize 0)

variable {kind : StorageKind} {refs : Nat → Nat} {o : StorageController} {h : Holder}

/-- The count of a storage of the same kind. -/
theorem plus_at (kind : StorageKind) (refs : Nat → Nat) (storage : Option Nat) (addr : Nat) :
    plus (corresponding refs) (kind.at storage) ⟨kind, addr⟩ =
      refs addr + if storage = some addr then 1 else 0 := by
  cases storage <;> simp [plus, corresponding]

theorem Represents.counts_own (rep : Represents kind refs o h) :
    o.env = plus (corresponding refs) (kind.at o.priv.storage) := by
  rw [rep.storage]
  exact rep.counts

theorem Represents.see_eq (rep : Represents kind refs o h) : kind.see o = h.see refs := by
  have finalizes : o.marks.countP Mark.isParentFinalize = h.finalizes := by
    rw [List.countP_eq_length_filter, rep.finalizes, List.length_replicate]
  have getter : (if o.refCount = 0 then none else kind.get o) =
      if h.live then h.storage else none := by
    rw [rep.refCount, StorageKind.get_eq, StorageController.getStorage, rep.storage]
    cases h.live <;> rfl
  have count : (fun addr => o.env ⟨kind, addr⟩) = (h.see refs).refs := by
    funext addr
    rw [rep.counts, plus_at]
    rfl
  simp only [StorageKind.see, getter, rep.disposes, finalizes, count]
  rfl

/-- A storage that is passed exists: somebody else holds a reference on it. -/
def StorageOp.Passes (refs : Nat → Nat) (op : StorageOp) : Prop :=
  ∀ addr, op = .set (some addr) → 0 < refs addr

section Steps

open StorageController

theorem count_disposeMarks (o : StorageController) :
    (disposeMarks o).count .parentDispose = 1 ∧
      (disposeMarks o).filter Mark.isParentFinalize = [] := by
  cases hs : o.priv.storage <;> simp [disposeMarks, hs, Mark.isParentFinalize]

/-- The setter makes the controller hold what it is given. -/
theorem represents_set (rep : Represents kind refs o h) {storage : Option Nat}
    (exist : ∀ addr, storage = some addr → 0 < refs addr) :
    ∃ o', kind.set o storage = .ok o' ∧ Represents kind refs o' { h with storage } := by
  have exist' : ∀ s, kind.at storage = some s → 0 < corresponding refs s := by
    intro s given
    obtain ⟨addr, held, rfl⟩ := Option.map_eq_some_iff.mp given
    exact exist addr held
  obtain ⟨marks, hset, hmarks⟩ := StorageKind.set_ok storage rep.counts_own exist'
  refine ⟨_, hset, rep.refCount, rfl, rfl, ?_, ?_⟩
  · rcases hmarks with rfl | rfl
    · exact rep.disposes
    · simpa [List.count_append] using rep.disposes
  · rcases hmarks with rfl | rfl
    · exact rep.finalizes
    · simpa [List.filter_append, Mark.isParentFinalize] using rep.finalizes

/-- The `dispose` function of the class drops the storage and chains up. -/
theorem represents_disposed (rep : Represents kind refs o h) :
    o.env.unrefPtr (kind.at o.priv.storage) = .ok (corresponding refs) ∧
      Represents kind refs (disposed o (corresponding refs))
        { h with storage := none, disposes := h.disposes + 1 } := by
  obtain ⟨disposes, finalizes⟩ := count_disposeMarks o
  refine ⟨?_, rep.refCount, rfl, (plus_none _).symm, ?_, ?_⟩
  · rw [rep.counts_own, RefCounts.unrefPtr_plus]
  · simp only [disposed, List.count_append, rep.disposes, disposes]
  · simp only [disposed, List.filter_append, rep.finalizes, finalizes, List.append_nil]

theorem represents_parentDispose (rep : Represents kind refs o h) :
    Represents kind refs (o.mark .parentDispose) { h with disposes := h.disposes + 1 } := by
  refine ⟨rep.refCount, rep.storage, rep.counts, ?_, ?_⟩
  · simp [List.count_append, rep.disposes]
  · simpa [List.filter_append, Mark.isParentFinalize] using rep.finalizes

/-- The parent's `finalize` on a controller that holds nothing is the end. -/
theorem represents_parentFinalize (rep : Represents kind refs o h) (released : h.storage = none) :
    Represents kind refs ((o.withCount 0).mark (.parentFinalize 0))
      ⟨none, false, h.disposes, h.finalizes + 1⟩ := by
  refine ⟨rfl, rep.storage.trans released, released ▸ rep.counts, ?_, ?_⟩
  · simp [List.count_append, rep.disposes]
  · simp [List.filter_append, Mark.isParentFinalize, rep.finalizes, List.replicate_succ']

theorem represents_dead (rep : Represents kind refs o h) (released : h.storage = none) :
    Represents kind refs (o.withCount 0) ⟨none, false, h.disposes, h.finalizes⟩ :=
  ⟨rfl, rep.storage.trans released, released ▸ rep.counts, rep.disposes, rep.finalizes⟩

theorem represents_runDispose (rep : Represents kind refs o h) (live : h.live = true) :
    ∃ o', kind.slots.runDispose o = .ok o' ∧
      Represents kind refs o' (h.next kind.wiring .runDispose) := by
  have one : o.refCount = 1 := by rw [rep.refCount, live, if_pos rfl]
  rw [Slots.runDispose_eq kind.keepsCount (by omega)]
  cases hw : kind.wiring with
  | inDispose =>
      obtain ⟨hunref, rep'⟩ := represents_disposed rep
      rw [StorageKind.dispose_inDispose hw, Instance.withCount_env, Instance.withCount_priv, hunref]
      exact ⟨_, rfl, rep'⟩
  | inFinalize =>
      rw [StorageKind.dispose_inFinalize hw]
      exact ⟨_, rfl, represents_parentDispose rep⟩

theorem represents_unref (rep : Represents kind refs o h) (live : h.live = true) :
    ∃ o', kind.slots.unref o = .ok o' ∧
      Represents kind refs o' (h.next kind.wiring .unref) := by
  have one : o.refCount = 1 := by rw [rep.refCount, live, if_pos rfl]
  rw [Slots.unref_last kind.keepsCount one]
  cases hw : kind.wiring with
  | inDispose =>
      obtain ⟨hunref, rep'⟩ := represents_disposed rep
      rw [StorageKind.dispose_inDispose hw, hunref, ok_bind, ok_bind,
        StorageKind.finalize_inDispose hw]
      exact ⟨_, rfl, represents_parentFinalize rep' rfl⟩
  | inFinalize =>
      obtain ⟨hunref, rep'⟩ := represents_disposed (represents_parentDispose rep)
      rw [Instance.mark_env, Instance.mark_priv] at hunref
      rw [StorageKind.dispose_inFinalize hw, ok_bind, StorageKind.finalize_inFinalize hw,
        Instance.withCount_env, Instance.withCount_priv, Instance.mark_env, Instance.mark_priv, hunref]
      exact ⟨_, rfl, represents_dead rep' rfl⟩

/-- A controller refines the holder of its wiring. -/
theorem represents_step (kind : StorageKind) (refs : Nat → Nat) :
    StepsLike (Represents kind refs) (StorageOp.Passes refs) kind.step
      (Holder.step kind.wiring) := by
  intro o h op rep passes
  cases live : h.live with
  | false =>
      have dead : o.refCount = 0 := by simp [rep.refCount, live]
      have faults : kind.step o op = none := by
        cases op <;> simp [StorageKind.step, StorageOp.exec, Slots.runDispose, Slots.unref,
          Slots.ref, dead, Except.toOption]
      rw [faults, Holder.step_dead live]
      exact .none
  | true =>
      have alive : ¬ o.refCount = 0 := by simp [rep.refCount, live]
      rw [Holder.step_live live, StorageKind.step]
      cases op with
      | set storage =>
          obtain ⟨o', hset, rep'⟩ := represents_set rep
            fun addr (given : storage = some addr) => passes addr (congrArg StorageOp.set given)
          rw [StorageOp.exec, if_neg alive, hset]
          exact .some rep'
      | get =>
          rw [StorageOp.exec, if_neg alive]
          exact .some rep
      | runDispose =>
          obtain ⟨o', hrun, rep'⟩ := represents_runDispose rep live
          rw [StorageOp.exec, hrun]
          exact .some rep'
      | unref =>
          obtain ⟨o', hrun, rep'⟩ := represents_unref rep live
          rw [StorageOp.exec, hrun]
          exact .some rep'

/-- A new controller holds nothing. -/
theorem represents_new (kind : StorageKind) (refs : Nat → Nat) :
    ∃ o, kind.new (corresponding refs) = .ok o ∧ Represents kind refs o Holder.new :=
  ⟨_, kind.new_ok _, rfl, rfl, (plus_none _).symm, rfl, rfl⟩

end Steps

variable {ops : List StorageOp}

theorem traceNew_eq (kind : StorageKind) (passes : ∀ op ∈ ops, op.Passes refs) :
    kind.traceNew refs ops = trace (Holder.step kind.wiring) (Holder.see refs) .new ops := by
  obtain ⟨o, hnew, rep⟩ := represents_new kind refs
  rw [StorageKind.traceNew, hnew]
  exact (represents_step kind refs).trace_eq (fun _ _ rep => rep.see_eq) rep passes

theorem runNew_rel (kind : StorageKind) (passes : ∀ op ∈ ops, op.Passes refs) :
    Option.Rel (Represents kind refs) (kind.runNew refs ops)
      (run (Holder.step kind.wiring) .new ops) := by
  obtain ⟨o, hnew, rep⟩ := represents_new kind refs
  rw [StorageKind.runNew, hnew]
  exact (represents_step kind refs).run rep passes

/-! ### The documentation -/

/-- The operation disposes the controller. -/
def StorageOp.disposes : StorageOp → Bool
  | .runDispose => true
  | .unref => true
  | _ => false

/-- What is documented of a controller, at every point of a sequence of operations:
once disposed its getter returns `NULL` and its reference is released, and the
parent's `finalize` runs once, when the last reference is gone. -/
structure Documented (kind : StorageKind) (refs : Nat → Nat) (ops : List StorageOp) : Prop where
  released : ∀ pre op o, pre ++ [op] <+: ops → op.disposes = true →
    kind.runNew refs (pre ++ [op]) = some o →
      kind.get o = none ∧ ∀ addr, o.env ⟨kind, addr⟩ = refs addr
  finalized : ∀ pre o, pre <+: ops → kind.runNew refs pre = some o →
    o.marks.filter Mark.isParentFinalize = if .unref ∈ pre then [.parentFinalize 0] else []

namespace Holder

theorem storage_of_disposes {pre : List StorageOp} {op : StorageOp} {h h' : Holder}
    (disposes : op.disposes = true) (hrun : run (step .inDispose) h (pre ++ [op]) = some h') :
    h'.storage = none := by
  induction pre generalizing h with
  | nil =>
      obtain ⟨last, hstep, rest⟩ := run_cons hrun
      cases rest
      rw [step] at hstep
      split at hstep
      · cases hstep
        cases op with
        | runDispose => rfl
        | unref => rfl
        | set _ => cases disposes
        | get => cases disposes
      · cases hstep
  | cons a pre ih =>
      obtain ⟨next, -, rest⟩ := run_cons hrun
      exact ih rest

theorem finalizes_of_run {pre : List StorageOp} {h h' : Holder}
    (hrun : run (step .inDispose) h pre = some h') :
    h'.finalizes = h.finalizes + if .unref ∈ pre then 1 else 0 := by
  induction pre generalizing h with
  | nil =>
      cases hrun
      rfl
  | cons op pre ih =>
      obtain ⟨next', hstep, rest⟩ := run_cons hrun
      rw [step] at hstep
      split at hstep
      · cases hstep
        have tail := ih rest
        cases op with
        | unref =>
            -- no operation follows the last reference
            cases pre with
            | nil => simpa [next] using tail
            | cons op' pre' =>
                obtain ⟨_, hstep, -⟩ := run_cons rest
                rw [step_dead rfl] at hstep
                cases hstep
        | set storage => simpa [next] using tail
        | get => simpa [next] using tail
        | runDispose => simpa [next] using tail
      · cases hstep

end Holder

/-- Where the runs of its wiring are those of the `dispose` slot, a controller keeps to
its documentation. -/
theorem documented_of_run_eq (passes : ∀ op ∈ ops, op.Passes refs)
    (same : ∀ pre, pre <+: ops →
      run (Holder.step kind.wiring) .new pre = run (Holder.step .inDispose) .new pre) :
    Documented kind refs ops := by
  have holder : ∀ pre o, pre <+: ops → kind.runNew refs pre = some o →
      ∃ h, run (Holder.step .inDispose) .new pre = some h ∧ Represents kind refs o h := by
    intro pre o initial hrun
    have rel := runNew_rel kind fun op hop => passes op (initial.subset hop)
    rw [hrun, same pre initial] at rel
    generalize run (Holder.step .inDispose) .new pre = image at rel ⊢
    cases rel with
    | some rep => exact ⟨_, rfl, rep⟩
  constructor
  · intro pre op o initial disposes hrun
    obtain ⟨h, hholder, rep⟩ := holder _ o initial hrun
    have released := Holder.storage_of_disposes disposes hholder
    rw [StorageKind.get_eq, StorageController.getStorage, rep.storage, released]
    exact ⟨rfl, fun addr => by rw [rep.counts, plus_at, released]; rfl⟩
  · intro pre o initial hrun
    obtain ⟨h, hholder, rep⟩ := holder pre o initial hrun
    rw [rep.finalizes, Holder.finalizes_of_run hholder]
    split <;> rfl

/-! ### Where the wirings agree -/

/-- The controller is not finalised, and disposed only while it holds no storage. -/
def Fits : Option Nat → List StorageOp → Prop
  | _, [] => True
  | _, .set storage :: ops => Fits storage ops
  | storage, .get :: ops => Fits storage ops
  | storage, .runDispose :: ops => storage = none ∧ Fits storage ops
  | _, .unref :: _ => False

namespace Holder

/-- A step that fits is the same in both wirings, and the rest fits after it. -/
theorem next_of_fits {h : Holder} {op : StorageOp} (fits : Fits h.storage (op :: ops)) :
    h.next .inFinalize op = h.next .inDispose op ∧
      Fits (h.next .inDispose op).storage ops := by
  cases op with
  | set storage => exact ⟨rfl, fits⟩
  | get => exact ⟨rfl, fits⟩
  | runDispose =>
      obtain ⟨none, rest⟩ := fits
      rw [none] at rest
      exact ⟨by simp only [next, none], rest⟩
  | unref => exact fits.elim

theorem run_of_fits {pre : List StorageOp} {h : Holder} (fits : Fits h.storage ops)
    (initial : pre <+: ops) : run (step .inFinalize) h pre = run (step .inDispose) h pre := by
  induction pre generalizing h ops with
  | nil => rfl
  | cons op pre ih =>
      obtain ⟨rest, rfl⟩ := initial
      obtain ⟨same, fits'⟩ := next_of_fits (show Fits h.storage (op :: (pre ++ rest)) from fits)
      simp only [run, step, same]
      split
      · exact ih fits' (List.prefix_append _ _)
      · rfl

/-- A live holder shows the same in both wirings exactly where the operations fit. -/
theorem trace_eq_iff_fits (refs : Nat → Nat) {h : Holder} (live : h.live = true) :
    trace (step .inFinalize) (see refs) h ops = trace (step .inDispose) (see refs) h ops ↔
      Fits h.storage ops := by
  induction ops generalizing h with
  | nil => exact ⟨fun _ => trivial, fun _ => rfl⟩
  | cons op ops ih =>
      rw [trace, trace, step_live live, step_live live]
      simp only [List.cons.injEq]
      cases op with
      | set storage =>
          have tail := ih (h := { h with storage }) live
          exact ⟨fun shown => tail.mp shown.2, fun fits => ⟨rfl, tail.mpr fits⟩⟩
      | get =>
          have tail := ih live
          exact ⟨fun shown => tail.mp shown.2, fun fits => ⟨rfl, tail.mpr fits⟩⟩
      | runDispose =>
          have tail := ih (h := h.next .inDispose .runDispose) live
          constructor
          · rintro ⟨shown, rest⟩
            have none : h.storage = none := by
              simpa [next, see, live] using congrArg Seen.getter shown
            have same : h.next .inFinalize .runDispose = h.next .inDispose .runDispose := by
              simp only [next, none]
            rw [same] at rest
            exact ⟨none, none ▸ tail.mp rest⟩
          · intro fits
            obtain ⟨same, fits'⟩ := next_of_fits fits
            rw [same]
            exact ⟨rfl, tail.mpr fits'⟩
      | unref =>
          constructor
          · intro shown
            have finalizes := congrArg Seen.parentFinalizes shown.1
            simp [next, see] at finalizes
          · intro fits
            exact fits.elim

end Holder

/-! ### Three controllers, one machine -/

/-- The three controllers show the same at every step, and keep to their
documentation. -/
structure Lockstep (refs : Nat → Nat) (ops : List StorageOp) : Prop where
  ptrArray : StorageKind.ptrArray.traceNew refs ops = StorageKind.array.traceNew refs ops
  hash : StorageKind.hash.traceNew refs ops = StorageKind.array.traceNew refs ops
  documented : ∀ kind, Documented kind refs ops

/-- The three controllers are one state machine exactly for the sequences that do not
drop the last reference and dispose only controllers without a storage. -/
theorem lockstep_iff (passes : ∀ op ∈ ops, op.Passes refs) :
    Lockstep refs ops ↔ Fits none ops := by
  constructor
  · intro lockstep
    have same := lockstep.ptrArray
    rw [traceNew_eq _ passes, traceNew_eq _ passes] at same
    exact (Holder.trace_eq_iff_fits refs rfl).mp same
  · intro fits
    refine ⟨?_, ?_, ?_⟩
    · rw [traceNew_eq _ passes, traceNew_eq _ passes]
      exact (Holder.trace_eq_iff_fits refs rfl).mpr fits
    · rw [traceNew_eq _ passes, traceNew_eq _ passes]
      rfl
    · intro kind
      apply documented_of_run_eq passes
      intro pre initial
      cases hw : kind.wiring with
      | inDispose => rfl
      | inFinalize => exact Holder.run_of_fits fits initial

theorem lockstep_unset_first :
    Lockstep (fun _ => 1) [.set (some 0), .get, .set none, .runDispose, .runDispose, .set (some 3)] :=
  (lockstep_iff (by simp [StorageOp.Passes])).mpr (by simp [Fits])

/-- The last reference on a new controller: a `GPtrArrayController` is disposed by its
parent twice and never finalised by it. -/
theorem last_reference_not_lockstep :
    ¬ ∀ (refs : Nat → Nat) (ops : List StorageOp), (∀ op ∈ ops, op.Passes refs) →
      Lockstep refs ops := by
  intro all
  have lockstep := all (fun _ => 1) [.unref] (by simp [StorageOp.Passes])
  have finalizes := congrArg (List.map Seen.parentFinalizes) lockstep.ptrArray
  exact absurd finalizes (by decide)

end GlibController

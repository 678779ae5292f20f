import GlibController.Lib.Loop
import GlibController.Lib.Machine

/-!
Code that calls out to code it does not know.

A `Reentrant` computation over states `S` comes to an end, or faults, or calls out: it
hands over the state and can be resumed in whatever state the other code leaves. What
it does when nothing happens meanwhile is `alone`.

A `Session` is a program and the code around it. The other code has a state `F` of its
own, may enter the program again at every point where it is called out to, and so
leaves a stack of `frames` that wait to be resumed. `Meets` is what a computation owes
to an invariant: to hold at every point where other code runs, and to leave frames that
will do the same when they are resumed. An invariant may depend on the depth of the
stack. `Program.good_of_reach` is the rule for runs: when every call and every frame
meets the invariant, it holds in every state of every session.
-/

namespace GlibController.Lib

/-! ### Computations -/

section Computations

/-- A computation that may call out to other code. -/
inductive Reentrant (S ε α : Type) where
  | done (a : α)
  | fault (e : ε)
  | foreign (s : S) (resume : S → Reentrant S ε α)

namespace Reentrant

variable {S ε α β : Type}

def bind (m : Reentrant S ε α) (f : α → Reentrant S ε β) : Reentrant S ε β :=
  match m with
  | done a => f a
  | fault e => fault e
  | foreign s resume => foreign s fun s' => (resume s').bind f

instance instMonadReentrant : Monad (Reentrant S ε) where
  pure := done
  bind := bind

/-- The other code runs in this state. -/
def callOut (s : S) : Reentrant S ε S := foreign s done

/-- A computation that calls nobody. -/
def lift : Except ε α → Reentrant S ε α
  | .ok a => done a
  | .error e => fault e

/-- The outcome when the other code does nothing. -/
def alone : Reentrant S ε α → Except ε α
  | done a => .ok a
  | fault e => .error e
  | foreign s resume => (resume s).alone

@[simp] theorem done_bind (a : α) (f : α → Reentrant S ε β) : (done a >>= f) = f a := rfl

@[simp] theorem lift_ok (a : α) : lift (.ok a : Except ε α) = (done a : Reentrant S ε α) := rfl

@[simp] theorem alone_callOut (s : S) : (callOut s : Reentrant S ε S).alone = .ok s := rfl

@[simp] theorem alone_lift (x : Except ε α) : (lift x : Reentrant S ε α).alone = x := by
  cases x <;> rfl

/-- Sequences stay sequences. -/
@[simp] theorem alone_bind (m : Reentrant S ε α) (f : α → Reentrant S ε β) :
    (m >>= f).alone = m.alone >>= fun a => (f a).alone := by
  induction m with
  | done a => rfl
  | fault e => rfl
  | foreign s resume ih => exact ih s

/-- The computation calls nobody. -/
def Quiet (m : Reentrant S ε α) : Prop := m = lift m.alone

theorem quiet_done (a : α) : (done a : Reentrant S ε α).Quiet := rfl

theorem quiet_fault (e : ε) : (fault e : Reentrant S ε α).Quiet := rfl

theorem quiet_lift (x : Except ε α) : (lift x : Reentrant S ε α).Quiet := by
  unfold Quiet
  rw [alone_lift]

theorem Quiet.bind {m : Reentrant S ε α} {f : α → Reentrant S ε β} (first : m.Quiet)
    (second : ∀ a, m.alone = .ok a → (f a).Quiet) : (m >>= f).Quiet := by
  cases m with
  | done a => exact second a rfl
  | fault e => exact quiet_fault e
  | foreign s resume =>
      unfold Quiet at first
      generalize (foreign s resume : Reentrant S ε α).alone = outcome at first
      cases outcome <;> cases first

end Reentrant

end Computations

/-! ### Sessions -/

section Sessions

variable {S F ε C A : Type}

/-- The state of the program and that of the other code, and what waits to be resumed,
the last first. -/
structure Session (S F ε : Type) where
  state : S
  other : F
  frames : List (S → Reentrant S ε S)

/-- What happens next: a call of the program, a step of the other code's own, or the
return of the other code that was called out to last. -/
inductive Turn (C A : Type) where
  | call (c : C)
  | own (a : A)
  | ret

/-- The calls of a program with the code they run, and what the other code can do by
itself. A call may take from the other code, or give to it. -/
structure Program (S F ε C A : Type) where
  enter : C → S → Reentrant S ε S
  hand : C → F → F
  own : A → S → F → Except ε (S × F)

/-- The computation goes on until it ends or calls out. -/
def Session.settle (x : Session S F ε) : Reentrant S ε S → Except ε (Session S F ε)
  | .done s => .ok { x with state := s }
  | .fault e => .error e
  | .foreign s resume => .ok { x with state := s, frames := resume :: x.frames }

namespace Program

variable (p : Program S F ε C A)

/-- A return with nothing to return to changes nothing. -/
def exec (x : Session S F ε) : Turn C A → Except ε (Session S F ε)
  | .call c => { x with other := p.hand c x.other }.settle (p.enter c x.state)
  | .own a => do
      let (state, other) ← p.own a x.state x.other
      return { x with state, other }
  | .ret =>
      match x.frames with
      | [] => .ok x
      | resume :: frames => { x with frames }.settle (resume x.state)

/-- The sessions that begin in given states, with nothing to resume. -/
def machine (start : S → F → Prop) : Machine (Session S F ε) (Turn C A) where
  start x := start x.state x.other ∧ x.frames = []
  step x turn y := p.exec x turn = .ok y

end Program

/-! ### The invariant rule -/

/-- The invariant holds where the computation ends, and one level deeper where it calls
out; what it leaves to be resumed there is known to the invariant. It never faults. -/
def Reentrant.Meets (Inv : Nat → S → F → Prop) (Waits : (S → Reentrant S ε S) → Prop)
    (depth : Nat) (f : F) : Reentrant S ε S → Prop
  | .done s => Inv depth s f
  | .fault _ => False
  | .foreign s resume => Inv (depth + 1) s f ∧ Waits resume

/-- The invariant holds at the depth of the session, and whatever waits is known. -/
structure Session.Good (Inv : Nat → S → F → Prop) (Waits : (S → Reentrant S ε S) → Prop)
    (x : Session S F ε) : Prop where
  holds : Inv x.frames.length x.state x.other
  waits : ∀ resume ∈ x.frames, Waits resume

variable {Inv : Nat → S → F → Prop} {Waits : (S → Reentrant S ε S) → Prop} {x : Session S F ε}

theorem Session.settle_good {m : Reentrant S ε S}
    (meets : m.Meets Inv Waits x.frames.length x.other)
    (waits : ∀ resume ∈ x.frames, Waits resume) :
    ∃ y, x.settle m = .ok y ∧ y.Good Inv Waits := by
  cases m with
  | done s => exact ⟨_, rfl, meets, waits⟩
  | fault e => exact meets.elim
  | foreign s resume =>
      obtain ⟨deeper, known⟩ := meets
      exact ⟨_, rfl, deeper, List.forall_mem_cons.mpr ⟨known, waits⟩⟩

namespace Program

variable {p : Program S F ε C A} {allowed : Session S F ε → Turn C A → Prop}

/-- What the invariant needs of a program: allowed calls meet it, so does what is resumed
by allowed returns, and the allowed steps of the other code keep it. -/
structure Keeps (p : Program S F ε C A) (allowed : Session S F ε → Turn C A → Prop)
    (Inv : Nat → S → F → Prop) (Waits : (S → Reentrant S ε S) → Prop) : Prop where
  enter : ∀ x c, x.Good Inv Waits → allowed x (.call c) →
    (p.enter c x.state).Meets Inv Waits x.frames.length (p.hand c x.other)
  own : ∀ x a, x.Good Inv Waits → allowed x (.own a) →
    ∃ s f, p.own a x.state x.other = .ok (s, f) ∧ Inv x.frames.length s f
  ret : ∀ x resume frames, x.Good Inv Waits → allowed x .ret → x.frames = resume :: frames →
    (resume x.state).Meets Inv Waits frames.length x.other

/-- An allowed turn comes to its end, and the session stays good. -/
theorem exec_good (keeps : p.Keeps allowed Inv Waits) (good : x.Good Inv Waits)
    {turn : Turn C A} (ok : allowed x turn) :
    ∃ y, p.exec x turn = .ok y ∧ y.Good Inv Waits := by
  cases turn with
  | call c => exact Session.settle_good (keeps.enter x c good ok) good.waits
  | own a =>
      obtain ⟨s, f, run, kept⟩ := keeps.own x a good ok
      refine ⟨{ x with state := s, other := f }, ?_, kept, good.waits⟩
      simp only [exec, run, ok_bind, pure_eq_ok]
  | ret =>
      unfold exec
      cases hframes : x.frames with
      | nil => exact ⟨x, rfl, good⟩
      | cons resume frames =>
          have rest : ∀ waiting ∈ frames, Waits waiting := by
            intro waiting mem
            apply good.waits
            rw [hframes]
            exact List.mem_cons_of_mem resume mem
          exact Session.settle_good (x := { x with frames }) (keeps.ret x _ _ good ok hframes) rest

/-- Invariant rule for sessions: what the start has and the program keeps holds in every
state that allowed turns reach. -/
theorem good_of_reach (keeps : p.Keeps allowed Inv Waits) {start : S → F → Prop}
    (init : ∀ s f, start s f → Inv 0 s f) (reach : (p.machine start).ReachBy allowed x) :
    x.Good Inv Waits := by
  apply reach.invariant (Session.Good Inv Waits)
  · rintro x ⟨first, empty⟩
    constructor
    · rw [empty]
      exact init _ _ first
    · rw [empty]
      intro resume mem
      cases mem
  · intro x turn y good ok step
    obtain ⟨y', run, good'⟩ := exec_good keeps good ok
    rw [show p.exec x turn = .ok y from step] at run
    cases run
    exact good'

end Program

end Sessions

end GlibController.Lib

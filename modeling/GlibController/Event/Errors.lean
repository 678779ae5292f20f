import GlibController.Event.Build

/-!
What an index that cannot be added leaves behind.

The additions check before they append: a rejected one leaves an event that cannot be
told from the one before (`Addition.run_rejected`). `createEvent` inserts a slot for an
argument before it collects the argument, and keeps the slot when that fails. So the
event that it creates has one index more than were collected (`collected_of_failsAt`),
and `failures_hidden_iff` says that no failure is hidden.
-/

namespace GlibController

open Lib GValueArray

variable {κ VArr Arg : Type} [GValueArray VArr]

/-! ### The position of the error -/

section Position

variable [ValueCollector Arg] {t : GType} {args : List Arg} {k : Nat}

/-- The argument is collected without an error. -/
def Collects (t : GType) (arg : Arg) : Prop := (collectInit t arg).2 = none

/-- The collection of the argument at a position is the first that reports an error. -/
def FailsAt (t : GType) (args : List Arg) (k : Nat) : Prop :=
  ∃ arg, args[k]? = some arg ∧ ¬ Collects t arg ∧ ∀ earlier ∈ args.take k, Collects t earlier

theorem FailsAt.inside (fails : FailsAt t args k) : k < args.length := by
  obtain ⟨_, here, -⟩ := fails
  exact (List.getElem?_eq_some_iff.mp here).1

theorem failsAt_zero {arg : Arg} : FailsAt t (arg :: args) 0 ↔ ¬ Collects t arg := by
  unfold FailsAt
  simp

theorem failsAt_succ {arg : Arg} :
    FailsAt t (arg :: args) (k + 1) ↔ Collects t arg ∧ FailsAt t args k := by
  unfold FailsAt
  simp only [List.getElem?_cons_succ, List.take_succ_cons, List.mem_cons, forall_eq_or_imp]
  constructor
  · rintro ⟨failed, here, fails, first, earlier⟩
    exact ⟨first, failed, here, fails, earlier⟩
  · rintro ⟨first, failed, here, fails, earlier⟩
    exact ⟨failed, here, fails, first, earlier⟩

/-- Either everything is collected, or there is a first error. -/
theorem collects_or_failsAt (t : GType) (args : List Arg) :
    (∀ arg ∈ args, Collects t arg) ∨ ∃ k, FailsAt t args k := by
  induction args with
  | nil => exact .inl fun _ mem => absurd mem List.not_mem_nil
  | cons arg args ih =>
      by_cases first : Collects t arg
      · rcases ih with all | ⟨k, fails⟩
        · exact .inl (List.forall_mem_cons.mpr ⟨first, all⟩)
        · exact .inr ⟨k + 1, failsAt_succ.mpr ⟨first, fails⟩⟩
      · exact .inr ⟨0, failsAt_zero.mpr first⟩

/-- The values of the arguments up to the failed one, and of that one as well. -/
theorem collected_of_failsAt (fails : FailsAt t args k) :
    GController.collected t args = (args.take (k + 1)).map fun arg => (collectInit t arg).1 := by
  induction args generalizing k with
  | nil =>
      obtain ⟨_, here, -⟩ := fails
      cases here
  | cons arg args ih =>
      unfold GController.collected
      cases k with
      | zero =>
          rw [failsAt_zero] at fails
          split
          next => rfl
          next none => exact absurd none fails
      | succ k =>
          obtain ⟨first, rest⟩ := failsAt_succ.mp fails
          have none : (collectInit t arg).2 = none := first
          rw [none, List.take_succ_cons, List.map_cons, ← ih rest]

end Position

/-! ### Additions -/

section Additions

variable [ValueCollector Arg]

/-- The addition cannot add its index to an event of the type. -/
def Addition.Rejected (t : GType) : Addition Arg → Prop
  | .addIndex arg => ¬ Collects t arg
  | .addIndexValue value => value.gType ≠ t

theorem GControllerEvent.getNIndices_contents (event : GControllerEvent κ VArr) :
    event.getNIndices = (UInt32.ofNat event.contents.length).toInt32 := by
  unfold getNIndices contents
  cases event.indices with
  | none => rfl
  | some arr => rfl

/-- The queries look at the head of an event and at the values it stores. -/
theorem GControllerEvent.observe_congr {event event' : GControllerEvent κ VArr}
    (head : event.SameHead event') (same : event'.contents = event.contents) :
    event'.observe = event.observe := by
  have number : event'.getNIndices = event.getNIndices := by
    rw [getNIndices_contents, getNIndices_contents, same]
  have value : event'.getIndexValue = event.getIndexValue := by
    funext i
    rw [getIndexValue_eq, getIndexValue_eq, nth, nth, same, head.indexType]
  unfold observe getController getAction getIndexType
  rw [number, value, head.controller, head.action, head.indexType]

/-- A rejected addition comes to an end, and nothing about the event has changed. -/
theorem Addition.run_rejected {event : GControllerEvent κ VArr} {call : Addition Arg}
    (rejected : call.Rejected event.indexType) :
    ∃ event', call.run event = .ok event' ∧ event'.contents = event.contents ∧
      event'.observe = event.observe := by
  have returns : ∃ event', call.run event = .ok event' ∧ call.added event.indexType = [] := by
    unfold Addition.run Addition.added
    cases call with
    | addIndex arg =>
        obtain ⟨message, failed⟩ := Option.ne_none_iff_exists'.mp rejected
        refine ⟨{ event with indices := some (event.indices.getD (new 1)) }, ?_, ?_⟩
        · unfold GControllerEvent.addIndex
          simp only [failed]
        · simp only [failed]
    | addIndexValue value => exact ⟨event, if_pos rejected, if_neg rejected⟩
  obtain ⟨event', run, nothing⟩ := returns
  obtain ⟨head, hcontents⟩ := Addition.run_ok run
  rw [nothing, List.append_nil] at hcontents
  exact ⟨event', run, hcontents, GControllerEvent.observe_congr head hcontents⟩

end Additions

/-! ### Creation -/

section Creation

variable [ValueCollector Arg]

/-- Wherever the collection fails, the event holds the indices collected before, and
not the failed one. -/
def GControllerEvent.HidesFailure (event : GControllerEvent κ VArr) (t : GType)
    (args : List Arg) : Prop :=
  ∀ k, FailsAt t args k →
    event.contents = (args.take k).map fun arg => (collectInit t arg).1

theorem hidesFailure_iff {event : GControllerEvent κ VArr} {t : GType} {args : List Arg}
    (holds : event.contents = GController.collected t args) :
    event.HidesFailure t args ↔ ∀ arg ∈ args, Collects t arg := by
  constructor
  · intro hides
    rcases collects_or_failsAt t args with all | ⟨k, fails⟩
    · exact all
    · have inside := fails.inside
      have length := congrArg List.length ((hides k fails).symm.trans
        (holds.trans (collected_of_failsAt fails)))
      simp only [List.length_map, List.length_take] at length
      omega
  · rintro all k ⟨arg, here, fails, -⟩
    exact absurd (all arg (List.mem_of_getElem? here)) fails

/-- A created event hides a failed collection exactly if there was none. Additions
hide theirs from every event. -/
theorem failures_hidden_iff {klass : GControllerClass κ VArr}
    (default : klass.createEvent = GController.defaultCreateEvent) (controller : κ)
    (action : GControllerAction) {t : GType} (valid : t ≠ .invalid) (nIndices : Gint)
    (args : List Arg) (enough : (GController.passes nIndices).toNat ≤ args.length) :
    (∃ event : GControllerEvent κ VArr,
        GController.createEvent klass controller action t nIndices args = .ok (some event) ∧
        (event.HidesFailure t (args.take (GController.passes nIndices).toNat) ↔
          ∀ arg ∈ args.take (GController.passes nIndices).toNat, Collects t arg)) ∧
      ∀ (event : GControllerEvent κ VArr) (call : Addition Arg),
        call.Rejected event.indexType → ∃ event', call.run event = .ok event' ∧
          event'.contents = event.contents ∧ event'.observe = event.observe := by
  constructor
  · obtain ⟨created, run⟩ : ∃ created,
        (Creation.createEvent nIndices args : Creation VArr Arg).run klass controller action t =
          .ok created := Creation.run_total controller action default valid enough
    obtain ⟨event, rfl, records⟩ := Creation.run_ok default valid run
    exact ⟨event, run, hidesFailure_iff records.contents⟩
  · intro event call
    exact Addition.run_rejected

end Creation

/-- The second of three objects is not of the index type. Its slot is not hidden, while an
object that is added later and is not of the type either is turned away. -/
theorem failures_hidden_objects :
    ∃ event : GControllerEvent Nat Values,
      GController.createEvent GController.classInit 0 .add (.other 1) 3
        [Vararg.object 1 4, .object 2 5, .object 1 6] = .ok (some event) ∧
      ¬ event.HidesFailure (.other 1) [Vararg.object 1 4, .object 2 5, .object 1 6] ∧
      ∃ event', (Addition.addIndex (Vararg.object 2 7)).run event = .ok event' ∧
        event'.contents = event.contents ∧ event'.observe = event.observe := by
  have default : (GController.classInit : GControllerClass Nat Values).createEvent =
    GController.defaultCreateEvent := rfl
  obtain ⟨⟨event, run, hides⟩, additions⟩ := failures_hidden_iff default 0 .add (t := .other 1)
    (by decide) 3 [Vararg.object 1 4, .object 2 5, .object 1 6] (by decide)
  have created : GController.createEvent GController.classInit 0 .add (.other 1) 3
      [Vararg.object 1 4, .object 2 5, .object 1 6] =
        .ok (some ⟨some 0, .add, .other 1,
          some (⟨[⟨.other 1, (4 : Nat)⟩, ⟨.other 1, (0 : Nat)⟩], by decide⟩ : Values)⟩) := rfl
  cases created.symm.trans run
  refine ⟨_, created, ?_, additions _ (.addIndex (.object 2 7)) (Option.some_ne_none _)⟩
  intro hidden
  have collected := hides.mp hidden (.object 2 5) (by decide)
  cases collected

/-- The slot of the object stays in the event. -/
theorem failed_object_not_hidden :
    ¬ ∀ (t : GType) (nIndices : Gint) (args : List Vararg) (event : GControllerEvent Nat Values),
      t ≠ .invalid → nIndices.toInt = args.length →
        GController.createEvent GController.classInit 0 .add t nIndices args = .ok (some event) →
          event.HidesFailure t args := by
  intro all
  have hides := all (.other 1) 1 [.object 2 4]
    ⟨some 0, .add, .other 1, some ⟨[⟨.other 1, (0 : Nat)⟩], by decide⟩⟩ (by decide) (by decide) rfl
  have nothing := hides 0 (failsAt_zero.mpr (Option.some_ne_none _))
  cases nothing

end GlibController

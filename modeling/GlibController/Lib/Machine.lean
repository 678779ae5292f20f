/-!
Transition systems: reachable states and their invariants, runs and traces.

`ReachBy allowed` is reachability by runs whose every step meets a condition on
the state before it and on the action; `Reach` puts no condition. The induction
over runs is done once, in `ReachBy.invariant`: a property of the start that every
allowed step keeps holds in every state such runs reach.

A deterministic system is its partial step function. `run` is where a list of
actions leads and `trace` what is seen on the way; `run_invariant` is the invariant
rule for runs. Related states that step together
(`StepsLike`) run together (`StepsLike.run`) and show the same (`StepsLike.trace_eq`).
-/

namespace GlibController.Lib

/-- A transition system over states `S` and actions `A`. -/
structure Machine (S A : Type) where
  start : S → Prop
  step : S → A → S → Prop

namespace Machine

variable {S A : Type} {m : Machine S A}

/-- The states reached by runs whose steps are all allowed. -/
inductive ReachBy (m : Machine S A) (allowed : S → A → Prop) : S → Prop where
  | start {s : S} : m.start s → ReachBy m allowed s
  | step {s s' : S} {a : A} : ReachBy m allowed s → allowed s a → m.step s a s' →
      ReachBy m allowed s'

/-- The states reached by any run. -/
abbrev Reach (m : Machine S A) : S → Prop :=
  m.ReachBy fun _ _ => True

/-- Invariant rule: what holds at the start and is kept by allowed steps holds in
every state they reach. -/
theorem ReachBy.invariant {allowed : S → A → Prop} (Inv : S → Prop)
    (init : ∀ s, m.start s → Inv s)
    (keep : ∀ s a s', Inv s → allowed s a → m.step s a s' → Inv s') {s : S}
    (reach : m.ReachBy allowed s) : Inv s := by
  induction reach with
  | start h => exact init _ h
  | step _ ok h ih => exact keep _ _ _ ih ok h

/-- The rule for steps that are calls: allowed calls come to an end, and keep the invariant. -/
theorem ReachBy.invariant_of_returns {E : Type} {exec : S → A → Except E S}
    {allowed : S → A → Prop} (Inv : S → Prop)
    (calls : ∀ s a s', m.step s a s' → exec s a = .ok s') (init : ∀ s, m.start s → Inv s)
    (keep : ∀ s a, Inv s → allowed s a → ∃ s', exec s a = .ok s' ∧ Inv s') {s : S}
    (reach : m.ReachBy allowed s) : Inv s := by
  apply reach.invariant Inv init
  intro s a s' inv ok h
  obtain ⟨next, returns, inv'⟩ := keep s a inv ok
  rw [calls s a s' h] at returns
  cases returns
  exact inv'

end Machine

/-! ### Deterministic systems -/

section Deterministic

variable {S T A O : Type}

/-- Where the actions lead, if all of them can be taken. -/
def run (step : S → A → Option S) (s : S) : List A → Option S
  | [] => some s
  | a :: as => (step s a).bind fun s' => run step s' as

/-- What is seen after each action, up to the first that cannot be taken. -/
def trace (step : S → A → Option S) (see : S → O) (s : S) : List A → List O
  | [] => []
  | a :: as =>
      match step s a with
      | none => []
      | some s' => see s' :: trace step see s' as

theorem run_cons {step : S → A → Option S} {s s' : S} {a : A} {as : List A}
    (h : run step s (a :: as) = some s') :
    ∃ next, step s a = some next ∧ run step next as = some s' := by
  rw [run] at h
  exact Option.bind_eq_some_iff.mp h

theorem run_append {step : S → A → Option S} (s : S) (as bs : List A) :
    run step s (as ++ bs) = (run step s as).bind fun s' => run step s' bs := by
  induction as generalizing s with
  | nil => rfl
  | cons a as ih =>
      rw [List.cons_append, run, run, Option.bind_assoc]
      congr
      funext s'
      exact ih s'

theorem run_singleton {step : S → A → Option S} (s : S) (a : A) : run step s [a] = step s a := by
  rw [run]
  exact Option.bind_fun_some _

/-- Invariant rule with the actions taken: what every step keeps of the actions so far and
the state, a run keeps. -/
theorem run_history {step : S → A → Option S} (Inv : List A → S → Prop)
    (keep : ∀ before s a s', Inv before s → step s a = some s' → Inv (before ++ [a]) s') {s s' : S}
    {as : List A} (init : Inv [] s) (h : run step s as = some s') : Inv as s' := by
  have along : ∀ before s, Inv before s → run step s as = some s' → Inv (before ++ as) s' := by
    clear init h
    induction as with
    | nil =>
        intro before s inv h
        cases h
        rwa [List.append_nil]
    | cons a as ih =>
        intro before s inv h
        obtain ⟨next, first, rest⟩ := run_cons h
        rw [List.append_cons]
        exact ih (before ++ [a]) next (keep before s a next inv first) rest
  exact along [] s init h

/-- Invariant rule: what every step keeps, a run keeps. -/
theorem run_invariant {step : S → A → Option S} (Inv : S → Prop)
    (keep : ∀ s a s', Inv s → step s a = some s' → Inv s') {s s' : S} {as : List A} (init : Inv s)
    (h : run step s as = some s') : Inv s' :=
  run_history (fun _ => Inv) (fun _ => keep) init h

/-- From related states the same allowed actions can be taken, to related states. -/
def StepsLike (rel : S → T → Prop) (allowed : A → Prop) (step : S → A → Option S)
    (step' : T → A → Option T) : Prop :=
  ∀ s t a, rel s t → allowed a → Option.Rel rel (step s a) (step' t a)

variable {rel : S → T → Prop} {allowed : A → Prop} {step : S → A → Option S}
  {step' : T → A → Option T} {as : List A}

theorem StepsLike.run (sim : StepsLike rel allowed step step') {s : S} {t : T} (related : rel s t)
    (ok : ∀ a ∈ as, allowed a) : Option.Rel rel (run step s as) (run step' t as) := by
  induction as generalizing s t with
  | nil => exact .some related
  | cons a as ih =>
      rw [List.forall_mem_cons] at ok
      have next := sim s t a related ok.1
      rw [Lib.run, Lib.run]
      cases hs : step s a with
      | none =>
          rw [hs] at next
          generalize step' t a = image at next
          cases next
          exact .none
      | some s' =>
          rw [hs] at next
          generalize step' t a = image at next
          cases next with
          | some related' => exact ih related' ok.2

theorem StepsLike.trace_eq (sim : StepsLike rel allowed step step') {see : S → O} {see' : T → O}
    (same : ∀ s t, rel s t → see s = see' t) {s : S} {t : T} (related : rel s t)
    (ok : ∀ a ∈ as, allowed a) : trace step see s as = trace step' see' t as := by
  induction as generalizing s t with
  | nil => rfl
  | cons a as ih =>
      rw [List.forall_mem_cons] at ok
      have next := sim s t a related ok.1
      rw [trace, trace]
      cases hs : step s a with
      | none =>
          rw [hs] at next
          generalize step' t a = image at next
          cases next
          rfl
      | some s' =>
          rw [hs] at next
          generalize step' t a = image at next
          cases next with
          | some related' =>
              simp only [same _ _ related']
              rw [ih related' ok.2]

end Deterministic

end GlibController.Lib

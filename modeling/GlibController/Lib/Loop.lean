import GlibController.Lib.Word

/-!
Loops of a C function, as total functions.

`forBelow` is the counting loop `for (i = start; i < bound; i++) body` over an
unsigned 32-bit counter. Its bound is read again from the state before every
pass, so a body may move it. The counter meets the guard at most once for each
of its values, which makes the loop total without a fuel argument:
`forBelow_eq` is the unfolding equation of the C loop. `runFuel` is the general
loop, for counters that may go around; there termination is something to prove
(`Terminates`), and the answer does not depend on the fuel (`answer_unique`).

A pass either goes on with a new state or leaves the loop with a result, as
`return` and `break` do. A fault of the body is a fault of the loop. Two loops over
different states whose passes agree agree as a whole (`forBelow_agree`).
-/

namespace GlibController.Lib

universe u v w

/-! ### Sequencing -/

section Sequencing

variable {ε α β : Type}

@[simp] theorem ok_bind (a : α) (f : α → Except ε β) : (Except.ok a >>= f) = f a := rfl

@[simp] theorem error_bind (e : ε) (f : α → Except ε β) :
    ((Except.error e : Except ε α) >>= f) = .error e := rfl

@[simp] theorem pure_eq_ok (a : α) : (pure a : Except ε α) = .ok a := rfl

/-- Two computations that fault alike, and otherwise end in related results. -/
inductive Agree {α β : Type} (R : α → β → Prop) : Except ε α → Except ε β → Prop where
  | ok {a : α} {b : β} : R a b → Agree R (.ok a) (.ok b)
  | error (e : ε) : Agree R (.error e) (.error e)

theorem Agree.bind {α α' β β' : Type} {R : α → α' → Prop} {Q : β → β' → Prop} {x : Except ε α}
    {y : Except ε α'} {f : α → Except ε β} {g : α' → Except ε β'} (first : Agree R x y)
    (second : ∀ a b, R a b → Agree Q (f a) (g b)) : Agree Q (x >>= f) (y >>= g) := by
  cases first with
  | ok related => exact second _ _ related
  | error e => exact .error e

theorem Agree.map_right {α β γ : Type} {R : α → β → Prop} {Q : α → γ → Prop} {x : Except ε α}
    {y : Except ε β} {f : β → γ} (h : Agree R x y) (mapped : ∀ a b, R a b → Q a (f b)) :
    Agree Q x (y >>= fun b => .ok (f b)) := by
  cases h with
  | ok related => exact .ok (mapped _ _ related)
  | error e => exact .error e

theorem Agree.of_eq {α : Type} {x y : Except ε α} (h : x = y) : Agree Eq x y := by
  subst h
  cases x with
  | error e => exact .error e
  | ok a => exact .ok rfl

/-- Where one computation ends, so does the other. -/
theorem Agree.of_left {α β : Type} {R : α → β → Prop} {y : Except ε β} {a : α}
    (h : Agree R (.ok a : Except ε α) y) : ∃ b, y = .ok b ∧ R a b := by
  cases h with
  | ok related => exact ⟨_, rfl, related⟩

theorem Agree.of_right {α β : Type} {R : α → β → Prop} {x : Except ε α} {b : β}
    (h : Agree R x (.ok b : Except ε β)) : ∃ a, x = .ok a ∧ R a b := by
  cases h with
  | ok related => exact ⟨_, rfl, related⟩

/-- A sequence that succeeds is two successes. -/
theorem bind_eq_ok {x : Except ε α} {f : α → Except ε β} {b : β} :
    (x >>= f) = .ok b ↔ ∃ a, x = .ok a ∧ f a = .ok b := by
  cases x with
  | error e => simp
  | ok a => simp

end Sequencing

/-! ### Counting loops -/

/-- What one pass through a loop body does. -/
inductive Flow (σ : Type u) (ρ : Type v) where
  | next (s : σ)
  | done (r : ρ)
  deriving DecidableEq, Repr

section ForBelow

variable {ε σ ρ : Type}

/-- The counting loop with the number of counter values left. -/
def forBelowFrom (bound : σ → UInt32) (body : UInt32 → σ → Except ε (Flow σ ρ)) :
    Nat → UInt32 → σ → Except ε (Flow σ ρ)
  | 0, _, s => .ok (.next s)
  | left + 1, i, s =>
      if i < bound s then
        match body i s with
        | .error e => .error e
        | .ok (.done r) => .ok (.done r)
        | .ok (.next s') => forBelowFrom bound body left (i + 1) s'
      else .ok (.next s)

/-- `for (i = start; i < bound; i++) body`. The result is `next` when the guard
ended the loop and `done` when the body left it. -/
def forBelow (bound : σ → UInt32) (body : UInt32 → σ → Except ε (Flow σ ρ)) (start : UInt32)
    (s : σ) : Except ε (Flow σ ρ) :=
  forBelowFrom bound body (UInt32.size - start.toNat) start s

/-- The unfolding equation: test the guard, run the body, add one. -/
theorem forBelow_eq (bound : σ → UInt32) (body : UInt32 → σ → Except ε (Flow σ ρ)) (i : UInt32)
    (s : σ) :
    forBelow bound body i s =
      if i < bound s then
        match body i s with
        | .error e => .error e
        | .ok (.done r) => .ok (.done r)
        | .ok (.next s') => forBelow bound body (i + 1) s'
      else .ok (.next s) := by
  have below := toNat_lt_size i
  obtain ⟨left, hleft⟩ : ∃ left, UInt32.size - i.toNat = left + 1 :=
    ⟨UInt32.size - i.toNat - 1, by omega⟩
  rw [forBelow, hleft, forBelowFrom]
  by_cases guard : i < bound s
  · have succ := toNat_succ guard
    have rest : UInt32.size - (i + 1).toNat = left := by omega
    simp only [guard, if_true, forBelow, rest]
  · simp only [guard, if_false]

theorem forBelow_stop {bound : σ → UInt32} {body : UInt32 → σ → Except ε (Flow σ ρ)} {i : UInt32}
    {s : σ} (h : ¬ i < bound s) : forBelow bound body i s = .ok (.next s) := by
  rw [forBelow_eq, if_neg h]

theorem forBelow_next {bound : σ → UInt32} {body : UInt32 → σ → Except ε (Flow σ ρ)} {i : UInt32}
    {s s' : σ} (h : i < bound s) (hb : body i s = .ok (.next s')) :
    forBelow bound body i s = forBelow bound body (i + 1) s' := by
  rw [forBelow_eq, if_pos h, hb]

theorem forBelow_done {bound : σ → UInt32} {body : UInt32 → σ → Except ε (Flow σ ρ)} {i : UInt32}
    {s : σ} {r : ρ} (h : i < bound s) (hb : body i s = .ok (.done r)) :
    forBelow bound body i s = .ok (.done r) := by
  rw [forBelow_eq, if_pos h, hb]

theorem forBelow_error {bound : σ → UInt32} {body : UInt32 → σ → Except ε (Flow σ ρ)} {i : UInt32}
    {s : σ} {e : ε} (h : i < bound s) (hb : body i s = .error e) :
    forBelow bound body i s = .error e := by
  rw [forBelow_eq, if_pos h, hb]

/-- A loop with one pass is its body. -/
theorem forBelow_one {n : UInt32} (one : n.toNat = 1) (body : UInt32 → σ → Except ε (Flow σ ρ)) (s : σ) :
    forBelow (fun _ => n) body 0 s = body 0 s := by
  have enter : (0 : UInt32) < n := by
    rw [UInt32.lt_iff_toNat_lt, one]
    decide
  have leave : ∀ s' : σ, forBelow (fun _ => n) body (0 + 1) s' = .ok (.next s') := by
    intro s'
    apply forBelow_stop
    rw [UInt32.lt_iff_toNat_lt, one]
    decide
  rw [forBelow_eq, if_pos enter]
  cases body 0 s with
  | error e => rfl
  | ok flow =>
      cases flow with
      | next s' => exact leave s'
      | done r => rfl

/-- What a pass owes: one property of the state it goes on with, another of the
result it leaves with. -/
def Flow.Meets (goesOn : σ → Prop) (leaves : ρ → Prop) : Flow σ ρ → Prop
  | .next s => goesOn s
  | .done r => leaves r

/-- Invariant rule, total: when every pass from a state with the invariant comes to
an end, and either keeps the invariant for the next counter value or leaves with
`Post`, the loop comes to an end at its guard with the invariant or with `Post`. -/
theorem forBelow_total (bound : σ → UInt32) (body : UInt32 → σ → Except ε (Flow σ ρ))
    (start : UInt32) (s : σ) (Inv : UInt32 → σ → Prop) (Post : ρ → Prop)
    (pass : ∀ i s, Inv i s → i < bound s →
      ∃ flow, body i s = .ok flow ∧ flow.Meets (Inv (i + 1)) Post)
    (init : Inv start s) :
    ∃ flow, forBelow bound body start s = .ok flow ∧
      flow.Meets (fun s' => ∃ i, Inv i s' ∧ ¬ i < bound s') Post := by
  obtain ⟨left, hleft⟩ : ∃ left, UInt32.size - start.toNat = left := ⟨_, rfl⟩
  induction left generalizing start s with
  | zero => have := toNat_lt_size start; omega
  | succ left ih =>
      by_cases guard : start < bound s
      · have succ := toNat_succ guard
        obtain ⟨flow, hb, meets⟩ := pass start s init guard
        cases flow with
        | done r => exact ⟨.done r, forBelow_done guard hb, meets⟩
        | next t =>
            rw [forBelow_next guard hb]
            exact ih (start + 1) t meets (by omega)
      · exact ⟨.next s, forBelow_stop guard, start, init, guard⟩

/-- Invariant rule, partial: the same for passes that may fault, of a loop that did
not. -/
theorem forBelow_outcome {bound : σ → UInt32} {body : UInt32 → σ → Except ε (Flow σ ρ)}
    (Inv : UInt32 → σ → Prop) (Post : ρ → Prop)
    (pass : ∀ i s flow, Inv i s → i < bound s → body i s = .ok flow →
      flow.Meets (Inv (i + 1)) Post)
    {start : UInt32} {s : σ} (init : Inv start s) {flow : Flow σ ρ}
    (run : forBelow bound body start s = .ok flow) :
    flow.Meets (fun s' => ∃ i, Inv i s' ∧ ¬ i < bound s') Post := by
  obtain ⟨left, hleft⟩ : ∃ left, UInt32.size - start.toNat = left := ⟨_, rfl⟩
  induction left generalizing start s with
  | zero => have := toNat_lt_size start; omega
  | succ left ih =>
      by_cases guard : start < bound s
      · have succ := toNat_succ guard
        cases hb : body start s with
        | error e => rw [forBelow_error guard hb] at run; cases run
        | ok flow' =>
            have meets := pass start s flow' init guard hb
            cases flow' with
            | done r =>
                rw [forBelow_done guard hb] at run
                cases run
                exact meets
            | next t =>
                rw [forBelow_next guard hb] at run
                exact ih meets run (by omega)
      · rw [forBelow_stop guard] at run
        cases run
        exact ⟨start, init, guard⟩

/-- The total rule for a body that always goes on. -/
theorem forBelow_invariant (bound : σ → UInt32) (body : UInt32 → σ → Except ε (Flow σ ρ))
    (start : UInt32) (s : σ) (Inv : UInt32 → σ → Prop)
    (pass : ∀ i s, Inv i s → i < bound s → ∃ s', body i s = .ok (.next s') ∧ Inv (i + 1) s')
    (init : Inv start s) :
    ∃ i s', forBelow bound body start s = .ok (.next s') ∧ Inv i s' ∧ ¬ i < bound s' := by
  have goesOn : ∀ i s, Inv i s → i < bound s →
      ∃ flow, body i s = .ok flow ∧ flow.Meets (Inv (i + 1)) fun _ => False := by
    intro i s inv guard
    obtain ⟨s', hb, inv'⟩ := pass i s inv guard
    exact ⟨.next s', hb, inv'⟩
  obtain ⟨flow, run, meets⟩ := forBelow_total bound body start s Inv (fun _ => False) goesOn init
  cases flow with
  | done r => exact meets.elim
  | next s' =>
      obtain ⟨i, inv, guard⟩ := meets
      exact ⟨i, s', run, inv, guard⟩

/-- The partial rule for a loop that ended at its guard. -/
theorem forBelow_partial {bound : σ → UInt32} {body : UInt32 → σ → Except ε (Flow σ ρ)}
    (Inv : UInt32 → σ → Prop)
    (pass : ∀ i s s', Inv i s → i < bound s → body i s = .ok (.next s') → Inv (i + 1) s')
    {start : UInt32} {s s' : σ} (init : Inv start s)
    (run : forBelow bound body start s = .ok (.next s')) : ∃ i, Inv i s' ∧ ¬ i < bound s' := by
  refine forBelow_outcome Inv (fun _ => True) ?_ init run
  intro i s flow inv guard hb
  cases flow with
  | done r => trivial
  | next t => exact pass i s t inv guard hb

/-- A loop of checks, which has no state, goes through exactly if every pass does. -/
theorem forBelow_forall {bound : Unit → UInt32} {body : UInt32 → Unit → Except ε (Flow Unit ρ)}
    {start : UInt32} :
    forBelow bound body start () = .ok (.next ()) ↔
      ∀ i, start ≤ i → i < bound () → body i () = .ok (.next ()) := by
  constructor
  · intro run
    obtain ⟨left, hleft⟩ : ∃ left, UInt32.size - start.toNat = left := ⟨_, rfl⟩
    induction left generalizing start with
    | zero => have := toNat_lt_size start; omega
    | succ left ih =>
        intro i from_ below
        have guard : start < bound () := lt_of_le_of_lt from_ below
        have succ := toNat_succ guard
        have first : body start () = .ok (.next ()) := by
          rw [forBelow_eq, if_pos guard] at run
          split at run
          · cases run
          · cases run
          · assumption
        rcases eq_or_lt_of_le from_ with rfl | later
        · exact first
        · rw [forBelow_next guard first] at run
          rw [UInt32.lt_iff_toNat_lt] at later
          exact ih run (by omega) i (UInt32.le_iff_toNat_le.mpr (by omega)) below
  · intro all
    have pass : ∀ i s, start ≤ i → i < bound s →
        ∃ s', body i s = .ok (.next s') ∧ start ≤ i + 1 := by
      intro i s from_ below
      have succ := toNat_succ below
      rw [UInt32.le_iff_toNat_le] at from_ ⊢
      exact ⟨(), all i (UInt32.le_iff_toNat_le.mpr from_) below, by omega⟩
    obtain ⟨_, _, run, -, -⟩ := forBelow_invariant bound body start () (fun i _ => start ≤ i) pass
      le_rfl
    exact run

/-- The flow a search takes with an answer, or without one. -/
def Flow.ofOption : Option ρ → Flow Unit ρ
  | none => .next ()
  | some r => .done r

/-- A loop that reads the elements of a list in order, and leaves at the first
that gives an answer, is `List.findSome?`. -/
theorem forBelow_search (xs : List α) (test : α → Option ρ) (bound : Unit → UInt32)
    (body : UInt32 → Unit → Except ε (Flow Unit ρ)) (hlen : (bound ()).toNat = xs.length)
    (hbody : ∀ (i : UInt32) (h : i.toNat < xs.length),
      body i () = .ok (Flow.ofOption (test xs[i.toNat]))) (i : UInt32) :
    forBelow bound body i () = .ok (Flow.ofOption ((xs.drop i.toNat).findSome? test)) := by
  obtain ⟨left, hleft⟩ : ∃ left, xs.length - i.toNat = left := ⟨_, rfl⟩
  induction left generalizing i with
  | zero =>
      have guard : ¬ i < bound () := by rw [UInt32.lt_iff_toNat_lt]; omega
      rw [forBelow_stop guard, List.drop_eq_nil_of_le (by omega)]
      rfl
  | succ left ih =>
      have inside : i.toNat < xs.length := by omega
      have guard : i < bound () := by rw [UInt32.lt_iff_toNat_lt]; omega
      have succ := toNat_succ guard
      have pass := hbody i inside
      rw [List.drop_eq_getElem_cons inside, List.findSome?_cons]
      cases answer : test xs[i.toNat] with
      | none =>
          rw [answer] at pass
          rw [forBelow_next guard pass, ih (i + 1) (by omega), succ]
      | some r =>
          rw [answer] at pass
          rw [forBelow_done guard pass]
          rfl

/-- Related flows: both go on, in related states, or both leave with one result. -/
inductive Flow.Like {τ : Type} (R : σ → τ → Prop) : Flow σ ρ → Flow τ ρ → Prop where
  | next {s : σ} {t : τ} : R s t → Like R (.next s) (.next t)
  | done (r : ρ) : Like R (.done r) (.done r)

/-- Loops whose passes agree agree, as long as related states have one bound. -/
theorem forBelow_agree {τ : Type} {R : σ → τ → Prop} {bound : σ → UInt32} {bound' : τ → UInt32}
    {body : UInt32 → σ → Except ε (Flow σ ρ)} {body' : UInt32 → τ → Except ε (Flow τ ρ)}
    (bounds : ∀ s t, R s t → bound s = bound' t)
    (pass : ∀ i s t, R s t → Agree (Flow.Like R) (body i s) (body' i t)) {start : UInt32}
    {s : σ} {t : τ} (related : R s t) :
    Agree (Flow.Like R) (forBelow bound body start s) (forBelow bound' body' start t) := by
  obtain ⟨left, hleft⟩ : ∃ left, UInt32.size - start.toNat = left := ⟨_, rfl⟩
  induction left generalizing start s t with
  | zero => have := toNat_lt_size start; omega
  | succ left ih =>
      have same := bounds s t related
      by_cases guard : start < bound s
      · have succ := toNat_succ guard
        have step := pass start s t related
        rw [forBelow_eq, forBelow_eq bound', ← same, if_pos guard, if_pos guard]
        generalize body start s = x at step
        generalize body' start t = y at step
        cases step with
        | error e => exact .error e
        | ok flows =>
            cases flows with
            | done r => exact .ok (.done r)
            | next related' => exact ih related' (by omega)
      · rw [forBelow_stop guard, forBelow_stop (same ▸ guard)]
        exact .ok (.next related)

end ForBelow

/-! ### Loops with fuel -/

section Fuel

variable {ε σ ρ : Type}

/-- Run passes until one leaves the loop. `none` says that the fuel ran out. -/
def runFuel (pass : σ → Except ε (Flow σ ρ)) : Nat → σ → Option (Except ε ρ)
  | 0, _ => none
  | fuel + 1, s =>
      match pass s with
      | .error e => some (.error e)
      | .ok (.done r) => some (.ok r)
      | .ok (.next s') => runFuel pass fuel s'

/-- The loop comes to an end, with this answer, whenever it is given enough fuel. -/
def Terminates (pass : σ → Except ε (Flow σ ρ)) (s : σ) (answer : Except ε ρ) : Prop :=
  ∃ enough, ∀ fuel, enough ≤ fuel → runFuel pass fuel s = some answer

variable {pass : σ → Except ε (Flow σ ρ)} {s s' : σ}

theorem Terminates.error {e : ε} (h : pass s = .error e) : Terminates pass s (.error e) := by
  refine ⟨1, ?_⟩
  intro fuel enough
  obtain ⟨rest, rfl⟩ := Nat.exists_eq_add_of_le' enough
  rw [runFuel, h]

theorem Terminates.done {r : ρ} (h : pass s = .ok (.done r)) : Terminates pass s (.ok r) := by
  refine ⟨1, ?_⟩
  intro fuel enough
  obtain ⟨rest, rfl⟩ := Nat.exists_eq_add_of_le' enough
  rw [runFuel, h]

theorem Terminates.next {answer : Except ε ρ} (h : pass s = .ok (.next s'))
    (tail : Terminates pass s' answer) : Terminates pass s answer := by
  obtain ⟨enough, hrun⟩ := tail
  refine ⟨enough + 1, ?_⟩
  intro fuel hfuel
  obtain ⟨rest, rfl⟩ := Nat.exists_eq_add_of_le' ((Nat.le_add_left 1 enough).trans hfuel)
  rw [runFuel, h]
  exact hrun rest (Nat.le_of_succ_le_succ hfuel)

/-- With enough fuel there is one answer only. -/
theorem answer_unique {α : Type} {run : Nat → Option α} {a b : α}
    (ha : ∃ enough, ∀ fuel, enough ≤ fuel → run fuel = some a)
    (hb : ∃ enough, ∀ fuel, enough ≤ fuel → run fuel = some b) : a = b := by
  obtain ⟨na, hna⟩ := ha
  obtain ⟨nb, hnb⟩ := hb
  have left := hna (max na nb) (le_max_left _ _)
  rw [hnb (max na nb) (le_max_right _ _)] at left
  exact (Option.some.inj left).symm

end Fuel

end GlibController.Lib

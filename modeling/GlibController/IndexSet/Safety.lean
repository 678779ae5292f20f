import GlibController.IndexSet.Enumerate
import GlibController.IndexSet.Runs

/-!
Which queries are safe on which sets.

A set without members is represented in two ways: by a `NULL` array, before the
first initialiser, and by an array of length zero. The readers disagree about
both. `count` takes `NULL` for "not found"; `firstIndex` and `lastIndex` look for
`NULL` but not for length zero; `enumerate` looks for neither.
`queries_safe_iff` gives, query by query, the sets on which it returns without a
fault and answers an empty set as an empty set.
-/

namespace GlibController

open Lib

namespace GIndexSet

open GArray

variable {Arr : Type} [GArray Arr] {σ : Type}

/-- What a set without members has to answer. -/
def emptyAnswer : Query → Answer
  | .count => .number 0
  | .containsIndex _ => .flag false
  | .firstIndex => .number indexNotFound
  | .lastIndex => .number indexNotFound
  | .getIndex _ _ => .number indexNotFound

/-- The query returns without a fault, and answers an empty set as such. -/
def QuerySafe (set : GIndexSet Arr) (q : Query) : Prop :=
  ∃ answer, set.ask q = .ok answer ∧ (set.members = [] → answer = emptyAnswer q)

/-- Where a query is safe. -/
def QueryFits (set : GIndexSet Arr) : Query → Prop
  | .count => set.indices ≠ none
  | .containsIndex _ => True
  | .firstIndex => set.indices = none ∨ set.members ≠ []
  | .lastIndex => set.indices = none ∨ set.members ≠ []
  | .getIndex _ _ => True

/-- The enumeration ends without a fault, and calls nothing on an empty set. -/
def EnumerateSafe (reading : Bound) (set : GIndexSet Arr) (flags : Guint)
    (func : Guint → σ → Bool × σ) (data : σ) : Prop :=
  ∃ outcome, EnumeratesTo reading set flags func data (.ok outcome) ∧
    (set.members = [] → outcome.1 = [])

/-- Where the enumeration of an array with elements `xs` is safe. -/
def OutcomeFits (reading : Bound) (reverse : Bool) (xs : List Guint)
    (func : Guint → σ → Bool × σ) (data : σ) : Prop :=
  match reading, reverse with
  | .computedEnd, false => xs ≠ []
  | .computedEnd, true => True
  | .arrayLen, false => stops func xs data = true
  | .arrayLen, true => stops func xs.reverse data = true ∨ xs.length < maxUint.toNat

/-- Where an enumeration is safe. -/
def EnumerateFits (reading : Bound) (reverse : Bool) (set : GIndexSet Arr)
    (func : Guint → σ → Bool × σ) (data : σ) : Prop :=
  set.indices ≠ none ∧ OutcomeFits reading reverse set.members func data

/-- A query that answers is safe exactly when its answer fits an empty set. -/
theorem querySafe_of_ok {set : GIndexSet Arr} {q : Query} {answer : Answer}
    (h : set.ask q = .ok answer) :
    QuerySafe set q ↔ (set.members = [] → answer = emptyAnswer q) := by
  constructor
  · rintro ⟨answer', run, empty⟩
    rw [h] at run
    cases run
    exact empty
  · intro empty
    exact ⟨answer, h, empty⟩

/-- A query that faults is not safe. -/
theorem not_querySafe_of_error {set : GIndexSet Arr} {q : Query} {e : Fault}
    (h : set.ask q = .error e) : ¬ QuerySafe set q := by
  rintro ⟨answer, run, -⟩
  rw [h] at run
  cases run

theorem count_safe_iff (set : GIndexSet Arr) : QuerySafe set .count ↔ QueryFits set .count := by
  rw [querySafe_of_ok (rfl : set.ask .count = .ok (.number set.count)), QueryFits, emptyAnswer,
    Answer.number.injEq]
  cases hind : set.indices with
  | none =>
      have hmem : set.members = [] := by simp [members, stored, hind]
      have hcount : set.count = indexNotFound := by simp [count, hind]
      simp only [hmem, hcount, ne_eq, not_true_eq_false, iff_false, forall_const]
      decide
  | some arr =>
      have hne : set.indices ≠ none := by simp [hind]
      simp only [ne_eq, reduceCtorEq, not_false_eq_true, iff_true]
      intro hmem
      rw [← UInt32.toNat_inj, count_eq set hne, hmem]
      rfl

/-- Both ends behave alike: read out of bounds on an empty array, and otherwise safe. -/
theorem end_safe_iff {set : GIndexSet Arr} {q : Query} (hq : emptyAnswer q = .number indexNotFound)
    (null : set.indices = none → set.ask q = .ok (.number indexNotFound))
    (full : set.members ≠ [] → ∃ i, set.ask q = .ok (.number i))
    (empty : set.stored = some [] → ∃ e, set.ask q = .error e) :
    QuerySafe set q ↔ set.indices = none ∨ set.members ≠ [] := by
  cases hind : set.indices with
  | none =>
      rw [querySafe_of_ok (null hind)]
      simp [hq]
  | some arr =>
      have hmem : set.members = elems arr := members_of_stored (stored_of_indices hind)
      by_cases hnil : set.members = []
      · obtain ⟨e, he⟩ := empty (by rw [stored_of_indices hind, ← hmem, hnil])
        simp [not_querySafe_of_error he, hnil]
      · obtain ⟨i, hi⟩ := full hnil
        simp [querySafe_of_ok hi, hnil]

theorem query_safe_iff (set : GIndexSet Arr) (q : Query) : QuerySafe set q ↔ QueryFits set q := by
  cases q with
  | count => exact count_safe_iff set
  | containsIndex i =>
      have run : set.ask (.containsIndex i) = .ok (.flag (decide (i ∈ set.members))) := by
        rw [ask, containsIndex_eq]
        rfl
      rw [querySafe_of_ok run]
      simp +contextual [QueryFits, emptyAnswer]
  | getIndex p i =>
      have run : set.ask (.getIndex p i) = .ok (.number
          ((set.members.find? fun idx => p.holds idx i).getD indexNotFound)) := by
        rw [ask, getIndex_eq]
        rfl
      rw [querySafe_of_ok run]
      simp +contextual [QueryFits, emptyAnswer]
  | firstIndex =>
      apply end_safe_iff rfl
      · intro h
        simp [ask, firstIndex, h, Except.map]
      · intro h
        exact ⟨set.members.head h, by rw [ask, firstIndex_of_members h]; rfl⟩
      · intro h
        exact ⟨.outOfBounds 0 0, by rw [ask, firstIndex_of_nil h]; rfl⟩
  | lastIndex =>
      apply end_safe_iff rfl
      · intro h
        simp [ask, lastIndex, h, Except.map]
      · intro h
        exact ⟨set.members.getLast h, by rw [ask, lastIndex_of_members h]; rfl⟩
      · intro h
        exact ⟨.outOfBounds maxUint.toNat 0, by rw [ask, lastIndex_of_nil h]; rfl⟩

/-- An outcome that is no fault is a safe one: an empty set has nothing to visit. -/
theorem enumerateOutcome_ok_iff {reading : Bound} {reverse : Bool} {xs : List Guint}
    {func : Guint → σ → Bool × σ} {data : σ} :
    (∃ outcome, enumerateOutcome reading reverse xs func data = .ok outcome ∧
        (xs = [] → outcome.1 = [])) ↔
      OutcomeFits reading reverse xs func data := by
  have nothing : xs = [] → (visits func xs.reverse data).1 = [] := by
    rintro rfl
    rfl
  cases reading with
  | computedEnd =>
      cases reverse with
      | false => by_cases h : xs = [] <;> simp [enumerateOutcome, OutcomeFits, h]
      | true =>
          by_cases one : xs.length ≤ 1
          · simpa [enumerateOutcome, OutcomeFits, one] using nothing
          · simp [enumerateOutcome, OutcomeFits, one]
  | arrayLen =>
      cases reverse with
      | false =>
          cases hs : stops func xs data with
          | false => simp [enumerateOutcome, OutcomeFits, hs]
          | true =>
              have hne : xs ≠ [] := by
                rintro rfl
                cases hs
              simp [enumerateOutcome, OutcomeFits, hs, hne]
      | true =>
          by_cases hs : stops func xs.reverse data = true ∨ xs.length < maxUint.toNat
          · simpa [enumerateOutcome, OutcomeFits, hs] using nothing
          · simp [enumerateOutcome, OutcomeFits, hs]

theorem enumerate_safe_iff (reading : Bound) (set : GIndexSet Arr) (flags : Guint)
    (func : Guint → σ → Bool × σ) (data : σ) :
    EnumerateSafe reading set flags func data ↔
      EnumerateFits reading (isReverse flags) set func data := by
  cases hind : set.indices with
  | none =>
      have fault : ¬ EnumerateSafe reading set flags func data := by
        rintro ⟨outcome, run, -⟩
        cases run.unique (enumeratesTo_null hind)
      simp [fault, EnumerateFits, hind]
  | some arr =>
      have hmem : set.members = elems arr := members_of_stored (stored_of_indices hind)
      have outcome := enumerate_outcome hind reading flags func data
      rw [← hmem] at outcome
      have ends : EnumerateSafe reading set flags func data ↔ ∃ result,
          enumerateOutcome reading (isReverse flags) set.members func data = .ok result ∧
            (set.members = [] → result.1 = []) := by
        constructor
        · rintro ⟨result, run, empty⟩
          exact ⟨result, outcome.unique run, empty⟩
        · rintro ⟨result, same, empty⟩
          exact ⟨result, same ▸ outcome, empty⟩
      rw [ends, enumerateOutcome_ok_iff, EnumerateFits, hind]
      simp only [ne_eq, reduceCtorEq, not_false_eq_true, true_and]

/-- On every set, reachable or not, which queries and which enumerations are safe. -/
theorem queries_safe_iff (set : GIndexSet Arr) :
    (∀ q, QuerySafe set q ↔ QueryFits set q) ∧
      ∀ reading flags (func : Guint → σ → Bool × σ) data,
        EnumerateSafe reading set flags func data ↔
          EnumerateFits reading (isReverse flags) set func data :=
  ⟨query_safe_iff set, fun reading flags func data =>
    enumerate_safe_iff reading set flags func data⟩

/-- The first index of a set that was initialised empty is read out of bounds. -/
theorem empty_sets_not_safe :
    ¬ ∀ (st : Store Words) (a : Nat) (set : GIndexSet Words), (Store.machine Words).Reach st →
      st.sets a = some set → ∀ q, QuerySafe set q := by
  intro all
  have reach : (Store.machine Words).Reach (Store.empty.alloc.1.write 0 (init alloc)) :=
    .step (a := .init (some 0)) (.step (a := .alloc) (.start rfl) trivial ⟨_, rfl⟩) trivial
      ⟨_, rfl⟩
  exact not_querySafe_of_error (e := .outOfBounds 0 0) rfl (all _ 0 _ reach rfl .firstIndex)

end GIndexSet

end GlibController

import GlibController.IndexSet.Contents

/-!
`g_index_set_enumerate` under both readings of its undeclared loop bound.

`visits` and `stops` say what a callback does when it is called on a list of
indices until it returns `TRUE`. `Walk` lists the positions that the loop reads
from one counter value to another. The loop makes those calls, and either leaves at
the first that returns `TRUE` (`Walk.stopped`) or goes on from the counter value at
the end of the walk (`Walk.passed`). The counter goes up by one
from 0, or down by one from the last position and past 0 to `G_MAXUINT`, where an
upward test ends the loop only if its bound is smaller.

`enumerateOutcome` is the outcome for every array, reading, direction and callback,
`enumerate_outcome` the theorem that the loop ends with it, and
`enumerate_law_iff` says where it is the enumeration that was asked for.
-/

namespace GlibController

open Lib

namespace GIndexSet

open GArray

variable {σ : Type}

/-! ### Calling back -/

/-- The calls made on the indices, in order, up to the first that returns `TRUE`,
and the user data after them. -/
def visits (func : Guint → σ → Bool × σ) : List Guint → σ → List Guint × σ
  | [], data => ([], data)
  | x :: xs, data =>
      match func x data with
      | (true, data') => ([x], data')
      | (false, data') => (x :: (visits func xs data').1, (visits func xs data').2)

/-- Some call returns `TRUE`. -/
def stops (func : Guint → σ → Bool × σ) : List Guint → σ → Bool
  | [], _ => false
  | x :: xs, data =>
      match func x data with
      | (true, _) => true
      | (false, data') => stops func xs data'

/-- Calls are made on an initial part of the list. -/
theorem visits_prefix (func : Guint → σ → Bool × σ) (xs : List Guint) (data : σ) :
    (visits func xs data).1 <+: xs := by
  induction xs generalizing data with
  | nil => exact List.prefix_rfl
  | cons x xs ih =>
      cases hcall : func x data with
      | mk stop data' =>
          cases stop with
          | true => simp [visits, hcall]
          | false => simpa [visits, hcall] using ih data'

/-- Without a call that returns `TRUE`, the whole list is visited. -/
theorem visits_of_not_stops {func : Guint → σ → Bool × σ} {xs : List Guint} {data : σ}
    (h : stops func xs data = false) : (visits func xs data).1 = xs := by
  induction xs generalizing data with
  | nil => rfl
  | cons x xs ih =>
      cases hcall : func x data with
      | mk stop data' =>
          cases stop with
          | true => simp [stops, hcall] at h
          | false =>
              simp only [stops, hcall] at h
              simp only [visits, hcall, ih h]

theorem visits_ne_nil (func : Guint → σ → Bool × σ) {xs : List Guint} (h : xs ≠ []) (data : σ) :
    (visits func xs data).1 ≠ [] := by
  cases xs with
  | nil => exact absurd rfl h
  | cons x xs =>
      cases hcall : func x data with
      | mk stop data' => cases stop <;> simp [visits, hcall]

variable {Arr : Type} [GArray Arr]

/-! ### Walks -/

/-- From counter `i` the loop reads the elements `xs`, at positions its guard
admits, and comes to counter `j`. -/
inductive Walk (arr : Arr) (bound step : Guint) : Guint → List Guint → Guint → Prop where
  | stay (i : Guint) : Walk arr bound step i [] i
  | read {i j x : Guint} {xs : List Guint} : i ≤ bound → index arr i = .ok x →
      Walk arr bound step (i + step) xs j → Walk arr bound step i (x :: xs) j

section Loop

variable {arr : Arr} {bound step : Guint} {func : Guint → σ → Bool × σ}

theorem pass_end {i : Guint} {visited : List Guint} {data : σ} (h : ¬ i ≤ bound) :
    enumeratePass arr bound step func ⟨i, visited, data⟩ = .ok (.done (visited, data)) := by
  simp [enumeratePass, h]

theorem pass_fault {i : Guint} {visited : List Guint} {data : σ} {e : Fault} (h : i ≤ bound)
    (hread : index arr i = .error e) :
    enumeratePass arr bound step func ⟨i, visited, data⟩ = .error e := by
  simp [enumeratePass, h, hread]

theorem pass_stop {i x : Guint} {visited : List Guint} {data data' : σ} (h : i ≤ bound)
    (hread : index arr i = .ok x) (hcall : func x data = (true, data')) :
    enumeratePass arr bound step func ⟨i, visited, data⟩ =
      .ok (.done (visited ++ [x], data')) := by
  simp [enumeratePass, h, hread, hcall]

theorem pass_next {i x : Guint} {visited : List Guint} {data data' : σ} (h : i ≤ bound)
    (hread : index arr i = .ok x) (hcall : func x data = (false, data')) :
    enumeratePass arr bound step func ⟨i, visited, data⟩ =
      .ok (.next ⟨i + step, visited ++ [x], data'⟩) := by
  simp [enumeratePass, h, hread, hcall]

/-- A loop whose callback stops during a walk ends there. -/
theorem Walk.stopped {i j : Guint} {xs : List Guint} (walk : Walk arr bound step i xs j)
    (visited : List Guint) {data : σ} (h : stops func xs data = true) :
    Terminates (enumeratePass arr bound step func) ⟨i, visited, data⟩
      (.ok (visited ++ (visits func xs data).1, (visits func xs data).2)) := by
  induction walk generalizing visited data with
  | stay i => cases h
  | @read i j x xs guard hread _ ih =>
      cases hcall : func x data with
      | mk stop data' =>
          cases stop with
          | true =>
              simp only [visits, hcall]
              exact .done (pass_stop guard hread hcall)
          | false =>
              simp only [stops, hcall] at h
              simp only [visits, hcall]
              have tail := ih (visited ++ [x]) h
              rw [List.append_assoc, List.singleton_append] at tail
              exact .next (pass_next guard hread hcall) tail

/-- A loop whose callback does not stop during a walk goes on from its end. -/
theorem Walk.passed {i j : Guint} {xs : List Guint} (walk : Walk arr bound step i xs j)
    {visited : List Guint} {data : σ} (h : stops func xs data = false)
    {answer : Except Fault (List Guint × σ)}
    (tail : Terminates (enumeratePass arr bound step func)
      ⟨j, visited ++ xs, (visits func xs data).2⟩ answer) :
    Terminates (enumeratePass arr bound step func) ⟨i, visited, data⟩ answer := by
  induction walk generalizing visited data with
  | stay i => simpa [visits] using tail
  | @read i j x xs guard hread _ ih =>
      cases hcall : func x data with
      | mk stop data' =>
          cases stop with
          | true => simp [stops, hcall] at h
          | false =>
              simp only [stops, hcall] at h
              simp only [visits, hcall] at tail
              refine .next (pass_next guard hread hcall) (ih h ?_)
              rw [List.append_assoc, List.singleton_append]
              exact tail

/-- A walk to a counter that the guard rejects is the whole enumeration. -/
theorem Walk.complete {i j : Guint} {xs : List Guint} (walk : Walk arr bound step i xs j)
    (stop : ¬ j ≤ bound) (data : σ) :
    Terminates (enumeratePass arr bound step func) ⟨i, [], data⟩ (.ok (visits func xs data)) := by
  cases h : stops func xs data with
  | true => exact walk.stopped [] h
  | false =>
      have whole : (xs, (visits func xs data).2) = visits func xs data :=
        Prod.ext (visits_of_not_stops h).symm rfl
      refine walk.passed h (.done ?_)
      rw [pass_end stop, List.nil_append, whole]

/-- A walk to a counter that the guard admits past the end of the array ends the
enumeration only if the callback does. -/
theorem Walk.overrun {i j : Guint} {xs : List Guint} (walk : Walk arr bound step i xs j)
    (func : Guint → σ → Bool × σ) (admitted : j ≤ bound)
    (outside : (elems arr).length ≤ j.toNat) (data : σ) :
    Terminates (enumeratePass arr bound step func) ⟨i, [], data⟩
      (if stops func xs data then .ok (visits func xs data)
        else .error (.outOfBounds j.toNat (elems arr).length)) := by
  cases h : stops func xs data with
  | true => exact walk.stopped [] h
  | false => exact walk.passed h (.error (pass_fault admitted (index_of_ge outside)))

end Loop

/-! ### The two directions -/

section Directions

variable {arr : Arr} {bound : Guint}

theorem toNat_add_one_of_lt {i : Guint} (h : i.toNat < (elems arr).length) :
    (i + 1).toNat = i.toNat + 1 := by
  refine toNat_succ (b := len arr) ?_
  rw [UInt32.lt_iff_toNat_lt, toNat_len]
  exact h

/-- Upwards from any position, the walk reads the rest of the array and comes to
its length. -/
theorem walk_up (bounded : (elems arr).length ≤ bound.toNat + 1) {i : Guint}
    (inside : i.toNat ≤ (elems arr).length) :
    Walk arr bound 1 i ((elems arr).drop i.toNat) (len arr) := by
  obtain ⟨left, hleft⟩ : ∃ left, (elems arr).length - i.toNat = left := ⟨_, rfl⟩
  induction left generalizing i with
  | zero =>
      have here : i = len arr := by
        rw [← UInt32.toNat_inj, toNat_len]
        omega
      rw [List.drop_eq_nil_of_le (by omega), here]
      exact .stay _
  | succ left ih =>
      have lt : i.toNat < (elems arr).length := by omega
      have succ := toNat_add_one_of_lt lt
      rw [List.drop_eq_getElem_cons lt, ← succ]
      refine .read ?_ (index_of_lt lt) (ih (by omega) (by omega))
      rw [UInt32.le_iff_toNat_le]
      omega

/-- Downwards from below position `n`, the walk reads the first `n` elements
backwards and comes to `G_MAXUINT`, one below position 0. -/
theorem walk_down (bounded : (elems arr).length ≤ bound.toNat + 1) {n : Nat}
    (inside : n ≤ (elems arr).length) :
    Walk arr bound (-1) (UInt32.ofNat n - 1) ((elems arr).take n).reverse maxUint := by
  induction n with
  | zero => exact .stay _
  | succ n ih =>
      have lt : n < (elems arr).length := by omega
      have size := length_lt arr
      have here : UInt32.ofNat (n + 1) - 1 = UInt32.ofNat n := by
        rw [UInt32.ofNat_add]
        exact UInt32.add_sub_cancel _ _
      have place : (UInt32.ofNat n).toNat = n := toNat_ofNat_of_lt (by omega)
      have hread : index arr (UInt32.ofNat n) = .ok (elems arr)[n] := by
        rw [index_of_lt (by omega)]
        simp only [place]
      rw [← List.take_append_getElem lt, List.reverse_append, List.reverse_singleton,
        List.singleton_append, here]
      refine .read ?_ hread ?_
      · rw [UInt32.le_iff_toNat_le]
        omega
      · have next := ih (by omega)
        rwa [UInt32.sub_eq_add_neg] at next

/-- The walk over the whole array, in either direction. -/
theorem walk_all_up (arr : Arr) (bound : Guint) (bounded : (elems arr).length ≤ bound.toNat + 1) :
    Walk arr bound 1 0 (elems arr) (len arr) :=
  walk_up bounded (i := 0) (Nat.zero_le _)

theorem walk_all_down (arr : Arr) (bound : Guint) (bounded : (elems arr).length ≤ bound.toNat + 1) :
    Walk arr bound (-1) (len arr - 1) (elems arr).reverse maxUint := by
  have walk := walk_down bounded (n := (elems arr).length) le_rfl
  rwa [List.take_length] at walk

end Directions

/-! ### The outcome -/

/-- The enumeration comes to an end, with this outcome, given enough fuel. -/
def EnumeratesTo (reading : Bound) (set : GIndexSet Arr) (flags : Guint)
    (func : Guint → σ → Bool × σ) (data : σ) (outcome : Except Fault (List Guint × σ)) : Prop :=
  ∃ enough, ∀ fuel, enough ≤ fuel → enumerate reading fuel set flags func data = some outcome

/-- The `REVERSE` flag is set. -/
def isReverse (flags : Guint) : Bool :=
  flags &&& enumerateReverse ≠ 0

/-- What the enumeration of an array comes to. -/
def enumerateOutcome (reading : Bound) (reverse : Bool) (xs : List Guint)
    (func : Guint → σ → Bool × σ) (data : σ) : Except Fault (List Guint × σ) :=
  match reading, reverse with
  | .computedEnd, false =>
      if xs = [] then .error (.outOfBounds 0 0) else .ok (visits func xs data)
  | .computedEnd, true =>
      if xs.length ≤ 1 then .ok (visits func xs.reverse data) else .ok ([], data)
  | .arrayLen, false =>
      if stops func xs data then .ok (visits func xs data)
      else .error (.outOfBounds xs.length xs.length)
  | .arrayLen, true =>
      if stops func xs.reverse data ∨ xs.length < maxUint.toNat then
        .ok (visits func xs.reverse data)
      else .error (.outOfBounds maxUint.toNat xs.length)

section Outcome

variable {reading : Bound} {set : GIndexSet Arr} {arr : Arr} {flags : Guint}
  {func : Guint → σ → Bool × σ} {data : σ}

theorem EnumeratesTo.unique {a b : Except Fault (List Guint × σ)}
    (ha : EnumeratesTo reading set flags func data a)
    (hb : EnumeratesTo reading set flags func data b) : a = b :=
  answer_unique ha hb

/-- Through a `NULL` array, the length is read at once. -/
theorem enumeratesTo_null (h : set.indices = none) :
    EnumeratesTo reading set flags func data (.error .nullDereference) :=
  ⟨0, fun _ _ => by rw [enumerate, h]⟩

/-- The bound a reading gives the loop. -/
def loopBound (reading : Bound) (reverse : Bool) (arr : Arr) : Guint :=
  match reading with
  | .computedEnd => if reverse then 0 else len arr - 1
  | .arrayLen => len arr

/-- Where the loop starts, and what it adds to `i`. -/
def loopStart (reverse : Bool) (arr : Arr) : Guint :=
  if reverse then len arr - 1 else 0

def loopStep (reverse : Bool) : Guint :=
  if reverse then -1 else 1

theorem enumerateSetup_eq (arr : Arr) (flags : Guint) :
    enumerateSetup arr flags = (loopStart (isReverse flags) arr,
      loopBound .computedEnd (isReverse flags) arr, loopStep (isReverse flags)) := by
  unfold enumerateSetup
  cases hflags : isReverse flags with
  | false =>
      rw [if_neg (by simpa [isReverse] using hflags)]
      rfl
  | true =>
      rw [if_pos (by simpa [isReverse] using hflags)]
      rfl

/-- The enumeration comes to what its loop comes to. -/
theorem enumeratesTo_of_loop (h : set.indices = some arr)
    {outcome : Except Fault (List Guint × σ)}
    (run : Terminates
      (enumeratePass arr (loopBound reading (isReverse flags) arr) (loopStep (isReverse flags)) func)
      ⟨loopStart (isReverse flags) arr, [], data⟩ outcome) :
    EnumeratesTo reading set flags func data outcome := by
  obtain ⟨enough, hrun⟩ := run
  refine ⟨enough, ?_⟩
  intro fuel le
  simp only [enumerate, h, enumerateSetup_eq]
  cases reading with
  | computedEnd => exact hrun fuel le
  | arrayLen => exact hrun fuel le

/-- Upwards to `end`: the whole array, unless it is empty and `end` is `G_MAXUINT`. -/
theorem run_up_end (arr : Arr) (func : Guint → σ → Bool × σ) (data : σ) :
    Terminates (enumeratePass arr (len arr - 1) 1 func) ⟨0, [], data⟩
      (enumerateOutcome .computedEnd false (elems arr) func data) := by
  rw [enumerateOutcome]
  split
  · rename_i hnil
    refine .error (pass_fault (UInt32.zero_le) ?_)
    rw [index_of_ge (by simp [hnil]), hnil]
    rfl
  · rename_i hne
    have last := toNat_len_sub_one hne
    have pos := List.length_pos_iff.mpr hne
    refine (walk_all_up arr _ (by omega)).complete ?_ data
    rw [UInt32.le_iff_toNat_le, toNat_len]
    omega

/-- Downwards to `end`, which is 0: only a single element passes the guard. -/
theorem run_down_end (arr : Arr) (func : Guint → σ → Bool × σ) (data : σ) :
    Terminates (enumeratePass arr 0 (-1) func) ⟨len arr - 1, [], data⟩
      (enumerateOutcome .computedEnd true (elems arr) func data) := by
  rw [enumerateOutcome]
  split
  · rename_i hle
    exact (walk_all_down arr 0 (by simpa using hle)).complete (by decide) data
  · rename_i hgt
    have hne : elems arr ≠ [] := fun h => hgt (by simp [h])
    have last := toNat_len_sub_one hne
    refine .done (pass_end ?_)
    rw [UInt32.le_iff_toNat_le, UInt32.toNat_zero]
    omega

/-- Upwards to the length, which the guard admits. -/
theorem run_up_len (arr : Arr) (func : Guint → σ → Bool × σ) (data : σ) :
    Terminates (enumeratePass arr (len arr) 1 func) ⟨0, [], data⟩
      (enumerateOutcome .arrayLen false (elems arr) func data) := by
  have run := (walk_all_up arr (len arr) (by simp)).overrun func (le_refl _) (by simp) data
  rwa [toNat_len] at run

/-- Downwards under the length: past position 0 the counter is `G_MAXUINT`. -/
theorem run_down_len (arr : Arr) (func : Guint → σ → Bool × σ) (data : σ) :
    Terminates (enumeratePass arr (len arr) (-1) func) ⟨len arr - 1, [], data⟩
      (enumerateOutcome .arrayLen true (elems arr) func data) := by
  have walk := walk_all_down arr (len arr) (by simp)
  rw [enumerateOutcome]
  by_cases small : (elems arr).length < maxUint.toNat
  · rw [if_pos (.inr small)]
    refine walk.complete ?_ data
    rw [UInt32.le_iff_toNat_le, toNat_len]
    omega
  · have size := length_lt arr
    have full : maxUint ≤ len arr := by
      rw [UInt32.le_iff_toNat_le, toNat_len]
      omega
    have outside : (elems arr).length ≤ maxUint.toNat := Nat.le_of_lt_succ size
    have run := walk.overrun func full outside data
    simpa only [small, or_false] using run

/-- The enumeration of a set with an array always ends, with this outcome. -/
theorem enumerate_outcome (h : set.indices = some arr) (reading : Bound) (flags : Guint)
    (func : Guint → σ → Bool × σ) (data : σ) :
    EnumeratesTo reading set flags func data
      (enumerateOutcome reading (isReverse flags) (elems arr) func data) := by
  apply enumeratesTo_of_loop h
  cases isReverse flags with
  | false =>
      cases reading with
      | computedEnd => exact run_up_end arr func data
      | arrayLen => exact run_up_len arr func data
  | true =>
      cases reading with
      | computedEnd => exact run_down_end arr func data
      | arrayLen => exact run_down_len arr func data

end Outcome

/-! ### The enumeration asked for -/

/-- The order in which the flags ask for the members. -/
def requestedOrder (set : GIndexSet Arr) (flags : Guint) : List Guint :=
  if isReverse flags then set.members.reverse else set.members

/-- The enumeration ends, having called the callback on the members in the order
asked for, each once, up to the first call that returns `TRUE`. -/
structure EnumerateLaw (reading : Bound) (set : GIndexSet Arr) (flags : Guint)
    (func : Guint → σ → Bool × σ) (data : σ) : Prop where
  calls : EnumeratesTo reading set flags func data
    (.ok (visits func (requestedOrder set flags) data))
  upwards : isReverse flags = false → (visits func (requestedOrder set flags) data).1.SortedLT
  downwards : isReverse flags = true → (visits func (requestedOrder set flags) data).1.SortedGT
  whole : stops func (requestedOrder set flags) data = false →
    (visits func (requestedOrder set flags) data).1 = requestedOrder set flags

/-- Where a reading gives the enumeration asked for, of a set with members `xs`. -/
def LawFits (reading : Bound) (reverse : Bool) (xs : List Guint) (func : Guint → σ → Bool × σ)
    (data : σ) : Prop :=
  match reading, reverse with
  | .computedEnd, false => True
  | .computedEnd, true => xs.length = 1
  | .arrayLen, false => stops func xs data = true
  | .arrayLen, true => stops func xs.reverse data = true ∨ xs.length < maxUint.toNat

section Law

variable {set : GIndexSet Arr} {flags : Guint} {func : Guint → σ → Bool × σ} {data : σ}

/-- Off the empty list, the outcome is the enumeration asked for exactly where the
reading fits. -/
theorem enumerateOutcome_iff {reading : Bound} {reverse : Bool} {xs : List Guint} (h : xs ≠ []) :
    enumerateOutcome reading reverse xs func data =
        .ok (visits func (if reverse then xs.reverse else xs) data) ↔
      LawFits reading reverse xs func data := by
  have pos := List.length_pos_iff.mpr h
  cases reading with
  | computedEnd =>
      cases reverse with
      | false => simp [enumerateOutcome, LawFits, h]
      | true =>
          by_cases one : xs.length ≤ 1
          · simp only [enumerateOutcome, LawFits, if_pos one]
            simp only [if_true, true_iff]
            omega
          · have called := visits_ne_nil func (List.reverse_ne_nil_iff.mpr h) data
            simp only [enumerateOutcome, LawFits, if_neg one, if_true, Except.ok.injEq]
            constructor
            · intro none
              exact absurd (congrArg Prod.fst none).symm called
            · intro single
              omega
  | arrayLen =>
      cases reverse with
      | false => cases hs : stops func xs data <;> simp [enumerateOutcome, LawFits, hs]
      | true =>
          by_cases hs : stops func xs.reverse data = true ∨ xs.length < maxUint.toNat
          · simp only [enumerateOutcome, LawFits, if_true, hs]
          · simp [enumerateOutcome, LawFits, hs]

/-- One reading and one direction. -/
theorem enumerate_law_fits {reading : Bound} (sorted : set.members.SortedLT)
    (nonempty : set.members ≠ []) :
    EnumerateLaw reading set flags func data ↔
      LawFits reading (isReverse flags) set.members func data := by
  obtain ⟨arr, hind⟩ : ∃ arr, set.indices = some arr := by
    rw [← Option.ne_none_iff_exists']
    intro hnone
    exact nonempty (by simp [members, stored, hnone])
  have hmem : set.members = elems arr := members_of_stored (stored_of_indices hind)
  have outcome := enumerate_outcome hind reading flags func data
  rw [← hmem] at outcome
  rw [← enumerateOutcome_iff nonempty]
  constructor
  · intro law
    exact outcome.unique law.calls
  · intro asked
    have started := visits_prefix func (requestedOrder set flags) data
    refine ⟨?_, ?_, ?_, visits_of_not_stops⟩
    · rw [requestedOrder, ← asked]
      exact outcome
    · intro up
      have order : requestedOrder set flags = set.members := by simp [requestedOrder, up]
      rw [order] at started ⊢
      exact (sorted.pairwise.sublist started.sublist).sortedLT
    · intro down
      have order : requestedOrder set flags = set.members.reverse := by
        simp [requestedOrder, down]
      rw [order] at started ⊢
      exact (sorted.reverse.pairwise.sublist started.sublist).sortedGT

/-- Both directions of one reading are the flags 0 and `REVERSE`. -/
theorem forall_flags_iff (P : Bool → Prop) :
    (∀ flags, P (isReverse flags)) ↔ P false ∧ P true := by
  constructor
  · intro all
    exact ⟨all 0, all enumerateReverse⟩
  · rintro ⟨up, down⟩ flags
    cases isReverse flags with
    | false => exact up
    | true => exact down

/-- Read with `end`, the loop enumerates as asked for in both directions exactly for a
single member; read with the length of the array, exactly for a callback that stops. -/
theorem enumerate_law_iff (sorted : set.members.SortedLT) (nonempty : set.members ≠ []) :
    ((∀ flags, EnumerateLaw .computedEnd set flags func data) ↔ set.members.length = 1) ∧
      ((∀ flags, EnumerateLaw .arrayLen set flags func data) ↔
        stops func set.members data = true ∧
          (stops func set.members.reverse data = true ∨
            set.members.length < maxUint.toNat)) := by
  have both : ∀ reading, (∀ flags, EnumerateLaw reading set flags func data) ↔
      LawFits reading false set.members func data ∧
        LawFits reading true set.members func data := by
    intro reading
    rw [← forall_flags_iff fun reverse => LawFits reading reverse set.members func data]
    apply forall_congr'
    intro flags
    exact enumerate_law_fits sorted nonempty
  constructor
  · rw [both .computedEnd]
    exact ⟨And.right, fun single => ⟨trivial, single⟩⟩
  · exact both .arrayLen

/-- Three members and a callback that stops at the second, in either direction. -/
theorem enumerate_law_stopping :
    (¬ ∀ flags, EnumerateLaw .computedEnd ⟨1, some (⟨[1, 2, 3], by decide⟩ : Words)⟩ flags
        (fun idx (n : Nat) => (idx == 2, n + 1)) 0) ∧
      ∀ flags, EnumerateLaw .arrayLen ⟨1, some (⟨[1, 2, 3], by decide⟩ : Words)⟩ flags
        (fun idx (n : Nat) => (idx == 2, n + 1)) 0 := by
  constructor
  · intro law
    exact absurd ((enumerate_law_iff (by decide) (by decide)).1.mp law) (by decide)
  · exact (enumerate_law_iff (by decide) (by decide)).2.mpr (by decide)

/-- A callback that counts its calls and never stops sees no member of `1, 2`
downwards when the bound is `end`, and makes the loop read past the array upwards
when it is the length. -/
theorem enumerate_neither_reading :
    ¬ ∃ reading, ∀ (set : GIndexSet Words) (func : Guint → Nat → Bool × Nat) (data : Nat),
      set.members.SortedLT → set.members ≠ [] →
        ∀ flags, EnumerateLaw reading set flags func data := by
  rintro ⟨reading, all⟩
  have law := all ⟨1, some ⟨[1, 2], by decide⟩⟩ (fun _ n => (false, n + 1)) 0 (by decide)
    (by decide)
  cases reading with
  | computedEnd =>
      have none := (law 1).calls.unique (.intro 2 fun fuel le => by
        obtain ⟨rest, rfl⟩ : ∃ rest, fuel = rest + 2 := ⟨fuel - 2, by omega⟩
        rfl : EnumeratesTo _ _ _ _ _ (.ok ([], 0)))
      exact absurd none (by decide)
  | arrayLen =>
      have fault := (law 0).calls.unique (.intro 3 fun fuel le => by
        obtain ⟨rest, rfl⟩ : ∃ rest, fuel = rest + 3 := ⟨fuel - 3, by omega⟩
        rfl : EnumeratesTo _ _ _ _ _ (.error (.outOfBounds 2 2)))
      exact absurd fault (by decide)

end Law

end GIndexSet

end GlibController

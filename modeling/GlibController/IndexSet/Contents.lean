import GlibController.IndexSet.Model

/-!
What each function of the index set does to the stored list, and what it reads
off it.

`stored` is the content of a set: nothing while its array is `NULL`, and a list
of indices afterwards. `members` forgets that difference. Every initialiser has
one lemma that gives the list it leaves, and every query one that gives its
answer as a function of the list, so the later modules never unfold a loop.
-/

namespace GlibController

open Lib

namespace GIndexSet

open GArray

variable {Arr : Type} [GArray Arr]

/-- The content of a set: `none` while the array is `NULL`. -/
def stored (set : GIndexSet Arr) : Option (List Guint) :=
  set.indices.map elems

/-- The indices in a set. Neither a `NULL` array nor an empty one holds any. -/
def members (set : GIndexSet Arr) : List Guint :=
  set.stored.getD []

@[simp] theorem stored_mk_some (refs : Gint) (arr : Arr) :
    (GIndexSet.mk refs (some arr)).stored = some (elems arr) := rfl

theorem stored_eq_none {set : GIndexSet Arr} : set.stored = none ↔ set.indices = none := by
  simp [stored]

theorem stored_of_indices {set : GIndexSet Arr} {arr : Arr} (h : set.indices = some arr) :
    set.stored = some (elems arr) := by
  simp [stored, h]

theorem members_of_stored {set : GIndexSet Arr} {xs : List Guint} (h : set.stored = some xs) :
    set.members = xs := by
  simp [members, h]

/-! ### Initialisers -/

@[simp] theorem elems_emptied (set : GIndexSet Arr) : elems set.emptied = [] := by
  unfold emptied
  split <;> simp

@[simp] theorem stored_init (set : GIndexSet Arr) : set.init.stored = some [] := by
  simp [init]

/-- `initWithIndex` always returns, and leaves its index alone. -/
theorem initWithIndex_spec (set : GIndexSet Arr) (index_ : Guint) :
    ∃ set', set.initWithIndex index_ = .ok set' ∧ set'.stored = some [index_] := by
  obtain ⟨arr, hins⟩ := insertVal_room set.emptied 0 index_ (by simp)
    (by rw [elems_emptied]; decide)
  refine ⟨{ set with indices := some arr }, ?_, ?_⟩
  · simp only [initWithIndex, hins]
    rfl
  · simpa using insertVal_ok (by simp) hins

/-- Inserting right behind a prefix. -/
theorem insertIdx_length_append {α : Type} (xs ys : List α) (x : α) :
    (xs ++ ys).insertIdx xs.length x = xs ++ x :: ys := by
  induction xs with
  | nil => rfl
  | cons y xs ih => rw [List.cons_append, List.length_cons, List.insertIdx_succ_cons, ih]; rfl

/-- Inserting the next word of an interval behind those already in front. -/
theorem insertIdx_interval {lo w hi : Guint} (low : lo ≤ w) (high : w < hi) (base : List Guint) :
    (interval lo w ++ base).insertIdx (w - lo).toNat w = interval lo (w + 1) ++ base := by
  have place : (w - lo).toNat = (interval lo w).length := by
    rw [length_interval, UInt32.toNat_sub_of_le _ _ low]
  rw [interval_succ low high, place, insertIdx_length_append, List.append_assoc,
    List.singleton_append]

/-- The invariant of the loop in `initWithRange`: the words from the location up
to the counter stand in front of what the array held. -/
def RangeInv (range : GRange) (base : List Guint) (i : Guint) (arr : Arr) : Prop :=
  range.location ≤ i ∧ (i ≤ range.length ∨ i = range.location) ∧
    elems arr = interval range.location i ++ base

theorem rangeInv_start (range : GRange) (arr : Arr) :
    RangeInv range (elems arr) range.location arr :=
  ⟨UInt32.le_refl _, .inr rfl, by rw [interval_eq_nil (UInt32.le_refl _), List.nil_append]⟩

/-- One pass keeps the invariant. -/
theorem rangeInv_step {range : GRange} {base : List Guint} {i : Guint} {arr arr' : Arr}
    (inv : RangeInv range base i arr) (guard : i < range.length)
    (h : insertVal arr (i - range.location) i = .ok arr') :
    RangeInv range base (i + 1) arr' := by
  obtain ⟨low, -, helems⟩ := inv
  have place : (i - range.location).toNat = (interval range.location i).length := by
    rw [length_interval, UInt32.toNat_sub_of_le _ _ low]
  have inserted := insertVal_ok (by rw [helems, List.length_append]; omega) h
  rw [UInt32.le_iff_toNat_le] at low
  have succ := toNat_succ guard
  refine ⟨?_, .inl ?_, ?_⟩
  · rw [UInt32.le_iff_toNat_le]; omega
  · rw [UInt32.lt_iff_toNat_lt] at guard
    rw [UInt32.le_iff_toNat_le]; omega
  · rw [inserted, helems, insertIdx_interval (UInt32.le_iff_toNat_le.mpr low) guard]

/-- At the end of the loop the whole interval is in front. -/
theorem rangeInv_end {range : GRange} {base : List Guint} {i : Guint} {arr : Arr}
    (inv : RangeInv range base i arr) (stop : ¬ i < range.length) :
    elems arr = interval range.location range.length ++ base := by
  obtain ⟨low, high, helems⟩ := inv
  rcases high with high | rfl
  · have : i = range.length := le_antisymm high (not_lt.mp stop)
    rw [helems, this]
  · rw [helems, interval_eq_nil le_rfl, interval_eq_nil (not_lt.mp stop)]

/-- Whatever the array held stays behind the words of the range. -/
theorem rangeLoop_ok {range : GRange} {arr arr' : Arr} (h : rangeLoop range arr = .ok (.next arr')) :
    elems arr' = interval range.location range.length ++ elems arr := by
  have pass : ∀ i (s s' : Arr), RangeInv range (elems arr) i s → i < range.length →
      rangePass range i s = .ok (.next s') → RangeInv range (elems arr) (i + 1) s' := by
    intro i s s' inv guard run
    obtain ⟨t, hins, rest⟩ := bind_eq_ok.mp run
    cases rest
    exact rangeInv_step inv guard hins
  obtain ⟨i, inv, stop⟩ := forBelow_partial _ pass (rangeInv_start range arr) h
  exact rangeInv_end inv stop

/-- With nothing behind the interval there is room for every word of it. -/
theorem rangePass_room {range : GRange} {i : Guint} {arr : Arr} (inv : RangeInv range [] i arr)
    (guard : i < range.length) :
    ∃ arr', insertVal arr (i - range.location) i = .ok arr' := by
  obtain ⟨low, -, helems⟩ := inv
  have place : (i - range.location).toNat = (elems arr).length := by
    rw [helems, List.append_nil, length_interval, UInt32.toNat_sub_of_le _ _ low]
  have size : (elems arr).length = i.toNat - range.location.toNat := by
    rw [helems, List.append_nil, length_interval]
  have below := toNat_lt_size range.length
  rw [UInt32.lt_iff_toNat_lt] at guard
  exact insertVal_room arr (i - range.location) i (by omega) (by omega)

/-- From an empty array the loop always comes to its end. -/
theorem rangeLoop_empty (range : GRange) {arr : Arr} (hempty : elems arr = []) :
    ∃ arr', rangeLoop range arr = .ok (.next arr') := by
  have start := rangeInv_start range arr
  rw [hempty] at start
  have pass : ∀ i (s : Arr), RangeInv range [] i s → i < range.length →
      ∃ s', rangePass range i s = .ok (.next s') ∧ RangeInv range [] (i + 1) s' := by
    intro i s inv guard
    obtain ⟨s', hins⟩ := rangePass_room inv guard
    refine ⟨s', ?_, rangeInv_step inv guard hins⟩
    rw [rangePass, hins]
    rfl
  obtain ⟨_, arr', run, -, -⟩ := forBelow_invariant _ _ _ arr (RangeInv range []) pass start
  exact ⟨arr', run⟩

theorem initWithRange_ok {set set' : GIndexSet Arr} {range : GRange}
    (h : set.initWithRange range = .ok set') :
    set'.stored = some (interval range.location range.length ++ elems (set.resized range)) := by
  cases hloop : rangeLoop range (set.resized range) with
  | error e => rw [initWithRange, hloop] at h; cases h
  | ok flow =>
      cases flow with
      | done r => exact r.elim
      | next arr =>
          rw [initWithRange, hloop] at h
          cases h
          rw [stored_mk_some, rangeLoop_ok hloop]

/-- On a set whose array is `NULL`, `initWithRange` always returns. -/
theorem initWithRange_new {set : GIndexSet Arr} (hnew : set.indices = none) (range : GRange) :
    ∃ set', set.initWithRange range = .ok set' ∧
      set'.stored = some (interval range.location range.length) := by
  have hres : set.resized range = new := by simp [resized, hnew]
  obtain ⟨arr, hloop⟩ := rangeLoop_empty range (elems_new : elems (new : Arr) = [])
  have run : set.initWithRange range = .ok { set with indices := some arr } := by
    rw [initWithRange, hres, hloop]
    rfl
  exact ⟨_, run, by rw [initWithRange_ok run, hres, elems_new, List.append_nil]⟩

/-! ### Queries -/

theorem count_eq (set : GIndexSet Arr) (h : set.indices ≠ none) :
    set.count.toNat = set.members.length := by
  cases hind : set.indices with
  | none => exact absurd hind h
  | some arr => simp [count, members, stored, hind]

/-- The scan finds the first element with an answer. -/
theorem scan_eq {ρ : Type} (arr : Arr) (test : Guint → Option ρ) :
    scan arr test = .ok (Flow.ofOption ((elems arr).findSome? test)) := by
  have reads : ∀ (i : Guint) (h : i.toNat < (elems arr).length),
      (do
        let idx ← index arr i
        return Flow.ofOption (test idx)) = .ok (Flow.ofOption (test (elems arr)[i.toNat])) := by
    intro i h
    rw [index_of_lt h]
    rfl
  exact forBelow_search (elems arr) test (fun _ => len arr) _ (toNat_len arr) reads 0

theorem findSome?_guard {α : Type} (p : α → Bool) (xs : List α) :
    xs.findSome? (fun x => if p x then some x else none) = xs.find? p := by
  induction xs with
  | nil => rfl
  | cons x xs ih => by_cases h : p x <;> simp [h, ih]

theorem findSome?_mem (x : Guint) (xs : List Guint) :
    xs.findSome? (fun y => if x = y then some true else none) =
      if x ∈ xs then some true else none := by
  induction xs with
  | nil => rfl
  | cons y ys ih => by_cases h : x = y <;> simp [h, ih]

theorem containsIndex_eq (set : GIndexSet Arr) (index_ : Guint) :
    set.containsIndex index_ = .ok (decide (index_ ∈ set.members)) := by
  cases hind : set.indices with
  | none => simp [containsIndex, members, stored, hind]
  | some arr =>
      have hmem : set.members = elems arr := members_of_stored (stored_of_indices hind)
      simp only [containsIndex, hind, scan_eq, hmem, findSome?_mem]
      by_cases h : index_ ∈ elems arr
      · simp only [h, if_true, decide_true]; rfl
      · simp only [h, if_false, decide_false]; rfl

theorem getIndex_eq (set : GIndexSet Arr) (predicate : GIndexSetPredicate) (index_ : Guint) :
    set.getIndex predicate index_ =
      .ok ((set.members.find? fun idx => predicate.holds idx index_).getD indexNotFound) := by
  cases hind : set.indices with
  | none => simp [getIndex, members, stored, hind]
  | some arr =>
      have hmem : set.members = elems arr := members_of_stored (stored_of_indices hind)
      simp only [getIndex, hind, scan_eq, hmem, findSome?_guard]
      cases (elems arr).find? fun idx => predicate.holds idx index_ with
      | none => rfl
      | some idx => rfl

/-- The first element is read without a look at the length. -/
theorem firstIndex_eq {set : GIndexSet Arr} {arr : Arr} (h : set.indices = some arr) :
    set.firstIndex = index arr 0 := by
  simp [firstIndex, h]

/-- The last element is read at `len - 1`, which wraps when the array is empty. -/
theorem lastIndex_eq {set : GIndexSet Arr} {arr : Arr} (h : set.indices = some arr) :
    set.lastIndex = index arr (len arr - 1) := by
  simp [lastIndex, h]

/-- Off the empty array, `len - 1` is the last position. -/
theorem toNat_len_sub_one {arr : Arr} (h : elems arr ≠ []) :
    (len arr - 1).toNat = (elems arr).length - 1 := by
  have pos := List.length_pos_iff.mpr h
  rw [UInt32.toNat_sub_of_le _ _ (by rw [UInt32.le_iff_toNat_le, toNat_len]; exact pos),
    toNat_len, UInt32.toNat_one]

/-- On the empty array, `len - 1` is `G_MAXUINT`. -/
theorem len_sub_one_of_nil {arr : Arr} (h : elems arr = []) : len arr - 1 = maxUint := by
  rw [len, h]
  rfl

theorem firstIndex_of_members {set : GIndexSet Arr} (h : set.members ≠ []) :
    set.firstIndex = .ok (set.members.head h) := by
  cases hind : set.indices with
  | none => exact absurd (by simp [members, stored, hind]) h
  | some arr =>
      have hmem : set.members = elems arr := members_of_stored (stored_of_indices hind)
      simp only [hmem] at h ⊢
      rw [firstIndex_eq hind, index_of_lt (by simpa using List.length_pos_iff.mpr h),
        List.head_eq_getElem]
      rfl

theorem lastIndex_of_members {set : GIndexSet Arr} (h : set.members ≠ []) :
    set.lastIndex = .ok (set.members.getLast h) := by
  cases hind : set.indices with
  | none => exact absurd (by simp [members, stored, hind]) h
  | some arr =>
      have hmem : set.members = elems arr := members_of_stored (stored_of_indices hind)
      simp only [hmem] at h ⊢
      have pos := List.length_pos_iff.mpr h
      have place := toNat_len_sub_one h
      rw [lastIndex_eq hind, index_of_lt (by omega), List.getLast_eq_getElem]
      simp only [place]

/-- A query, with its arguments. -/
inductive Query where
  | count
  | containsIndex (index_ : Guint)
  | firstIndex
  | lastIndex
  | getIndex (predicate : GIndexSetPredicate) (index_ : Guint)
  deriving DecidableEq, Repr

/-- What a query returns. -/
inductive Answer where
  | number (n : Guint)
  | flag (b : Bool)
  deriving DecidableEq, Repr

def ask (set : GIndexSet Arr) : Query → Except Fault Answer
  | .count => .ok (.number set.count)
  | .containsIndex index_ => (set.containsIndex index_).map .flag
  | .firstIndex => set.firstIndex.map .number
  | .lastIndex => set.lastIndex.map .number
  | .getIndex predicate index_ => (set.getIndex predicate index_).map .number

/-- Queries look at nothing but the content. -/
theorem ask_congr {s t : GIndexSet Arr} (h : s.stored = t.stored) (q : Query) :
    s.ask q = t.ask q := by
  have hmem : s.members = t.members := by rw [members, members, h]
  cases hs : s.indices with
  | none =>
      have ht : t.indices = none := stored_eq_none.mp (h ▸ stored_eq_none.mpr hs)
      cases q <;> simp [ask, count, containsIndex, firstIndex, lastIndex, getIndex, hs, ht]
  | some arr =>
      obtain ⟨arr', ht⟩ : ∃ arr', t.indices = some arr' := by
        rw [← Option.ne_none_iff_exists']
        intro hnone
        rw [← stored_eq_none, ← h, stored_eq_none, hs] at hnone
        cases hnone
      have helems : elems arr = elems arr' := by
        rw [stored_of_indices hs, stored_of_indices ht] at h
        exact Option.some.inj h
      cases q with
      | count => simp [ask, count, hs, ht, len, helems]
      | containsIndex i => simp [ask, containsIndex_eq, hmem]
      | firstIndex => simp [ask, firstIndex_eq hs, firstIndex_eq ht, index, helems]
      | lastIndex => simp [ask, lastIndex_eq hs, lastIndex_eq ht, index, len, helems]
      | getIndex p i => simp [ask, getIndex_eq, hmem]

/-- On an empty array both ends are read out of bounds. -/
theorem firstIndex_of_nil {set : GIndexSet Arr} (h : set.stored = some []) :
    set.firstIndex = .error (.outOfBounds 0 0) := by
  obtain ⟨arr, hind, helems⟩ := Option.map_eq_some_iff.mp h
  rw [firstIndex_eq hind, index_of_ge (by simp [helems]), helems]
  rfl

theorem lastIndex_of_nil {set : GIndexSet Arr} (h : set.stored = some []) :
    set.lastIndex = .error (.outOfBounds maxUint.toNat 0) := by
  obtain ⟨arr, hind, helems⟩ := Option.map_eq_some_iff.mp h
  rw [lastIndex_eq hind, len_sub_one_of_nil helems, index_of_ge (by simp [helems]), helems]
  rfl

end GIndexSet

namespace Store

open GArray GIndexSet

/-! ### Calls on the store -/

section Memory

variable {Arr : Type} {st : Store Arr} {a b : Nat} {set : GIndexSet Arr}

@[simp] theorem sets_write (st : Store Arr) (a : Nat) (set : GIndexSet Arr) :
    (st.write a set).sets = Function.update st.sets a (some set) := rfl

@[simp] theorem write_write (st : Store Arr) (a : Nat) (s t : GIndexSet Arr) :
    (st.write a s).write a t = st.write a t := by
  simp [write]

theorem deref_ok (h : st.sets a = some set) : st.deref a = .ok set := by
  simp [deref, h]

@[simp] theorem deref_write_self (st : Store Arr) (a : Nat) (set : GIndexSet Arr) :
    (st.write a set).deref a = .ok set :=
  deref_ok (by simp)

theorem deref_write_of_ne (set : GIndexSet Arr) (h : b ≠ a) :
    (st.write a set).deref b = st.deref b := by
  simp [deref, Function.update_of_ne h]

/-- Writing through a pointer changes that set and no other. -/
theorem through_some {st : Store Arr} {a : Nat} {set : GIndexSet Arr}
    {f : GIndexSet Arr → Except Fault (GIndexSet Arr)} (h : st.sets a = some set) :
    st.through (some a) f = (f set).map fun set' => (st.write a set', some a) := by
  simp only [through, deref_ok h, ok_bind]
  cases f set with
  | error e => rfl
  | ok set' => rfl

end Memory

variable {Arr : Type} [GArray Arr]

/-- The invariant of the loop in `initWithSet` on two sets: the target holds the
elements of the source up to the counter, and nothing else has changed. -/
def CopyInv (st : Store Arr) (a : Nat) (set : GIndexSet Arr) (xs : List Guint) (i : Guint)
    (st' : Store Arr) : Prop :=
  ∃ arr, st' = st.write a { set with indices := some arr } ∧ elems arr = xs.take i.toNat ∧
    i.toNat ≤ xs.length

section Copy

variable {st : Store Arr} {a b : Nat} {set source : GIndexSet Arr} {src : Arr}

omit [GArray Arr] in
/-- The source is read where it was: writing the target does not touch it. -/
theorem indicesAt_source (hne : a ≠ b) (hb : st.sets b = some source)
    (hsrc : source.indices = some src) (set' : GIndexSet Arr) :
    (st.write a set').indicesAt b = .ok src := by
  rw [indicesAt, deref_write_of_ne _ hne.symm, deref_ok hb, ok_bind, hsrc]
  rfl

theorem sourceLen_eq (hne : a ≠ b) (hb : st.sets b = some source)
    (hsrc : source.indices = some src) (set' : GIndexSet Arr) :
    sourceLen b (st.write a set') = len src := by
  simp [sourceLen, indicesAt_source hne hb hsrc]

/-- One pass reads the next element of the source and appends it to the target. -/
theorem copyPass_step (hne : a ≠ b) (hb : st.sets b = some source)
    (hsrc : source.indices = some src) {i : Guint} {st' : Store Arr}
    (inv : CopyInv st a set (elems src) i st') (guard : i < sourceLen b st') :
    ∃ st'', copyPass a b i st' = .ok (.next st'') ∧ CopyInv st a set (elems src) (i + 1) st'' := by
  obtain ⟨arr, rfl, helems, le⟩ := inv
  rw [sourceLen_eq hne hb hsrc] at guard
  have succ := toNat_succ guard
  rw [UInt32.lt_iff_toNat_lt, toNat_len] at guard
  have size := length_lt src
  have hlen : (elems arr).length = i.toNat := by rw [helems, List.length_take]; omega
  obtain ⟨arr', hins⟩ := insertVal_room arr i (elems src)[i.toNat] (by omega) (by omega)
  have helems' := insertVal_ok (by omega) hins
  refine ⟨st.write a { set with indices := some arr' }, ?_, arr', rfl, ?_, by omega⟩
  · have hset : (st.write a { set with indices := some arr }).indicesAt a = .ok arr := by
      rw [indicesAt, deref_write_self]; rfl
    simp only [copyPass, indicesAt_source hne hb hsrc, hset, ok_bind, index_of_lt guard, hins,
      setIndices, deref_write_self, pure_eq_ok, write_write]
  · have last := List.insertIdx_length_self (l := elems arr) (x := (elems src)[i.toNat])
    rw [hlen] at last
    rw [helems', last, helems, succ, List.take_append_getElem guard]

/-- Copying between two sets gives the target the members of the source, in
their order, and changes nothing else. -/
theorem initWithSet_of_ne (hne : a ≠ b) (ha : st.sets a = some set)
    (hb : st.sets b = some source) :
    ∃ arr, st.initWithSet (some a) (some b)
        = .ok (st.write a { set with indices := some arr }, some a) ∧
      elems arr = source.members := by
  have hset : st.setIndices a set.emptied =
      .ok (st.write a { set with indices := some set.emptied }) := by
    rw [setIndices, deref_ok ha]; rfl
  cases hsrc : source.indices with
  | none =>
      refine ⟨set.emptied, ?_, by simp [members, stored, hsrc]⟩
      simp only [initWithSet, deref_ok ha, hset, deref_write_of_ne _ hne.symm, deref_ok hb, hsrc,
        ok_bind, pure_eq_ok]
  | some src =>
      obtain ⟨i, st', run, ⟨arr, rfl, helems, le⟩, stop⟩ :=
        forBelow_invariant (sourceLen b) (copyPass a b) 0
          (st.write a { set with indices := some set.emptied }) (CopyInv st a set (elems src))
          (fun i st' inv guard => copyPass_step hne hb hsrc inv guard) ⟨set.emptied, rfl, by simp, by simp⟩
      rw [sourceLen_eq hne hb hsrc, UInt32.lt_iff_toNat_lt, toNat_len] at stop
      refine ⟨arr, ?_, ?_⟩
      · simp only [initWithSet, deref_ok ha, hset, deref_write_of_ne _ hne.symm, deref_ok hb, hsrc,
          run, ok_bind, pure_eq_ok]
      · rw [helems, List.take_of_length_le (by omega), members_of_stored (stored_of_indices hsrc)]

/-- Copying a set onto itself empties it: the target is emptied before the source
is read. -/
theorem initWithSet_self (ha : st.sets a = some set) :
    st.initWithSet (some a) (some a) = .ok (st.write a set.init, some a) := by
  have hset : st.setIndices a set.emptied = .ok (st.write a set.init) := by
    rw [setIndices, deref_ok ha]; rfl
  have hind : set.init.indices = some set.emptied := rfl
  have stop : ¬ (0 : Guint) < sourceLen a (st.write a set.init) := by
    simp [sourceLen, indicesAt, hind, len]
  simp only [initWithSet, deref_ok ha, hset, deref_write_self, hind, forBelow_stop stop, ok_bind,
    pure_eq_ok]

end Copy

end Store

end GlibController

import GlibController.IndexSet.Runs

/-!
Where the calls of the index set interface come to an end.

A call fails on a set that is not there, and where the words of a range do not fit into a
reused array; nowhere else (`exec_returns_iff`). The array was resized to the length of the
range before, so there has to be room for the words besides as many undefined ones.
-/

namespace GlibController

open Lib

namespace GIndexSet

open GArray

variable {Arr : Type} [GArray Arr]

/-- The loop of `initWithRange` ends at its guard where the words fit in front of what the
array holds. -/
theorem rangeLoop_room {range : GRange} {arr : Arr}
    (room : (elems arr).length + (range.length.toNat - range.location.toNat) < UInt32.size) :
    ∃ arr', rangeLoop range arr = .ok (.next arr') := by
  have pass : ∀ i (s : Arr), RangeInv range (elems arr) i s → i < range.length →
      ∃ s', rangePass range i s = .ok (.next s') ∧ RangeInv range (elems arr) (i + 1) s' := by
    intro i s inv guard
    obtain ⟨low, high, helems⟩ := inv
    have size : (elems s).length = i.toNat - range.location.toNat + (elems arr).length := by
      rw [helems, List.length_append, length_interval]
    have place : (i - range.location).toNat = i.toNat - range.location.toNat :=
      UInt32.toNat_sub_of_le _ _ low
    have after := UInt32.le_iff_toNat_le.mp low
    have before := UInt32.lt_iff_toNat_lt.mp guard
    obtain ⟨s', inserted⟩ := insertVal_room s (i - range.location) i (by omega) (by omega)
    refine ⟨s', ?_, rangeInv_step ⟨low, high, helems⟩ guard inserted⟩
    rw [rangePass, inserted]
    rfl
  obtain ⟨_, arr', run, -, -⟩ := forBelow_invariant _ _ _ arr (RangeInv range (elems arr)) pass
    (rangeInv_start range arr)
  exact ⟨arr', run⟩

/-- The words of a range that was put into a set all fit. -/
theorem initWithRange_returns_iff (set : GIndexSet Arr) (range : GRange) :
    (∃ set', set.initWithRange range = .ok set') ↔
      (set.indices ≠ none →
        range.length.toNat + (range.length.toNat - range.location.toNat) < UInt32.size) := by
  cases hind : set.indices with
  | none =>
      obtain ⟨set', run, -⟩ := initWithRange_new hind range
      simp [run]
  | some arr =>
      have resize : set.resized range = setSize arr range.length := by rw [resized, hind]
      have size := length_setSize arr range.length
      simp only [ne_eq, reduceCtorEq, not_false_eq_true, forall_const]
      constructor
      · rintro ⟨set', run⟩
        have content := initWithRange_ok run
        obtain ⟨arr', -, stored⟩ := Option.map_eq_some_iff.mp content
        have bound := length_lt arr'
        rw [stored, List.length_append, length_interval, resize, size] at bound
        omega
      · intro room
        have fits : (elems (setSize arr range.length)).length +
            (range.length.toNat - range.location.toNat) < UInt32.size := by
          rw [size]
          exact room
        obtain ⟨arr', run⟩ := rangeLoop_room fits
        refine ⟨{ set with indices := some arr' }, ?_⟩
        rw [initWithRange, resize, run]
        rfl

end GIndexSet

namespace Store

open GIndexSet

/-- The sets that a call reads through its pointers. -/
def Call.readThrough : Call → List Nat
  | .alloc => []
  | .ref set => set.toList
  | .unref set => set.toList
  | .init set => set.toList
  | .initWithIndex set _ => set.toList
  | .initWithRange set range => if range.isSome then set.toList else []
  | .initWithSet set source => if set.isSome ∧ source.isSome then set.toList ++ source.toList else []

/-- A range is put into a set without an array, or its words fit into the array, which is
resized to the length of the range before. -/
def Call.HasRoom (hasArray : Nat → Prop) : Call → Prop
  | .initWithRange (some a) (some range) => hasArray a →
      range.length.toNat + (range.length.toNat - range.location.toNat) < UInt32.size
  | _ => True

/-- The set at an address has an array. -/
def HasArray {Arr : Type} (st : Store Arr) (a : Nat) : Prop :=
  ∃ set arr, st.sets a = some set ∧ set.indices = some arr

variable {Arr : Type} [GArray Arr]

omit [GArray Arr] in
/-- A function of one set returns on a live set on which it returns. -/
theorem through_returns_iff (st : Store Arr) (set : SetPtr)
    (f : GIndexSet Arr → Except Fault (GIndexSet Arr)) :
    (∃ r, st.through set f = .ok r) ↔
      ∀ a ∈ set.toList, ∃ s, st.sets a = some s ∧ ∃ s', f s = .ok s' := by
  cases set with
  | none => simp [through]
  | some a =>
      rw [Option.toList_some, List.forall_mem_singleton]
      constructor
      · rintro ⟨⟨st', q⟩, run⟩
        obtain ⟨s, s', hs, hf, -⟩ := through_ok run
        exact ⟨s, hs, s', hf⟩
      · rintro ⟨s, hs, s', hf⟩
        exact ⟨_, by rw [through_some hs, hf]; rfl⟩

omit [GArray Arr] in
/-- Where the function always returns, so does the call on a live set. -/
theorem through_returns (st : Store Arr) (set : SetPtr)
    {f : GIndexSet Arr → Except Fault (GIndexSet Arr)} (returns : ∀ s, ∃ s', f s = .ok s') :
    (∃ r, st.through set f = .ok r) ↔ ∀ a ∈ set.toList, ∃ s, st.sets a = some s := by
  rw [through_returns_iff]
  simp only [returns, and_true]

omit [GArray Arr] in
theorem unref_returns_iff (st : Store Arr) (set : SetPtr) :
    (∃ r, st.unref set = .ok r) ↔ ∀ a ∈ set.toList, ∃ s, st.sets a = some s := by
  cases set with
  | none => simp [unref]
  | some a =>
      rw [Option.toList_some, List.forall_mem_singleton]
      cases hset : st.sets a with
      | none => simp [unref, deref, hset]
      | some set =>
          simp only [unref, deref_ok hset, ok_bind, Option.some.injEq, exists_eq', iff_true]
          split
          · exact ⟨_, rfl⟩
          · exact ⟨_, rfl⟩

theorem initWithSet_returns_iff (st : Store Arr) (a b : Nat) :
    (∃ r, st.initWithSet (some a) (some b) = .ok r) ↔
      (∃ s, st.sets a = some s) ∧ ∃ s, st.sets b = some s := by
  constructor
  · rintro ⟨r, run⟩
    cases hset : st.sets a with
    | none => simp [initWithSet, deref, hset] at run
    | some set =>
        refine ⟨⟨set, rfl⟩, ?_⟩
        by_cases same : a = b
        · subst same
          exact ⟨set, hset⟩
        · cases hsource : st.sets b with
          | none =>
              simp [initWithSet, setIndices, deref, hset, hsource,
                Function.update_of_ne (Ne.symm same)] at run
          | some source => exact ⟨source, rfl⟩
  · rintro ⟨⟨set, hset⟩, source, hsource⟩
    by_cases same : a = b
    · subst same
      exact ⟨_, initWithSet_self hset⟩
    · obtain ⟨arr, run, -⟩ := initWithSet_of_ne same hset hsource
      exact ⟨_, run⟩

/-- A call returns where the sets that it reads are live, and a range has room. -/
theorem exec_returns_iff (st : Store Arr) (c : Call) :
    (∃ r, st.exec c = .ok r) ↔
      (∀ a ∈ c.readThrough, ∃ set, st.sets a = some set) ∧ c.HasRoom st.HasArray := by
  cases c with
  | alloc => simp [exec, Call.readThrough, Call.HasRoom]
  | ref set =>
      rw [exec, ref, through_returns st set fun s => ⟨_, rfl⟩]
      simp [Call.readThrough, Call.HasRoom]
  | unref set =>
      rw [exec, unref_returns_iff]
      simp [Call.readThrough, Call.HasRoom]
  | init set =>
      rw [exec, init, through_returns st set fun s => ⟨_, rfl⟩]
      simp [Call.readThrough, Call.HasRoom]
  | initWithIndex set x =>
      rw [exec, initWithIndex, through_returns st set]
      · simp [Call.readThrough, Call.HasRoom]
      · intro s
        obtain ⟨s', run, -⟩ := s.initWithIndex_spec x
        exact ⟨s', run⟩
  | initWithRange set range =>
      cases range with
      | none => cases set <;> simp [exec, initWithRange, Call.readThrough, Call.HasRoom]
      | some range =>
          cases set with
          | none => simp [exec, initWithRange, Call.readThrough, Call.HasRoom]
          | some a =>
              rw [exec, initWithRange, through_returns_iff, Option.toList_some,
                List.forall_mem_singleton]
              simp only [initWithRange_returns_iff, Call.readThrough, Call.HasRoom, HasArray, Option.isSome_some,
                if_true, Option.toList_some, List.forall_mem_singleton]
              cases st.sets a with
              | none => simp
              | some set => simp [Option.ne_none_iff_exists']
  | initWithSet set source =>
      cases set with
      | none => simp [exec, initWithSet, Call.readThrough, Call.HasRoom]
      | some a =>
          cases source with
          | none => simp [exec, initWithSet, Call.readThrough, Call.HasRoom]
          | some b =>
              rw [exec, initWithSet_returns_iff]
              simp [Call.readThrough, Call.HasRoom]

end Store

end GlibController

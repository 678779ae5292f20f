import GlibController.IndexSet.Memory
import GlibController.IndexSet.Runs

/-!
The store of sets with arrays of their own is what the memory of pointers amounts to.

`Separate` is the invariant that makes it so: the pointer of a set is good, and no other
set has the same. `abs` replaces every pointer by the array behind it. Each call on a
memory agrees with the call on its store (`exec_agree`), so that what runs on stores
reach is what runs on memories reach (`reach_abs`), and the results about stores hold of
memories.
-/

namespace GlibController

open Lib

namespace Memory

open GArray

variable {Arr : Type}

/-- The pointers of the sets are good, and all different. -/
structure Separate (mem : Memory Arr) : Prop where
  live : ∀ {a set p}, mem.sets a = some set → set.indices = some p → ∃ arr, mem.arrays p = some arr
  alone : ∀ {a b s t p}, mem.sets a = some s → mem.sets b = some t → s.indices = some p →
    t.indices = some p → a = b
  below : ∀ {p arr}, mem.arrays p = some arr → p < mem.freshArray

/-- A set with the array that its pointer points at. -/
def value (mem : Memory Arr) (set : SetObject) : GIndexSet Arr :=
  ⟨set.refCount, set.indices.bind mem.arrays⟩

/-- The store of the sets with their arrays. -/
def abs (mem : Memory Arr) : Store Arr := ⟨fun a => (mem.sets a).map mem.value, mem.freshSet⟩

variable {mem : Memory Arr} {a p : Nat} {set : SetObject}

theorem abs_sets (h : mem.sets a = some set) : mem.abs.sets a = some (mem.value set) :=
  congrArg (Option.map mem.value) h

theorem abs_sets_none (h : mem.sets a = none) : mem.abs.sets a = none :=
  congrArg (Option.map mem.value) h

/-! ### Changes -/

section Changes

variable {mem' : Memory Arr} {b : Nat}

/-- The store sees the set at an address and the array that it points at. -/
theorem abs_sets_congr (sets : mem'.sets b = mem.sets b)
    (arrays : ∀ t q, mem.sets b = some t → t.indices = some q → mem'.arrays q = mem.arrays q) :
    mem'.abs.sets b = mem.abs.sets b := by
  unfold abs
  dsimp only
  rw [sets]
  cases hb : mem.sets b with
  | none => rfl
  | some t =>
      rw [Option.map_some, Option.map_some, value, value]
      cases hq : t.indices with
      | none => rfl
      | some q => rw [Option.bind_some, Option.bind_some, arrays t q hb hq]

/-- Two stores that agree on every set. -/
theorem store_ext {st st' : Store Arr} (sets : ∀ b, st.sets b = st'.sets b)
    (fresh : st.fresh = st'.fresh) : st = st' := by
  cases st
  cases st'
  cases fresh
  cases funext sets
  rfl

/-- The store after one set has changed. -/
theorem abs_eq_write {set' : GIndexSet Arr} (here : mem'.abs.sets a = some set')
    (others : ∀ b, b ≠ a → mem'.abs.sets b = mem.abs.sets b)
    (fresh : mem'.freshSet = mem.freshSet) : mem'.abs = mem.abs.write a set' := by
  refine store_ext ?_ fresh
  intro b
  rw [Store.sets_write]
  by_cases same : b = a
  · subst same
    rw [Function.update_self, here]
  · rw [Function.update_of_ne same, others b same]

/-- Pointers that were there before are still apart. -/
theorem Separate.mono (separate : mem.Separate)
    (sets : ∀ {b t q}, mem'.sets b = some t → t.indices = some q →
      (∃ s, mem.sets b = some s ∧ s.indices = some q) ∧ ∃ arr, mem'.arrays q = some arr)
    (below : ∀ {q arr}, mem'.arrays q = some arr → q < mem'.freshArray) : mem'.Separate := by
  refine ⟨fun hb hq => (sets hb hq).2, ?_, below⟩
  intro b c s t q hb hc hs ht
  obtain ⟨⟨s', hb', hs'⟩, -⟩ := sets hb hs
  obtain ⟨⟨t', hc', ht'⟩, -⟩ := sets hc ht
  exact separate.alone hb' hc' hs' ht'

end Changes

/-! ### Writing -/

section Writing

/-- Writing an array changes the set that points at it and no other. -/
theorem separate_writeArray (separate : mem.Separate) (ha : mem.sets a = some set)
    (hp : set.indices = some p) (arr : Arr) :
    (mem.writeArray p arr).Separate ∧
      (mem.writeArray p arr).abs = mem.abs.write a ⟨set.refCount, some arr⟩ := by
  obtain ⟨old, hold⟩ := separate.live ha hp
  constructor
  · apply separate.mono
    · intro b t q hb hq
      refine ⟨⟨t, hb, hq⟩, ?_⟩
      by_cases same : q = p
      · exact ⟨arr, by simp [same]⟩
      · simpa [Function.update_of_ne same] using separate.live hb hq
    · intro q there hq
      by_cases same : q = p
      · subst same
        exact separate.below hold
      · rw [writeArray_arrays, Function.update_of_ne same] at hq
        exact separate.below hq
  · refine abs_eq_write ?_ ?_ rfl
    · rw [abs_sets (show (mem.writeArray p arr).sets a = some set from ha), value, hp,
        Option.bind_some, writeArray_arrays, Function.update_self]
    · intro b other
      refine abs_sets_congr rfl ?_
      intro t q hb hq
      have different : q ≠ p := by
        rintro rfl
        exact other (separate.alone hb ha hq hp)
      rw [writeArray_arrays, Function.update_of_ne different]

/-- The sets of a memory in which one set was written. -/
theorem sets_writeSet {set' : SetObject} {b : Nat} {t : SetObject}
    (h : (mem.writeSet a set').sets b = some t) :
    (b = a ∧ t = set') ∨ (b ≠ a ∧ mem.sets b = some t) := by
  rw [writeSet_sets] at h
  by_cases same : b = a
  · subst same
    rw [Function.update_self, Option.some.injEq] at h
    exact .inl ⟨rfl, h.symm⟩
  · rw [Function.update_of_ne same] at h
    exact .inr ⟨same, h⟩

theorem abs_writeSet (mem : Memory Arr) (a : Nat) (set' : SetObject) :
    (mem.writeSet a set').abs = mem.abs.write a (mem.value set') := by
  refine abs_eq_write ?_ ?_ rfl
  · rw [abs_sets (show (mem.writeSet a set').sets a = some set' from Function.update_self ..)]
    rfl
  · intro b other
    exact abs_sets_congr (Function.update_of_ne other ..) fun _ _ _ _ => rfl

/-- A set that is written with its old pointer, or with `NULL`, keeps the pointers
apart. -/
theorem separate_writeSet (separate : mem.Separate) {set' : SetObject}
    (keeps : ∀ p, set'.indices = some p → ∃ set, mem.sets a = some set ∧ set.indices = some p) :
    (mem.writeSet a set').Separate := by
  refine separate.mono ?_ separate.below
  intro b t q hb hq
  have before : ∃ s, mem.sets b = some s ∧ s.indices = some q := by
    rcases sets_writeSet hb with ⟨rfl, rfl⟩ | ⟨-, hb⟩
    · exact keeps q hq
    · exact ⟨t, hb, hq⟩
  obtain ⟨s, hs, hp⟩ := before
  exact ⟨⟨s, hs, hp⟩, separate.live hs hp⟩

/-- The array that a set is given is new. -/
theorem separate_newIndices [GArray Arr] (separate : mem.Separate) (ha : mem.sets a = some set) :
    (mem.newIndices a set).Separate ∧
      (mem.newIndices a set).abs = mem.abs.write a ⟨set.refCount, some new⟩ := by
  have old : ∀ {b t q}, mem.sets b = some t → t.indices = some q → q ≠ mem.freshArray := by
    rintro b t q hb hq rfl
    obtain ⟨arr, harr⟩ := separate.live hb hq
    exact absurd (separate.below harr) (lt_irrefl _)
  unfold newIndices
  constructor
  · refine ⟨?_, ?_, ?_⟩
    · intro b t q hb hq
      rcases sets_writeSet hb with ⟨rfl, rfl⟩ | ⟨-, hb'⟩
      · cases hq
        exact ⟨new, Function.update_self ..⟩
      · obtain ⟨arr, harr⟩ := separate.live hb' hq
        exact ⟨arr, by rw [← harr]; exact Function.update_of_ne (old hb' hq) ..⟩
    · intro b c s t q hb hc hs ht
      rcases sets_writeSet hb with ⟨rfl, rfl⟩ | ⟨-, hb'⟩
      · rcases sets_writeSet hc with ⟨rfl, -⟩ | ⟨-, hc'⟩
        · rfl
        · cases hs
          exact absurd rfl (old hc' ht)
      · rcases sets_writeSet hc with ⟨rfl, rfl⟩ | ⟨-, hc'⟩
        · cases ht
          exact absurd rfl (old hb' hs)
        · exact separate.alone hb' hc' hs ht
    · intro q arr hq
      dsimp only at hq ⊢
      rw [writeArray_arrays, writeSet_arrays] at hq
      by_cases same : q = mem.freshArray
      · omega
      · rw [Function.update_of_ne same] at hq
        exact Nat.lt_succ_of_lt (separate.below hq)
  · refine abs_eq_write ?_ ?_ rfl
    · simp [abs, value]
    · intro b other
      refine abs_sets_congr (Function.update_of_ne other ..) ?_
      intro t q hb hq
      exact Function.update_of_ne (old hb hq) ..

theorem separate_alloc (separate : mem.Separate) :
    mem.alloc.Separate ∧ mem.alloc.abs = mem.abs.alloc.1 := by
  have written : (mem.writeSet mem.freshSet ⟨1, none⟩).Separate :=
    separate_writeSet separate (by rintro p ⟨⟩)
  refine ⟨⟨written.live, written.alone, written.below⟩, store_ext ?_ rfl⟩
  intro b
  have same := congrArg (fun st => st.sets b) (abs_writeSet mem mem.freshSet ⟨1, none⟩)
  exact same

/-- The sets but one, without its array, which was that of no other set. -/
def free (mem : Memory Arr) (a : Nat) (indices : Option Nat) : Memory Arr where
  sets := Function.update mem.sets a none
  arrays q := if indices = some q then none else mem.arrays q
  freshSet := mem.freshSet
  freshArray := mem.freshArray

theorem separate_free (separate : mem.Separate) (ha : mem.sets a = some set) :
    (mem.free a set.indices).Separate ∧
      (mem.free a set.indices).abs =
        { mem.abs with sets := Function.update mem.abs.sets a none } := by
  have remains : ∀ {b t}, (mem.free a set.indices).sets b = some t → b ≠ a ∧ mem.sets b = some t := by
    intro b t hb
    unfold free at hb
    by_cases same : b = a
    · subst same
      simp at hb
    · exact ⟨same, by simpa [Function.update_of_ne same] using hb⟩
  have kept : ∀ {b t q}, b ≠ a → mem.sets b = some t → t.indices = some q →
      (mem.free a set.indices).arrays q = mem.arrays q := by
    intro b t q other hb hq
    unfold free
    refine if_neg ?_
    intro hp
    exact other (separate.alone hb ha hq hp)
  constructor
  · apply separate.mono
    · intro b t q hb hq
      obtain ⟨other, hb'⟩ := remains hb
      refine ⟨⟨t, hb', hq⟩, ?_⟩
      rw [kept other hb' hq]
      exact separate.live hb' hq
    · intro q arr hq
      unfold free at hq
      dsimp only at hq
      split at hq
      · cases hq
      · exact separate.below hq
  · refine store_ext ?_ rfl
    intro b
    by_cases same : b = a
    · subst same
      simp [abs, free]
    · dsimp only
      rw [Function.update_of_ne same]
      exact abs_sets_congr (Function.update_of_ne same ..) fun t q hb hq => kept same hb hq

end Writing

/-! ### Reading -/

section Reading

theorem derefSet_ok (h : mem.sets a = some set) : mem.derefSet a = .ok set := by
  unfold derefSet
  rw [h]

theorem derefSet_none (h : mem.sets a = none) : mem.derefSet a = .error .danglingPointer := by
  unfold derefSet
  rw [h]

theorem deref_abs_none (h : mem.sets a = none) : mem.abs.deref a = .error .danglingPointer := by
  unfold Store.deref
  rw [abs_sets_none h]

/-- The array behind a pointer is the array of the set. -/
theorem arrayAt_abs (separate : mem.Separate) (a : Nat) : mem.arrayAt a = mem.abs.indicesAt a := by
  unfold arrayAt indicesAt Store.indicesAt
  cases ha : mem.sets a with
  | none =>
      rw [derefSet_none ha, deref_abs_none ha]
      rfl
  | some set =>
      rw [derefSet_ok ha, Store.deref_ok (abs_sets ha), ok_bind, ok_bind]
      cases hp : set.indices with
      | none =>
          simp only [value, hp]
          rfl
      | some p =>
          obtain ⟨arr, harr⟩ := separate.live ha hp
          simp only [value, hp, Option.bind_some, harr, derefArray, ok_bind, pure_eq_ok]

end Reading

/-! ### One set at a time -/

section Points

variable [GArray Arr] {st : Store Arr} {refs : Gint} {arr : Arr}

/-- A memory whose store is a store with one array changed: that of a set that has one. -/
structure Points (st : Store Arr) (a : Nat) (refs : Gint) (mem : Memory Arr) (arr : Arr) : Prop where
  separate : mem.Separate
  array : ∃ p, mem.sets a = some ⟨refs, some p⟩ ∧ mem.arrays p = some arr
  abs : mem.abs = st.write a ⟨refs, some arr⟩

/-- Inserting through the pointer of a set inserts into its array. -/
theorem insertAt_agree (points : Points st a refs mem arr) (i x : Guint) :
    Agree (Points st a refs) (mem.insertAt a i x) (insertVal arr i x) := by
  obtain ⟨separate, ⟨p, hset, harr⟩, habs⟩ := points
  unfold insertAt indicesAt
  simp only [derefSet_ok hset, derefArray, harr, ok_bind, pure_eq_ok]
  cases insertVal arr i x with
  | error e => exact .error e
  | ok arr' =>
      obtain ⟨separate', habs'⟩ := separate_writeArray separate hset rfl arr'
      refine .ok ⟨separate', ⟨p, hset, by simp⟩, ?_⟩
      rw [habs', habs, Store.write_write]

/-- The opening lines: the array of the set, resized, or a new one. -/
def opened (set : GIndexSet Arr) (size : Guint) : Arr :=
  match set.indices with
  | none => new
  | some arr => setSize arr size

theorem openAt_ok (separate : mem.Separate) (ha : mem.sets a = some set) (size : Guint) :
    ∃ mem', mem.openAt a size = .ok mem' ∧
      Points mem.abs a set.refCount mem' (opened (mem.value set) size) := by
  unfold openAt
  rw [derefSet_ok ha, ok_bind]
  cases hp : set.indices with
  | none =>
      obtain ⟨separate', habs⟩ := separate_newIndices separate ha
      have hnew : opened (mem.value set) size = new := by
        unfold opened value
        rw [hp]
        rfl
      rw [hnew]
      exact ⟨_, rfl, separate', ⟨mem.freshArray, by simp [newIndices], by simp [newIndices]⟩, habs⟩
  | some p =>
      obtain ⟨arr, harr⟩ := separate.live ha hp
      obtain ⟨separate', habs⟩ := separate_writeArray separate ha hp (setSize arr size)
      have hold : opened (mem.value set) size = setSize arr size := by
        unfold opened value
        rw [hp, Option.bind_some, harr]
      rw [hold]
      have hset : mem.sets a = some ⟨set.refCount, some p⟩ := by rw [ha, ← hp]
      refine ⟨_, ?_, separate', ⟨p, hset, by simp⟩, habs⟩
      simp only [derefArray, harr, ok_bind, pure_eq_ok]

/-- A dangling pointer is noticed at once. -/
theorem openAt_agree (separate : mem.Separate) (a : Nat) (size : Guint) :
    Agree (fun mem' set => Points mem.abs a set.refCount mem' (opened set size))
      (mem.openAt a size) (mem.abs.deref a) := by
  cases ha : mem.sets a with
  | none =>
      unfold openAt
      rw [derefSet_none ha, deref_abs_none ha]
      exact .error _
  | some set =>
      obtain ⟨mem', run, points⟩ := openAt_ok separate ha size
      rw [run, Store.deref_ok (abs_sets ha)]
      exact .ok points

end Points

/-! ### The functions -/

section Functions

/-- A memory whose store is the store before with one set written. -/
def Wrote (mem : Memory Arr) (a : Nat) (mem' : Memory Arr) (set : GIndexSet Arr) : Prop :=
  mem'.Separate ∧ mem'.abs = mem.abs.write a set

theorem Points.wrote {refs : Gint} {mem' : Memory Arr} {arr : Arr}
    (points : Points mem.abs a refs mem' arr) : Wrote mem a mem' ⟨refs, some arr⟩ :=
  ⟨points.separate, points.abs⟩

theorem refAt_agree (separate : mem.Separate) (a : Nat) :
    Agree (Wrote mem a) (mem.refAt a)
      (mem.abs.deref a >>= fun set => .ok { set with refCount := set.refCount + 1 }) := by
  unfold refAt
  cases ha : mem.sets a with
  | none =>
      rw [derefSet_none ha, deref_abs_none ha]
      exact .error _
  | some set =>
      rw [derefSet_ok ha, Store.deref_ok (abs_sets ha)]
      exact .ok ⟨separate_writeSet separate fun p hp => ⟨set, ha, hp⟩, abs_writeSet ..⟩

variable [GArray Arr]

theorem initAt_agree (separate : mem.Separate) (a : Nat) :
    Agree (Wrote mem a) (mem.initAt a) (mem.abs.deref a >>= fun set => .ok set.init) := by
  apply (openAt_agree separate a 0).map_right
  intro mem' set points
  exact points.wrote

theorem initWithIndexAt_agree (separate : mem.Separate) (a : Nat) (x : Guint) :
    Agree (Wrote mem a) (mem.initWithIndexAt a x)
      (mem.abs.deref a >>= fun set => set.initWithIndex x) := by
  apply (openAt_agree separate a 0).bind
  intro mem' set points
  apply (insertAt_agree points 0 x).map_right
  intro mem'' arr points'
  exact points'.wrote

theorem initWithRangeAt_agree (separate : mem.Separate) (a : Nat) (range : GRange) :
    Agree (Wrote mem a) (mem.initWithRangeAt a range)
      (mem.abs.deref a >>= fun set => set.initWithRange range) := by
  apply (openAt_agree separate a range.length).bind
  intro mem' set points
  have pass : ∀ i mem' arr, Points mem.abs a set.refCount mem' arr →
      Agree (Flow.Like (Points mem.abs a set.refCount)) (rangePassAt a range i mem')
        (GIndexSet.rangePass range i arr) := by
    intro i mem' arr points
    apply (insertAt_agree points (i - range.location) i).bind
    intro mem'' arr' points'
    exact .ok (.next points')
  apply (forBelow_agree (fun _ _ _ => rfl) pass points).bind
  intro flow flow' like
  cases like with
  | next points' => exact .ok points'.wrote
  | done r => exact r.elim

/-- The store of a memory in which one set is being filled. -/
def Filling (mem : Memory Arr) (a : Nat) (refs : Gint) (mem' : Memory Arr) (st : Store Arr) : Prop :=
  ∃ arr, Points mem.abs a refs mem' arr ∧ st = mem.abs.write a ⟨refs, some arr⟩

theorem copyPassAt_agree {refs : Gint} {mem' : Memory Arr} {st : Store Arr}
    (filling : Filling mem a refs mem' st) (source : Nat) (i : Guint) :
    Agree (Flow.Like (Filling mem a refs)) (copyPassAt a source i mem')
      (Store.copyPass a source i st) := by
  obtain ⟨arr, points, rfl⟩ := filling
  have target : (mem.abs.write a ⟨refs, some arr⟩).indicesAt a = .ok arr := by
    unfold Store.indicesAt
    rw [Store.deref_write_self]
    rfl
  have filled : ∀ arr', (mem.abs.write a ⟨refs, some arr⟩).setIndices a arr' =
      .ok (mem.abs.write a ⟨refs, some arr'⟩) := by
    intro arr'
    unfold Store.setIndices
    rw [Store.deref_write_self, ok_bind, Store.write_write]
    rfl
  unfold copyPassAt Store.copyPass
  rw [arrayAt_abs points.separate, points.abs]
  apply (Agree.of_eq rfl).bind
  rintro src _ rfl
  apply (Agree.of_eq rfl).bind
  rintro idx _ rfl
  rw [target, ok_bind]
  apply (insertAt_agree points i idx).bind
  intro mem'' arr' points'
  rw [filled, ok_bind]
  exact .ok (.next ⟨arr', points', rfl⟩)

theorem sourceLen_abs (separate : mem.Separate) (source : Nat) :
    sourceLen source mem = Store.sourceLen source mem.abs := by
  unfold sourceLen Store.sourceLen
  cases found : mem.abs.indicesAt source with
  | error e => simp only [arrayAt_abs separate, found]
  | ok arr => simp only [arrayAt_abs separate, found]

/-- The loops, from a memory whose set was opened. -/
theorem copyLoop_agree {refs : Gint} {mem' : Memory Arr} {arr : Arr}
    (points : Points mem.abs a refs mem' arr) (source : Nat) :
    Agree (Flow.Like (Filling mem a refs))
      (forBelow (sourceLen source) (copyPassAt a source) 0 mem')
      (forBelow (Store.sourceLen source) (Store.copyPass a source) 0 mem'.abs) := by
  apply forBelow_agree
  · rintro mem'' _ ⟨arr, points', rfl⟩
    rw [sourceLen_abs points'.separate, points'.abs]
  · intro i mem'' st filling
    exact copyPassAt_agree filling source i
  · exact ⟨arr, points, points.abs⟩

theorem initWithSetAt_agree (separate : mem.Separate) (a source : Nat) :
    Agree (fun mem' result => mem'.Separate ∧ (mem'.abs, some a) = result)
      (mem.initWithSetAt a source) (mem.abs.initWithSet (some a) (some source)) := by
  unfold initWithSetAt Store.initWithSet
  dsimp only
  cases ha : mem.sets a with
  | none =>
      unfold openAt
      rw [derefSet_none ha, deref_abs_none ha]
      exact .error _
  | some set =>
      obtain ⟨mem', run, points⟩ := openAt_ok separate ha 0
      have opens : mem.abs.setIndices a (mem.value set).emptied = .ok mem'.abs := by
        unfold Store.setIndices
        rw [Store.deref_ok (abs_sets ha), points.abs]
        rfl
      rw [run, Store.deref_ok (abs_sets ha), ok_bind, ok_bind, opens, ok_bind]
      cases hb : mem'.sets source with
      | none =>
          rw [derefSet_none hb, deref_abs_none hb]
          exact .error _
      | some there =>
          rw [derefSet_ok hb, Store.deref_ok (abs_sets hb), ok_bind, ok_bind]
          cases hp : there.indices with
          | none =>
              simp only [value, hp, Option.bind_none]
              exact .ok ⟨points.separate, rfl⟩
          | some p =>
              obtain ⟨src, hsrc⟩ := points.separate.live hb hp
              simp only [value, hp, Option.bind_some, hsrc]
              apply (copyLoop_agree points source).bind
              intro flow flow' like
              cases like with
              | next filling =>
                  obtain ⟨arr, points', rfl⟩ := filling
                  exact .ok ⟨points'.separate, by rw [points'.abs]⟩
              | done r => exact r.elim

omit [GArray Arr] in
theorem unrefAt_agree (separate : mem.Separate) (a : Nat) :
    Agree (fun mem' result => mem'.Separate ∧ (mem'.abs, none) = result)
      (mem.unrefAt a) (mem.abs.unref (some a)) := by
  unfold unrefAt Store.unref
  dsimp only
  cases ha : mem.sets a with
  | none =>
      rw [derefSet_none ha, deref_abs_none ha]
      exact .error _
  | some set =>
      rw [derefSet_ok ha, Store.deref_ok (abs_sets ha), ok_bind, ok_bind]
      by_cases last : set.refCount = 1
      · obtain ⟨separate', habs⟩ := separate_free separate ha
        rw [if_pos last, if_pos (show (mem.value set).refCount = 1 from last)]
        cases hp : set.indices with
        | none =>
            rw [hp] at separate' habs
            exact .ok ⟨separate', congrArg (fun st => (st, none)) habs⟩
        | some p =>
            have freed : mem.free a (some p) = { mem with
                sets := Function.update mem.sets a none
                arrays := Function.update mem.arrays p none } := by
              unfold free
              congr 1
              funext q
              by_cases same : q = p
              · simp [same]
              · simp [Function.update_of_ne same, Ne.symm same]
            rw [hp, freed] at separate' habs
            exact .ok ⟨separate', congrArg (fun st => (st, none)) habs⟩
      · rw [if_neg last, if_neg (show ¬ (mem.value set).refCount = 1 from last)]
        refine .ok ⟨separate_writeSet separate fun p hp => ⟨set, ha, hp⟩, ?_⟩
        rw [abs_writeSet]
        rfl

/-! ### Calls -/

/-- The results of a call on a memory and on its store. -/
def SameResult (r : Memory Arr × SetPtr) (r' : Store Arr × SetPtr) : Prop :=
  r.1.Separate ∧ (r.1.abs, r.2) = r'

omit [GArray Arr] in
theorem through_agree {f : Nat → Except Fault (Memory Arr)}
    {g : GIndexSet Arr → Except Fault (GIndexSet Arr)} (separate : mem.Separate)
    (agree : ∀ a, Agree (Wrote mem a) (f a) (mem.abs.deref a >>= g)) (set : SetPtr) :
    Agree SameResult (mem.through set f) (mem.abs.through set g) := by
  cases set with
  | none => exact .ok ⟨separate, rfl⟩
  | some a =>
      have calls : mem.abs.through (some a) g =
          (mem.abs.deref a >>= g) >>= fun set => .ok (mem.abs.write a set, some a) := by
        unfold Store.through
        dsimp only
        cases mem.abs.deref a with
        | error e => rfl
        | ok set =>
            rw [ok_bind, ok_bind]
            cases g set with
            | error e => rfl
            | ok set' => rfl
      rw [calls]
      apply (agree a).bind
      intro mem' set wrote
      exact .ok ⟨wrote.1, by rw [wrote.2]⟩

omit [GArray Arr] in
/-- A memory and the pointer that the call returns with it. -/
theorem returns_agree {x : Except Fault (Memory Arr)} {y : Except Fault (Store Arr × SetPtr)}
    {q : SetPtr}
    (agree : Agree (fun mem' result => mem'.Separate ∧ (mem'.abs, q) = result) x y) :
    Agree SameResult (x >>= fun mem' => .ok (mem', q)) y := by
  cases agree with
  | error e => exact .error e
  | ok same => exact .ok same

/-- Every call on a memory agrees with the call on its store, and keeps the pointers
apart. -/
theorem exec_agree (separate : mem.Separate) (c : Store.Call) :
    Agree SameResult (mem.exec c) (mem.abs.exec c) := by
  unfold exec Store.exec
  cases c with
  | alloc =>
      obtain ⟨separate', habs⟩ := separate_alloc separate
      refine .ok ⟨separate', ?_⟩
      rw [habs]
      rfl
  | ref set => exact through_agree separate (refAt_agree separate) set
  | unref set =>
      cases set with
      | none => exact .ok ⟨separate, rfl⟩
      | some a => exact returns_agree (unrefAt_agree separate a)
  | init set => exact through_agree separate (initAt_agree separate) set
  | initWithIndex set x =>
      exact through_agree separate (fun a => initWithIndexAt_agree separate a x) set
  | initWithRange set range =>
      cases range with
      | none => cases set <;> exact .ok ⟨separate, rfl⟩
      | some r =>
          cases set with
          | none => exact .ok ⟨separate, rfl⟩
          | some a =>
              exact through_agree separate (fun a => initWithRangeAt_agree separate a r) (some a)
  | initWithSet set source =>
      cases source with
      | none => cases set <;> exact .ok ⟨separate, rfl⟩
      | some b =>
          cases set with
          | none => exact .ok ⟨separate, rfl⟩
          | some a => exact returns_agree (initWithSetAt_agree separate a b)

/-- A call that returns, returns the same of the store. -/
theorem exec_ok (separate : mem.Separate) {c : Store.Call} {mem' : Memory Arr} {q : SetPtr}
    (run : mem.exec c = .ok (mem', q)) : mem'.Separate ∧ mem.abs.exec c = .ok (mem'.abs, q) := by
  have calls := exec_agree separate c
  rw [run] at calls
  obtain ⟨_, stored, separate', rfl⟩ := calls.of_left
  exact ⟨separate', stored⟩

end Functions

/-! ### Runs -/

section Runs

variable [GArray Arr]

/-- What a run reaches keeps the pointers apart, and its store is what the same run on
stores reaches. -/
theorem reach_abs (reach : (machine Arr).Reach mem) :
    mem.Separate ∧ (Store.machine Arr).Reach mem.abs := by
  induction reach with
  | start h =>
      cases h
      exact ⟨⟨by rintro _ _ _ ⟨⟩, by rintro _ _ _ _ _ ⟨⟩, by rintro _ _ ⟨⟩⟩, .start rfl⟩
  | @step before after c _ _ step ih =>
      obtain ⟨q, run⟩ := step
      obtain ⟨separate, stored⟩ := exec_ok ih.1 run
      exact ⟨separate, .step (a := c) ih.2 trivial ⟨q, stored⟩⟩

end Runs

end Memory

end GlibController

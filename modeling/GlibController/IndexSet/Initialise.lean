import GlibController.IndexSet.Runs

/-!
What a range initialiser leaves in a fresh set, and what any initialiser leaves in
a set with a past.

The loop of `initWithRange` ends at the length of the range where it should end at
its location plus its length, so on a fresh set it is exact for ranges that start
at 0 or are empty (`range_exact_iff`).

`forgets_past_iff` compares two runs: an initialiser on a set with a past, and the
same initialiser on a set allocated for it. They leave the same content unless a
range of positive length is put into a reused array. The queries can tell more than
the content: on an empty array the two ends read what lies behind the length
(`askBehind`), which in a reused array is a word of the past.
-/

namespace GlibController

open Lib

namespace GIndexSet

open GArray

variable {Arr : Type} [GArray Arr]

/-! ### A range in a fresh set -/

/-- `initWithRange` on a fresh set stores the range, and the queries answer from it. -/
def RangeExact (Arr : Type) [GArray Arr] (range : GRange) : Prop :=
  ∃ set : GIndexSet Arr, (alloc : GIndexSet Arr).initWithRange range = .ok set ∧
    set.stored = some (interval range.location (range.location + range.length)) ∧
    set.count = range.length ∧
    (∀ i, set.containsIndex i =
      .ok (decide (range.location ≤ i ∧ i < range.location + range.length))) ∧
    (0 < range.length → set.firstIndex = .ok range.location ∧
      set.lastIndex = .ok (range.location + range.length - 1))

/-- The first and the last word of an interval that is not empty. -/
theorem head_interval {lo hi : Guint} (h : interval lo hi ≠ []) : (interval lo hi).head h = lo := by
  have pos := List.length_pos_iff.mpr h
  rw [← UInt32.toNat_inj, List.head_eq_getElem, getElem_interval pos, Nat.add_zero]

theorem getLast_interval {lo hi : Guint} (h : interval lo hi ≠ []) :
    (interval lo hi).getLast h = hi - 1 := by
  have pos := List.length_pos_iff.mpr h
  have last : (interval lo hi).length - 1 < (interval lo hi).length := by omega
  rw [length_interval] at pos
  rw [← UInt32.toNat_inj, List.getLast_eq_getElem, getElem_interval last, length_interval,
    UInt32.toNat_sub_of_le _ _ (by rw [UInt32.le_iff_toNat_le, UInt32.toNat_one]; omega),
    UInt32.toNat_one]
  omega

/-- A set that stores an interval counts it, contains it and is bounded by it. -/
theorem queries_of_interval {set : GIndexSet Arr} {lo hi : Guint}
    (h : set.stored = some (interval lo hi)) (le : lo ≤ hi) :
    set.count = hi - lo ∧ (∀ i, set.containsIndex i = .ok (decide (lo ≤ i ∧ i < hi))) ∧
      (lo < hi → set.firstIndex = .ok lo ∧ set.lastIndex = .ok (hi - 1)) := by
  have hmem : set.members = interval lo hi := members_of_stored h
  have hind : set.indices ≠ none := by
    intro hnone
    rw [stored_eq_none.mpr hnone] at h
    cases h
  refine ⟨?_, ?_, ?_⟩
  · rw [← UInt32.toNat_inj, count_eq set hind, hmem, length_interval, UInt32.toNat_sub_of_le _ _ le]
  · intro i
    rw [containsIndex_eq, hmem]
    simp only [mem_interval]
  · intro lt
    have hne : interval lo hi ≠ [] := by
      rw [UInt32.lt_iff_toNat_lt] at lt
      rw [← List.length_pos_iff, length_interval]
      omega
    have hne' : set.members ≠ [] := hmem ▸ hne
    rw [firstIndex_of_members hne', lastIndex_of_members hne']
    simp only [hmem, head_interval hne, getLast_interval hne, and_self]

/-- A range initialiser is exact on a fresh set exactly for ranges that start at 0
or are empty. -/
theorem range_exact_iff (range : GRange)
    (bounded : range.location.toNat + range.length.toNat ≤ maxUint.toNat) :
    RangeExact Arr range ↔ range.location = 0 ∨ range.length = 0 := by
  have sum : (range.location + range.length).toNat =
      range.location.toNat + range.length.toNat :=
    toNat_add_of_lt (Nat.lt_succ_of_le bounded)
  obtain ⟨set, run, content⟩ := initWithRange_new (rfl : (alloc : GIndexSet Arr).indices = none) range
  constructor
  · rintro ⟨set', run', content', -⟩
    rw [run] at run'
    cases run'
    rw [content, Option.some.injEq] at content'
    have length := congrArg List.length content'
    rw [length_interval, length_interval, sum] at length
    rw [← UInt32.toNat_inj, ← UInt32.toNat_inj, UInt32.toNat_zero]
    omega
  · intro h
    have same : interval range.location range.length =
        interval range.location (range.location + range.length) := by
      rcases h with hloc | hlen
      · rw [hloc, UInt32.zero_add]
      · rw [hlen, UInt32.add_zero, interval_eq_nil UInt32.zero_le, interval_eq_nil (le_refl _)]
    rw [same] at content
    have le : range.location ≤ range.location + range.length := by
      rw [UInt32.le_iff_toNat_le]
      omega
    obtain ⟨hcount, hcontains, hends⟩ := queries_of_interval content le
    have size : range.location + range.length - range.location = range.length := by
      rw [← UInt32.toNat_inj, UInt32.toNat_sub_of_le _ _ le]
      omega
    refine ⟨set, run, content, hcount.trans size, hcontains, ?_⟩
    intro pos
    apply hends
    rw [UInt32.lt_iff_toNat_lt] at pos ⊢
    rw [UInt32.toNat_zero] at pos
    omega

theorem range_exact_hundred : RangeExact Words ⟨0, 100⟩ :=
  (range_exact_iff ⟨0, 100⟩ (by decide)).mpr (.inl rfl)

/-- The range of length 1 at 1 is stored as no index at all. -/
theorem range_at_one_not_exact : ¬ RangeExact Words ⟨1, 1⟩ := by
  rintro ⟨set, run, content, -⟩
  cases run
  exact absurd content (by decide)

/-! ### Behind the length -/

/-- A query with what it reads behind the length of the array. The two ends are read
without a check; the others stay below the length. -/
def askBehind (behind : Behind Arr) (set : GIndexSet Arr) : Query → Except Fault Answer
  | .firstIndex =>
      match set.indices with
      | none => .ok (.number indexNotFound)
      | some arr => (read behind arr 0).map .number
  | .lastIndex =>
      match set.indices with
      | none => .ok (.number indexNotFound)
      | some arr => (read behind arr (len arr - 1)).map .number
  | q => set.ask q

/-- A set with members reads nothing behind the length. -/
theorem askBehind_of_members {set : GIndexSet Arr} (behind : Behind Arr) (h : set.members ≠ [])
    (q : Query) : set.askBehind behind q = set.ask q := by
  cases hind : set.indices with
  | none => exact absurd (by rw [members, stored, hind]; rfl) h
  | some arr =>
      have nonempty : elems arr ≠ [] := by
        rwa [members_of_stored (stored_of_indices hind)] at h
      have pos := List.length_pos_iff.mpr nonempty
      cases q with
      | firstIndex =>
          rw [askBehind, ask, firstIndex_eq hind, hind]
          dsimp only
          rw [read_of_lt behind (show (0 : Guint).toNat < _ from pos)]
      | lastIndex =>
          rw [askBehind, ask, lastIndex_eq hind, hind]
          dsimp only
          rw [read_of_lt behind (by rw [toNat_len_sub_one nonempty]; omega)]
      | _ => rfl

/-- The same content gives the same answers, and no content does in the same array. -/
theorem askBehind_congr {s t : GIndexSet Arr} (behind : Behind Arr) (h : s.stored = t.stored)
    (same : s.members = [] → s.indices = t.indices) (q : Query) :
    s.askBehind behind q = t.askBehind behind q := by
  by_cases nil : s.members = []
  · cases q with
    | firstIndex => rw [askBehind, askBehind, same nil]
    | lastIndex => rw [askBehind, askBehind, same nil]
    | count => exact ask_congr h .count
    | containsIndex index_ => exact ask_congr h (.containsIndex index_)
    | getIndex predicate index_ => exact ask_congr h (.getIndex predicate index_)
  · have nonempty : t.members ≠ [] := by rwa [members, ← h]
    rw [askBehind_of_members behind nil, askBehind_of_members behind nonempty, ask_congr h]

/-- Empty arrays can be told apart by what lies behind their length. -/
theorem eq_of_askBehind {s t : GIndexSet Arr} {arr arr' : Arr} (hs : s.indices = some arr)
    (ht : t.indices = some arr') (nil : elems arr = []) (nil' : elems arr' = [])
    (answers : ∀ behind, s.askBehind behind .firstIndex = t.askBehind behind .firstIndex) :
    arr = arr' := by
  classical
  have first := answers fun x _ => if x = arr' then .ok 0 else .ok 1
  rw [askBehind, askBehind, hs, ht] at first
  dsimp only at first
  rw [read_of_ge _ (by rw [nil]; exact Nat.zero_le _),
    read_of_ge _ (by rw [nil']; exact Nat.zero_le _),
    if_pos rfl] at first
  by_contra other
  rw [if_neg other] at first
  cases first

end GIndexSet

namespace Store

open GArray GIndexSet

variable {Arr : Type} [GArray Arr]

/-! ### A set with a past -/

/-- An initialiser with its arguments, without the set it is applied to. -/
inductive Initialiser where
  | init
  | withIndex (index_ : Guint)
  | withRange (range : GRange)
  | withSet (source : Nat)
  deriving DecidableEq, Repr

def Initialiser.on (a : Nat) : Initialiser → Call
  | .init => .init (some a)
  | .withIndex index_ => .initWithIndex (some a) index_
  | .withRange range => .initWithRange (some a) (some range)
  | .withSet source => .initWithSet (some a) (some source)

/-- The source of a copy is a live set other than the target. -/
def Initialiser.OtherSource (st : Store Arr) (a : Nat) : Initialiser → Prop
  | .withSet source => a ≠ source ∧ ∃ set, st.sets source = some set
  | _ => True

/-- The content an initialiser leaves in a set without an array. -/
def Initialiser.content (st : Store Arr) : Initialiser → List Guint
  | .init => []
  | .withIndex index_ => [index_]
  | .withRange range => interval range.location range.length
  | .withSet source => ((st.sets source).map members).getD []

/-- The initialiser does not put a range of positive length into a reused array. -/
def Initialiser.Overwrites (set : GIndexSet Arr) (op : Initialiser) : Prop :=
  ∀ range, op = .withRange range → set.indices = none ∨ range.length = 0

/-- Nothing of the past is left, neither among the elements nor, where there are none,
behind them. -/
def Initialiser.Forgetful (st : Store Arr) (set : GIndexSet Arr) (op : Initialiser) : Prop :=
  op.Overwrites set ∧ (op.content st = [] → set.emptied = new)

/-- The initialiser leaves in the set at `a` what it leaves in a set allocated for
it, and every query answers the same in both, whatever lies behind the length of arrays. -/
def ForgetsPast (st : Store Arr) (a : Nat) (op : Initialiser) : Prop :=
  ∃ st₁ set₁ st₂ set₂,
    st.exec (op.on a) = .ok (st₁, some a) ∧ st₁.sets a = some set₁ ∧
    st.alloc.1.exec (op.on st.fresh) = .ok (st₂, some st.fresh) ∧
    st₂.sets st.fresh = some set₂ ∧
    set₁.stored = set₂.stored ∧
    ∀ behind q, set₁.askBehind behind q = set₂.askBehind behind q

/-- A range of length zero empties the array, whatever it held. -/
theorem initWithRange_overwrites {set : GIndexSet Arr} (range : GRange)
    (h : set.indices = none ∨ range.length = 0) :
    ∃ set', set.initWithRange range = .ok set' ∧
      set'.stored = some (interval range.location range.length) := by
  rcases h with hnew | hzero
  · exact initWithRange_new hnew range
  · have stop : ¬ range.location < range.length := by
      rw [hzero]
      exact UInt32.not_lt_zero
    have run : set.initWithRange range = .ok { set with indices := some (set.resized range) } := by
      have hloop : rangeLoop range (set.resized range) = .ok (.next (set.resized range)) :=
        forBelow_stop stop
      rw [GIndexSet.initWithRange, hloop]
      rfl
    have hempty : elems (set.resized range) = [] := by
      rw [resized, hzero]
      split <;> simp
    exact ⟨_, run, by rw [initWithRange_ok run, hempty, List.append_nil]⟩

/-- Where it overwrites the past, an initialiser succeeds and leaves its content alone. -/
theorem exec_on {st : Store Arr} {a : Nat} {set : GIndexSet Arr} {op : Initialiser}
    (hset : st.sets a = some set) (other : op.OtherSource st a) (overwrites : op.Overwrites set) :
    ∃ set', st.exec (op.on a) = .ok (st.write a set', some a) ∧
      set'.stored = some (op.content st) := by
  cases op with
  | init => exact ⟨set.init, through_some hset, stored_init set⟩
  | withIndex x =>
      obtain ⟨set', hrun, hcontent⟩ := set.initWithIndex_spec x
      exact ⟨set', by rw [Initialiser.on, exec, initWithIndex, through_some hset, hrun]; rfl, hcontent⟩
  | withRange r =>
      obtain ⟨set', hrun, hcontent⟩ := initWithRange_overwrites r (overwrites r rfl)
      exact ⟨set', by rw [Initialiser.on, exec, initWithRange, through_some hset, hrun]; rfl, hcontent⟩
  | withSet b =>
      obtain ⟨hne, source, hsrc⟩ := other
      obtain ⟨arr, hrun, helems⟩ := initWithSet_of_ne hne hset hsrc
      refine ⟨_, hrun, ?_⟩
      rw [stored_mk_some, helems, Initialiser.content, hsrc]
      rfl

/-- Copying a set without members empties the array, and no more. -/
theorem initWithSet_nil {st : Store Arr} {a b : Nat} {set source : GIndexSet Arr} (hne : a ≠ b)
    (ha : st.sets a = some set) (hb : st.sets b = some source) (nil : source.members = []) :
    st.initWithSet (some a) (some b) = .ok (st.write a set.init, some a) := by
  have hset : st.setIndices a set.emptied = .ok (st.write a set.init) := by
    rw [setIndices, deref_ok ha]
    rfl
  cases hsrc : source.indices with
  | none =>
      simp only [initWithSet, deref_ok ha, hset, deref_write_of_ne _ hne.symm, deref_ok hb, hsrc,
        ok_bind, pure_eq_ok]
  | some src =>
      have stop : ¬ (0 : Guint) < sourceLen b (st.write a set.init) := by
        rw [members_of_stored (stored_of_indices hsrc)] at nil
        rw [sourceLen_eq hne hb hsrc, UInt32.lt_iff_toNat_lt, toNat_len, nil]
        exact Nat.lt_irrefl 0
      simp only [initWithSet, deref_ok ha, hset, deref_write_of_ne _ hne.symm, deref_ok hb, hsrc,
        forBelow_stop stop, ok_bind, pure_eq_ok]

/-- An initialiser that leaves no content empties the array, and no more. -/
theorem exec_on_nil {st : Store Arr} {a : Nat} {set : GIndexSet Arr} {op : Initialiser}
    (hset : st.sets a = some set) (other : op.OtherSource st a) (overwrites : op.Overwrites set)
    (nil : op.content st = []) :
    st.exec (op.on a) = .ok (st.write a set.init, some a) := by
  cases op with
  | init => exact through_some hset
  | withIndex x => cases nil
  | withRange r =>
      have stop : ¬ r.location < r.length := by
        have none := congrArg List.length nil
        rw [Initialiser.content, length_interval, List.length_nil] at none
        rw [UInt32.lt_iff_toNat_lt]
        omega
      have hloop : rangeLoop r (set.resized r) = .ok (.next (set.resized r)) := forBelow_stop stop
      have emptied : set.resized r = set.emptied := by
        rw [GIndexSet.resized, GIndexSet.emptied]
        rcases overwrites r rfl with new | zero
        · rw [new]
        · rw [zero]
      rw [Initialiser.on, exec, initWithRange, through_some hset, GIndexSet.initWithRange, hloop,
        emptied]
      rfl
  | withSet b =>
      obtain ⟨hne, source, hsrc⟩ := other
      rw [Initialiser.content, hsrc] at nil
      exact initWithSet_nil hne hset hsrc nil

/-- No set is live at an address that was not allocated. -/
theorem lt_fresh_of_reach {st : Store Arr} (reach : (machine Arr).Reach st) {a : Nat}
    {set : GIndexSet Arr} (h : st.sets a = some set) : a < st.fresh := by
  refine reach.invariant (fun st => ∀ a set, st.sets a = some set → a < st.fresh) ?_ ?_ a set h
  · rintro _ rfl a set hset
    cases hset
  · rintro st c st' inv - ⟨p, hexec⟩ a set hset
    cases exec_effect hexec with
    | nothing => exact inv a set hset
    | allocated _ =>
        by_cases hfresh : a = st.fresh
        · exact hfresh ▸ Nat.lt_succ_self _
        · rw [alloc, sets_write, Function.update_of_ne hfresh] at hset
          exact Nat.lt_succ_of_lt (inv a set hset)
    | freed b _ =>
        by_cases hb : a = b
        · subst hb
          simp at hset
        · simp only [Function.update_of_ne hb] at hset
          exact inv a set hset
    | @changed b old set' hold _ =>
        by_cases hb : a = b
        · exact hb ▸ inv b old hold
        · rw [sets_write, Function.update_of_ne hb] at hset
          exact inv a set hset

section Fresh

variable {st : Store Arr} {op : Initialiser}

/-- A live set is where it was after an allocation. -/
theorem sets_alloc_of_live (reach : (machine Arr).Reach st) {b : Nat} {set : GIndexSet Arr}
    (h : st.sets b = some set) : st.alloc.1.sets b = some set := by
  rw [alloc, sets_write, Function.update_of_ne (lt_fresh_of_reach reach h).ne]
  exact h

omit [GArray Arr] in
theorem sets_alloc_fresh (st : Store Arr) :
    st.alloc.1.sets st.fresh = some GIndexSet.alloc := by
  simp [alloc]

theorem otherSource_fresh (reach : (machine Arr).Reach st) {a : Nat}
    (other : op.OtherSource st a) : op.OtherSource st.alloc.1 st.fresh := by
  cases op with
  | withSet b =>
      obtain ⟨-, source, hsrc⟩ := other
      exact ⟨(lt_fresh_of_reach reach hsrc).ne', source, sets_alloc_of_live reach hsrc⟩
  | init => trivial
  | withIndex x => trivial
  | withRange r => trivial

theorem content_alloc (reach : (machine Arr).Reach st) {a : Nat} (other : op.OtherSource st a) :
    op.content st.alloc.1 = op.content st := by
  cases op with
  | withSet b =>
      obtain ⟨-, source, hsrc⟩ := other
      rw [Initialiser.content, Initialiser.content, sets_alloc_of_live reach hsrc, hsrc]
  | init => rfl
  | withIndex x => rfl
  | withRange r => rfl

/-- The run on the allocated set always succeeds. -/
theorem exec_on_fresh (reach : (machine Arr).Reach st) {a : Nat} (other : op.OtherSource st a) :
    ∃ set', st.alloc.1.exec (op.on st.fresh) = .ok (st.alloc.1.write st.fresh set', some st.fresh) ∧
      set'.stored = some (op.content st) := by
  rw [← content_alloc reach other]
  apply exec_on (sets_alloc_fresh st) (otherSource_fresh reach other)
  intro range _
  exact .inl rfl

/-- On an array that was made for it, an initialiser that leaves no content leaves a new array. -/
theorem exec_on_fresh_nil (reach : (machine Arr).Reach st) {a : Nat} (other : op.OtherSource st a)
    (nil : op.content st = []) :
    st.alloc.1.exec (op.on st.fresh) =
      .ok (st.alloc.1.write st.fresh (GIndexSet.init GIndexSet.alloc), some st.fresh) := by
  refine exec_on_nil (sets_alloc_fresh st) (otherSource_fresh reach other) ?_ ?_
  · intro range _
    exact .inl rfl
  · rw [content_alloc reach other, nil]

end Fresh

/-- A range of positive length in a reused array leaves more than the range. -/
theorem overwrites_of_content {st st' : Store Arr} {a : Nat} {set set' : GIndexSet Arr}
    {op : Initialiser} {p : SetPtr} (hset : st.sets a = some set)
    (run : st.exec (op.on a) = .ok (st', p)) (hset' : st'.sets a = some set')
    (content : set'.stored = some (op.content st)) : op.Overwrites set := by
  rintro range rfl
  obtain ⟨old, new, hold, hrun, rfl⟩ := through_ok run
  rw [hset] at hold
  cases hold
  rw [sets_write, Function.update_self] at hset'
  cases hset'
  rw [initWithRange_ok hrun, Initialiser.content, Option.some.injEq, List.append_right_eq_self]
    at content
  cases hind : set.indices with
  | none => exact .inl rfl
  | some arr =>
      right
      have length := length_setSize arr range.length
      rw [resized, hind] at content
      rw [content, List.length_nil] at length
      exact UInt32.toNat_inj.mp length.symm

omit [GArray Arr] in
theorem write_injective {st : Store Arr} {a : Nat} {s t : GIndexSet Arr}
    (h : st.write a s = st.write a t) : s = t := by
  have same := congrArg (fun st => st.sets a) h
  simpa using same

/-- With arrays that keep their blocks, an initialiser that leaves no content forgets the past
only of sets that never had an index. -/
theorem forgetful_blocks (st : Store Blocks) (set : GIndexSet Blocks) (op : Initialiser) :
    op.Forgetful st set ↔ op.Overwrites set ∧
      (op.content st = [] → ∀ arr, set.indices = some arr → arr.block = []) := by
  unfold Initialiser.Forgetful GIndexSet.emptied
  cases set.indices with
  | none => simp
  | some arr => simp [Blocks.emptied_eq_new]

/-- Behind the length of an emptied array is the index that it held. -/
example : (GIndexSet.mk 1 (some (⟨[5], 1, by decide, by decide⟩ : Blocks))).init.askBehind
    Blocks.behind .firstIndex = .ok (.number 5) := rfl

/-- Two sets that hold the index 5 and the indices 0, 1, 2. -/
def twoIndexed : Store Blocks :=
  ((empty.alloc.1).alloc.1.write 0 ⟨1, some ⟨[5], 1, by decide, by decide⟩⟩).write 1
    ⟨1, some ⟨[0, 1, 2], 3, by decide, by decide⟩⟩

theorem twoIndexed_reach : (machine Blocks).Reach twoIndexed := by
  have first : (machine Blocks).Reach empty.alloc.1 :=
    .step (a := .alloc) (.start rfl) trivial ⟨_, rfl⟩
  have second : (machine Blocks).Reach _ := .step (a := .alloc) first trivial ⟨_, rfl⟩
  have filled : (machine Blocks).Reach _ :=
    .step (a := .initWithIndex (some 0) 5) second trivial ⟨_, rfl⟩
  exact .step (a := .initWithRange (some 1) (some ⟨0, 3⟩)) filled trivial ⟨_, rfl⟩

end Store

end GlibController

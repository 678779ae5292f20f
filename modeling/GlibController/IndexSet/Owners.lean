import GlibController.IndexSet.Effects
import GlibController.IndexSet.Returns

/-!
Who owns the index sets and their arrays.

The callers of the interface hold references on the sets, and a set holds its array.
`Owners` puts the references of the callers beside the memory, and `Owned` are the books of
both levels, which every call keeps: an array has one live set as its owner, and a set lives
exactly as long as somebody holds a reference on it, so that nothing is left when all
references are dropped. The count of a set is a word, so the callers must stay below `2 ^ 32`
references on one set (`CountFits`): `overflow` shows a set that is freed while it is held.
-/

namespace GlibController

open Lib

/-- The references that a set counts. -/
def SetObject.count (set : SetObject) : Nat := tally set.refCount

namespace Memory

/-- A memory, and the references that the callers hold on its sets. -/
structure Owners (Arr : Type) where
  mem : Memory Arr
  held : Nat → Nat

section References

variable {Arr : Type}

/-- The set at an address points at an array. -/
def HasArray (mem : Memory Arr) (a : Nat) : Prop :=
  ∃ set p, mem.sets a = some set ∧ set.indices = some p

/-- The references counted at an address, zero where there is no set. -/
def countAt (mem : Memory Arr) (a : Nat) : Nat := ((mem.sets a).map SetObject.count).getD 0

theorem countAt_of_sets {mem : Memory Arr} {a : Nat} {set : SetObject}
    (h : mem.sets a = some set) : mem.countAt a = set.count := by
  rw [countAt, h]
  rfl

/-- The counts after one set was written or freed. -/
theorem countAt_update {mem mem' : Memory Arr} {a : Nat} {set' : Option SetObject}
    (sets : mem'.sets = Function.update mem.sets a set') :
    mem'.countAt = Function.update mem.countAt a ((set'.map SetObject.count).getD 0) := by
  funext b
  rw [countAt, sets]
  by_cases same : b = a
  · subst same
    rw [Function.update_self, Function.update_self]
  · rw [Function.update_of_ne same, Function.update_of_ne same, countAt]

/-- The books: a set counts the references on it, and lives while there are any; an array
lives while a set points at it. -/
structure Owned (mem : Memory Arr) (held : Nat → Nat) : Prop where
  separate : mem.Separate
  counted : mem.countAt = held
  alive : ∀ {a set}, mem.sets a = some set → 0 < set.count
  below : ∀ {a set}, mem.sets a = some set → a < mem.freshSet
  owner : ∀ {p arr}, mem.arrays p = some arr → ∃ a set, mem.sets a = some set ∧ set.indices = some p

namespace Owned

variable {mem : Memory Arr} {held : Nat → Nat}

theorem held_eq (owned : mem.Owned held) {a : Nat} {set : SetObject} (h : mem.sets a = some set) :
    held a = set.count := by
  rw [← owned.counted, countAt_of_sets h]

/-- The sets that live are those that somebody holds. -/
theorem live_iff (owned : mem.Owned held) (a : Nat) :
    (∃ set, mem.sets a = some set) ↔ 0 < held a := by
  constructor
  · rintro ⟨set, hset⟩
    rw [owned.held_eq hset]
    exact owned.alive hset
  · intro pos
    rw [← owned.counted, countAt] at pos
    cases hset : mem.sets a with
    | none =>
        rw [hset] at pos
        exact absurd pos (lt_irrefl 0)
    | some set => exact ⟨set, rfl⟩

/-- Nothing is left when nobody holds a reference. -/
theorem eq_none (owned : mem.Owned held) (dropped : ∀ a, held a = 0) :
    mem.sets = (fun _ => none) ∧ mem.arrays = fun _ => none := by
  have sets : ∀ a, mem.sets a = none := by
    intro a
    rw [Option.eq_none_iff_forall_ne_some]
    intro set hset
    have pos := owned.alive hset
    rw [← owned.held_eq hset, dropped a] at pos
    exact absurd pos (lt_irrefl 0)
  refine ⟨funext sets, funext ?_⟩
  intro p
  rw [Option.eq_none_iff_forall_ne_some]
  intro arr harr
  obtain ⟨a, set, hset, -⟩ := owned.owner harr
  rw [sets a] at hset
  cases hset

end Owned

end References

/-! ### The books are kept -/

@[simp] theorem free_sets {Arr : Type} (mem : Memory Arr) (a : Nat) (indices : Option Nat) :
    (mem.free a indices).sets = Function.update mem.sets a none := rfl

@[simp] theorem free_arrays {Arr : Type} (mem : Memory Arr) (a : Nat) (indices : Option Nat) (q : Nat) :
    (mem.free a indices).arrays q = if indices = some q then none else mem.arrays q := rfl

namespace Owned

section Step

variable {Arr : Type} {mem mem' : Memory Arr} {held : Nat → Nat} {a p : Nat} {set : SetObject}

/-- A set that keeps its pointer changes its count and no owner. -/
theorem counts {n : Gint} (owned : mem.Owned held) (hset : mem.sets a = some set)
    (separate : (mem.writeSet a { set with refCount := n }).Separate) (pos : 0 < tally n) :
    (mem.writeSet a { set with refCount := n }).Owned (Function.update held a (tally n)) := by
  refine ⟨separate, ?_, ?_, ?_, ?_⟩
  · rw [countAt_update (writeSet_sets ..), owned.counted]
    rfl
  · intro b t ht
    rcases sets_writeSet ht with ⟨rfl, rfl⟩ | ⟨-, hb⟩
    · exact pos
    · exact owned.alive hb
  · intro b t ht
    rcases sets_writeSet ht with ⟨rfl, rfl⟩ | ⟨-, hb⟩
    · exact owned.below hset
    · exact owned.below hb
  · intro q arr hq
    obtain ⟨b, t, hb, ht⟩ := owned.owner hq
    by_cases same : b = a
    · subst same
      rw [hset] at hb
      cases hb
      exact ⟨b, _, Function.update_self .., ht⟩
    · exact ⟨b, t, (Function.update_of_ne same ..).trans hb, ht⟩

/-- The set that was filled owns its array. -/
theorem fill (owned : mem.Owned held) (separate : mem'.Separate)
    (hset : mem.sets a = some set) (filled : Filled mem a set p mem') :
    mem'.Owned held := by
  refine ⟨separate, ?_, ?_, ?_, ?_⟩
  · rw [countAt_update filled.sets, owned.counted]
    refine Function.update_eq_self_iff.mpr ?_
    rw [owned.held_eq hset]
    rfl
  · intro b t ht
    rw [filled.sets] at ht
    by_cases same : b = a
    · subst same
      rw [Function.update_self, Option.some.injEq] at ht
      subst ht
      have pos := owned.alive hset
      exact pos
    · rw [Function.update_of_ne same] at ht
      exact owned.alive ht
  · intro b t ht
    rw [filled.freshSet]
    rw [filled.sets] at ht
    by_cases same : b = a
    · subst same
      exact owned.below hset
    · rw [Function.update_of_ne same] at ht
      exact owned.below ht
  · intro q arr hq
    by_cases here : q = p
    · subst here
      exact ⟨a, _, by rw [filled.sets, Function.update_self], rfl⟩
    · rw [filled.others q here] at hq
      obtain ⟨b, t, hb, ht⟩ := owned.owner hq
      have other : b ≠ a := by
        rintro rfl
        rw [hset] at hb
        cases hb
        exact here (filled.own ht)
      exact ⟨b, t, by rw [filled.sets, Function.update_of_ne other, hb], ht⟩

/-- The last reference takes the set and its array with it. -/
theorem free (owned : mem.Owned held) (hset : mem.sets a = some set)
    (last : set.refCount = 1) :
    (mem.free a set.indices).Owned (minus held a) := by
  have remains : ∀ {b t}, (mem.free a set.indices).sets b = some t → b ≠ a ∧ mem.sets b = some t := by
    intro b t hb
    by_cases same : b = a
    · subst same
      rw [free_sets, Function.update_self] at hb
      cases hb
    · rw [free_sets, Function.update_of_ne same] at hb
      exact ⟨same, hb⟩
  refine ⟨(separate_free owned.separate hset).1, ?_, ?_, ?_, ?_⟩
  · have one : held a = 1 := (owned.held_eq hset).trans (tally_eq_one.mpr last)
    rw [countAt_update (free_sets ..), owned.counted, minus, one]
    rfl
  · intro b t hb
    exact owned.alive (remains hb).2
  · intro b t hb
    exact owned.below (remains hb).2
  · intro q arr hq
    rw [free_arrays] at hq
    by_cases own : set.indices = some q
    · rw [if_pos own] at hq
      cases hq
    · rw [if_neg own] at hq
      obtain ⟨b, t, hb, ht⟩ := owned.owner hq
      have other : b ≠ a := by
        rintro rfl
        rw [hset] at hb
        cases hb
        exact own ht
      exact ⟨b, t, (Function.update_of_ne other ..).trans hb, ht⟩

/-- A new set has one reference and no array. -/
theorem alloc (owned : mem.Owned held) :
    mem.alloc.Owned (plus held (some mem.freshSet)) := by
  have fresh : ∀ {b t}, mem.sets b = some t → b ≠ mem.freshSet := by
    rintro b t hb rfl
    exact absurd (owned.below hb) (lt_irrefl _)
  have unused : held mem.freshSet = 0 := by
    by_contra used
    obtain ⟨t, ht⟩ := (owned.live_iff mem.freshSet).mpr (Nat.pos_of_ne_zero used)
    exact fresh ht rfl
  refine ⟨(separate_alloc owned.separate).1, ?_, ?_, ?_, ?_⟩
  · rw [countAt_update (show mem.alloc.sets = _ from rfl), owned.counted, ← update_succ, unused]
    rfl
  · intro b t ht
    rcases sets_writeSet ht with ⟨rfl, rfl⟩ | ⟨-, hb⟩
    · exact Nat.one_pos
    · exact owned.alive hb
  · intro b t ht
    rcases sets_writeSet ht with ⟨rfl, rfl⟩ | ⟨-, hb⟩
    · exact Nat.lt_succ_self _
    · exact Nat.lt_succ_of_lt (owned.below hb)
  · intro q arr hq
    obtain ⟨b, t, hb, ht⟩ := owned.owner hq
    exact ⟨b, t, (Function.update_of_ne (fresh hb) ..).trans hb, ht⟩

/-- Every call keeps the books, if the references can be counted. -/
theorem step [GArray Arr] (owned : mem.Owned held) {c : Store.Call} (fits : CountFits held c)
    {q : SetPtr} (h : mem.exec c = .ok (mem', q)) :
    mem'.Owned (mem.heldAfter held c) := by
  have separate := (exec_ok owned.separate h).1
  cases exec_effect h with
  | alloc => exact owned.alloc
  | @ref a set hset =>
      have more : tally (set.refCount + 1) = held a + 1 := by
        rw [owned.held_eq hset]
        refine tally_succ ?_
        rwa [CountFits, owned.held_eq hset] at fits
      rw [heldAfter, ← update_succ, ← more]
      exact owned.counts hset separate (by rw [more]; exact Nat.succ_pos _)
  | @unref a set hset many =>
      have pos := owned.alive hset
      have one : set.count ≠ 1 := mt tally_eq_one.mp many
      have fewer : tally (set.refCount - 1) = held a - 1 := by
        rw [owned.held_eq hset]
        exact tally_pred pos
      rw [heldAfter, minus, ← fewer]
      refine owned.counts hset separate ?_
      rw [fewer, owned.held_eq hset]
      omega
  | freed hset last => exact owned.free hset last
  | filled keeps hset filled =>
      rw [keeps]
      exact owned.fill separate hset filled
  | nothing keeps =>
      rw [keeps]
      exact owned

/-- Two more references than a count can say: it is one, and a release frees the set. -/
theorem overflow [GArray Arr] (owned : mem.Owned held) (hset : mem.sets a = some set)
    (full : held a + 1 = UInt32.size) :
    ∃ mem₁ mem₂, mem.exec (.ref (some a)) = .ok (mem₁, some a) ∧
      mem₁.exec (.ref (some a)) = .ok (mem₂, some a) ∧
      mem₂.exec (.unref (some a)) = .ok (mem₂.free a set.indices, none) := by
  have last : set.refCount = -1 := by
    apply tally_injective
    rw [show tally set.refCount = held a from (owned.held_eq hset).symm]
    exact Nat.succ.inj full
  have taken : ∀ {mem : Memory Arr} {set : SetObject}, mem.sets a = some set →
      mem.exec (.ref (some a)) =
        .ok (mem.writeSet a { set with refCount := set.refCount + 1 }, some a) := by
    intro mem set hset
    rw [exec, through, refAt, derefSet_ok hset]
    rfl
  refine ⟨_, _, taken hset, taken (Function.update_self ..), ?_⟩
  rw [exec, unrefAt_last (Function.update_self ..) (by rw [last]; rfl)]
  rfl

end Step

end Owned

end Memory

/-! ### Runs -/

namespace Memory

variable {Arr : Type} [GArray Arr]

/-- Runs of calls from the empty memory, with the references that they hand out and take
back. -/
def Owners.machine (Arr : Type) [GArray Arr] : Machine (Owners Arr) Store.Call where
  start s := s = ⟨empty, fun _ => 0⟩
  step s c s' := (∃ p, s.mem.exec c = .ok (s'.mem, p)) ∧ s'.held = s.mem.heldAfter s.held c

omit [GArray Arr] in
theorem owned_empty : (empty : Memory Arr).Owned fun _ => 0 where
  separate := ⟨by rintro _ _ _ ⟨⟩, by rintro _ _ _ _ _ ⟨⟩, by rintro _ _ ⟨⟩⟩
  counted := rfl
  alive := by rintro _ _ ⟨⟩
  below := by rintro _ _ ⟨⟩
  owner := by rintro _ _ ⟨⟩

/-- No set is held more often than its count can say. -/
def Owners.Allowed (s : Owners Arr) (c : Store.Call) : Prop := CountFits s.held c

theorem owned_of_reach {s : Owners Arr} (reach : (Owners.machine Arr).ReachBy Owners.Allowed s) :
    s.mem.Owned s.held := by
  refine reach.invariant (fun s => s.mem.Owned s.held) ?_ ?_
  · rintro _ rfl
    exact owned_empty
  · rintro s c s' owned fits ⟨⟨p, run⟩, held⟩
    rw [held]
    exact owned.step fits run

omit [GArray Arr] in
/-- Where pointers are good, the sets of the store have arrays where there are pointers. -/
theorem Separate.hasArray_abs {mem : Memory Arr} (separate : mem.Separate) (a : Nat) :
    mem.abs.HasArray a ↔ mem.HasArray a := by
  constructor
  · rintro ⟨_, arr, hset, harr⟩
    obtain ⟨set, there, rfl⟩ := Option.map_eq_some_iff.mp hset
    obtain ⟨p, hp, -⟩ := Option.bind_eq_some_iff.mp harr
    exact ⟨set, p, there, hp⟩
  · rintro ⟨set, p, hset, hp⟩
    obtain ⟨arr, harr⟩ := separate.live hset hp
    exact ⟨mem.value set, arr, abs_sets hset, by rw [value, hp, Option.bind_some, harr]⟩

/-- A call returns exactly where somebody holds every set that it reads, and a range has
room. -/
theorem Owned.returns_iff {mem : Memory Arr} {held : Nat → Nat} (owned : mem.Owned held)
    (c : Store.Call) :
    (∃ r, mem.exec c = .ok r) ↔ (∀ a ∈ c.readThrough, 0 < held a) ∧ c.HasRoom mem.HasArray := by
  have agree := exec_agree owned.separate c
  have both : (∃ r, mem.exec c = .ok r) ↔ ∃ r, mem.abs.exec c = .ok r := by
    constructor
    · rintro ⟨r, run⟩
      rw [run] at agree
      obtain ⟨r', run', -⟩ := agree.of_left
      exact ⟨r', run'⟩
    · rintro ⟨r, run⟩
      rw [run] at agree
      obtain ⟨r', run', -⟩ := agree.of_right
      exact ⟨r', run'⟩
  have live : ∀ a, (∃ set, mem.abs.sets a = some set) ↔ 0 < held a := by
    intro a
    rw [← owned.live_iff a]
    simp only [abs, Option.map_eq_some_iff]
    constructor
    · rintro ⟨_, set, hset, -⟩
      exact ⟨set, hset⟩
    · rintro ⟨set, hset⟩
      exact ⟨_, set, hset, rfl⟩
  rw [both, Store.exec_returns_iff, funext fun a => propext (owned.separate.hasArray_abs a)]
  simp only [live]

/-- Whatever calls were made, with fewer than `2 ^ 32` references on each set: every set
counts the references of the callers on it and lives as long as there are any, every array
is that of exactly one live set, nothing is left when all references are dropped, and the
next call returns exactly where it reads sets that somebody holds and its range has
room. -/
theorem Owners.owned {s : Owners Arr} (reach : (machine Arr).ReachBy Allowed s) :
    (∀ a, s.mem.countAt a = s.held a) ∧
      (∀ a, (∃ set, s.mem.sets a = some set) ↔ 0 < s.held a) ∧
      (∀ p, (∃ arr, s.mem.arrays p = some arr) ↔
        ∃! a, ∃ set, s.mem.sets a = some set ∧ set.indices = some p) ∧
      ((∀ a, s.held a = 0) → s.mem.sets = (fun _ => none) ∧ s.mem.arrays = fun _ => none) ∧
      ∀ c, (∃ s', (machine Arr).step s c s') ↔
        (∀ a ∈ c.readThrough, 0 < s.held a) ∧ c.HasRoom s.mem.HasArray := by
  have owned := owned_of_reach reach
  refine ⟨congrFun owned.counted, owned.live_iff, ?_, owned.eq_none, ?_⟩
  · intro p
    constructor
    · rintro ⟨arr, harr⟩
      obtain ⟨a, set, hset, hp⟩ := owned.owner harr
      refine ⟨a, ⟨set, hset, hp⟩, ?_⟩
      rintro b ⟨t, ht, hq⟩
      exact owned.separate.alone ht hset hq hp
    · rintro ⟨a, ⟨set, hset, hp⟩, -⟩
      exact owned.separate.live hset hp
  · intro c
    rw [← owned.returns_iff c]
    constructor
    · rintro ⟨s', ⟨p, run⟩, -⟩
      exact ⟨_, run⟩
    · rintro ⟨⟨mem', p⟩, run⟩
      exact ⟨⟨mem', s.mem.heldAfter s.held c⟩, ⟨p, run⟩, rfl⟩

/-- A run goes on with a call that comes to an end. -/
theorem Owners.reach_exec {mem mem' : Memory Arr} {held : Nat → Nat} {p : SetPtr}
    (reach : (machine Arr).ReachBy Allowed ⟨mem, held⟩) (c : Store.Call) (fits : CountFits held c)
    (run : mem.exec c = .ok (mem', p)) :
    (machine Arr).ReachBy Allowed ⟨mem', mem.heldAfter held c⟩ :=
  .step (a := c) reach fits ⟨⟨p, run⟩, rfl⟩

/-- A set with an array, which two callers held and gave up. -/
theorem Owners.owned_dropped :
    ∃ s : Owners Words, (machine Words).ReachBy Allowed s ∧ s.mem.freshArray = 1 ∧
      s.mem.sets = (fun _ => none) ∧ s.mem.arrays = fun _ => none := by
  have start : (machine Words).ReachBy Allowed ⟨empty, fun _ => 0⟩ := .start rfl
  have made := reach_exec start .alloc trivial rfl
  have filled := reach_exec made (.initWithIndex (some 0) 5) trivial rfl
  have shared := reach_exec filled (.ref (some 0)) (show 1 + 1 < UInt32.size by decide) rfl
  have given := reach_exec shared (.unref (some 0)) trivial rfl
  have dropped := reach_exec given (.unref (some 0)) trivial rfl
  obtain ⟨-, -, -, nothing, -⟩ := owned dropped
  refine ⟨_, dropped, rfl, nothing ?_⟩
  intro a
  by_cases same : a = 0
  · subst same
    rfl
  · have other : ¬ (empty : Memory Words).freshSet = a := Ne.symm same
    simp [heldAfter, minus, plus, same, other, Ne.symm same]

end Memory

end GlibController

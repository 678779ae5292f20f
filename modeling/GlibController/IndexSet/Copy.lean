import GlibController.IndexSet.Refinement

/-!
Copying one set to another, in a memory that runs reach.

The target is emptied, and then filled from the source. As the pointers of two sets are
never the same, that reads the source where it was, and `copied` is the outcome: the
members of the source, or nothing when source and target are one set. `copy_iff` says
that this is a copy exactly for two sets, or for a set without members.
-/

namespace GlibController

open Lib

/-- The call gives a set new contents. -/
def Store.Call.Initialises (a : Nat) : Store.Call → Prop
  | .init set => set = some a
  | .initWithIndex set _ => set = some a
  | .initWithRange set _ => set = some a
  | .initWithSet set _ => set = some a
  | _ => False

namespace Memory

open GArray

variable {Arr : Type} [GArray Arr] {mem : Memory Arr} {a b : Nat}

/-- What is at an address: a set whose array is `NULL`, or one that stores a list. -/
def contentAt (mem : Memory Arr) (a : Nat) : Option (Option (List Guint)) :=
  (mem.sets a).map fun set => (mem.value set).stored

/-- The members of the set at an address. -/
def membersAt (mem : Memory Arr) (a : Nat) : List Guint :=
  ((mem.contentAt a).getD none).getD []

theorem contentAt_abs (mem : Memory Arr) (a : Nat) :
    mem.contentAt a = (mem.abs.sets a).map GIndexSet.stored := by
  unfold contentAt abs
  rw [Option.map_map]
  rfl

theorem membersAt_of_sets {set : SetObject} (h : mem.sets a = some set) :
    mem.membersAt a = (mem.value set).members := by
  unfold membersAt contentAt
  rw [h]
  rfl

/-- Where the store was written, and where it was not. -/
theorem contentAt_of_write {mem' : Memory Arr} {set : GIndexSet Arr}
    (h : mem'.abs = mem.abs.write a set) :
    mem'.contentAt a = some set.stored ∧ ∀ c, c ≠ a → mem'.contentAt c = mem.contentAt c := by
  constructor
  · rw [contentAt_abs, h, Store.sets_write, Function.update_self, Option.map_some]
  · intro c other
    rw [contentAt_abs, h, Store.sets_write, Function.update_of_ne other, contentAt_abs]

/-- The call comes to an end, changes the target only, and leaves it without members if
it is its own source. -/
theorem copied (separate : mem.Separate) (ha : mem.sets a ≠ none) (hb : mem.sets b ≠ none) :
    ∃ mem', mem.exec (.initWithSet (some a) (some b)) = .ok (mem', some a) ∧
      mem'.contentAt a = some (some (if a = b then [] else mem.membersAt b)) ∧
      ∀ c, c ≠ a → mem'.contentAt c = mem.contentAt c := by
  obtain ⟨set, hset⟩ := Option.ne_none_iff_exists'.mp ha
  obtain ⟨source, hsource⟩ := Option.ne_none_iff_exists'.mp hb
  have stored : ∃ set' : GIndexSet Arr, mem.abs.exec (.initWithSet (some a) (some b)) =
      .ok (mem.abs.write a set', some a) ∧
        set'.stored = some (if a = b then [] else mem.membersAt b) := by
    by_cases same : a = b
    · subst same
      refine ⟨_, Store.initWithSet_self (abs_sets hset), ?_⟩
      rw [GIndexSet.stored_init, if_pos rfl]
    · obtain ⟨arr, run, helems⟩ :=
        Store.initWithSet_of_ne same (abs_sets hset) (abs_sets hsource)
      refine ⟨_, run, ?_⟩
      rw [GIndexSet.stored_mk_some, helems, if_neg same, membersAt_of_sets hsource]
  obtain ⟨set', run, hstored⟩ := stored
  have calls := exec_agree separate (.initWithSet (some a) (some b))
  rw [run] at calls
  obtain ⟨⟨mem', q⟩, returns, -, same⟩ := calls.of_right
  simp only [Prod.mk.injEq] at same
  obtain ⟨written, rfl⟩ := same
  obtain ⟨here, others⟩ := contentAt_of_write written
  exact ⟨mem', returns, by rw [here, hstored], others⟩

/-- An initialiser changes no other set. -/
theorem contentAt_of_initialises (separate : mem.Separate) {c : Store.Call}
    (initialises : c.Initialises a) {mem' : Memory Arr} {q : SetPtr}
    (run : mem.exec c = .ok (mem', q)) (other : b ≠ a) : mem'.contentAt b = mem.contentAt b := by
  obtain ⟨-, stored⟩ := exec_ok separate run
  rw [contentAt_abs, contentAt_abs]
  generalize mem'.abs = st at stored
  cases Store.exec_effect stored with
  | nothing => rfl
  | allocated alloc =>
      subst alloc
      cases initialises
  | freed _ freed =>
      subst freed
      cases initialises
  | @changed target old new _ content =>
      have here : target = a := by
        generalize new.stored = list at content
        cases content with
        | ref => exact initialises.elim
        | unref => exact initialises.elim
        | init => exact Option.some.inj initialises
        | index => exact Option.some.inj initialises
        | range => exact Option.some.inj initialises
        | copy => exact Option.some.inj initialises
        | copySelf => exact Option.some.inj initialises
      subst here
      rw [Store.sets_write, Function.update_of_ne other]

/-- The set has the members that the source had, in their order, and the source and all
other sets have what they had. -/
def CopyFaithful (mem : Memory Arr) (set source : Nat) : Prop :=
  ∃ mem', mem.exec (.initWithSet (some set) (some source)) = .ok (mem', some set) ∧
    mem'.contentAt set = some (some (mem.membersAt source)) ∧
    mem'.membersAt source = mem.membersAt source ∧
    ∀ c, c ≠ set → mem'.contentAt c = mem.contentAt c

/-- Copying is faithful exactly between two sets, or from a set without members. Later
initialisers of one set do not change another. -/
theorem copy_iff (reach : (machine Arr).Reach mem) {set source : Nat}
    (live : mem.sets set ≠ none) (liveSource : mem.sets source ≠ none) :
    (mem.CopyFaithful set source ↔ set ≠ source ∨ mem.membersAt source = []) ∧
      ∀ later : Memory Arr, (machine Arr).Reach later → ∀ one other, other ≠ one →
        ∀ c : Store.Call, c.Initialises one → ∀ after q, later.exec c = .ok (after, q) →
          after.contentAt other = later.contentAt other := by
  constructor
  · obtain ⟨mem', run, here, others⟩ := copied (reach_abs reach).1 live liveSource
    by_cases same : set = source
    · subst same
      rw [if_pos rfl] at here
      constructor
      · rintro ⟨mem'', run', here', -⟩
        rw [run] at run'
        cases run'
        rw [here, Option.some.injEq, Option.some.injEq] at here'
        exact .inr here'.symm
      · rintro (other | nothing)
        · exact absurd rfl other
        · refine ⟨mem', run, by rw [here, nothing], ?_, others⟩
          rw [nothing, membersAt, here]
          rfl
    · rw [if_neg same] at here
      refine iff_of_true ⟨mem', run, here, ?_, others⟩ (.inl same)
      rw [membersAt, membersAt, others source (Ne.symm same)]
  · intro later reachLater one other different c initialises after q run
    exact contentAt_of_initialises (reach_abs reachLater).1 initialises run different

/-- A range copied to a set that was never initialised. -/
theorem copy_iff_range : ∃ mem : Memory Words, mem.membersAt 0 = [3, 4, 5] ∧
    (mem.CopyFaithful 1 0 ↔ 1 ≠ 0 ∨ mem.membersAt 0 = []) := by
  have first := (Machine.ReachBy.start rfl : (machine Words).Reach empty).step (a := .alloc)
    trivial ⟨_, rfl⟩
  have second := first.step (a := .alloc) trivial ⟨_, rfl⟩
  have range := second.step (a := .initWithRange (some 0) (some ⟨3, 6⟩)) trivial ⟨_, rfl⟩
  exact ⟨_, by decide, (copy_iff range (by decide) (by decide)).1⟩

/-- A set of one index that is copied onto itself is empty. -/
theorem copy_onto_itself_not_faithful :
    ¬ ∀ (mem : Memory Words) (set source : Nat), (machine Words).Reach mem →
      mem.sets set ≠ none → mem.sets source ≠ none → mem.CopyFaithful set source := by
  intro all
  have first := (Machine.ReachBy.start rfl : (machine Words).Reach empty).step (a := .alloc)
    trivial ⟨_, rfl⟩
  have five := first.step (a := .initWithIndex (some 0) 5) trivial ⟨_, rfl⟩
  obtain ⟨mem', run, here, -⟩ := all _ 0 0 five (by decide) (by decide)
  cases run
  exact absurd here (by decide)

end Memory

end GlibController

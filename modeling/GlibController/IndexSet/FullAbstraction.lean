import GlibController.IndexSet.Abstraction
import GlibController.IndexSet.Initialise

/-!
The entries are exactly what a program can find out about its index sets.

`fully_abstract` compares two stores, of any arrays and any past: no calls and queries tell
them apart exactly if every set has the same count and the same list of indices in both.
Counts are compared by dropping references until a set is gone (`refCount_eq`), which shows
them as words: nobody can tell counts apart that are `2 ^ 32` apart. The list is read
off by a range of location and length `k`, which cuts a set down to its first `k` indices, and
`lastIndex` (`step_cut`): the queries by themselves do not show the order of all indices.
-/

namespace GlibController

open Lib GIndexSet

/-! ### Reachable states of the model -/

/-- An entry with a list that an array can hold. -/
def Entry.Short (e : Entry) : Prop := ∀ xs, e.indices = some xs → xs.length < UInt32.size

namespace IndexSets

def Good (x : IndexSets) : Prop := ∀ a e, x.sets a = some e → e.Short

theorem good_empty : Good empty := by
  rintro _ _ ⟨⟩

variable {x y x' y' : IndexSets} {a : Nat} {e e' : Entry}

/-- Where a value is put in place of an entry. -/
theorem Good.update (good : Good x) {value : Option Entry}
    (here : ∀ e, value = some e → e.Short) : Good ⟨Function.update x.sets a value⟩ := by
  intro b e h
  have h : Function.update x.sets a value b = some e := h
  by_cases same : b = a
  · subst same
    rw [Function.update_self] at h
    exact here e h
  · rw [Function.update_of_ne same] at h
    exact good b e h

theorem Good.write (good : Good x) (here : e.Short) : Good (x.write a e) := by
  apply good.update
  rintro _ ⟨⟩
  exact here

theorem Good.erase (good : Good x) (a : Nat) : Good (x.erase a) := by
  apply good.update
  rintro _ ⟨⟩

/-- A change that gives the set a list that an array can hold. -/
theorem Good.through (good : Good x) {set : SetPtr} {f : Entry → Option Entry}
    (keeps : ∀ e e', e.Short → f e = some e' → e'.Short) (h : x.through set f = some x') :
    Good x' := by
  cases set with
  | none =>
      cases h
      exact good
  | some a =>
      obtain ⟨e, here, rest⟩ := Option.bind_eq_some_iff.mp h
      obtain ⟨e', change, rest⟩ := Option.bind_eq_some_iff.mp rest
      cases rest
      exact good.write (keeps e e' (good a e here) change)

theorem withRange_short {range : GRange} (h : e.withRange range = some e') : e'.Short := by
  have size := toNat_lt_size range.length
  unfold Entry.withRange at h
  split at h
  · cases h
    rintro _ ⟨⟩
    rw [length_interval]
    omega
  · split at h
    next fits =>
      cases h
      rintro _ ⟨⟩
      rw [List.length_append, length_interval, List.length_take]
      omega
    next => cases h

theorem good_step {act : Action} (good : Good x) (h : x.step act = some x') : Good x' := by
  obtain ⟨c, b⟩ := act
  cases c with
  | alloc =>
      rw [step, allocAt] at h
      split at h
      · cases h
        exact good.write (by rintro _ ⟨⟩)
      · cases h
  | ref set =>
      refine good.through ?_ h
      rintro e _ short ⟨⟩
      exact short
  | unref set =>
      cases set with
      | none =>
          cases h
          exact good
      | some a =>
          obtain ⟨e, here, rest⟩ := Option.bind_eq_some_iff.mp h
          split at rest
          · cases rest
            exact good.erase a
          · cases rest
            exact good.write (good a e here)
  | init set =>
      refine good.through ?_ h
      rintro e _ - ⟨⟩ _ ⟨⟩
      decide
  | initWithIndex set i =>
      refine good.through ?_ h
      rintro e _ - ⟨⟩ _ ⟨⟩
      rw [List.length_singleton]
      decide
  | initWithRange set range =>
      cases range with
      | none =>
          cases h
          exact good
      | some range => exact good.through (fun _ _ _ change => withRange_short change) h
  | initWithSet set source =>
      cases source with
      | none =>
          cases h
          exact good
      | some b =>
          cases set with
          | none =>
              cases h
              exact good
          | some a =>
              obtain ⟨e, here, rest⟩ := Option.bind_eq_some_iff.mp h
              obtain ⟨source, there, rest⟩ := Option.bind_eq_some_iff.mp rest
              cases rest
              apply good.write
              rintro _ ⟨⟩
              split
              · decide
              · unfold Entry.members
                cases hlist : source.indices with
                | none => decide
                | some xs => exact good b source there xs hlist

/-! ### Telling entries apart -/

section Apart

variable (same : observed.Indistinguishable observed x y)

include same

theorem after_step {act : Action} (left : x.step act = some x') (right : y.step act = some y') :
    observed.Indistinguishable observed x' y' :=
  same.next left right

/-- A set that is there counts its indices. -/
theorem live_iff (a : Nat) : (x.sets a).isSome ↔ (y.sets a).isSome := by
  have counts : ∀ z : IndexSets, (z.sets a).isSome ↔ (observed.see z (a, .count)).isSome := by
    intro z
    unfold observed
    dsimp only
    cases z.sets a with
    | none => exact Iff.rfl
    | some e =>
        rw [Option.bind_some, Entry.ask]
        split <;> simp
  rw [counts x, counts y, same.now]

/-- A query has the same answer for the entries of a set. -/
theorem ask_eq (left : x.sets a = some e) (right : y.sets a = some e') (q : Query) :
    e.ask q = e'.ask q := by
  have answers := same.now (a, q)
  unfold observed at answers
  dsimp only at answers
  rwa [left, right, Option.bind_some, Option.bind_some] at answers

omit same in
theorem step_unref (here : x.sets a = some e) (b : Nat) :
    x.step ⟨.unref (some a), b⟩ =
      some (if e.refCount = 1 then x.erase a else x.write a { e with refCount := e.refCount - 1 }) := by
  rw [step, here, Option.bind_eq_bind, Option.bind_some]
  split
  · rfl
  · rfl

/-- A release frees a set in both or in neither. -/
theorem last_iff (left : x.sets a = some e) (right : y.sets a = some e') :
    e.refCount = 1 ↔ e'.refCount = 1 := by
  have live := live_iff (after_step same (step_unref left 0) (step_unref right 0)) a
  constructor
  · intro last
    by_contra last'
    rw [if_pos last, if_neg last', erase_self, write_self] at live
    cases live.mpr rfl
  · intro last'
    by_contra last
    rw [if_neg last, if_pos last', erase_self, write_self] at live
    cases live.mp rfl

/-- A set is gone after as many releases as its count says, by induction on the releases
before the last. -/
theorem refCount_eq (left : x.sets a = some e) (right : y.sets a = some e') :
    e.refCount = e'.refCount := by
  obtain ⟨n, hn⟩ : ∃ n, tally (e.refCount - 1) = n := ⟨_, rfl⟩
  induction n generalizing x y e e' with
  | zero =>
      have last := tally_pred_eq_zero.mp hn
      rw [last, (last_iff same left right).mp last]
  | succ n ih =>
      have many : e.refCount ≠ 1 := by
        intro last
        rw [tally_pred_eq_zero.mpr last] at hn
        cases hn
      have next := after_step same (step_unref left 0) (step_unref right 0)
      rw [if_neg many, if_neg (mt (last_iff same left right).mpr many)] at next
      have left' : tally (e.refCount - 1 - 1) = n := by
        rw [tally_pred (by rw [hn]; exact Nat.succ_pos n), hn, Nat.add_sub_cancel]
      have fewer := ih next (write_self x a _) (write_self y a _) left'
      exact (Int32.sub_left_inj 1).mp fewer

/-- A set without a list is counted as no set with a list is, or has no index in it. -/
theorem indices_none (left : x.sets a = some e) (right : y.sets a = some e')
    (nothing : e.indices = none) : e'.indices = none := by
  cases hys : e'.indices with
  | none => rfl
  | some ys =>
      cases ys with
      | nil =>
          have count := ask_eq same left right .count
          rw [Entry.ask, Entry.ask, nothing, hys] at count
          cases count
      | cons index_ ys =>
          have contains := ask_eq same left right (.containsIndex index_)
          rw [Entry.ask, Entry.ask, Entry.members, Entry.members, nothing, hys] at contains
          simp at contains

omit same in
/-- A range of location and length `k` cuts a set down to its first `k` indices. -/
theorem step_cut {xs : List Guint} {k : Guint} (b : Nat) (here : x.sets a = some e)
    (list : e.indices = some xs) (inside : k.toNat ≤ xs.length) :
    x.step ⟨.initWithRange (some a) (some ⟨k, k⟩), b⟩ =
      some (x.write a { e with indices := some (xs.take k.toNat) }) := by
  have size := toNat_lt_size k
  rw [step, through, here, Option.bind_eq_bind, Option.bind_some, Entry.withRange]
  rw [list]
  dsimp only
  rw [if_pos ⟨inside, by omega⟩, interval_eq_nil le_rfl]
  rfl

/-- The lists have one length, and after every cut the same last index. -/
theorem indices_eq {xs ys : List Guint} (left : x.sets a = some e) (right : y.sets a = some e')
    (hxs : e.indices = some xs) (hys : e'.indices = some ys) (short : xs.length < UInt32.size)
    (short' : ys.length < UInt32.size) : xs = ys := by
  have length : xs.length = ys.length := by
    have count := ask_eq same left right .count
    rw [Entry.ask, Entry.ask, hxs, hys] at count
    simp only [Option.some.injEq, Answer.number.injEq] at count
    have words := congrArg UInt32.toNat count
    rwa [toNat_ofNat_of_lt short, toNat_ofNat_of_lt short'] at words
  apply List.ext_getElem?
  intro i
  by_cases inside : i < xs.length
  · have word : (UInt32.ofNat (i + 1)).toNat = i + 1 := toNat_ofNat_of_lt (by omega)
    have next := after_step same (step_cut (k := UInt32.ofNat (i + 1)) 0 left hxs (by omega))
      (step_cut 0 right hys (by omega))
    have last := ask_eq next (write_self x a _) (write_self y a _) .lastIndex
    rw [Entry.ask, Entry.ask, word] at last
    have ends : (xs.take (i + 1)).getLast? = (ys.take (i + 1)).getLast? :=
      Option.map_injective (fun _ _ => Answer.number.inj) last
    rw [List.getLast?_take, List.getLast?_take, if_neg (Nat.succ_ne_zero i),
      if_neg (Nat.succ_ne_zero i), Nat.add_sub_cancel] at ends
    rwa [List.getElem?_eq_getElem inside, List.getElem?_eq_getElem (length ▸ inside),
      Option.some_or, Option.some_or, ← List.getElem?_eq_getElem, ← List.getElem?_eq_getElem] at ends
  · rw [List.getElem?_eq_none (by omega), List.getElem?_eq_none (by omega)]

theorem entry_eq (good : Good x) (good' : Good y) (left : x.sets a = some e)
    (right : y.sets a = some e') : e = e' := by
  have refs := refCount_eq same left right
  have lists : e.indices = e'.indices := by
    cases hxs : e.indices with
    | none => rw [indices_none same left right hxs]
    | some xs =>
        cases hys : e'.indices with
        | none =>
            rw [indices_none same.symm right left hys] at hxs
            cases hxs
        | some ys =>
            rw [indices_eq same left right hxs hys (good a e left xs hxs) (good' a e' right ys hys)]
  cases e
  cases e'
  cases refs
  cases lists
  rfl

end Apart

/-- Well-formed states of the model are told apart unless they are equal. -/
theorem indistinguishable_iff (good : Good x) (good' : Good y) :
    observed.Indistinguishable observed x y ↔ x = y := by
  constructor
  · intro same
    have sets : x.sets = y.sets := by
      funext a
      have live := live_iff same a
      cases left : x.sets a with
      | none =>
          cases right : y.sets a with
          | none => rfl
          | some e' =>
              rw [left, right] at live
              cases live.mpr rfl
      | some e =>
          cases right : y.sets a with
          | none =>
              rw [left, right] at live
              cases live.mp rfl
          | some e' => rw [entry_eq same good good' left right]
    cases x
    cases y
    cases sets
    rfl
  · rintro rfl as q
    rfl

end IndexSets

/-! ### Stores -/

namespace Store

variable {Arr Arr' : Type} [GArray Arr] [GArray Arr']

theorem good_of_run {st : Store Arr} {past : List Action} (h : run step empty past = some st) :
    IndexSets.Good st.contents := by
  have model := implements.run (empty : Store Arr) past
  rw [show (observed Arr).step = step from rfl, h, Option.map_some] at model
  exact run_invariant IndexSets.Good (fun _ _ _ good taken => IndexSets.good_step good taken)
    IndexSets.good_empty model.symm

/-- Two stores, of whatever arrays and with whatever pasts, are told apart by calls and queries
unless the same addresses are in use, with the same counts and the same lists of indices. -/
theorem fully_abstract {st : Store Arr} {st' : Store Arr'} {past past' : List Action}
    (left : run step empty past = some st) (right : run step empty past' = some st') :
    (observed Arr).Indistinguishable (observed Arr') st st' ↔ st.contents = st'.contents := by
  rw [implements.indistinguishable_iff implements]
  exact IndexSets.indistinguishable_iff (good_of_run left) (good_of_run right)

/-- Calls that leave two references and the index 5 at address 3. -/
def indexed : List Action :=
  [⟨.alloc, 3⟩, ⟨.initWithIndex (some 3) 5, 0⟩, ⟨.ref (some 3), 0⟩]

/-- The same with another set before it, a range, and a reference that is dropped. -/
def reindexed : List Action :=
  [⟨.alloc, 0⟩, ⟨.alloc, 3⟩, ⟨.initWithIndex (some 0) 5, 0⟩, ⟨.initWithRange (some 3) (some ⟨2, 4⟩), 0⟩,
    ⟨.ref (some 3), 0⟩, ⟨.ref (some 3), 0⟩, ⟨.initWithSet (some 3) (some 0), 0⟩,
    ⟨.unref (some 0), 0⟩, ⟨.unref (some 3), 0⟩]

/-- Two pasts that nobody can tell apart, with different arrays, and one reference more that
somebody can. -/
theorem fully_abstract_pasts :
    ∃ (st : Store Blocks) (st' st'' : Store Words), run step empty indexed = some st ∧
      run step empty reindexed = some st' ∧
      run step empty (reindexed ++ [⟨.ref (some 3), 0⟩]) = some st'' ∧
      (observed Blocks).Indistinguishable (observed Words) st st' ∧
      ¬ (observed Blocks).Indistinguishable (observed Words) st st'' := by
  have left : run step (empty : Store Blocks) indexed = some _ := rfl
  have right : run step (empty : Store Words) reindexed = some _ := rfl
  have more : run step (empty : Store Words) (reindexed ++ [⟨.ref (some 3), 0⟩]) = some _ := rfl
  refine ⟨_, _, _, left, right, more, (fully_abstract left right).mpr ?_, ?_⟩
  · refine congrArg IndexSets.mk (funext fun a => ?_)
    by_cases here : a = 3
    · subst here
      rfl
    · by_cases other : a = 0
      · subst other
        rfl
      · dsimp only [write, alloc]
        simp only [Function.update_of_ne here, Function.update_of_ne other]
        rfl
  · intro same
    have contents := (fully_abstract left more).mp same
    have counts := congrArg (fun x => (x.sets 3).map Entry.refCount) contents
    exact absurd counts (by decide)

end Store

end GlibController

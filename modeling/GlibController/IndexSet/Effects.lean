import GlibController.IndexSet.Refinement
import GlibController.Lib.Ledger

/-!
What a call of the index set interface does to the memory.

`Filled` is what the initialisers do: the set has an array, the one that it had or a new
one, and nothing else has moved. `Effect` is what any call does that comes to an end, with
the references that it hands out and takes back (`heldAfter`). It says nothing about
elements: contents are a matter of the store (`IndexSet.Runs`).
-/

namespace GlibController

open Lib

namespace Memory

open GArray

/-- What the callers hold after a call, which hands out a reference, takes one back, or
does neither. -/
def heldAfter {Arr : Type} (mem : Memory Arr) (held : Nat → Nat) : Store.Call → Nat → Nat
  | .alloc => plus held (some mem.freshSet)
  | .ref set => plus held set
  | .unref (some a) => minus held a
  | _ => held

/-- The count of a set is a word, which has to count the references and one more. -/
def CountFits (held : Nat → Nat) : Store.Call → Prop
  | .ref (some a) => held a + 1 < UInt32.size
  | _ => True

/-- The set has an array, its own from before or a new one, and nothing else has moved. -/
structure Filled {Arr : Type} (mem : Memory Arr) (a : Nat) (set : SetObject) (p : Nat)
    (mem' : Memory Arr) : Prop where
  sets : mem'.sets = Function.update mem.sets a (some ⟨set.refCount, some p⟩)
  source : set.indices = some p ∨ set.indices = none ∧ p = mem.freshArray
  others : ∀ q, q ≠ p → mem'.arrays q = mem.arrays q
  freshSet : mem'.freshSet = mem.freshSet
  freshArray : mem.freshArray ≤ mem'.freshArray

/-- What a call that comes to an end has done. -/
inductive Effect {Arr : Type} (mem : Memory Arr) : Store.Call → Memory Arr → Prop where
  | alloc : Effect mem .alloc mem.alloc
  | ref {a : Nat} {set : SetObject} : mem.sets a = some set →
      Effect mem (.ref (some a)) (mem.writeSet a { set with refCount := set.refCount + 1 })
  | unref {a : Nat} {set : SetObject} : mem.sets a = some set → set.refCount ≠ 1 →
      Effect mem (.unref (some a)) (mem.writeSet a { set with refCount := set.refCount - 1 })
  | freed {a : Nat} {set : SetObject} : mem.sets a = some set → set.refCount = 1 →
      Effect mem (.unref (some a)) (mem.free a set.indices)
  | filled {c : Store.Call} {a p : Nat} {set : SetObject} {mem' : Memory Arr} :
      (∀ held, mem.heldAfter held c = held) → mem.sets a = some set →
      Filled mem a set p mem' → Effect mem c mem'
  | nothing {c : Store.Call} : (∀ held, mem.heldAfter held c = held) → Effect mem c mem

section Fills

variable {Arr : Type} [GArray Arr] {mem mem' mem'' : Memory Arr} {a p : Nat} {set : SetObject}

omit [GArray Arr] in
/-- A write to the array of a set that was filled. -/
theorem Filled.writeArray (filled : Filled mem a set p mem') (arr : Arr) :
    Filled mem a set p (mem'.writeArray p arr) := by
  refine ⟨filled.sets, filled.source, ?_, filled.freshSet, filled.freshArray⟩
  intro q other
  rw [writeArray_arrays, Function.update_of_ne other]
  exact filled.others q other

omit [GArray Arr] in
/-- An array that the set had before is the one it has. -/
theorem Filled.own (filled : Filled mem a set p mem') {q : Nat} (h : set.indices = some q) :
    q = p := by
  rcases filled.source with same | ⟨none, -⟩
  · exact Option.some.inj (h.symm.trans same)
  · rw [none] at h
    cases h

theorem openAt_fills {size : Guint} (h : mem.openAt a size = .ok mem') :
    ∃ set p, mem.sets a = some set ∧ Filled mem a set p mem' := by
  cases hset : mem.sets a with
  | none =>
      unfold openAt at h
      rw [derefSet_none hset] at h
      cases h
  | some set =>
      unfold openAt at h
      rw [derefSet_ok hset, ok_bind] at h
      cases hp : set.indices with
      | none =>
          rw [hp] at h
          cases h
          refine ⟨set, mem.freshArray, rfl, rfl, .inr ⟨hp, rfl⟩, ?_, rfl, Nat.le_succ _⟩
          intro q other
          exact Function.update_of_ne other ..
      | some p =>
          rw [hp] at h
          obtain ⟨arr, -, rest⟩ := bind_eq_ok.mp h
          cases rest
          refine ⟨set, p, rfl, ?_, .inl hp, ?_, rfl, Nat.le_refl _⟩
          · have same : some (⟨set.refCount, some p⟩ : SetObject) = mem.sets a := by rw [hset, ← hp]
            rw [same, Function.update_eq_self, writeArray_sets]
          · intro q other
            exact Function.update_of_ne other ..

theorem insertAt_fills {i x : Guint} (filled : Filled mem a set p mem')
    (h : mem'.insertAt a i x = .ok mem'') : Filled mem a set p mem'' := by
  have here : mem'.sets a = some ⟨set.refCount, some p⟩ := by
    rw [filled.sets, Function.update_self]
  unfold insertAt indicesAt at h
  rw [derefSet_ok here] at h
  obtain ⟨q, pointer, rest⟩ := bind_eq_ok.mp h
  cases pointer
  obtain ⟨arr, -, rest⟩ := bind_eq_ok.mp rest
  obtain ⟨arr', -, rest⟩ := bind_eq_ok.mp rest
  cases rest
  exact filled.writeArray arr'

theorem rangePassAt_fills {range : GRange} {i : Guint} (filled : Filled mem a set p mem')
    (h : rangePassAt a range i mem' = .ok (.next mem'')) : Filled mem a set p mem'' := by
  obtain ⟨after, inserted, rest⟩ := bind_eq_ok.mp h
  cases rest
  exact insertAt_fills filled inserted

theorem copyPassAt_fills {source : Nat} {i : Guint} (filled : Filled mem a set p mem')
    (h : copyPassAt a source i mem' = .ok (.next mem'')) : Filled mem a set p mem'' := by
  obtain ⟨arr, -, rest⟩ := bind_eq_ok.mp h
  obtain ⟨idx, -, rest⟩ := bind_eq_ok.mp rest
  obtain ⟨after, inserted, rest⟩ := bind_eq_ok.mp rest
  cases rest
  exact insertAt_fills filled inserted

omit [GArray Arr] in
/-- A loop whose passes fill the set fills it. -/
theorem loop_fills {bound : Memory Arr → Guint}
    {pass : Guint → Memory Arr → Except Fault (Flow (Memory Arr) Empty)} {start : Guint}
    (keeps : ∀ i before after, Filled mem a set p before → pass i before = .ok (.next after) →
      Filled mem a set p after) (filled : Filled mem a set p mem')
    (h : forBelow bound pass start mem' = .ok (.next mem'')) : Filled mem a set p mem'' := by
  obtain ⟨-, filled', -⟩ := forBelow_partial (fun _ => Filled mem a set p)
    (fun i before after inv _ run => keeps i before after inv run) filled h
  exact filled'

theorem initWithIndexAt_fills {x : Guint} (h : mem.initWithIndexAt a x = .ok mem') :
    ∃ set p, mem.sets a = some set ∧ Filled mem a set p mem' := by
  obtain ⟨opened, opens, inserted⟩ := bind_eq_ok.mp h
  obtain ⟨set, p, hset, filled⟩ := openAt_fills opens
  exact ⟨set, p, hset, insertAt_fills filled inserted⟩

theorem initWithRangeAt_fills {range : GRange} (h : mem.initWithRangeAt a range = .ok mem') :
    ∃ set p, mem.sets a = some set ∧ Filled mem a set p mem' := by
  obtain ⟨opened, opens, rest⟩ := bind_eq_ok.mp h
  obtain ⟨flow, loop, rest⟩ := bind_eq_ok.mp rest
  obtain ⟨set, p, hset, filled⟩ := openAt_fills opens
  cases flow with
  | next after =>
      cases rest
      exact ⟨set, p, hset, loop_fills (fun _ _ _ inv run => rangePassAt_fills inv run) filled loop⟩
  | done r => exact r.elim

theorem initWithSetAt_fills {source : Nat} (h : mem.initWithSetAt a source = .ok mem') :
    ∃ set p, mem.sets a = some set ∧ Filled mem a set p mem' := by
  obtain ⟨opened, opens, rest⟩ := bind_eq_ok.mp h
  obtain ⟨there, -, rest⟩ := bind_eq_ok.mp rest
  obtain ⟨set, p, hset, filled⟩ := openAt_fills opens
  refine ⟨set, p, hset, ?_⟩
  cases hp : there.indices with
  | none =>
      rw [hp] at rest
      cases rest
      exact filled
  | some q =>
      rw [hp] at rest
      obtain ⟨flow, loop, rest⟩ := bind_eq_ok.mp rest
      cases flow with
      | next after =>
          cases rest
          exact loop_fills (fun _ _ _ inv run => copyPassAt_fills inv run) filled loop
      | done r => exact r.elim

end Fills

section Calls

variable {Arr : Type} {mem mem' : Memory Arr} {q : SetPtr}

/-- What a function does through a pointer, it does to the set there. -/
theorem through_effect {c : Store.Call} {set : SetPtr} {f : Nat → Except Fault (Memory Arr)}
    (keeps : ∀ held, mem.heldAfter held c = held)
    (fills : ∀ a after, f a = .ok after →
      ∃ set p, mem.sets a = some set ∧ Filled mem a set p after)
    (h : mem.through set f = .ok (mem', q)) : Effect mem c mem' := by
  cases set with
  | none =>
      cases h
      exact .nothing keeps
  | some a =>
      obtain ⟨after, run, rest⟩ := bind_eq_ok.mp h
      cases rest
      obtain ⟨set, p, hset, filled⟩ := fills a _ run
      exact .filled keeps hset filled

theorem ref_effect {set : SetPtr} (h : mem.through set mem.refAt = .ok (mem', q)) :
    Effect mem (.ref set) mem' := by
  cases set with
  | none =>
      cases h
      exact .nothing plus_none
  | some a =>
      obtain ⟨after, run, rest⟩ := bind_eq_ok.mp h
      cases rest
      cases hset : mem.sets a with
      | none =>
          rw [refAt, derefSet_none hset] at run
          cases run
      | some set =>
          rw [refAt, derefSet_ok hset] at run
          cases run
          exact .ref hset

theorem unrefAt_last {a : Nat} {set : SetObject} (hset : mem.sets a = some set)
    (last : set.refCount = 1) : mem.unrefAt a = .ok (mem.free a set.indices) := by
  rw [unrefAt, derefSet_ok hset, ok_bind, if_pos last]
  cases hp : set.indices with
  | none => rfl
  | some p =>
      have arrays : Function.update mem.arrays p none = (mem.free a (some p)).arrays := by
        funext q
        rw [Function.update_apply, free]
        simp only [Option.some.injEq, eq_comm]
      dsimp only
      rw [arrays]
      rfl

theorem unrefAt_many {a : Nat} {set : SetObject} (hset : mem.sets a = some set)
    (many : set.refCount ≠ 1) :
    mem.unrefAt a = .ok (mem.writeSet a { set with refCount := set.refCount - 1 }) := by
  rw [unrefAt, derefSet_ok hset, ok_bind, if_neg many]
  rfl

theorem unrefAt_effect {a : Nat} (h : mem.unrefAt a = .ok mem') :
    Effect mem (.unref (some a)) mem' := by
  cases hset : mem.sets a with
  | none =>
      rw [unrefAt, derefSet_none hset] at h
      cases h
  | some set =>
      by_cases last : set.refCount = 1
      · rw [unrefAt_last hset last] at h
        cases h
        exact .freed hset last
      · rw [unrefAt_many hset last] at h
        cases h
        exact .unref hset last

variable [GArray Arr]

theorem exec_effect {c : Store.Call} (h : mem.exec c = .ok (mem', q)) : Effect mem c mem' := by
  cases c with
  | alloc =>
      cases h
      exact .alloc
  | ref set => exact ref_effect h
  | unref set =>
      cases set with
      | none =>
          cases h
          exact .nothing fun _ => rfl
      | some a =>
          obtain ⟨after, run, rest⟩ := bind_eq_ok.mp h
          cases rest
          exact unrefAt_effect run
  | init set => exact through_effect (fun _ => rfl) (fun _ _ run => openAt_fills run) h
  | initWithIndex set x =>
      exact through_effect (fun _ => rfl) (fun _ _ run => initWithIndexAt_fills run) h
  | initWithRange set range =>
      cases range with
      | none =>
          cases h
          exact .nothing fun _ => rfl
      | some range =>
          exact through_effect (fun _ => rfl) (fun _ _ run => initWithRangeAt_fills run) h
  | initWithSet set source =>
      cases source with
      | none =>
          cases h
          exact .nothing fun _ => rfl
      | some b => exact through_effect (fun _ => rfl) (fun _ _ run => initWithSetAt_fills run) h

end Calls

end Memory

end GlibController

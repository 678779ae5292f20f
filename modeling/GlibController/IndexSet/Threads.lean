import GlibController.IndexSet.Beside
import GlibController.IndexSet.Copy
import GlibController.Lib.Parties

/-!
Index sets that threads share.

`g_index_set_ref` and `g_index_set_unref` change the count of a set by one atomic
instruction. A thread whose decrement reached zero reads the set, drops its array and frees
it after that, with the steps of other threads in between (`ThreadPc`). The other functions
are no atomic instructions. They are called by threads that hold all references on the set
they write, so that nobody sees them half done, and are one step here.

`Sequential` relates the threads to callers that call one after another: the sets that the
threads are about to free are gone there, and are beside the rest of the memory here.
-/

namespace GlibController

open Lib

namespace Memory

open GArray

/-! ### Threads -/

/-- Where a thread is: outside, or in `g_index_set_unref` behind a decrement to zero. -/
inductive ThreadPc where
  | outside
  /-- Before `if (set->indices != NULL)`. -/
  | readIndices (a : Nat)
  /-- Before `g_array_unref (set->indices)`. -/
  | unrefIndices (a p : Nat)
  /-- Before `g_slice_free (GIndexSet, set)`. -/
  | freeSet (a : Nat)
  deriving DecidableEq, Repr

/-- The memory, the references that each thread holds, where the threads are, and the calls
in the order in which they took effect. -/
structure Threads (ι Arr : Type) where
  mem : Memory Arr
  held : ι → Nat → Nat
  pc : ι → ThreadPc
  log : List Store.Call

/-- What a thread can do. -/
inductive Move (ι : Type) where
  | call (c : Store.Call)
  /-- The next instruction of an `unref`. -/
  | resume
  /-- One of its references becomes one of another thread. -/
  | give (j : ι) (a : Nat)

/-- The call that takes effect with the move. -/
def Move.calls {ι : Type} : Move ι → List Store.Call
  | .call c => [c]
  | .resume => []
  | .give _ _ => []

/-- `g_atomic_int_dec_and_test (&set->ref_count)`. -/
def decAndTest {Arr : Type} (mem : Memory Arr) (a : Nat) : Except Fault (Memory Arr × Bool) := do
  let set ← mem.derefSet a
  return (mem.writeSet a { set with refCount := set.refCount - 1 }, set.refCount = 1)

namespace Threads

variable {ι Arr : Type} [DecidableEq ι] [GArray Arr]

/-- A call by a thread, an `unref` up to its decrement. -/
def call (s : Threads ι Arr) (i : ι) (c : Store.Call) : Except Fault (Threads ι Arr) := do
  let held := Function.update s.held i (s.mem.heldAfter (s.held i) c)
  let log := s.log ++ [c]
  match c with
  | .unref (some a) =>
      let (mem, zero) ← s.mem.decAndTest a
      let pc := if zero then Function.update s.pc i (.readIndices a) else s.pc
      return { mem, held, pc, log }
  | c =>
      let (mem, _) ← s.mem.exec c
      return { s with mem, held, log }

omit [GArray Arr] in
def resume (s : Threads ι Arr) (i : ι) : Except Fault (Threads ι Arr) :=
  match s.pc i with
  | .outside => .ok s
  | .readIndices a => do
      let set ← s.mem.derefSet a
      match set.indices with
      | none => return { s with pc := Function.update s.pc i (.freeSet a) }
      | some p => return { s with pc := Function.update s.pc i (.unrefIndices a p) }
  | .unrefIndices a p => do
      let _ ← s.mem.derefArray p
      let mem := { s.mem with arrays := Function.update s.mem.arrays p none }
      return { s with mem, pc := Function.update s.pc i (.freeSet a) }
  | .freeSet a => do
      let _ ← s.mem.derefSet a
      let mem := { s.mem with sets := Function.update s.mem.sets a none }
      return { s with mem, pc := Function.update s.pc i .outside }

def give (s : Threads ι Arr) (i j : ι) (a : Nat) : Threads ι Arr :=
  let given := Function.update s.held i (minus (s.held i) a)
  { s with held := Function.update given j (plus (given j) (some a)) }

def exec (s : Threads ι Arr) (i : ι) : Move ι → Except Fault (Threads ι Arr)
  | .call c => s.call i c
  | .resume => s.resume i
  | .give j a => .ok (s.give i j a)

/-- A thread passes sets that it holds. The set that a call writes is held by no other
thread, a range has room there, and the references of all threads can be counted. -/
def Allowed [Fintype ι] (s : Threads ι Arr) : ι × Move ι → Prop
  | (i, .call c) => s.pc i = .outside ∧ (∀ a ∈ c.readThrough, 0 < s.held i a) ∧
      c.HasRoom s.mem.HasArray ∧ CountFits (total s.held) c ∧
      ∀ a, c.Initialises a → ∀ j, j ≠ i → s.held j a = 0
  | (i, .resume) => s.pc i ≠ .outside
  | (i, .give _ a) => s.pc i = .outside ∧ 0 < s.held i a

/-- The threads, from the empty memory. -/
def machine (ι Arr : Type) [DecidableEq ι] [GArray Arr] :
    Machine (Threads ι Arr) (ι × Move ι) where
  start s := s = ⟨empty, fun _ _ => 0, fun _ => .outside, []⟩
  step s m s' := s.exec m.1 m.2 = .ok s'

end Threads

/-- A call of callers that call one after another. -/
def Owners.step {Arr : Type} [GArray Arr] (o : Owners Arr) (c : Store.Call) :
    Option (Owners Arr) :=
  match o.mem.exec c with
  | .ok (mem, _) => some ⟨mem, o.mem.heldAfter o.held c⟩
  | .error _ => none

/-! ### The relation to callers one after another -/

/-- The set that a thread is about to free. -/
def ThreadPc.freeing : ThreadPc → Option Nat
  | .outside => none
  | .readIndices a => some a
  | .unrefIndices a _ => some a
  | .freeSet a => some a

/-- The array that it is about to drop, which it may not have read yet. -/
def ThreadPc.dropping {Arr : Type} (rest : Memory Arr) : ThreadPc → Option Nat
  | .outside => none
  | .readIndices a => (rest.sets a).bind SetObject.indices
  | .unrefIndices _ p => some p
  | .freeSet _ => none

section Relation

variable {ι Arr : Type} [Fintype ι]

/-- The memory is that of callers one after another, and the rest of what the threads free
beside it, which is at addresses of its own. -/
structure Sequential (s : Threads ι Arr) (o : Owners Arr) (rest : Memory Arr) : Prop where
  mem : s.mem = o.mem.beside rest
  held : o.held = total s.held
  setsApart : ∀ {a set}, rest.sets a = some set → o.mem.sets a = none ∧ a < o.mem.freshSet
  arraysApart : ∀ {p arr}, rest.arrays p = some arr →
    o.mem.arrays p = none ∧ p < o.mem.freshArray
  sets : SoleOwners (fun i => (s.pc i).freeing) rest.sets
  arrays : SoleOwners (fun i => (s.pc i).dropping rest) rest.arrays

variable {s : Threads ι Arr} {o : Owners Arr} {rest : Memory Arr}

theorem Sequential.apart_sets (sequential : Sequential s o rest) {a : Nat} {set : SetObject}
    (h : o.mem.sets a = some set) : rest.sets a = none := by
  rw [Option.eq_none_iff_forall_ne_some]
  intro gone there
  rw [(sequential.setsApart there).1] at h
  cases h

theorem Sequential.apart_arrays (sequential : Sequential s o rest) {p : Nat} {arr : Arr}
    (h : o.mem.arrays p = some arr) : rest.arrays p = none := by
  rw [Option.eq_none_iff_forall_ne_some]
  intro gone there
  rw [(sequential.arraysApart there).1] at h
  cases h

/-- What a thread holds is there for the callers one after another. -/
theorem Sequential.holds (sequential : Sequential s o rest) {i : ι} {a : Nat}
    (h : 0 < s.held i a) : 0 < o.held a := by
  rw [sequential.held]
  exact h.trans_le (le_total s.held i a)

/-- An address that was used and is free stays free. -/
theorem Effect.stays_free {mem mem' : Memory Arr} {c : Store.Call} (effect : Effect mem c mem') :
    mem.freshSet ≤ mem'.freshSet ∧ mem.freshArray ≤ mem'.freshArray ∧
      (∀ a, mem.sets a = none → a < mem.freshSet → mem'.sets a = none) ∧
      (mem.Separate → ∀ p, mem.arrays p = none → p < mem.freshArray → mem'.arrays p = none) := by
  have live : ∀ {a b set}, mem.sets b = some set → mem.sets a = none → a ≠ b := by
    rintro a b set there free rfl
    rw [free] at there
    cases there
  cases effect with
  | alloc =>
      refine ⟨Nat.le_succ _, Nat.le_refl _, ?_, fun _ p free _ => free⟩
      intro a free used
      exact (Function.update_of_ne (Nat.ne_of_lt used) ..).trans free
  | ref there =>
      refine ⟨Nat.le_refl _, Nat.le_refl _, ?_, fun _ p free _ => free⟩
      intro a free _
      exact (Function.update_of_ne (live there free) ..).trans free
  | unref there _ =>
      refine ⟨Nat.le_refl _, Nat.le_refl _, ?_, fun _ p free _ => free⟩
      intro a free _
      exact (Function.update_of_ne (live there free) ..).trans free
  | freed there _ =>
      refine ⟨Nat.le_refl _, Nat.le_refl _, ?_, ?_⟩
      · intro a free _
        exact (Function.update_of_ne (live there free) ..).trans free
      · intro _ p free _
        rw [free_arrays, free, ite_self]
  | @filled _ b q set _ _ there filled =>
      refine ⟨filled.freshSet.ge, filled.freshArray, ?_, ?_⟩
      · intro a free _
        rw [filled.sets, Function.update_of_ne (live there free), free]
      · intro separate p free used
        have other : p ≠ q := by
          rintro rfl
          rcases filled.source with own | ⟨-, fresh⟩
          · obtain ⟨arr, harr⟩ := separate.live there own
            rw [free] at harr
            cases harr
          · exact absurd used (by rw [fresh]; exact lt_irrefl _)
        rw [filled.others p other, free]
  | nothing _ => exact ⟨Nat.le_refl _, Nat.le_refl _, fun _ free _ => free, fun _ _ free _ => free⟩

end Relation

/-! ### Where the threads are -/

section Positions

variable {ι Arr : Type} [DecidableEq ι] {rest : Memory Arr} {i : ι}

theorem freeing_update (pc : ι → ThreadPc) (i : ι) (next : ThreadPc) :
    (fun j => (Function.update pc i next j).freeing) =
      Function.update (fun j => (pc j).freeing) i next.freeing := by
  funext j
  by_cases same : j = i
  · subst same
    rw [Function.update_self, Function.update_self]
  · rw [Function.update_of_ne same, Function.update_of_ne same]

/-- The sets that the other threads free are where they were. -/
theorem dropping_update {pc : ι → ThreadPc} {next : ThreadPc} {rest' : Memory Arr}
    (others : ∀ j a, j ≠ i → (pc j).freeing = some a → rest'.sets a = rest.sets a) :
    (fun j => (Function.update pc i next j).dropping rest') =
      Function.update (fun j => (pc j).dropping rest) i (next.dropping rest') := by
  funext j
  by_cases same : j = i
  · subst same
    rw [Function.update_self, Function.update_self]
  · rw [Function.update_of_ne same, Function.update_of_ne same]
    cases hpc : pc j with
    | readIndices a =>
        have there := others j a same (by rw [hpc]; rfl)
        rw [ThreadPc.dropping, ThreadPc.dropping, there]
    | _ => rfl

variable [Fintype ι] {s : Threads ι Arr} {o : Owners Arr}

omit [DecidableEq ι] in
/-- What a thread is about to free is there. -/
theorem Sequential.freeing_there (sequential : Sequential s o rest) {a : Nat}
    (own : (s.pc i).freeing = some a) :
    ∃ set, rest.sets a = some set ∧ s.mem.sets a = some set := by
  obtain ⟨set, there⟩ := sequential.sets.there own
  refine ⟨set, there, ?_⟩
  rw [sequential.mem, beside_sets_none (sequential.setsApart there).1, there]

omit [DecidableEq ι] in
theorem Sequential.dropping_there (sequential : Sequential s o rest) {p : Nat}
    (own : (s.pc i).dropping rest = some p) : ∃ arr, s.mem.arrays p = some arr := by
  obtain ⟨arr, there⟩ := sequential.arrays.there own
  refine ⟨arr, ?_⟩
  rw [sequential.mem, beside_arrays_none (sequential.arraysApart there).1, there]

/-- Reading `set->indices` changes nothing but the position of the thread. -/
theorem Sequential.read (sequential : Sequential s o rest) (next : ThreadPc)
    (frees : next.freeing = (s.pc i).freeing) (drops : next.dropping rest = (s.pc i).dropping rest) :
    Sequential { s with pc := Function.update s.pc i next } o rest := by
  refine ⟨sequential.mem, sequential.held, sequential.setsApart, sequential.arraysApart, ?_, ?_⟩
  · rw [freeing_update, frees, Function.update_eq_self]
    exact sequential.sets
  · rw [dropping_update fun _ _ _ _ => rfl, drops, Function.update_eq_self]
    exact sequential.arrays

/-- Dropping the array takes it from the rest. -/
theorem Sequential.drop_array (sequential : Sequential s o rest) {a p : Nat}
    (here : s.pc i = .unrefIndices a p) :
    Sequential { s with
        mem := { s.mem with arrays := Function.update s.mem.arrays p none }
        pc := Function.update s.pc i (.freeSet a) } o
      { rest with arrays := Function.update rest.arrays p none } := by
  have own : (s.pc i).dropping rest = some p := by rw [here, ThreadPc.dropping]
  obtain ⟨arr, there⟩ := sequential.arrays.there own
  refine ⟨?_, sequential.held, sequential.setsApart, ?_, ?_, ?_⟩
  · rw [sequential.mem]
    unfold beside
    rw [or_update_none (sequential.arraysApart there).1]
  · intro q arr' there'
    by_cases same : q = p
    · subst same
      simp at there'
    · simp only [Function.update_of_ne same] at there'
      exact sequential.arraysApart there'
  · have frees : (s.pc i).freeing = some a := by rw [here, ThreadPc.freeing]
    rw [freeing_update, ThreadPc.freeing, ← frees, Function.update_eq_self]
    exact sequential.sets
  · rw [dropping_update fun _ _ _ _ => rfl]
    exact sequential.arrays.drop own

/-- Freeing the set takes it from the rest. -/
theorem Sequential.free_set (sequential : Sequential s o rest) {a : Nat}
    (here : s.pc i = .freeSet a) :
    Sequential { s with
        mem := { s.mem with sets := Function.update s.mem.sets a none }
        pc := Function.update s.pc i .outside } o
      { rest with sets := Function.update rest.sets a none } := by
  have own : (s.pc i).freeing = some a := by rw [here, ThreadPc.freeing]
  obtain ⟨set, there⟩ := sequential.sets.there own
  refine ⟨?_, sequential.held, ?_, sequential.arraysApart, ?_, ?_⟩
  · rw [sequential.mem]
    unfold beside
    rw [or_update_none (sequential.setsApart there).1]
  · intro b set' there'
    by_cases same : b = a
    · subst same
      simp at there'
    · simp only [Function.update_of_ne same] at there'
      exact sequential.setsApart there'
  · rw [freeing_update]
    exact sequential.sets.drop own
  · have drops : (s.pc i).dropping rest = none := by rw [here, ThreadPc.dropping]
    have others : ∀ j b, j ≠ i → (s.pc j).freeing = some b →
        Function.update rest.sets a none b = rest.sets b := by
      intro j b other own'
      refine Function.update_of_ne ?_ _ _
      rintro rfl
      exact other (sequential.sets.alone own' own)
    rw [dropping_update others, ThreadPc.dropping, ← drops, Function.update_eq_self]
    exact sequential.arrays

/-- A reference that changes hands is still one reference. -/
theorem Sequential.give (sequential : Sequential s o rest) {a : Nat} (holds : 0 < s.held i a)
    (j : ι) : Sequential (s.give i j a) o rest := by
  refine ⟨sequential.mem, ?_, sequential.setsApart, sequential.arraysApart, sequential.sets,
    sequential.arrays⟩
  have left : 0 < total s.held a := holds.trans_le (le_total s.held i a)
  rw [sequential.held, Threads.give, total_plus, total_minus holds, plus_minus left]

end Positions

end Memory

end GlibController

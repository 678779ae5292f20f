import GlibController.IndexSet.Owners

/-!
A memory with something beside it that the interface does not reach.

`mem.beside rest` has the sets and the arrays of both, those of `mem` first. A call that
comes to an end on `mem` comes to the same end beside anything (`exec_beside`): it goes
through the pointers of `mem` only, and what it writes or allocates belongs to `mem`.
-/

namespace GlibController

open Lib

namespace Memory

open GArray

/-- The sets and the arrays of two memories, and the first addresses of one. -/
def beside {Arr : Type} (mem rest : Memory Arr) : Memory Arr where
  sets a := (mem.sets a).or (rest.sets a)
  arrays p := (mem.arrays p).or (rest.arrays p)
  freshSet := mem.freshSet
  freshArray := mem.freshArray

section Pointers

variable {Arr : Type} {mem rest : Memory Arr} {a p : Nat} {set : SetObject} {arr : Arr}

theorem beside_sets (h : mem.sets a = some set) : (mem.beside rest).sets a = some set :=
  congrArg (fun s => s.or (rest.sets a)) h

theorem beside_arrays (h : mem.arrays p = some arr) : (mem.beside rest).arrays p = some arr :=
  congrArg (fun s => s.or (rest.arrays p)) h

theorem beside_sets_none (h : mem.sets a = none) : (mem.beside rest).sets a = rest.sets a :=
  congrArg (fun s => s.or (rest.sets a)) h

theorem beside_arrays_none (h : mem.arrays p = none) :
    (mem.beside rest).arrays p = rest.arrays p :=
  congrArg (fun s => s.or (rest.arrays p)) h

/-- A map of one memory before a map of another, after a change of the first. -/
theorem or_update {β : Type} (f g : Nat → Option β) (a : Nat) (x : β) :
    (fun b => (Function.update f a (some x) b).or (g b)) =
      Function.update (fun b => (f b).or (g b)) a (some x) := by
  funext b
  by_cases same : b = a
  · subst same
    rw [Function.update_self, Function.update_self, Option.some_or]
  · rw [Function.update_of_ne same, Function.update_of_ne same]

/-- A map of one memory before a map of another, after the other has lost something. -/
theorem or_update_none {β : Type} {f g : Nat → Option β} {a : Nat} (h : f a = none) :
    Function.update (fun b => (f b).or (g b)) a none =
      fun b => (f b).or (Function.update g a none b) := by
  funext b
  by_cases same : b = a
  · subst same
    rw [Function.update_self, Function.update_self, h, Option.none_or]
  · rw [Function.update_of_ne same, Function.update_of_ne same]

theorem writeSet_beside (mem rest : Memory Arr) (a : Nat) (set : SetObject) :
    (mem.beside rest).writeSet a set = (mem.writeSet a set).beside rest := by
  unfold writeSet beside
  rw [or_update]

theorem writeArray_beside (mem rest : Memory Arr) (p : Nat) (arr : Arr) :
    (mem.beside rest).writeArray p arr = (mem.writeArray p arr).beside rest := by
  unfold writeArray beside
  rw [or_update]

theorem alloc_beside (mem rest : Memory Arr) :
    (mem.beside rest).alloc = mem.alloc.beside rest := by
  unfold alloc
  rw [show (mem.beside rest).freshSet = mem.freshSet from rfl, writeSet_beside]
  rfl

theorem newIndices_beside [GArray Arr] (mem rest : Memory Arr) (a : Nat) (set : SetObject) :
    (mem.beside rest).newIndices a set = (mem.newIndices a set).beside rest := by
  unfold newIndices
  rw [show (mem.beside rest).freshArray = mem.freshArray from rfl, writeSet_beside]
  dsimp only
  rw [writeArray_beside]
  rfl

/-- The pointer of a set is set, and good. -/
def Readable (mem : Memory Arr) (a : Nat) : Prop :=
  ∃ set p arr, mem.sets a = some set ∧ set.indices = some p ∧ mem.arrays p = some arr

theorem Readable.writeArray (readable : mem.Readable a) (p : Nat) (arr : Arr) :
    (mem.writeArray p arr).Readable a := by
  obtain ⟨set, q, old, hset, hq, hold⟩ := readable
  by_cases same : q = p
  · subst same
    exact ⟨set, q, arr, hset, hq, Function.update_self ..⟩
  · exact ⟨set, q, old, hset, hq, (Function.update_of_ne same ..).trans hold⟩

theorem arrayAt_beside (readable : mem.Readable a) :
    (mem.beside rest).arrayAt a = mem.arrayAt a := by
  obtain ⟨set, p, arr, hset, hp, harr⟩ := readable
  unfold arrayAt indicesAt
  rw [derefSet_ok hset, derefSet_ok (beside_sets hset)]
  simp only [ok_bind, hp, pure_eq_ok, derefArray, harr, beside_arrays harr]

/-- A set whose pointer is good has the same array beside anything. -/
theorem value_beside (separate : mem.Separate) (h : mem.sets a = some set) :
    (mem.beside rest).value set = mem.value set := by
  unfold value
  cases hp : set.indices with
  | none => rfl
  | some p =>
      obtain ⟨arr, harr⟩ := separate.live h hp
      rw [Option.bind_some, Option.bind_some, harr, beside_arrays harr]

end Pointers

/-! ### The functions -/

section Functions

variable {Arr : Type} [GArray Arr] {mem rest : Memory Arr} {a : Nat}

/-- The memory with the same beside it, and what could be read can still be read. -/
def Follows (rest mem mem' there : Memory Arr) : Prop :=
  there = mem'.beside rest ∧ ∀ b, mem.Readable b → mem'.Readable b

theorem insertAt_beside (readable : mem.Readable a) (i x : Guint) :
    Agree (Follows rest mem) (mem.insertAt a i x) ((mem.beside rest).insertAt a i x) := by
  obtain ⟨set, p, arr, hset, hp, harr⟩ := readable
  unfold insertAt indicesAt
  rw [derefSet_ok hset, derefSet_ok (beside_sets hset)]
  simp only [ok_bind, hp, pure_eq_ok, derefArray, harr, beside_arrays harr]
  cases insertVal arr i x with
  | error e => exact .error e
  | ok arr' => exact .ok ⟨writeArray_beside .., fun b readable => readable.writeArray p arr'⟩

theorem openAt_beside {size : Guint} {mem' : Memory Arr} (h : mem.openAt a size = .ok mem') :
    (mem.beside rest).openAt a size = .ok (mem'.beside rest) := by
  cases hset : mem.sets a with
  | none =>
      rw [openAt, derefSet_none hset] at h
      cases h
  | some set =>
      unfold openAt at h ⊢
      rw [derefSet_ok hset, ok_bind] at h
      rw [derefSet_ok (beside_sets hset), ok_bind]
      cases hp : set.indices with
      | none =>
          rw [hp] at h
          cases h
          exact congrArg Except.ok (newIndices_beside ..)
      | some p =>
          rw [hp] at h
          obtain ⟨arr, there, rest⟩ := bind_eq_ok.mp h
          cases rest
          cases harr : mem.arrays p with
          | none =>
              rw [derefArray, harr] at there
              cases there
          | some old =>
              rw [derefArray, harr] at there
              cases there
              simp only [derefArray, beside_arrays harr, ok_bind, pure_eq_ok, writeArray_beside]

/-- The set that was opened has an array to write to. -/
theorem openAt_readable {size : Guint} {mem' : Memory Arr} (separate : mem.Separate)
    (h : mem.openAt a size = .ok mem') : mem'.Separate ∧ mem'.Readable a := by
  obtain ⟨set, _, hset, -⟩ := openAt_fills h
  obtain ⟨opened, run, points⟩ := openAt_ok separate hset size
  cases h.symm.trans run
  obtain ⟨p, here, array⟩ := points.array
  exact ⟨points.separate, _, p, _, here, rfl, array⟩

/-- A memory and the same with something beside it, where some sets can be read. -/
def Ready (rest : Memory Arr) (names : List Nat) (mem there : Memory Arr) : Prop :=
  there = mem.beside rest ∧ ∀ b ∈ names, mem.Readable b

omit [GArray Arr] in
theorem Ready.follow {names : List Nat} {mem' there there' : Memory Arr}
    (ready : Ready rest names mem there) (follows : Follows rest mem mem' there') :
    Ready rest names mem' there' :=
  ⟨follows.1, fun b member => follows.2 b (ready.2 b member)⟩

theorem initWithIndexAt_beside {x : Guint} {mem' : Memory Arr} (separate : mem.Separate)
    (h : mem.initWithIndexAt a x = .ok mem') :
    (mem.beside rest).initWithIndexAt a x = .ok (mem'.beside rest) := by
  obtain ⟨opened, opens, inserted⟩ := bind_eq_ok.mp h
  have agree : Agree (Follows rest opened) (opened.insertAt a 0 x)
      ((opened.beside rest).insertAt a 0 x) :=
    insertAt_beside (openAt_readable separate opens).2 0 x
  rw [inserted] at agree
  obtain ⟨there, run, rfl, -⟩ := agree.of_left
  rw [initWithIndexAt, openAt_beside opens, ok_bind, run]

theorem rangePassAt_beside {range : GRange} (i : Guint) {there : Memory Arr}
    (ready : Ready rest [a] mem there) :
    Agree (Flow.Like (Ready rest [a])) (rangePassAt a range i mem) (rangePassAt a range i there) := by
  obtain ⟨rfl, reads⟩ := ready
  unfold rangePassAt
  apply (insertAt_beside (reads a (List.mem_singleton_self a)) (i - range.location) i).bind
  intro mem' there' follows
  exact .ok (.next (Ready.follow ⟨rfl, reads⟩ follows))

theorem initWithRangeAt_beside {range : GRange} {mem' : Memory Arr} (separate : mem.Separate)
    (h : mem.initWithRangeAt a range = .ok mem') :
    (mem.beside rest).initWithRangeAt a range = .ok (mem'.beside rest) := by
  obtain ⟨opened, opens, tail⟩ := bind_eq_ok.mp h
  obtain ⟨flow, loop, tail⟩ := bind_eq_ok.mp tail
  have start : Ready rest [a] opened (opened.beside rest) := by
    refine ⟨rfl, ?_⟩
    intro b member
    rw [List.mem_singleton.mp member]
    exact (openAt_readable separate opens).2
  have agree : Agree (Flow.Like (Ready rest [a]))
      (forBelow (fun _ => range.length) (rangePassAt a range) range.location opened)
      (forBelow (fun _ => range.length) (rangePassAt a range) range.location
        (opened.beside rest)) :=
    forBelow_agree (fun _ _ _ => rfl) (fun i _ _ ready => rangePassAt_beside i ready) start
  rw [loop] at agree
  obtain ⟨flow', loop', like⟩ := agree.of_left
  rw [initWithRangeAt, openAt_beside opens, ok_bind, loop', ok_bind]
  cases like with
  | next ready =>
      cases tail
      rw [← ready.1]
      rfl
  | done r => exact r.elim

theorem copyPassAt_beside {source : Nat} (i : Guint) {there : Memory Arr}
    (ready : Ready rest [a, source] mem there) :
    Agree (Flow.Like (Ready rest [a, source])) (copyPassAt a source i mem)
      (copyPassAt a source i there) := by
  obtain ⟨rfl, reads⟩ := ready
  unfold copyPassAt
  rw [arrayAt_beside (reads source (by simp))]
  apply (Agree.of_eq rfl).bind
  rintro src _ rfl
  apply (Agree.of_eq rfl).bind
  rintro idx _ rfl
  apply (insertAt_beside (reads a (by simp)) i idx).bind
  intro mem' there' follows
  exact .ok (.next (Ready.follow ⟨rfl, reads⟩ follows))

theorem initWithSetAt_beside {source : Nat} {mem' : Memory Arr} (separate : mem.Separate)
    (h : mem.initWithSetAt a source = .ok mem') :
    (mem.beside rest).initWithSetAt a source = .ok (mem'.beside rest) := by
  obtain ⟨opened, opens, tail⟩ := bind_eq_ok.mp h
  obtain ⟨set, reads, tail⟩ := bind_eq_ok.mp tail
  obtain ⟨separate', readable⟩ := openAt_readable separate opens
  cases hset : opened.sets source with
  | none =>
      rw [derefSet_none hset] at reads
      cases reads
  | some there =>
      rw [derefSet_ok hset, Except.ok.injEq] at reads
      subst reads
      rw [initWithSetAt, openAt_beside opens, ok_bind, derefSet_ok (beside_sets hset), ok_bind]
      cases hp : there.indices with
      | none =>
          rw [hp] at tail
          cases tail
          rfl
      | some p =>
          rw [hp] at tail
          obtain ⟨flow, loop, tail⟩ := bind_eq_ok.mp tail
          obtain ⟨arr, harr⟩ := separate'.live hset hp
          have start : Ready rest [a, source] opened (opened.beside rest) := by
            refine ⟨rfl, ?_⟩
            intro b member
            rw [List.mem_cons, List.mem_singleton] at member
            rcases member with rfl | rfl
            · exact readable
            · exact ⟨there, p, arr, hset, hp, harr⟩
          have bounds : ∀ s t : Memory Arr, Ready rest [a, source] s t →
              sourceLen source s = sourceLen source t := by
            rintro s _ ⟨rfl, reads⟩
            unfold sourceLen
            rw [arrayAt_beside (reads source (by simp))]
          have agree : Agree (Flow.Like (Ready rest [a, source]))
              (forBelow (sourceLen source) (copyPassAt a source) 0 opened)
              (forBelow (sourceLen source) (copyPassAt a source) 0 (opened.beside rest)) :=
            forBelow_agree bounds (fun i _ _ ready => copyPassAt_beside i ready) start
          rw [loop] at agree
          obtain ⟨flow', loop', like⟩ := agree.of_left
          dsimp only
          rw [loop', ok_bind]
          cases like with
          | next ready =>
              cases tail
              rw [← ready.1]
              rfl
          | done r => exact r.elim

/-! ### Calls -/

omit [GArray Arr] in
theorem through_beside {set q : SetPtr} {f g : Nat → Except Fault (Memory Arr)} {mem' : Memory Arr}
    (h : mem.through set f = .ok (mem', q))
    (same : ∀ a after, f a = .ok after → g a = .ok (after.beside rest)) :
    (mem.beside rest).through set g = .ok (mem'.beside rest, q) := by
  cases set with
  | none =>
      cases h
      rfl
  | some a =>
      obtain ⟨after, run, tail⟩ := bind_eq_ok.mp h
      cases tail
      rw [through, same a _ run]
      rfl

omit [GArray Arr] in
theorem refAt_beside {mem' : Memory Arr} (h : mem.refAt a = .ok mem') :
    (mem.beside rest).refAt a = .ok (mem'.beside rest) := by
  cases hset : mem.sets a with
  | none =>
      rw [refAt, derefSet_none hset] at h
      cases h
  | some set =>
      rw [refAt, derefSet_ok hset] at h
      cases h
      rw [refAt, derefSet_ok (beside_sets hset), ok_bind, writeSet_beside]
      rfl

/-- A call other than `unref` does beside anything what it does alone. -/
theorem exec_beside {c : Store.Call} {mem' : Memory Arr} {q : SetPtr} (separate : mem.Separate)
    (other : ∀ a, c ≠ .unref (some a)) (h : mem.exec c = .ok (mem', q)) :
    (mem.beside rest).exec c = .ok (mem'.beside rest, q) := by
  cases c with
  | alloc =>
      cases h
      rw [exec, alloc_beside]
      rfl
  | ref set => exact through_beside h fun _ _ run => refAt_beside run
  | unref set =>
      cases set with
      | none =>
          cases h
          rfl
      | some a => exact absurd rfl (other a)
  | init set => exact through_beside h fun _ _ run => openAt_beside run
  | initWithIndex set x =>
      exact through_beside h fun _ _ run => initWithIndexAt_beside separate run
  | initWithRange set range =>
      cases range with
      | none =>
          cases h
          rfl
      | some range => exact through_beside h fun _ _ run => initWithRangeAt_beside separate run
  | initWithSet set source =>
      cases source with
      | none =>
          cases h
          rfl
      | some b => exact through_beside h fun _ _ run => initWithSetAt_beside separate run

end Functions

end Memory

end GlibController

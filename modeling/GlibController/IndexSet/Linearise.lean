import GlibController.IndexSet.Threads

/-!
What threads do to index sets is what calls do one after another.

Every move of a thread is matched: by the call that takes effect with it, or by nothing
(`Matched`). A decrement to zero is the whole `unref`; the set and its array go from the
memory of the callers one after another to the rest beside it (`retire`), where no call
reaches them and where the thread takes them apart.
-/

namespace GlibController

open Lib

namespace Memory

open GArray

/-! ### Every move is matched -/

section Moves

variable {ι Arr : Type} [Fintype ι] [DecidableEq ι] [GArray Arr] {s : Threads ι Arr}
  {o : Owners Arr} {rest : Memory Arr} {i : ι}

/-- The callers one after another make the calls that took effect, if any. -/
def Matched (s s' : Threads ι Arr) (o : Owners Arr) (calls : List Store.Call) : Prop :=
  ∃ o' rest', s'.log = s.log ++ calls ∧ run Owners.step o calls = some o' ∧
    o'.mem.Owned o'.held ∧ Sequential s' o' rest'

omit [DecidableEq ι] in
/-- Nothing took effect. -/
theorem Matched.quiet {s' : Threads ι Arr} (log : s'.log = s.log) (owned : o.mem.Owned o.held)
    (sequential : Sequential s' o rest) : Matched s s' o [] :=
  ⟨o, rest, by rw [log, List.append_nil], rfl, owned, sequential⟩

omit [DecidableEq ι] in
theorem Matched.call {s' : Threads ι Arr} {c : Store.Call} {mem : Memory Arr} {q : SetPtr}
    (log : s'.log = s.log ++ [c]) (owned : o.mem.Owned o.held) (fits : CountFits o.held c)
    (run : o.mem.exec c = .ok (mem, q))
    (sequential : Sequential s' ⟨mem, o.mem.heldAfter o.held c⟩ rest) : Matched s s' o [c] := by
  have step : o.step c = some ⟨mem, o.mem.heldAfter o.held c⟩ := by rw [Owners.step, run]
  exact ⟨_, rest, log, by rw [run_singleton, step], owned.step fits run, sequential⟩

omit [GArray Arr] in
/-- What the threads hold after a call of one of them. -/
theorem total_heldAfter {mem : Memory Arr} {held : ι → Nat → Nat} {c : Store.Call}
    (holds : ∀ a ∈ c.readThrough, 0 < held i a) :
    total (Function.update held i (mem.heldAfter (held i) c)) = mem.heldAfter (total held) c := by
  have unchanged : total (Function.update held i (held i)) = total held :=
    congrArg total (Function.update_eq_self i held)
  cases c with
  | alloc => exact total_plus held i _
  | ref set => exact total_plus held i set
  | unref set =>
      cases set with
      | none => exact unchanged
      | some a => exact total_minus (holds a (List.mem_singleton_self a))
  | _ => exact unchanged

omit [GArray Arr] in
theorem heldAfter_beside (mem rest : Memory Arr) (held : Nat → Nat) (c : Store.Call) :
    (mem.beside rest).heldAfter held c = mem.heldAfter held c := by
  cases c with
  | _ => rfl

omit [DecidableEq ι] in
/-- A call is made on the memory of the callers one after another. -/
theorem Sequential.returns (sequential : Sequential s o rest) (owned : o.mem.Owned o.held)
    {c : Store.Call} (holds : ∀ a ∈ c.readThrough, 0 < s.held i a)
    (room : c.HasRoom s.mem.HasArray) : ∃ mem q, o.mem.exec c = .ok (mem, q) := by
  have room' : c.HasRoom o.mem.HasArray := by
    cases c with
    | initWithRange set range =>
        cases set with
        | none => trivial
        | some a =>
            cases range with
            | none => trivial
            | some range =>
                rintro ⟨set, p, hset, hp⟩
                refine room ⟨set, p, ?_, hp⟩
                rw [sequential.mem]
                exact beside_sets hset
    | _ => trivial
  obtain ⟨⟨mem, q⟩, run⟩ :=
    (owned.returns_iff c).mpr ⟨fun a read => sequential.holds (holds a read), room'⟩
  exact ⟨mem, q, run⟩

/-- A call that is not an `unref` of a set is one step of both. -/
theorem Sequential.call_other (sequential : Sequential s o rest) (owned : o.mem.Owned o.held)
    {c : Store.Call} (other : ∀ a, c ≠ .unref (some a))
    (holds : ∀ a ∈ c.readThrough, 0 < s.held i a) (room : c.HasRoom s.mem.HasArray)
    (fits : CountFits o.held c) : ∃ s', s.call i c = .ok s' ∧ Matched s s' o [c] := by
  obtain ⟨mem, q, run⟩ := sequential.returns owned holds room
  have there : s.mem.exec c = .ok (mem.beside rest, q) := by
    rw [sequential.mem]
    exact exec_beside owned.separate other run
  have called : s.call i c = .ok { s with
      mem := mem.beside rest
      held := Function.update s.held i (s.mem.heldAfter (s.held i) c)
      log := s.log ++ [c] } := by
    unfold Threads.call
    cases c with
    | unref set =>
        cases set with
        | none => simp only [there, ok_bind, pure_eq_ok]
        | some a => exact absurd rfl (other a)
    | _ => simp only [there, ok_bind, pure_eq_ok]
  obtain ⟨sets, arrays, freeSets, freeArrays⟩ := (exec_effect run).stays_free
  refine ⟨_, called, Matched.call rfl owned fits run ⟨rfl, ?_, ?_, ?_, sequential.sets, sequential.arrays⟩⟩
  · rw [sequential.held, ← total_heldAfter holds, sequential.mem, heldAfter_beside]
  · intro a set there
    obtain ⟨free, used⟩ := sequential.setsApart there
    exact ⟨freeSets a free used, used.trans_le sets⟩
  · intro p arr there
    obtain ⟨free, used⟩ := sequential.arraysApart there
    exact ⟨freeArrays owned.separate p free used, used.trans_le arrays⟩

omit [GArray Arr] in
theorem decAndTest_ok {mem : Memory Arr} {a : Nat} {set : SetObject} (h : mem.sets a = some set) :
    mem.decAndTest a =
      .ok (mem.writeSet a { set with refCount := set.refCount - 1 }, set.refCount = 1) := by
  unfold decAndTest
  rw [derefSet_ok h]
  rfl

omit [Fintype ι] in
theorem call_unref {a : Nat} {set : SetObject} (h : s.mem.sets a = some set) :
    s.call i (.unref (some a)) = .ok {
      mem := s.mem.writeSet a { set with refCount := set.refCount - 1 }
      held := Function.update s.held i (minus (s.held i) a)
      pc := if set.refCount = 1 then Function.update s.pc i (.readIndices a) else s.pc
      log := s.log ++ [.unref (some a)] } := by
  simp only [Threads.call, decAndTest_ok h, ok_bind, pure_eq_ok, heldAfter, decide_eq_true_eq]

/-- A decrement that does not reach zero is an `unref`. -/
theorem Sequential.unref_many (sequential : Sequential s o rest) (owned : o.mem.Owned o.held)
    {a : Nat} {set : SetObject} (holds : 0 < s.held i a) (hset : o.mem.sets a = some set)
    (many : set.refCount ≠ 1) :
    ∃ s', s.call i (.unref (some a)) = .ok s' ∧ Matched s s' o [.unref (some a)] := by
  have run : o.mem.exec (.unref (some a)) =
      .ok (o.mem.writeSet a { set with refCount := set.refCount - 1 }, none) := by
    rw [exec, unrefAt_many hset many]
    rfl
  have there : s.mem.sets a = some set := by
    rw [sequential.mem]
    exact beside_sets hset
  obtain ⟨-, -, freeSets, -⟩ := (exec_effect run).stays_free
  rw [call_unref there, if_neg many]
  refine ⟨_, rfl, Matched.call rfl owned trivial run
    ⟨?_, ?_, ?_, sequential.arraysApart, sequential.sets, sequential.arrays⟩⟩
  · rw [sequential.mem, writeSet_beside]
  · rw [sequential.held]
    exact (total_minus holds).symm
  · intro b gone there
    obtain ⟨free, used⟩ := sequential.setsApart there
    exact ⟨freeSets b free used, used⟩

/-- The rest of the memory, with a set whose count has reached zero and its array. -/
def retire (mem rest : Memory Arr) (a : Nat) (indices : Option Nat) : Memory Arr where
  sets := Function.update rest.sets a (some ⟨0, indices⟩)
  arrays q := if indices = some q then mem.arrays q else rest.arrays q
  freshSet := rest.freshSet
  freshArray := rest.freshArray

omit [GArray Arr] in
@[simp] theorem retire_sets (mem rest : Memory Arr) (a : Nat) (indices : Option Nat) :
    (retire mem rest a indices).sets = Function.update rest.sets a (some ⟨0, indices⟩) := rfl

omit [GArray Arr] in
@[simp] theorem retire_arrays (mem rest : Memory Arr) (a : Nat) (indices : Option Nat) (q : Nat) :
    (retire mem rest a indices).arrays q =
      if indices = some q then mem.arrays q else rest.arrays q := rfl

omit [GArray Arr] in
/-- What the decrement to zero leaves: the set has gone to the rest. -/
theorem retire_beside {mem : Memory Arr} {a : Nat} {indices : Option Nat}
    (good : ∀ q, indices = some q → ∃ arr, mem.arrays q = some arr) :
    (mem.beside rest).writeSet a ⟨0, indices⟩ =
      (mem.free a indices).beside (retire mem rest a indices) := by
  unfold writeSet beside retire free
  congr 1
  · funext b
    by_cases same : b = a
    · subst same
      simp only [Function.update_self, Option.none_or]
    · simp only [Function.update_of_ne same]
  · funext q
    by_cases own : indices = some q
    · obtain ⟨arr, there⟩ := good q own
      simp only [if_pos own, Option.none_or, there, Option.some_or]
    · simp only [if_neg own]

omit [Fintype ι] [GArray Arr] in
/-- The thread that saw the count reach zero owns the set and its array. -/
theorem retire_owned {mem : Memory Arr} {a : Nat} {indices : Option Nat} {pc : ι → ThreadPc}
    (sets : SoleOwners (fun j => (pc j).freeing) rest.sets)
    (arrays : SoleOwners (fun j => (pc j).dropping rest) rest.arrays)
    (outside : pc i = .outside) (absent : rest.sets a = none)
    (good : ∀ q, indices = some q → ∃ arr, mem.arrays q = some arr ∧ rest.arrays q = none) :
    SoleOwners (fun j => (Function.update pc i (.readIndices a) j).freeing)
        (retire mem rest a indices).sets ∧
      SoleOwners (fun j => (Function.update pc i (.readIndices a) j).dropping
        (retire mem rest a indices)) (retire mem rest a indices).arrays := by
  constructor
  · rw [freeing_update]
    exact sets.take (by rw [outside]; rfl) absent _
  · have others : ∀ j b, j ≠ i → (pc j).freeing = some b →
        (retire mem rest a indices).sets b = rest.sets b := by
      intro j b _ own
      obtain ⟨set, there⟩ := sets.there own
      refine Function.update_of_ne ?_ _ _
      rintro rfl
      rw [absent] at there
      cases there
    have mine : (ThreadPc.readIndices a).dropping (retire mem rest a indices) = indices := by
      rw [ThreadPc.dropping, retire_sets, Function.update_self, Option.bind_some]
    rw [dropping_update others, mine]
    have idle : (pc i).dropping rest = none := by rw [outside]; rfl
    cases hp : indices with
    | none =>
        have unchanged : Function.update (fun j => (pc j).dropping rest) i none =
            fun j => (pc j).dropping rest := Function.update_eq_self_iff.mpr idle.symm
        have same : (retire mem rest a none).arrays = rest.arrays := by
          funext q
          rw [retire_arrays, if_neg (by simp)]
        rw [unchanged, same]
        exact arrays
    | some p =>
        obtain ⟨arr, there, free⟩ := good p hp
        have same : (retire mem rest a (some p)).arrays =
            Function.update rest.arrays p (some arr) := by
          funext q
          by_cases here : q = p
          · subst here
            rw [Function.update_self, retire_arrays, if_pos rfl, there]
          · rw [Function.update_of_ne here, retire_arrays,
              if_neg fun own => here (Option.some.inj own).symm]
        rw [same]
        exact arrays.take idle free arr

/-- A decrement to zero is an `unref`, with the set and its array beside the rest. -/
theorem Sequential.unref_last (sequential : Sequential s o rest) (owned : o.mem.Owned o.held)
    {a : Nat} {set : SetObject} (outside : s.pc i = .outside) (holds : 0 < s.held i a)
    (hset : o.mem.sets a = some set) (last : set.refCount = 1) :
    ∃ s', s.call i (.unref (some a)) = .ok s' ∧ Matched s s' o [.unref (some a)] := by
  have there : s.mem.sets a = some set := by
    rw [sequential.mem]
    exact beside_sets hset
  have good : ∀ q, set.indices = some q →
      ∃ arr, o.mem.arrays q = some arr ∧ rest.arrays q = none := by
    intro q hq
    obtain ⟨arr, harr⟩ := owned.separate.live hset hq
    exact ⟨arr, harr, sequential.apart_arrays harr⟩
  have run : o.mem.exec (.unref (some a)) = .ok (o.mem.free a set.indices, none) := by
    rw [exec, unrefAt_last hset last]
    rfl
  obtain ⟨-, -, freeSets, freeArrays⟩ := (exec_effect run).stays_free
  obtain ⟨sets, arrays⟩ := retire_owned sequential.sets sequential.arrays outside
    (sequential.apart_sets hset) good
  rw [call_unref there, if_pos last]
  refine ⟨_, rfl, Matched.call rfl owned trivial run ⟨?_, ?_, ?_, ?_, sets, arrays⟩⟩
  · rw [sequential.mem, last]
    exact retire_beside fun q hq => (good q hq).imp fun _ both => both.1
  · rw [sequential.held]
    exact (total_minus holds).symm
  · intro b gone there
    by_cases same : b = a
    · subst same
      exact ⟨Function.update_self .., owned.below hset⟩
    · rw [retire_sets, Function.update_of_ne same] at there
      obtain ⟨free, used⟩ := sequential.setsApart there
      exact ⟨freeSets b free used, used⟩
  · intro q arr there
    by_cases own : set.indices = some q
    · obtain ⟨old, live, -⟩ := good q own
      exact ⟨if_pos own, owned.separate.below live⟩
    · rw [retire_arrays, if_neg own] at there
      obtain ⟨free, used⟩ := sequential.arraysApart there
      exact ⟨freeArrays owned.separate q free used, used⟩

/-- A call that is allowed. -/
theorem Sequential.call (sequential : Sequential s o rest) (owned : o.mem.Owned o.held)
    {c : Store.Call} (outside : s.pc i = .outside) (holds : ∀ a ∈ c.readThrough, 0 < s.held i a)
    (room : c.HasRoom s.mem.HasArray) (fits : CountFits o.held c) :
    ∃ s', s.call i c = .ok s' ∧ Matched s s' o [c] := by
  by_cases drops : ∃ a, c = .unref (some a)
  · obtain ⟨a, rfl⟩ := drops
    have mine : 0 < s.held i a := holds a (List.mem_singleton_self a)
    obtain ⟨set, hset⟩ := (owned.live_iff a).mpr (sequential.holds mine)
    by_cases last : set.refCount = 1
    · exact sequential.unref_last owned outside mine hset last
    · exact sequential.unref_many owned mine hset last
  · exact sequential.call_other owned (not_exists.mp drops) holds room fits

theorem Sequential.resume (sequential : Sequential s o rest) (owned : o.mem.Owned o.held) :
    ∃ s', s.resume i = .ok s' ∧ Matched s s' o [] := by
  unfold Threads.resume
  cases here : s.pc i with
  | outside => exact ⟨s, rfl, .quiet rfl owned sequential⟩
  | readIndices a =>
      obtain ⟨set, there, hset⟩ := sequential.freeing_there (i := i) (by rw [here]; rfl)
      have drops : (s.pc i).dropping rest = set.indices := by
        rw [here, ThreadPc.dropping, there]
        rfl
      dsimp only
      rw [derefSet_ok hset, ok_bind]
      cases hp : set.indices with
      | none =>
          exact ⟨_, rfl, .quiet rfl owned
            (sequential.read (.freeSet a) (by rw [here]; rfl) (by rw [drops, hp]; rfl))⟩
      | some p =>
          exact ⟨_, rfl, .quiet rfl owned
            (sequential.read (.unrefIndices a p) (by rw [here]; rfl) (by rw [drops, hp]; rfl))⟩
  | unrefIndices a p =>
      obtain ⟨arr, harr⟩ := sequential.dropping_there (i := i) (p := p) (by rw [here]; rfl)
      have reads : s.mem.derefArray p = .ok arr := by rw [derefArray, harr]
      dsimp only
      rw [reads, ok_bind]
      exact ⟨_, rfl, .quiet rfl owned (sequential.drop_array here)⟩
  | freeSet a =>
      obtain ⟨set, -, hset⟩ := sequential.freeing_there (i := i) (by rw [here]; rfl)
      dsimp only
      rw [derefSet_ok hset, ok_bind]
      exact ⟨_, rfl, .quiet rfl owned (sequential.free_set here)⟩

/-- Every move that is allowed comes to an end, and is matched. -/
theorem Sequential.move (sequential : Sequential s o rest) (owned : o.mem.Owned o.held)
    {m : Move ι} (allowed : s.Allowed (i, m)) :
    ∃ s', s.exec i m = .ok s' ∧ Matched s s' o m.calls := by
  cases m with
  | call c =>
      obtain ⟨outside, holds, room, fits, -⟩ := allowed
      rw [← sequential.held] at fits
      exact sequential.call owned outside holds room fits
  | resume => exact sequential.resume owned
  | give j a => exact ⟨_, rfl, .quiet rfl owned (sequential.give allowed.2 j)⟩

/-! ### What threads see of each other -/

omit [DecidableEq ι] in
/-- What a thread holds is there, with the contents that it has for the callers one after
another. -/
theorem Sequential.held_there (sequential : Sequential s o rest) (owned : o.mem.Owned o.held)
    {a : Nat} (holds : 0 < s.held i a) :
    ∃ set, o.mem.sets a = some set ∧ s.mem.sets a = some set ∧
      s.mem.contentAt a = o.mem.contentAt a := by
  obtain ⟨set, hset⟩ := (owned.live_iff a).mpr (sequential.holds holds)
  have there : s.mem.sets a = some set := by
    rw [sequential.mem]
    exact beside_sets hset
  refine ⟨set, hset, there, ?_⟩
  rw [contentAt, contentAt, there, hset, Option.map_some, Option.map_some, sequential.mem,
    value_beside owned.separate hset]

omit [Fintype ι] in
theorem held_of_call {s' : Threads ι Arr} {c : Store.Call} (called : s.call i c = .ok s') :
    s'.held = Function.update s.held i (s.mem.heldAfter (s.held i) c) := by
  unfold Threads.call at called
  dsimp only at called
  split at called
  next a =>
    obtain ⟨⟨mem, zero⟩, -, rest⟩ := bind_eq_ok.mp called
    cases rest
    rfl
  next =>
    obtain ⟨⟨mem, q⟩, -, rest⟩ := bind_eq_ok.mp called
    cases rest
    rfl

omit [Fintype ι] [GArray Arr] in
theorem held_of_resume {s' : Threads ι Arr} (resumed : s.resume i = .ok s') : s'.held = s.held := by
  unfold Threads.resume at resumed
  split at resumed
  next =>
    cases resumed
    rfl
  next a _ =>
    obtain ⟨set, -, rest⟩ := bind_eq_ok.mp resumed
    split at rest
    · cases rest
      rfl
    · cases rest
      rfl
  next a p _ =>
    obtain ⟨arr, -, rest⟩ := bind_eq_ok.mp resumed
    cases rest
    rfl
  next a _ =>
    obtain ⟨set, -, rest⟩ := bind_eq_ok.mp resumed
    cases rest
    rfl

omit [Fintype ι] in
/-- A move takes references from nobody but the thread that moves. -/
theorem held_of_move {s' : Threads ι Arr} {m : Move ι} (moved : s.exec i m = .ok s') {j : ι}
    (other : j ≠ i) (a : Nat) : s.held j a ≤ s'.held j a := by
  cases m with
  | call c => rw [held_of_call moved, Function.update_of_ne other]
  | resume => rw [held_of_resume moved]
  | give k b =>
      cases moved
      unfold Threads.give
      dsimp only
      by_cases taker : j = k
      · subst taker
        rw [Function.update_self, Function.update_of_ne other, plus_apply]
        exact Nat.le_add_right _ _
      · rw [Function.update_of_ne taker, Function.update_of_ne other]

/-- A set that lives on keeps its contents in a call that does not write it. -/
theorem Owned.contentAt_kept {mem mem' : Memory Arr} {held : Nat → Nat} (owned : mem.Owned held)
    {c : Store.Call} {q : SetPtr} (run : mem.exec c = .ok (mem', q)) {a : Nat}
    {set set' : SetObject} (before : mem.sets a = some set) (after : mem'.sets a = some set')
    (reads : ¬ c.Initialises a) : mem'.contentAt a = mem.contentAt a := by
  obtain ⟨-, stored⟩ := exec_ok owned.separate run
  have lives := abs_sets after
  rw [contentAt_abs, contentAt_abs]
  generalize mem'.abs = st at stored lives
  cases Store.exec_effect stored with
  | nothing => rfl
  | allocated _ =>
      have used : a ≠ mem.abs.fresh := Nat.ne_of_lt (owned.below before)
      rw [Store.alloc, Store.sets_write, Function.update_of_ne used]
  | freed b _ =>
      by_cases same : a = b
      · subst same
        simp at lives
      · simp only [Function.update_of_ne same]
  | @changed target old new there content =>
      by_cases same : a = target
      · subst same
        rw [Store.sets_write, Function.update_self, there, Option.map_some, Option.map_some]
        congr 1
        generalize new.stored = list at content
        cases content with
        | ref => rfl
        | unref => rfl
        | init => exact absurd rfl reads
        | index => exact absurd rfl reads
        | range => exact absurd rfl reads
        | copy => exact absurd rfl reads
        | copySelf => exact absurd rfl reads
      · rw [Store.sets_write, Function.update_of_ne same]

/-- A set that a thread holds keeps its contents while another thread moves. -/
theorem Sequential.stable (sequential : Sequential s o rest) (owned : o.mem.Owned o.held)
    {s' : Threads ι Arr} {m : Move ι} (allowed : s.Allowed (i, m)) (moved : s.exec i m = .ok s')
    {j : ι} (other : j ≠ i) {a : Nat} (holds : 0 < s.held j a) :
    s'.mem.contentAt a = s.mem.contentAt a := by
  obtain ⟨after, moved', o', rest', -, run, owned', sequential'⟩ := sequential.move owned allowed
  cases moved'.symm.trans moved
  have holds' : 0 < s'.held j a := holds.trans_le (held_of_move moved other a)
  obtain ⟨set, before, -, same⟩ := sequential.held_there owned holds
  obtain ⟨set', there, -, same'⟩ := sequential'.held_there owned' holds'
  rw [same, same']
  cases m with
  | call c =>
      obtain ⟨-, -, -, -, alone⟩ := allowed
      have reads : ¬ c.Initialises a := by
        intro writes
        rw [alone a writes j other] at holds
        exact absurd holds (lt_irrefl 0)
      rw [Move.calls, run_singleton, Owners.step] at run
      split at run
      next mem q result =>
        cases run
        exact owned.contentAt_kept result before there reads
      next => cases run
  | resume =>
      cases run
      rfl
  | give k b =>
      cases run
      rfl

/-! ### Runs -/

omit [DecidableEq ι] [GArray Arr] in
theorem sequential_empty : Sequential (⟨empty, fun _ _ => 0, fun _ => .outside, []⟩ : Threads ι Arr)
    ⟨empty, fun _ => 0⟩ empty where
  mem := rfl
  held := by
    funext a
    simp [total]
  setsApart := by rintro _ _ ⟨⟩
  arraysApart := by rintro _ _ ⟨⟩
  sets := .nobody
  arrays := .nobody

theorem sequential_of_reach (reach : (Threads.machine ι Arr).ReachBy Threads.Allowed s) :
    ∃ o rest, run Owners.step ⟨empty, fun _ => 0⟩ s.log = some o ∧ o.mem.Owned o.held ∧
      Sequential s o rest := by
  refine reach.invariant (fun s => ∃ o rest, run Owners.step ⟨empty, fun _ => 0⟩ s.log = some o ∧
    o.mem.Owned o.held ∧ Sequential s o rest) ?_ ?_
  · rintro _ rfl
    exact ⟨_, empty, rfl, owned_empty, sequential_empty⟩
  · rintro s ⟨i, m⟩ s' ⟨o, rest, before, owned, sequential⟩ allowed step
    obtain ⟨after, moved, o', rest', log, run, owned', sequential'⟩ :=
      sequential.move owned allowed
    cases moved.symm.trans step
    exact ⟨o', rest', by rw [log, run_append, before, Option.bind_some, run], owned', sequential'⟩

/-- Whatever the threads do, in whatever order: it is what the calls do one after another, in
the order in which they took effect. What a thread holds is there with the contents that it
has after those calls; when no thread is inside an `unref`, the whole memory is that after
those calls, and empty if no references are left. Every allowed move comes to an end, and
leaves the contents of what other threads hold alone. -/
theorem Threads.linearises (reach : (machine ι Arr).ReachBy Allowed s) :
    (∃ o, run Owners.step ⟨empty, fun _ => 0⟩ s.log = some o ∧
      (∀ a, o.held a = ∑ i, s.held i a) ∧
      (∀ i a, 0 < s.held i a → ∃ set, o.mem.sets a = some set ∧ s.mem.sets a = some set ∧
        s.mem.contentAt a = o.mem.contentAt a) ∧
      ((∀ i, s.pc i = .outside) → s.mem = o.mem ∧
        ((∀ i a, s.held i a = 0) → s.mem.sets = (fun _ => none) ∧ s.mem.arrays = fun _ => none))) ∧
    ∀ i m, s.Allowed (i, m) → ∃ s', s.exec i m = .ok s' ∧
      ∀ j a, j ≠ i → 0 < s.held j a → s'.mem.contentAt a = s.mem.contentAt a := by
  obtain ⟨o, rest, run, owned, sequential⟩ := sequential_of_reach reach
  refine ⟨⟨o, run, congrFun sequential.held, fun i a holds => sequential.held_there owned holds, ?_⟩, ?_⟩
  · intro outside
    have noSets : rest.sets = fun _ => none :=
      sequential.sets.eq_none fun i => by rw [outside i, ThreadPc.freeing]
    have noArrays : rest.arrays = fun _ => none :=
      sequential.arrays.eq_none fun i => by rw [outside i, ThreadPc.dropping]
    have same : s.mem = o.mem := by
      rw [sequential.mem]
      unfold beside
      simp only [noSets, noArrays, Option.or_none]
    refine ⟨same, ?_⟩
    intro dropped
    rw [same]
    refine owned.eq_none ?_
    intro a
    rw [sequential.held]
    exact Finset.sum_eq_zero fun i _ => dropped i a
  · intro i m allowed
    obtain ⟨s', moved, -⟩ := sequential.move owned allowed
    exact ⟨s', moved, fun j a other holds => sequential.stable owned allowed moved other holds⟩

end Moves

namespace Threads

variable {ι Arr : Type} [DecidableEq ι] [GArray Arr]

/-- A run goes on with an allowed move. -/
theorem reach_exec [Fintype ι] {s s' : Threads ι Arr} (reach : (machine ι Arr).ReachBy Allowed s) (i : ι)
    (m : Move ι) (allowed : s.Allowed (i, m)) (moved : s.exec i m = .ok s') :
    (machine ι Arr).ReachBy Allowed s' :=
  .step (a := (i, m)) reach allowed moved

omit [DecidableEq ι] [GArray Arr] in
/-- A thread may pass one set that it holds, if it writes nothing. -/
theorem allowed_one [Fintype ι] {s : Threads ι Arr} {i : ι} {c : Store.Call} {a : Nat}
    (reads : c.readThrough = [a]) (room : c.HasRoom s.mem.HasArray)
    (fits : CountFits (total s.held) c) (writes : ∀ b, ¬ c.Initialises b)
    (outside : s.pc i = .outside) (holds : 0 < s.held i a) : s.Allowed (i, .call c) := by
  refine ⟨outside, ?_, room, fits, fun b write => absurd write (writes b)⟩
  rw [reads, List.forall_mem_singleton]
  exact holds

/-- Two threads drop their references on one set. While the second frees it, the first
allocates another and drops it. -/
theorem linearises_two :
    ∃ (s : Threads Bool Words) (o : Owners Words), (machine Bool Words).ReachBy Allowed s ∧
      run Owners.step ⟨empty, fun _ => 0⟩ [.alloc, .initWithIndex (some 0) 5, .ref (some 0),
        .unref (some 0), .unref (some 0), .alloc, .unref (some 1)] = some o ∧ s.mem = o.mem := by
  have start : (machine Bool Words).ReachBy Allowed
      ⟨empty, fun _ _ => 0, fun _ => .outside, []⟩ := .start rfl
  have made := reach_exec start true (.call .alloc)
    ⟨rfl, by rintro _ ⟨⟩, trivial, trivial, by rintro _ ⟨⟩⟩ rfl
  have filled := reach_exec made true (.call (.initWithIndex (some 0) 5))
    ⟨rfl, by decide, trivial, trivial, by
      rintro _ ⟨⟩ j other
      cases j with
      | false => rfl
      | true => exact absurd rfl other⟩ rfl
  have shared := reach_exec filled true (.call (.ref (some 0)))
    (allowed_one rfl trivial (show total _ 0 + 1 < UInt32.size by decide) (by rintro _ ⟨⟩) rfl
      (by decide)) rfl
  have given := reach_exec shared true (.give false 0) ⟨rfl, by decide⟩ rfl
  have first := reach_exec given true (.call (.unref (some 0)))
    (allowed_one rfl trivial trivial (by rintro _ ⟨⟩) rfl (by decide)) rfl
  have last := reach_exec first false (.call (.unref (some 0)))
    (allowed_one rfl trivial trivial (by rintro _ ⟨⟩) rfl (by decide)) rfl
  have another := reach_exec last true (.call .alloc)
    ⟨rfl, by rintro _ ⟨⟩, trivial, trivial, by rintro _ ⟨⟩⟩ rfl
  have read := reach_exec another false .resume (by rintro ⟨⟩) rfl
  have alone := reach_exec read true (.call (.unref (some 1)))
    (allowed_one rfl trivial trivial (by rintro _ ⟨⟩) rfl (by decide)) rfl
  have emptied := reach_exec alone false .resume (by rintro ⟨⟩) rfl
  have freed := reach_exec emptied false .resume (by rintro ⟨⟩) rfl
  have idle := reach_exec (reach_exec freed true .resume (by rintro ⟨⟩) rfl) true .resume
    (by rintro ⟨⟩) rfl
  obtain ⟨⟨o, calls, -, -, outside⟩, -⟩ := linearises idle
  exact ⟨_, o, idle, calls, (outside fun i => by cases i <;> rfl).1⟩

end Threads

end Memory

end GlibController

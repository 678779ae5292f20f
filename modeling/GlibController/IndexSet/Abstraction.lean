import GlibController.Lib.Observation
import GlibController.IndexSet.Returns

/-!
What index sets are about: references and lists of indices.

`IndexSets` has neither arrays nor faults. Each set is an `Entry`, its count of references
and the indices in it; `IndexSets.step` is what a call does to the entries. A call
that fails has no step, and neither has one that makes an array longer by words that nothing
was written to: what it leaves in the set is not defined (`Store.grows`). Where a new set is
put is up to the allocator: an `Action` is a call with an address for it, which can be any
that is not in use.

`implements` says that the store does what the model does, step by step and answer by answer,
whatever arrays it is made of.
-/

namespace GlibController

open Lib GIndexSet

/-! ### The model -/

/-- What a program and its allocator do: a call, and the address for the set that an `alloc`
makes. -/
structure Action where
  call : Store.Call
  address : Nat
  deriving DecidableEq, Repr

/-- The count of the references on a set and the indices in it. A set that was never
initialised has no list, not even an empty one. -/
structure Entry where
  refCount : Gint
  indices : Option (List Guint)
  deriving DecidableEq, Repr

/-- The entries at their addresses. -/
structure IndexSets where
  sets : Nat → Option Entry

namespace Entry

def members (e : Entry) : List Guint := e.indices.getD []

/-- A range goes in front of as many of the indices as it is long. -/
def withRange (range : GRange) (e : Entry) : Option Entry :=
  match e.indices with
  | none => some { e with indices := some (interval range.location range.length) }
  | some xs =>
      if range.length.toNat ≤ xs.length ∧
          range.length.toNat + (range.length.toNat - range.location.toNat) < UInt32.size then
        some { e with
          indices := some (interval range.location range.length ++ xs.take range.length.toNat) }
      else none

/-- The answer to a query. The two ends of an empty list have none. -/
def ask (e : Entry) : Query → Option Answer
  | .count =>
      match e.indices with
      | none => some (.number indexNotFound)
      | some xs => some (.number (UInt32.ofNat xs.length))
  | .containsIndex index_ => some (.flag (decide (index_ ∈ e.members)))
  | .firstIndex =>
      match e.indices with
      | none => some (.number indexNotFound)
      | some xs => xs.head?.map .number
  | .lastIndex =>
      match e.indices with
      | none => some (.number indexNotFound)
      | some xs => xs.getLast?.map .number
  | .getIndex predicate index_ =>
      some (.number ((e.members.find? fun idx => predicate.holds idx index_).getD indexNotFound))

end Entry

namespace IndexSets

def empty : IndexSets := ⟨fun _ => none⟩

def write (x : IndexSets) (a : Nat) (e : Entry) : IndexSets :=
  { x with sets := Function.update x.sets a (some e) }

def erase (x : IndexSets) (a : Nat) : IndexSets :=
  { x with sets := Function.update x.sets a none }

@[simp] theorem write_self (x : IndexSets) (a : Nat) (e : Entry) :
    (x.write a e).sets a = some e :=
  Function.update_self ..

theorem write_of_ne (x : IndexSets) {a b : Nat} (e : Entry) (other : b ≠ a) :
    (x.write a e).sets b = x.sets b :=
  Function.update_of_ne other ..

@[simp] theorem erase_self (x : IndexSets) (a : Nat) : (x.erase a).sets a = none :=
  Function.update_self ..

theorem erase_of_ne (x : IndexSets) {a b : Nat} (other : b ≠ a) : (x.erase a).sets b = x.sets b :=
  Function.update_of_ne other ..

/-- A change of the entry that a pointer points at. -/
def through (x : IndexSets) (set : SetPtr) (f : Entry → Option Entry) : Option IndexSets :=
  match set with
  | none => some x
  | some a => do
      let e ← f (← x.sets a)
      return x.write a e

/-- A new set, at an address that is not in use. -/
def allocAt (x : IndexSets) (a : Nat) : Option IndexSets :=
  match x.sets a with
  | none => some (x.write a ⟨1, none⟩)
  | some _ => none

def step (x : IndexSets) : Action → Option IndexSets
  | ⟨.alloc, a⟩ => x.allocAt a
  | ⟨.ref set, _⟩ => x.through set fun e => some { e with refCount := e.refCount + 1 }
  | ⟨.unref none, _⟩ => some x
  | ⟨.unref (some a), _⟩ => do
      let e ← x.sets a
      if e.refCount = 1 then return x.erase a
      else return x.write a { e with refCount := e.refCount - 1 }
  | ⟨.init set, _⟩ => x.through set fun e => some { e with indices := some [] }
  | ⟨.initWithIndex set index_, _⟩ => x.through set fun e => some { e with indices := some [index_] }
  | ⟨.initWithRange _ none, _⟩ => some x
  | ⟨.initWithRange set (some range), _⟩ => x.through set (Entry.withRange range)
  | ⟨.initWithSet _ none, _⟩ => some x
  | ⟨.initWithSet none (some _), _⟩ => some x
  | ⟨.initWithSet (some a) (some b), _⟩ => do
      let e ← x.sets a
      let source ← x.sets b
      -- the set is emptied before the source is read
      return x.write a { e with indices := some (if a = b then [] else source.members) }

/-- The model as an observer sees it, who asks queries of sets. -/
def observed : Observed IndexSets Action (Nat × Query) Answer where
  step := step
  see x q := (x.sets q.1).bind fun e => e.ask q.2

end IndexSets

/-! ### The store -/

variable {Arr : Type} [GArray Arr]

def GIndexSet.entry (set : GIndexSet Arr) : Entry := ⟨set.refCount, set.stored⟩

namespace Store

open GArray

/-- The call makes an array longer by words that nothing was written to. -/
def grows (st : Store Arr) : Call → Bool
  | .initWithRange (some a) (some range) =>
      match (st.sets a).bind GIndexSet.indices with
      | none => false
      | some arr => len arr < range.length
  | _ => false

/-- An allocation where the next address is one that the allocator picks. -/
def allocAt (st : Store Arr) (a : Nat) : Option (Store Arr) :=
  match st.sets a with
  | none => some { st with fresh := a }.alloc.1
  | some _ => none

/-- A call that comes to an end and leaves nothing undefined. -/
def step (st : Store Arr) (act : Action) : Option (Store Arr) :=
  match act.call with
  | .alloc => st.allocAt act.address
  | c => if st.grows c then none else (st.exec c).toOption.map Prod.fst

/-- The store as an observer sees it. -/
def observed (Arr : Type) [GArray Arr] : Observed (Store Arr) Action (Nat × Query) Answer where
  step := step
  see st q := (st.sets q.1).bind fun set => (set.ask q.2).toOption

/-- The entries of the sets. -/
def contents (st : Store Arr) : IndexSets := ⟨fun a => (st.sets a).map GIndexSet.entry⟩

end Store

/-! ### Answers -/

namespace GIndexSet

open GArray

/-- The first index is that of the list, if there is one. -/
theorem firstIndex_head {set : GIndexSet Arr} {xs : List Guint} (h : set.stored = some xs) :
    set.firstIndex.toOption = xs.head? := by
  have hmem : set.members = xs := members_of_stored h
  cases xs with
  | nil =>
      rw [firstIndex_of_nil h]
      rfl
  | cons x xs =>
      have nonempty : set.members ≠ [] := by
        rw [hmem]
        exact List.cons_ne_nil x xs
      rw [firstIndex_of_members nonempty, ← hmem, List.head?_eq_some_head nonempty]
      rfl

theorem lastIndex_getLast {set : GIndexSet Arr} {xs : List Guint} (h : set.stored = some xs) :
    set.lastIndex.toOption = xs.getLast? := by
  have hmem : set.members = xs := members_of_stored h
  cases xs with
  | nil =>
      rw [lastIndex_of_nil h]
      rfl
  | cons x xs =>
      have nonempty : set.members ≠ [] := by
        rw [hmem]
        exact List.cons_ne_nil x xs
      rw [lastIndex_of_members nonempty, ← hmem, List.getLast?_eq_some_getLast nonempty]
      rfl

theorem toOption_map {α β ε : Type} (f : α → β) (x : Except ε α) :
    (x.map f).toOption = x.toOption.map f := by
  cases x with
  | error e => rfl
  | ok a => rfl

/-- The queries of a set answer for its entry. -/
theorem ask_entry (set : GIndexSet Arr) (q : Query) : (set.ask q).toOption = set.entry.ask q := by
  cases q with
  | count =>
      unfold ask Entry.ask entry count stored
      cases set.indices with
      | none => rfl
      | some arr => rfl
  | containsIndex index_ =>
      rw [ask, containsIndex_eq]
      rfl
  | firstIndex =>
      unfold ask Entry.ask entry
      rw [toOption_map]
      cases hstored : set.stored with
      | none =>
          unfold firstIndex
          rw [stored_eq_none.mp hstored]
          rfl
      | some xs => rw [firstIndex_head hstored]
  | lastIndex =>
      unfold ask Entry.ask entry
      rw [toOption_map]
      cases hstored : set.stored with
      | none =>
          unfold lastIndex
          rw [stored_eq_none.mp hstored]
          rfl
      | some xs => rw [lastIndex_getLast hstored]
  | getIndex predicate index_ =>
      rw [ask, getIndex_eq]
      rfl

theorem entry_init (set : GIndexSet Arr) :
    set.init.entry = { set.entry with indices := some [] } := by
  unfold entry
  rw [stored_init]
  rfl

theorem initWithIndex_refCount {set set' : GIndexSet Arr} {x : Guint}
    (h : set.initWithIndex x = .ok set') : set'.refCount = set.refCount := by
  obtain ⟨arr, -, rest⟩ := bind_eq_ok.mp h
  cases rest
  rfl

theorem initWithRange_refCount {set set' : GIndexSet Arr} {range : GRange}
    (h : set.initWithRange range = .ok set') : set'.refCount = set.refCount := by
  obtain ⟨flow, -, rest⟩ := bind_eq_ok.mp h
  cases flow with
  | next arr =>
      cases rest
      rfl
  | done r => exact r.elim

theorem initWithIndex_entry (set : GIndexSet Arr) (x : Guint) :
    (set.initWithIndex x).toOption.map entry = some { set.entry with indices := some [x] } := by
  obtain ⟨set', run, content⟩ := set.initWithIndex_spec x
  have refs := initWithIndex_refCount run
  rw [run]
  simp only [Except.toOption, Option.map_some, entry, refs, content]

/-- A range on a set whose array does not grow. -/
theorem initWithRange_entry (set : GIndexSet Arr) (range : GRange)
    (fits : ∀ arr, set.indices = some arr → range.length ≤ len arr) :
    (set.initWithRange range).toOption.map entry = set.entry.withRange range := by
  have returns := initWithRange_returns_iff set range
  cases hind : set.indices with
  | none =>
      obtain ⟨set', run, content⟩ := initWithRange_new hind range
      have refs := initWithRange_refCount run
      rw [run]
      simp only [Except.toOption, Option.map_some, Entry.withRange, entry, refs, content,
        stored_eq_none.mpr hind]
  | some arr =>
      have short := fits arr hind
      have below : range.length.toNat ≤ (elems arr).length := by
        rwa [UInt32.le_iff_toNat_le, toNat_len] at short
      simp only [Entry.withRange, entry, stored_of_indices hind]
      rw [hind] at returns
      cases run : set.initWithRange range with
      | error e =>
          rw [run] at returns
          have full := mt returns.mpr (by rintro ⟨_, ⟨⟩⟩)
          rw [if_neg (by rintro ⟨-, room⟩; exact full fun _ => room)]
          rfl
      | ok set' =>
          have room := returns.mp ⟨set', run⟩ (Option.some_ne_none arr)
          have refs := initWithRange_refCount run
          have content := initWithRange_ok run
          rw [resized, hind] at content
          dsimp only at content
          rw [elems_setSize_of_le below] at content
          rw [if_pos ⟨below, room⟩]
          simp only [Except.toOption, Option.map_some, entry, refs, content]

end GIndexSet

namespace Store

open GArray

section Steps

variable {st : Store Arr} {a : Nat}

theorem contents_sets (st : Store Arr) (a : Nat) :
    st.contents.sets a = (st.sets a).map GIndexSet.entry := rfl

theorem contents_update (sets : Nat → Option (GIndexSet Arr)) (a : Nat) (set : Option (GIndexSet Arr)) :
    (fun b => (Function.update sets a set b).map GIndexSet.entry) =
      Function.update (fun b => (sets b).map GIndexSet.entry) a (set.map GIndexSet.entry) := by
  funext b
  by_cases same : b = a
  · subst same
    rw [Function.update_self, Function.update_self]
  · rw [Function.update_of_ne same, Function.update_of_ne same]

theorem contents_write (st : Store Arr) (a : Nat) (set : GIndexSet Arr) :
    (st.write a set).contents = st.contents.write a set.entry := by
  unfold contents write IndexSets.write
  rw [contents_update]
  rfl

/-- A function of one set does to the contents what it does to the entry. -/
theorem through_contents {set : SetPtr} {f : GIndexSet Arr → Except Fault (GIndexSet Arr)}
    {g : Entry → Option Entry}
    (agree : ∀ a s, set = some a → st.sets a = some s → (f s).toOption.map GIndexSet.entry = g s.entry) :
    ((st.through set f).toOption.map Prod.fst).map contents = st.contents.through set g := by
  cases set with
  | none => rfl
  | some a =>
      rw [IndexSets.through, contents_sets]
      cases hset : st.sets a with
      | none =>
          rw [through, deref, hset]
          rfl
      | some s =>
          have change := agree a s rfl hset
          rw [through_some hset, Option.map_some, Option.bind_eq_bind, Option.bind_some, ← change]
          cases f s with
          | error e => rfl
          | ok s' =>
              simp only [Except.toOption, Except.map, Option.map_some]
              exact congrArg some (contents_write st a s')

/-- A range that makes no array grow is one for which the arrays are long enough. -/
theorem fits_of_grows {range : GRange} {s : GIndexSet Arr} (hset : st.sets a = some s)
    (stays : st.grows (.initWithRange (some a) (some range)) = false) :
    ∀ arr, s.indices = some arr → range.length ≤ len arr := by
  intro arr hind
  rw [grows, hset, Option.bind_some, hind] at stays
  exact UInt32.not_lt.mp (of_decide_eq_false stays)

/-- The model has no step where an array grows. -/
theorem step_of_grows {range : GRange} {b : Nat}
    (grown : st.grows (.initWithRange (some a) (some range)) = true) :
    st.contents.step ⟨.initWithRange (some a) (some range), b⟩ = none := by
  rw [IndexSets.step, IndexSets.through, contents_sets]
  rw [grows] at grown
  cases hset : st.sets a with
  | none => rfl
  | some s =>
      rw [hset, Option.bind_some] at grown
      cases hind : s.indices with
      | none =>
          rw [hind] at grown
          cases grown
      | some arr =>
          rw [hind] at grown
          have longer := UInt32.lt_iff_toNat_lt.mp (of_decide_eq_true grown)
          rw [toNat_len] at longer
          simp only [Option.map_some, Option.bind_eq_bind, Option.bind_some, Entry.withRange,
            GIndexSet.entry, stored_of_indices hind]
          rw [if_neg (by omega)]
          rfl

theorem allocAt_contents (st : Store Arr) (a : Nat) :
    (st.allocAt a).map contents = st.contents.allocAt a := by
  unfold allocAt IndexSets.allocAt
  rw [contents_sets]
  cases st.sets a with
  | none => exact congrArg some (contents_write st a GIndexSet.alloc)
  | some set => rfl

theorem unref_contents (st : Store Arr) (set : SetPtr) (b : Nat) :
    ((st.unref set).toOption.map Prod.fst).map contents = st.contents.step ⟨.unref set, b⟩ := by
  cases set with
  | none => rfl
  | some a =>
      rw [IndexSets.step, contents_sets]
      cases hset : st.sets a with
      | none =>
          rw [unref, deref, hset]
          rfl
      | some s =>
          simp only [unref, deref_ok hset, ok_bind, Option.map_some, Option.bind_eq_bind,
            Option.bind_some]
          have refs : s.entry.refCount = s.refCount := rfl
          by_cases last : s.refCount = 1
          · rw [refs, if_pos last, if_pos last]
            refine congrArg some ?_
            unfold contents IndexSets.erase
            rw [contents_update]
            rfl
          · rw [refs, if_neg last, if_neg last]
            exact congrArg some (contents_write st a _)

theorem initWithSet_contents (st : Store Arr) (a b c : Nat) :
    ((st.initWithSet (some a) (some b)).toOption.map Prod.fst).map contents =
      st.contents.step ⟨.initWithSet (some a) (some b), c⟩ := by
  have returns := st.initWithSet_returns_iff a b
  rw [IndexSets.step, contents_sets, contents_sets]
  cases hset : st.sets a with
  | none =>
      rw [initWithSet, deref, hset]
      rfl
  | some s =>
      by_cases same : a = b
      · subst same
        rw [initWithSet_self hset, hset]
        simp only [Except.toOption, Option.map_some, Option.bind_eq_bind, Option.bind_some, if_true]
        rw [contents_write, entry_init]
        rfl
      · cases hsource : st.sets b with
        | none =>
            rw [hset, hsource] at returns
            cases run : st.initWithSet (some a) (some b) with
            | error e => rfl
            | ok r =>
                obtain ⟨-, _, ⟨⟩⟩ := returns.mp ⟨r, run⟩
        | some source =>
            obtain ⟨arr, run, helems⟩ := initWithSet_of_ne same hset hsource
            rw [run]
            simp only [Except.toOption, Option.map_some, Option.bind_eq_bind, Option.bind_some,
              if_neg same]
            rw [contents_write, ← show elems arr = source.entry.members from helems]
            rfl

/-- A call that leaves nothing undefined does to the contents what the model does. -/
theorem step_contents (st : Store Arr) (act : Action) :
    (st.step act).map contents = st.contents.step act := by
  obtain ⟨c, b⟩ := act
  unfold step
  cases c with
  | alloc => exact allocAt_contents st b
  | ref set => exact through_contents fun _ _ _ _ => rfl
  | unref set => exact unref_contents st set b
  | init set => exact through_contents fun _ s _ _ => congrArg some (entry_init s)
  | initWithIndex set x => exact through_contents fun _ s _ _ => s.initWithIndex_entry x
  | initWithRange set range =>
      cases range with
      | none => cases set <;> rfl
      | some range =>
          cases set with
          | none => rfl
          | some a =>
              cases stays : st.grows (.initWithRange (some a) (some range)) with
              | false =>
                  dsimp only
                  rw [stays, if_neg Bool.false_ne_true, exec, initWithRange, IndexSets.step]
                  apply through_contents
                  rintro _ s ⟨⟩ hset
                  exact s.initWithRange_entry range (fits_of_grows hset stays)
              | true =>
                  dsimp only
                  rw [stays, if_pos rfl]
                  exact (step_of_grows stays).symm
  | initWithSet set source =>
      cases source with
      | none => cases set <;> rfl
      | some a =>
          cases set with
          | none => rfl
          | some target => exact initWithSet_contents st target a b

end Steps

/-- The store implements the model. -/
theorem implements : (observed Arr).Implements IndexSets.observed contents where
  step := step_contents
  see st q := by
    show (st.sets q.1).bind _ = ((st.sets q.1).map GIndexSet.entry).bind _
    cases st.sets q.1 with
    | none => rfl
    | some set => exact ask_entry set q.2

end Store

end GlibController

import GlibController.Event.Contents

/-!
The readers of an event, at every position.

Five of them test the position before they read the array, as a `gint` against zero
and as a `guint` against the number of values. The variadic reader leaves the test to
`g_value_array_get_nth`. `getNth_toUInt32` says that this comes to the same as long as
the array has fewer than `2 ^ 31` values, the `gint` positions below zero being large as
`guint`. `readers_agree` gives the answer of all six: the stored value at a position
inside the array, and no index elsewhere.
-/

namespace GlibController

open Lib GValueArray

variable {κ VArr : Type} [GValueArray VArr]

/-- A typed accessor answers with the contents of a value, or with what stands for no
index. -/
def TypedAnswer (t : GType) (absent : t.Payload) : Option GValue → Except Fault t.Payload → Prop
  | none, result => result = .ok absent
  | some value, result => ∃ data, value = ⟨t, data⟩ ∧ result = .ok data

/-- The variadic reader answers with the value in the location, or leaves the location
alone. -/
def LocatedAnswer {Loc : Type} [ValueLocation Loc] (loc : Loc) : Option GValue → Bool × Loc → Prop
  | none, result => result = (false, loc)
  | some value, result => result.1 = true ∧ ValueLocation.load result.2 = some value

/-- All readers give the same answer at a position, the typed accessor being the one
of the index type. -/
structure GControllerEvent.Answers (event : GControllerEvent κ VArr) (Loc : Type)
    [ValueLocation Loc] (index_ : Gint) (answer : Option GValue) : Prop where
  indexValue : event.getIndexValue index_ = .ok answer
  index : ∀ loc : Loc, ValueLocation.Valid event.indexType loc →
    LocatedAnswer loc answer (event.getIndex index_ loc)
  int : event.indexType = .int → TypedAnswer .int 0 answer (event.getIndexInt index_)
  uint : event.indexType = .uint → TypedAnswer .uint 0 answer (event.getIndexUint index_)
  string : event.indexType = .string → TypedAnswer .string none answer (event.getIndexString index_)
  pointer : event.indexType = .pointer → TypedAnswer .pointer 0 answer (event.getIndexPointer index_)

namespace GControllerEvent

/-! ### The position -/

/-- The position of a short array, converted to `guint`, is inside exactly if it was. -/
theorem getNth_toUInt32 {arr : VArr} (short : (values arr).length < 2 ^ 31) (i : Gint) :
    getNth arr i.toUInt32 = if 0 ≤ i.toInt then (values arr)[i.toInt.toNat]? else none := by
  unfold getNth
  split
  next nonneg => rw [toNat_toUInt32 nonneg]
  next negative =>
    have large := le_toNat_toUInt32 (not_le.mp negative)
    exact List.getElem?_eq_none (by omega)

theorem getNth_nth {event : GControllerEvent κ VArr} {arr : VArr} (h : event.indices = some arr)
    (short : event.contents.length < 2 ^ 31) (i : Gint) :
    getNth arr i.toUInt32 = event.nth i := by
  have hcontents : event.contents = values arr := by rw [contents, h, listed_some]
  rw [hcontents] at short
  rw [getNth_toUInt32 short, nth, hcontents]

theorem nth_inside {event : GControllerEvent κ VArr} {i : Gint} (nonneg : 0 ≤ i.toInt)
    (inside : i.toInt.toNat < event.contents.length) :
    event.nth i = some event.contents[i.toInt.toNat] := by
  unfold nth
  rw [if_pos nonneg, List.getElem?_eq_getElem inside]

theorem nth_outside {event : GControllerEvent κ VArr} {i : Gint}
    (outside : ¬ (0 ≤ i.toInt ∧ i.toInt < event.contents.length)) : event.nth i = none := by
  unfold nth
  split
  · exact List.getElem?_eq_none (by omega)
  · rfl

/-! ### The readers -/

/-- The variadic reader delivers the stored value. -/
theorem getIndex_located {Loc : Type} [ValueLocation Loc] {event : GControllerEvent κ VArr}
    (types : ∀ value ∈ event.contents, value.gType = event.indexType)
    (short : event.contents.length < 2 ^ 31) (i : Gint) {loc : Loc}
    (valid : ValueLocation.Valid event.indexType loc) :
    LocatedAnswer loc (event.nth i) (event.getIndex i loc) := by
  unfold getIndex
  cases hind : event.indices with
  | none =>
      rw [nth_of_none hind]
      rfl
  | some arr =>
      dsimp only
      rw [getNth_nth hind short]
      cases hnth : event.nth i with
      | none => rfl
      | some value =>
          have hvalue := types value (mem_of_nth hnth)
          obtain ⟨loc', hcopy, hload⟩ := ValueLocation.lcopyValue_valid (hvalue.symm ▸ valid)
          simp only [hcopy]
          exact ⟨rfl, hload⟩

/-- The accessor of the index type reads the contents of the stored value. -/
theorem getIndexOf_typed {event : GControllerEvent κ VArr}
    (types : ∀ value ∈ event.contents, value.gType = event.indexType) {t : GType}
    (same : event.indexType = t) (absent : t.Payload) (i : Gint) :
    TypedAnswer t absent (event.nth i) (event.getIndexOf t absent i) := by
  subst same
  rw [getIndexOf_eq]
  cases hnth : event.nth i with
  | none => rfl
  | some value =>
      obtain ⟨gType, data⟩ := value
      have hvalue : gType = event.indexType := types _ (mem_of_nth hnth)
      subst hvalue
      exact ⟨data, rfl, dif_pos rfl⟩

/-- The copy that `getIndexValue` makes is the stored value. -/
theorem getIndexValue_stored {event : GControllerEvent κ VArr}
    (types : ∀ value ∈ event.contents, value.gType = event.indexType) (i : Gint) :
    event.getIndexValue i = .ok (event.nth i) := by
  rw [getIndexValue_eq]
  cases hnth : event.nth i with
  | none => rfl
  | some value =>
      rw [← types value (mem_of_nth hnth), Option.map_some, GValue.copy_init]

theorem answers_nth (Loc : Type) [ValueLocation Loc] {event : GControllerEvent κ VArr}
    (types : ∀ value ∈ event.contents, value.gType = event.indexType)
    (short : event.contents.length < 2 ^ 31) (i : Gint) :
    event.Answers Loc i (event.nth i) where
  indexValue := getIndexValue_stored types i
  index _ valid := getIndex_located types short i valid
  int same := getIndexOf_typed types same 0 i
  uint same := getIndexOf_typed types same 0 i
  string same := getIndexOf_typed types same none i
  pointer same := getIndexOf_typed types same 0 i

/-- The number of indices, and the answer of every reader at every position. -/
theorem readers_agree (Loc : Type) [ValueLocation Loc] (event : GControllerEvent κ VArr)
    (types : ∀ value ∈ event.contents, value.gType = event.indexType)
    (short : event.contents.length < 2 ^ 31) :
    event.getNIndices.toInt = event.contents.length ∧
      (∀ i : Gint, 0 ≤ i.toInt → ∀ inside : i.toInt.toNat < event.contents.length,
        event.Answers Loc i (some event.contents[i.toInt.toNat])) ∧
      ∀ i : Gint, ¬ (0 ≤ i.toInt ∧ i.toInt < event.contents.length) →
        event.Answers Loc i none := by
  refine ⟨getNIndices_eq short, ?_, ?_⟩
  · intro i nonneg inside
    rw [← nth_inside nonneg inside]
    exact answers_nth Loc types short i
  · intro i outside
    rw [← nth_outside outside]
    exact answers_nth Loc types short i

/-- An event of two `uint` indices, read into a variable. -/
theorem readers_agree_words :
    let event : GControllerEvent Nat Values :=
      ⟨some 0, .add, .uint, some ⟨[⟨.uint, (4 : Guint)⟩, ⟨.uint, (7 : Guint)⟩], by decide⟩⟩
    event.Answers ReturnLocation 1 (some ⟨.uint, (7 : Guint)⟩) ∧
      event.Answers ReturnLocation (-1) none ∧ event.Answers ReturnLocation 2 none := by
  intro event
  have all := readers_agree ReturnLocation event (by decide) (by decide)
  exact ⟨all.2.1 1 (by decide) (by decide), all.2.2 (-1) (by decide), all.2.2 2 (by decide)⟩

end GControllerEvent

end GlibController

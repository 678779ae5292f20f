import GlibController.Event.Contents

/-!
Which events hold values of their index type only.

Collection gives values of the index type, and `addIndexValue` checks the type of
its argument. The copy loop behind the `indices` property does not check: an event
created from an array keeps the values the array has. `homogeneous_iff` says that
this is the only way in for another type, and that nothing later removes it.
-/

namespace GlibController

open GValueArray

variable {κ VArr Arg : Type} [GValueArray VArr]

/-- Every stored value has the index type, and no typed accessor reads a value of
another type. -/
structure GControllerEvent.Homogeneous (event : GControllerEvent κ VArr) : Prop where
  types : ∀ value ∈ event.contents, value.gType = event.indexType
  int : ∀ i, event.getIndexInt i ≠ .error .wrongValueType
  uint : ∀ i, event.getIndexUint i ≠ .error .wrongValueType
  string : ∀ i, event.getIndexString i ≠ .error .wrongValueType
  pointer : ∀ i, event.getIndexPointer i ≠ .error .wrongValueType

namespace GControllerEvent

/-- An accessor of any type reads what it expects: an event of another type is turned
away before the array is read. -/
theorem getIndexOf_ne_error {event : GControllerEvent κ VArr}
    (types : ∀ value ∈ event.contents, value.gType = event.indexType) (t : GType)
    (absent : t.Payload) (i : Gint) (fault : Fault) :
    event.getIndexOf t absent i ≠ .error fault := by
  by_cases same : event.indexType = t
  · subst same
    rw [getIndexOf_eq]
    cases hnth : event.nth i with
    | none =>
        intro h
        cases h
    | some value =>
        obtain ⟨data, hget⟩ := GValue.get_eq_ok (types value (mem_of_nth hnth))
        simp only [hget]
        intro h
        cases h
  · rw [getIndexOf, if_pos same]
    intro h
    cases h

theorem homogeneous_of_types {event : GControllerEvent κ VArr}
    (types : ∀ value ∈ event.contents, value.gType = event.indexType) : event.Homogeneous where
  types := types
  int i := getIndexOf_ne_error types .int 0 i _
  uint i := getIndexOf_ne_error types .uint 0 i _
  string i := getIndexOf_ne_error types .string none i _
  pointer i := getIndexOf_ne_error types .pointer 0 i _

end GControllerEvent

section Histories

variable [ValueCollector Arg]

omit [GValueArray VArr] in
/-- Collection gives values of the type asked for, also where it fails. -/
theorem type_of_mem_collected {t : GType} {args : List Arg} {value : GValue}
    (h : value ∈ GController.collected t args) : value.gType = t := by
  induction args with
  | nil => cases h
  | cons arg args ih =>
      rw [GController.collected] at h
      split at h
      · rw [List.mem_singleton] at h
        rw [h]
        rfl
      · rcases List.mem_cons.mp h with rfl | tail
        · rfl
        · exact ih tail

omit [GValueArray VArr] in
/-- An addition adds values of the index type only. -/
theorem Addition.type_of_mem_added {t : GType} {call : Addition Arg} {value : GValue}
    (h : value ∈ call.added t) : value.gType = t := by
  cases call with
  | addIndex arg =>
      rw [Addition.added] at h
      split at h
      · cases h
      · rw [List.mem_singleton] at h
        rw [h]
        rfl
  | addIndexValue given =>
      rw [Addition.added] at h
      split at h
      next same =>
        rw [List.mem_singleton] at h
        rwa [h]
      next => cases h

/-- No value of another type is passed in an array. -/
def Creation.TypesFit (t : GType) : Creation VArr Arg → Prop
  | .createEvent _ _ => True
  | .createEventv none => True
  | .createEventv (some indices) => ∀ value ∈ values indices, value.gType = t

theorem Creation.typesFit_iff {t : GType} {creation : Creation VArr Arg} :
    creation.TypesFit t ↔ ∀ value ∈ creation.listed t, value.gType = t := by
  cases creation with
  | createEvent nIndices args => exact ⟨fun _ _ => type_of_mem_collected, fun _ => trivial⟩
  | createEventv indices =>
      cases indices with
      | none => exact ⟨fun _ _ h => absurd h List.not_mem_nil, fun _ => trivial⟩
      | some indices => exact Iff.rfl

/-- An event holds values of its index type only, after whatever additions, exactly
if it was not created from an array with a value of another type. -/
theorem homogeneous_iff {klass : GControllerClass κ VArr} {controller : κ}
    {action : GControllerAction} {t : GType} {creation : Creation VArr Arg}
    {calls : List (Addition Arg)} {event : GControllerEvent κ VArr}
    (default : klass.createEvent = GController.defaultCreateEvent) (valid : t ≠ .invalid)
    (h : build klass controller action t creation calls = .ok (some event)) :
    event.Homogeneous ↔ creation.TypesFit t := by
  have records := build_contents default valid h
  rw [Creation.typesFit_iff]
  constructor
  · intro homogeneous value hvalue
    have types := homogeneous.types value
    rw [records.contents, records.indexType] at types
    exact types (List.mem_append_left _ hvalue)
  · intro fit
    apply GControllerEvent.homogeneous_of_types
    intro value hvalue
    rw [records.indexType]
    rw [records.contents, List.mem_append, List.mem_flatMap] at hvalue
    rcases hvalue with created | ⟨call, -, added⟩
    · exact fit value created
    · exact call.type_of_mem_added added

end Histories

/-- Additions to an event of type `uint`: two indices, and a string that is turned away. -/
def mixedAdditions : List (Addition Vararg) :=
  [.addIndex (.word 6), .addIndexValue ⟨.string, some "row"⟩, .addIndexValue ⟨.uint, (7 : Guint)⟩]

/-- Created from two values of the index type an event stays homogeneous, and from a value of
another type it does not become so. -/
theorem homogeneous_vector :
    (GControllerEvent.mk (some 0) .add .uint
      (some (⟨[⟨.uint, (4 : Guint)⟩, ⟨.uint, (5 : Guint)⟩, ⟨.uint, (6 : Guint)⟩,
        ⟨.uint, (7 : Guint)⟩], by decide⟩ : Values))).Homogeneous ∧
    ¬ (GControllerEvent.mk (some 0) .add .uint
      (some (⟨[⟨.uint, (4 : Guint)⟩, ⟨.string, some "row"⟩, ⟨.uint, (6 : Guint)⟩,
        ⟨.uint, (7 : Guint)⟩], by decide⟩ : Values))).Homogeneous := by
  constructor
  · have run : build GController.classInit 0 .add .uint
        (.createEventv (some ⟨[⟨.uint, (4 : Guint)⟩, ⟨.uint, (5 : Guint)⟩], by decide⟩))
        mixedAdditions = .ok (some ⟨some 0, .add, .uint, some (⟨[⟨.uint, (4 : Guint)⟩,
          ⟨.uint, (5 : Guint)⟩, ⟨.uint, (6 : Guint)⟩, ⟨.uint, (7 : Guint)⟩], by decide⟩ : Values)⟩) := rfl
    refine (homogeneous_iff rfl (by decide) run).mpr ?_
    intro value hvalue
    simp only [values, List.mem_cons, List.not_mem_nil, or_false] at hvalue
    rcases hvalue with rfl | rfl
    · rfl
    · rfl
  · have run : build GController.classInit 0 .add .uint
        (.createEventv (some ⟨[⟨.uint, (4 : Guint)⟩, ⟨.string, some "row"⟩], by decide⟩))
        mixedAdditions = .ok (some ⟨some 0, .add, .uint, some (⟨[⟨.uint, (4 : Guint)⟩,
          ⟨.string, some "row"⟩, ⟨.uint, (6 : Guint)⟩, ⟨.uint, (7 : Guint)⟩], by decide⟩ : Values)⟩) := rfl
    intro homogeneous
    have fits := (homogeneous_iff rfl (by decide) run).mp homogeneous ⟨.string, some "row"⟩
      (by simp [values])
    cases fits

/-- The values of the array are initialised. -/
def Creation.Initialised : Creation VArr Arg → Prop
  | .createEventv (some indices) => ∀ value ∈ values indices, value.gType ≠ .invalid
  | _ => True

/-- An event with indices of type `int`, created from an array that holds a string. -/
theorem string_in_int_event :
    ¬ ∀ (t : GType) (creation : Creation Values Vararg) (calls : List (Addition Vararg))
        (event : GControllerEvent Nat Values), t ≠ .invalid → creation.Initialised →
          build GController.classInit 0 .add t creation calls = .ok (some event) →
            event.Homogeneous := by
  intro all
  have homogeneous := all .int
    (.createEventv (some ⟨[⟨.string, some "row"⟩], by decide⟩)) []
    ⟨some 0, .add, .int, some ⟨[⟨.string, some "row"⟩], by decide⟩⟩ (by decide)
    (by simp [Creation.Initialised, values]) rfl
  exact absurd (homogeneous.int 0) (by decide)

end GlibController

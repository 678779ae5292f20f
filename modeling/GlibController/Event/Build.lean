import GlibController.Event.Contents

/-!
An event is an append-only list of indices, whichever way it is built.

`Observation.ofList` is the abstract event: a controller, an action, a type and a
list of contents of the type. `Creation.Lists` and `Addition.Adds` say which calls
pass which contents, and `build_faithful` that a history of such calls comes to an
end in an event that cannot be told from the abstract one.
-/

namespace GlibController

open Lib GValueArray

variable {κ VArr Arg : Type} [GValueArray VArr]

/-! ### The abstract event -/

/-- What the queries of an event answer. -/
structure Observation (κ : Type) where
  controller : Option κ
  action : GControllerAction
  indexType : GType
  nIndices : Int
  indexValue : Gint → Except Fault (Option GValue)

/-- The answers owed for a list of indices of one type: its length, the element at
every position inside it, and no element elsewhere. -/
def Observation.ofList (controller : κ) (action : GControllerAction) (t : GType)
    (xs : List t.Payload) : Observation κ where
  controller := some controller
  action := action
  indexType := t
  nIndices := xs.length
  indexValue i := .ok (if 0 ≤ i.toInt then xs[i.toInt.toNat]?.map (GValue.mk t) else none)

def GControllerEvent.observe (event : GControllerEvent κ VArr) : Observation κ where
  controller := event.getController
  action := event.getAction
  indexType := event.getIndexType
  nIndices := event.getNIndices.toInt
  indexValue := event.getIndexValue

/-- Records of values of the index type answer as the list of their contents. -/
theorem Records.observe_eq {event : GControllerEvent κ VArr} {controller : κ}
    {action : GControllerAction} {t : GType} {xs : List t.Payload}
    (records : Records event controller action t (xs.map (GValue.mk t)))
    (short : xs.length < 2 ^ 31) : event.observe = .ofList controller action t xs := by
  have length : event.contents.length = xs.length := by
    rw [records.contents, List.length_map]
  have number : event.getNIndices.toInt = xs.length := by
    rw [event.getNIndices_eq (by omega), length]
  have value : event.getIndexValue = (Observation.ofList controller action t xs).indexValue := by
    funext i
    rw [event.getIndexValue_eq, GControllerEvent.nth, records.contents, records.indexType]
    simp only [Observation.ofList, List.getElem?_map]
    split
    · cases xs[i.toInt.toNat]? with
      | none => rfl
      | some x => exact congrArg (fun v => Except.ok (some v)) (GValue.copy_init ⟨t, x⟩)
    · rfl
  simp only [GControllerEvent.observe, GControllerEvent.getController,
    GControllerEvent.getAction, GControllerEvent.getIndexType, records.controller, records.action,
    records.indexType, number, value]
  rfl

/-! ### The calls that pass a list -/

section Calls

variable [ValueCollector Arg]

/-- The call passes these contents as the indices of the new event: as arguments that
are collected without an error, as an array, or as `NULL` for no index. -/
def Creation.Lists (t : GType) (ys : List t.Payload) : Creation VArr Arg → Prop
  | .createEvent nIndices args =>
      nIndices.toInt = ys.length ∧
        args.map (ValueCollector.collectValue t) = ys.map fun y => (y, none)
  | .createEventv none => ys = []
  | .createEventv (some indices) => values indices = ys.map (GValue.mk t)

/-- The call appends these contents. -/
def Addition.Adds (t : GType) (z : t.Payload) : Addition Arg → Prop
  | .addIndex arg => ValueCollector.collectValue t arg = (z, none)
  | .addIndexValue value => value = ⟨t, z⟩

omit [GValueArray VArr] in
theorem collected_of_collects {t : GType} {args : List Arg} {ys : List t.Payload}
    (h : args.map (ValueCollector.collectValue t) = ys.map fun y => (y, none)) :
    GController.collected t args = ys.map (GValue.mk t) := by
  induction args generalizing ys with
  | nil =>
      rw [List.map_nil, eq_comm, List.map_eq_nil_iff] at h
      subst h
      rfl
  | cons arg args ih =>
      cases ys with
      | nil => cases h
      | cons y ys =>
          simp only [List.map_cons, List.cons.injEq] at h
          have collect : collectInit t arg = (⟨t, y⟩, none) := by
            rw [collectInit, h.1]
          rw [GController.collected, collect, List.map_cons, ← ih h.2]

theorem Creation.Lists.listed_eq {t : GType} {ys : List t.Payload} {creation : Creation VArr Arg}
    (lists : creation.Lists t ys) : creation.listed t = ys.map (GValue.mk t) := by
  cases creation with
  | createEvent nIndices args =>
      obtain ⟨number, collects⟩ := lists
      have length : args.length = ys.length := by simpa using congrArg List.length collects
      rw [Creation.listed, GController.toNat_passes number, List.take_of_length_le length.le]
      exact collected_of_collects collects
  | createEventv indices =>
      cases indices with
      | none =>
          cases lists
          rfl
      | some indices => exact lists

theorem Creation.Lists.complete {t : GType} {ys : List t.Payload} {creation : Creation VArr Arg}
    (lists : creation.Lists t ys) : creation.Complete := by
  cases creation with
  | createEvent nIndices args =>
      obtain ⟨number, collects⟩ := lists
      have length : args.length = ys.length := by simpa using congrArg List.length collects
      exact (GController.toNat_passes number).le.trans length.ge
  | createEventv indices => trivial

omit [GValueArray VArr] in
theorem Addition.Adds.added_eq {t : GType} {z : t.Payload} {call : Addition Arg}
    (adds : call.Adds t z) : call.added t = [⟨t, z⟩] := by
  cases call with
  | addIndex arg =>
      have collect : collectInit t arg = (⟨t, z⟩, none) := by
        rw [collectInit, show ValueCollector.collectValue t arg = (z, none) from adds]
      rw [Addition.added, collect]
  | addIndexValue value =>
      cases adds
      exact if_pos rfl

omit [GValueArray VArr] in
theorem added_of_adds {t : GType} {zs : List t.Payload} {calls : List (Addition Arg)}
    (adds : List.Forall₂ (Addition.Adds t) zs calls) :
    calls.flatMap (Addition.added t) = zs.map (GValue.mk t) := by
  induction adds with
  | nil => rfl
  | cons head _ ih => rw [List.flatMap_cons, head.added_eq, ih, List.map_cons, List.singleton_append]

/-- Every way to build the same list comes to an end, in an event that answers as the
list does. -/
theorem build_faithful {klass : GControllerClass κ VArr}
    (default : klass.createEvent = GController.defaultCreateEvent) (controller : κ)
    (action : GControllerAction) {t : GType} (valid : t ≠ .invalid) (ys zs : List t.Payload)
    (creation : Creation VArr Arg) (lists : creation.Lists t ys) (calls : List (Addition Arg))
    (adds : List.Forall₂ (Addition.Adds t) zs calls) (short : (ys ++ zs).length < 2 ^ 31) :
    ∃ event, build klass controller action t creation calls = .ok (some event) ∧
      event.observe = .ofList controller action t (ys ++ zs) := by
  rw [List.length_append] at short
  obtain ⟨event, hbuild⟩ := build_total calls controller action
    default valid lists.complete (by
      rw [lists.listed_eq, List.length_map, ← adds.length_eq]
      exact short.trans (by decide))
  refine ⟨event, hbuild, Records.observe_eq ?_ (by rwa [List.length_append])⟩
  have records := build_contents default valid hbuild
  rwa [lists.listed_eq, added_of_adds adds, ← List.map_append] at records

end Calls

/-- Two indices passed as arguments, one as a value, and one more as an argument. -/
theorem build_faithful_words :
    ∃ event : GControllerEvent Nat Values,
      build GController.classInit 7 .add .uint (.createEvent 2 [Vararg.word 4, .word 5])
        [.addIndexValue ⟨.uint, (6 : Guint)⟩, .addIndex (.word 4)] = .ok (some event) ∧
      event.observe = .ofList 7 .add .uint [4, 5, 6, 4] :=
  build_faithful rfl 7 .add (t := .uint) (by decide) [4, 5] [6, 4]
    (.createEvent 2 [Vararg.word 4, .word 5]) ⟨by decide, rfl⟩
    [.addIndexValue ⟨.uint, (6 : Guint)⟩, .addIndex (.word 4)] (.cons rfl (.cons rfl .nil))
    (by decide)

end GlibController

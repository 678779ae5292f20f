import GlibController.Event.Build
import GlibController.Event.Readers

/-!
From the call that creates an event to the handlers of `changed`.

`onChanged` is the handler that the programs under `tests/` connect: it compares an event,
by the public queries alone, with what its `ChangedClosure` expects. The programs have one
for controllers of arrays, which reads indices as `uint`, and one for hash tables, which reads
strings. `delivered` says that it accepts an event exactly if the closure expects the list of
indices that the calls listed, in whatever way they did. A handler that reads another type
than that of the event finds as many zeros (`GValue.readAs`).
-/

namespace GlibController

open Lib GValueArray

variable {κ VArr Arg : Type} [GValueArray VArr]

/-! ### The handler -/

/-- `ChangedClosure`, for a handler that reads indices of a type. -/
structure ChangedClosure (t : GType) where
  action : GControllerAction
  indexType : GType
  nIndices : Gint
  indices : List t.Payload

namespace GController

variable {t : GType}

/-- One pass of the loop in `onChanged`, at the position `i`. -/
def onChangedPass (absent : t.Payload) (closure : ChangedClosure t)
    (event : GControllerEvent κ VArr) (i : Guint) (_ : Unit) : Except Fault (Lib.Flow Unit Empty) := do
  let idx ← event.getIndexOf t absent i.toInt32
  match closure.indices[i.toNat]? with
  | none => throw (.outOfBounds i.toNat closure.indices.length)
  | some expected =>
      gAssert (idx = expected)
      return .next ()

/-- `on_changed`, for the accessor of a type and what it answers without an index. -/
def onChanged (absent : t.Payload) (closure : ChangedClosure t) (_controller : κ)
    (action : GControllerAction) (event : GControllerEvent κ VArr) : Except Fault Unit := do
  let indexType := event.getIndexType
  let nIndices := event.getNIndices
  gAssert (action = closure.action)
  gAssert (indexType = closure.indexType)
  gAssert (nIndices = closure.nIndices)
  match ← forBelow (fun _ => passes nIndices) (onChangedPass absent closure event) 0 () with
  | .next () => return ()

/-- `on_changed` of `tests/array-controller.c`. -/
def onArrayChanged (closure : ChangedClosure .uint) :
    κ → GControllerAction → GControllerEvent κ VArr → Except Fault Unit :=
  onChanged 0 closure

/-- `on_changed` of `tests/hash-controller.c`. -/
def onHashChanged (closure : ChangedClosure .string) :
    κ → GControllerAction → GControllerEvent κ VArr → Except Fault Unit :=
  onChanged none closure

/-- `g_controller_emit_changed`: the handlers are given the action of the event, in the order
in which they were connected. -/
def emitChanged (controller : κ) (event : GControllerEvent κ VArr) :
    List (κ → GControllerAction → GControllerEvent κ VArr → Except Fault Unit) → Except Fault Unit
  | [] => .ok ()
  | handler :: handlers => do
      handler controller event.getAction event
      emitChanged controller event handlers

end GController

/-! ### What a handler finds -/

/-- What an accessor of a type answers where a value is stored. -/
def GValue.readAs (t : GType) (absent : t.Payload) (value : GValue) : t.Payload :=
  if h : value.gType = t then h ▸ value.data else absent

@[simp] theorem GValue.readAs_mk (t : GType) (absent x : t.Payload) :
    GValue.readAs t absent ⟨t, x⟩ = x := dif_pos rfl

/-- The closure expects the event: its head, the number of its values, and what the accessor
answers for each of them. Of its own array it reads no more than that number. -/
structure ChangedClosure.Expects {t : GType} (absent : t.Payload) (closure : ChangedClosure t)
    (action : GControllerAction) (indexType : GType) (values : List GValue) : Prop where
  action : closure.action = action
  indexType : closure.indexType = indexType
  nIndices : closure.nIndices.toInt = values.length
  indices : closure.indices.take values.length = values.map (GValue.readAs t absent)

namespace GController

variable {t : GType} {event : GControllerEvent κ VArr}

theorem checks_iff {checks : Except Fault (Lib.Flow Unit Empty)} :
    (checks >>= fun flow => match flow with | .next () => Except.ok ()) = .ok () ↔
      checks = .ok (.next ()) := by
  cases checks with
  | error fault =>
      constructor
      · rintro ⟨⟩
      · rintro ⟨⟩
  | ok flow =>
      cases flow with
      | next _ => exact ⟨fun _ => rfl, fun _ => rfl⟩
      | done r => exact r.elim

/-- An accessor of any type at a position inside an event of one type. -/
theorem getIndexOf_readAs (types : ∀ value ∈ event.contents, value.gType = event.indexType)
    (absent : t.Payload) {i : Gint} {value : GValue} (there : event.nth i = some value) :
    event.getIndexOf t absent i = .ok (value.readAs t absent) := by
  have type := types value (GControllerEvent.mem_of_nth there)
  by_cases same : event.indexType = t
  · have answer := GControllerEvent.getIndexOf_typed types same absent i
    rw [there] at answer
    obtain ⟨data, rfl, read⟩ := answer
    rw [read, GValue.readAs_mk]
  · unfold GControllerEvent.getIndexOf GValue.readAs
    rw [if_pos same, dif_neg (by rwa [type])]

/-- A pass goes through exactly if the closure has there what the accessor answers. -/
theorem onChangedPass_iff (types : ∀ value ∈ event.contents, value.gType = event.indexType)
    (short : event.contents.length < 2 ^ 31) (absent : t.Payload) (closure : ChangedClosure t)
    {i : Guint} (inside : i.toNat < event.contents.length) :
    onChangedPass absent closure event i () = .ok (.next ()) ↔
      closure.indices[i.toNat]? = some (event.contents[i.toNat].readAs t absent) := by
  have position : i.toInt32.toInt = i.toNat := toInt_toInt32 (by omega)
  have there : event.nth i.toInt32 = some event.contents[i.toNat] := by
    unfold GControllerEvent.nth
    rw [position, if_pos (Int.natCast_nonneg _), Int.toNat_natCast,
      List.getElem?_eq_getElem inside]
  unfold onChangedPass
  rw [getIndexOf_readAs types absent there, ok_bind]
  cases closure.indices[i.toNat]? with
  | none =>
      constructor
      · rintro ⟨⟩
      · rintro ⟨⟩
  | some expected =>
      dsimp only
      rw [gAssert_bind_iff, Option.some.injEq, eq_comm (b := expected)]
      exact and_iff_left rfl

/-- The loop goes through exactly if the closure has what the accessor answers for every
value. -/
theorem onChangedLoop_iff (types : ∀ value ∈ event.contents, value.gType = event.indexType)
    (short : event.contents.length < 2 ^ 31) (absent : t.Payload) (closure : ChangedClosure t) :
    forBelow (fun _ => passes event.getNIndices) (onChangedPass absent closure event) 0 () =
        .ok (.next ()) ↔
      closure.indices.take event.contents.length =
        event.contents.map (GValue.readAs t absent) := by
  have number := toNat_passes (event.getNIndices_eq short)
  have size : event.contents.length < UInt32.size := short.trans (by decide)
  rw [forBelow_forall, List.ext_getElem?_iff]
  constructor
  · intro all i
    rw [List.getElem?_take, List.getElem?_map]
    split
    next inside =>
      have word : (UInt32.ofNat i).toNat = i := toNat_ofNat_of_lt (by omega)
      have pass := (onChangedPass_iff types short absent closure (by rwa [word])).mp
        (all (UInt32.ofNat i) (by simp) (by rw [UInt32.lt_iff_toNat_lt, number, word]; exact inside))
      simp only [word] at pass
      rw [pass, List.getElem?_eq_getElem inside, Option.map_some]
    next outside => rw [List.getElem?_eq_none (not_lt.mp outside), Option.map_none]
  · intro same i _ below
    have inside : i.toNat < event.contents.length := by
      rwa [UInt32.lt_iff_toNat_lt, number] at below
    have here := same i.toNat
    rw [List.getElem?_take, if_pos inside, List.getElem?_map, List.getElem?_eq_getElem inside,
      Option.map_some] at here
    exact (onChangedPass_iff types short absent closure inside).mpr here

/-- The handler accepts an event exactly if the closure expects it. -/
theorem onChanged_iff (types : ∀ value ∈ event.contents, value.gType = event.indexType)
    (short : event.contents.length < 2 ^ 31) (absent : t.Payload) (closure : ChangedClosure t)
    (controller : κ) :
    onChanged absent closure controller event.getAction event = .ok () ↔
      closure.Expects absent event.action event.indexType event.contents := by
  have number := event.getNIndices_eq short
  unfold onChanged
  rw [gAssert_bind_iff, gAssert_bind_iff, gAssert_bind_iff, pure_eq_ok, checks_iff,
    onChangedLoop_iff types short, ← Int32.toInt_inj, number]
  constructor
  · rintro ⟨action, indexType, nIndices, indices⟩
    exact ⟨action.symm, indexType.symm, nIndices.symm, indices⟩
  · rintro ⟨action, indexType, nIndices, indices⟩
    exact ⟨action.symm, indexType.symm, nIndices.symm, indices⟩

omit [GValueArray VArr] in
/-- An emission goes through exactly if every handler accepts the event. -/
theorem emitChanged_iff {controller : κ}
    {handlers : List (κ → GControllerAction → GControllerEvent κ VArr → Except Fault Unit)} :
    emitChanged controller event handlers = .ok () ↔
      ∀ handler ∈ handlers, handler controller event.getAction event = .ok () := by
  induction handlers with
  | nil => exact ⟨fun _ _ mem => absurd mem List.not_mem_nil, fun _ => rfl⟩
  | cons handler handlers ih =>
      rw [emitChanged, bind_eq_ok, List.forall_mem_cons, ← ih]
      constructor
      · rintro ⟨⟨⟩, first, rest⟩
        exact ⟨first, rest⟩
      · rintro ⟨first, rest⟩
        exact ⟨(), first, rest⟩

end GController

/-! ### Delivery -/

section Delivery

variable [ValueCollector Arg]

/-- Whatever calls list the indices, the event is emitted without a failed assertion exactly
if every handler expects that list. -/
theorem delivered {klass : GControllerClass κ VArr}
    (default : klass.createEvent = GController.defaultCreateEvent) (controller : κ)
    (action : GControllerAction) {t : GType} (valid : t ≠ .invalid) (ys zs : List t.Payload)
    (creation : Creation VArr Arg) (lists : creation.Lists t ys) (calls : List (Addition Arg))
    (adds : List.Forall₂ (Addition.Adds t) zs calls) (short : (ys ++ zs).length < 2 ^ 31)
    (u : GType) (absent : u.Payload) (closures : List (ChangedClosure u)) :
    ∃ event, build klass controller action t creation calls = .ok (some event) ∧
      (GController.emitChanged controller event (closures.map (GController.onChanged absent)) = .ok () ↔
        ∀ closure ∈ closures,
          closure.Expects absent action t ((ys ++ zs).map (GValue.mk t))) := by
  have room : ys.length + zs.length < UInt32.size := by
    rw [← List.length_append]
    exact short.trans (by decide)
  obtain ⟨event, hbuild⟩ := build_total calls controller action default valid lists.complete
    (by rwa [lists.listed_eq, List.length_map, ← adds.length_eq])
  have records := build_contents default valid hbuild
  rw [lists.listed_eq, added_of_adds adds, ← List.map_append] at records
  have types : ∀ value ∈ event.contents, value.gType = event.indexType := by
    intro value mem
    rw [records.contents] at mem
    obtain ⟨x, -, rfl⟩ := List.mem_map.mp mem
    exact records.indexType.symm
  have few : event.contents.length < 2 ^ 31 := by rwa [records.contents, List.length_map]
  refine ⟨event, hbuild, ?_⟩
  rw [GController.emitChanged_iff, List.forall_mem_map]
  refine forall₂_congr ?_
  intro closure _
  rw [GController.onChanged_iff types few, records.action, records.indexType, records.contents]

end Delivery

/-- Two indices passed as arguments and one as a value, for a handler that reads `uint` and
one that reads strings. -/
theorem delivered_words :
    (∃ event : GControllerEvent Nat Values,
      build GController.classInit 7 .add .uint (.createEvent 2 [Vararg.word 4, .word 5])
        [.addIndexValue ⟨.uint, (6 : Guint)⟩] = .ok (some event) ∧
      GController.emitChanged 7 event [GController.onArrayChanged ⟨.add, .uint, 3, [4, 5, 6]⟩] =
        .ok ()) ∧
    ∃ event : GControllerEvent Nat Values,
      build GController.classInit 7 .add .uint (.createEvent 2 [Vararg.word 4, .word 5])
        [.addIndexValue ⟨.uint, (6 : Guint)⟩] = .ok (some event) ∧
      GController.emitChanged 7 event
        [GController.onHashChanged ⟨.add, .uint, 3, [none, none, none]⟩] = .ok () := by
  have default : (GController.classInit : GControllerClass Nat Values).createEvent =
      GController.defaultCreateEvent := rfl
  have emission := delivered default 7 .add (t := .uint) (by decide) [4, 5] [6]
    (.createEvent 2 [Vararg.word 4, .word 5]) ⟨by decide, rfl⟩
    [.addIndexValue ⟨.uint, (6 : Guint)⟩] (.cons rfl .nil) (by decide)
  constructor
  · obtain ⟨event, run, accepts⟩ := emission .uint 0 [⟨.add, .uint, 3, [4, 5, 6]⟩]
    exact ⟨event, run, accepts.mpr (List.forall_mem_singleton.mpr ⟨rfl, rfl, rfl, rfl⟩)⟩
  · obtain ⟨event, run, accepts⟩ := emission .string none [⟨.add, .uint, 3, [none, none, none]⟩]
    exact ⟨event, run, accepts.mpr (List.forall_mem_singleton.mpr ⟨rfl, rfl, rfl, rfl⟩)⟩

end GlibController

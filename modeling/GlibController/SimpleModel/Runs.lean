import GlibController.SimpleModel.Simulation

/-!
Runs of the simple model, from a new model in an empty memory.

`runs_like` says that a run goes wrong exactly where that of the list does, and shows the
same on the way. `lines_tell` says that the lines a user saw tell the texts, and `leaked`
what is left of a run in memory after the last reference on the model is gone.
-/

namespace GlibController

open Lib Application

variable {VArr PArr : Type} [GPtrArray PArr]

/-! ### The same runs -/

namespace MySimpleModel

/-- What a caller reads: the lines, the texts and their number. -/
def see (o : MySimpleModel VArr PArr) : List Printed × Option (List String × Gint) :=
  (o.env.printed, (do return (← o.getItems, ← o.getSize) : Except Fault _).toOption)

/-- The texts can be read, unless the array is freed. -/
theorem getItems_eq {o : MySimpleModel VArr PArr} {t : TextList} {p q : Nat}
    (rep : IsListAt o t p q) :
    o.getItems = if t.array = .freed then .error .danglingPointer else .ok t.items := by
  unfold getItems
  rw [rep.members, rep.derefArray]
  by_cases freed : t.array = .freed
  · rw [if_pos freed, if_pos freed]
    rfl
  · rw [if_neg freed, if_neg freed, ← rep.texts freed]
    rfl

theorem see_eq {o : MySimpleModel VArr PArr} {t : TextList} (rep : IsList o t) : o.see = t.see := by
  obtain ⟨p, q, rep⟩ := rep
  unfold see TextList.see getSize
  rw [getItems_eq rep, rep.members, rep.printed, rep.derefArray]
  by_cases freed : t.array = .freed
  · rw [if_pos freed, if_pos freed, if_pos freed]
    rfl
  · rw [if_neg freed, if_neg freed, if_neg freed, ← rep.texts freed]
    rfl

/-- The model and the list take the same calls. -/
theorem run_rel [GValueArray VArr] {o : MySimpleModel VArr PArr} (start : IsList o TextList.empty)
    (calls : List SimpleModelCall) :
    Option.Rel IsList (run step o calls) (run TextList.step TextList.empty calls) :=
  stepsLike.run start fun _ _ => trivial

/-- The model and the list go wrong together, and show the same until then. -/
theorem runs_like [GValueArray VArr] : ∃ o : MySimpleModel VArr PArr, init empty = .ok o ∧
    ∀ calls : List SimpleModelCall,
      trace step see o calls = trace TextList.step TextList.see TextList.empty calls ∧
        ((run step o calls).isSome ↔ (run TextList.step TextList.empty calls).isSome) := by
  obtain ⟨o, new, rep⟩ := init_ok VArr PArr
  refine ⟨o, new, ?_⟩
  intro calls
  have start : IsList o TextList.empty := ⟨0, 0, rep⟩
  refine ⟨stepsLike.trace_eq (fun _ _ => see_eq) start fun _ _ => trivial, ?_⟩
  have ends := run_rel start calls
  generalize run step o calls = x at ends
  generalize run TextList.step TextList.empty calls = y at ends
  cases ends with
  | some _ => exact Iff.rfl
  | none => exact Iff.rfl

/-- A run that does not go wrong is one of the list. -/
theorem run_isList [GValueArray VArr] {o o' : MySimpleModel VArr PArr} {calls : List SimpleModelCall}
    (start : IsList o TextList.empty) (h : run step o calls = some o') :
    ∃ t, run TextList.step TextList.empty calls = some t ∧ IsList o' t := by
  have ends := run_rel start calls
  rw [h] at ends
  generalize run TextList.step TextList.empty calls = y at ends
  cases ends with
  | some rep => exact ⟨_, rfl, rep⟩

/-- A run of the list is one of the model. -/
theorem run_of_list [GValueArray VArr] {o : MySimpleModel VArr PArr} {calls : List SimpleModelCall}
    {t : TextList} (start : IsList o TextList.empty)
    (h : run TextList.step TextList.empty calls = some t) :
    ∃ o', run step o calls = some o' ∧ IsList o' t := by
  have ends := run_rel start calls
  rw [h] at ends
  generalize run step o calls = x at ends
  cases ends with
  | some rep => exact ⟨_, rfl, rep⟩

end MySimpleModel

/-! ### What a run leaves -/

/-- The line tells a removal. -/
def Printed.isRemoved : Printed → Bool
  | .removed _ _ => true
  | _ => false

namespace TextList

/-- What the calls have done to the array, and to memory. -/
structure After (calls : List SimpleModelCall) (t : TextList) : Prop where
  kept : t.array = .kept ↔ .clear ∈ calls
  first : t.array = .first ↔ ∀ c ∈ calls, ¬ c.allocates
  arrays : t.lostArrays = calls.countP (·.allocates)
  events : t.lostEvents = t.printed.countP (·.isRemoved)

theorem after_step {calls : List SimpleModelCall} {t t' : TextList} {c : SimpleModelCall}
    (after : After calls t) (h : t.step c = some t') : After (calls ++ [c]) t' := by
  obtain ⟨kept, first, arrays, events⟩ := after
  have quiet : ∀ {c : SimpleModelCall}, c.allocates = false →
      (t.array = .kept ↔ .clear ∈ calls ++ [c]) ∧
        (t.array = .first ↔ ∀ d ∈ calls ++ [c], ¬ d.allocates) ∧
        t.lostArrays = (calls ++ [c]).countP (·.allocates) := by
    intro c none
    refine ⟨?_, ?_, ?_⟩
    · rw [List.mem_append, List.mem_singleton, kept]
      constructor
      · exact .inl
      · rintro (mem | rfl)
        · exact mem
        · cases none
    · rw [List.forall_mem_append, List.forall_mem_singleton, first, none]
      simp
    · rw [List.countP_append, List.countP_singleton, none, arrays]
      rfl
  have told : ∀ line : Printed, (t.printed ++ [line]).countP (·.isRemoved) =
      t.lostEvents + if line.isRemoved then 1 else 0 := by
    intro line
    rw [List.countP_append, List.countP_singleton, events]
  cases effect_of_step h with
  | nothing silent =>
      obtain ⟨kept, first, arrays⟩ := quiet (Bool.not_eq_true _ ▸ silent)
      exact ⟨kept, first, arrays, events⟩
  | added text readable room =>
      obtain ⟨kept, first, arrays⟩ := quiet (c := .addText (some text)) rfl
      exact ⟨kept, first, arrays, (told (.added text (Int32.ofNat t.items.length))).symm⟩
  | removed text mem =>
      obtain ⟨kept, first, arrays⟩ := quiet (c := .removeText (some text)) rfl
      exact ⟨kept, first, arrays, (told (.removed text (Int32.ofNat (t.items.idxOf text)))).symm⟩
  | set text =>
      refine ⟨?_, ?_, ?_, events⟩
      · rw [List.mem_append, List.mem_singleton, ← kept]
        cases harray : t.array <;> simp
      · constructor
        · intro none
          exfalso
          cases harray : t.array <;> simp [harray] at none
        · intro none
          exact absurd rfl (none _ (List.mem_append_right _ (List.mem_singleton_self _)))
      · rw [List.countP_append, List.countP_singleton, ← arrays]
        rfl
  | clear =>
      refine ⟨iff_of_true rfl (List.mem_append_right _ (List.mem_singleton_self _)), ?_, ?_, ?_⟩
      · constructor
        · intro none
          cases none
        · intro none
          exact absurd rfl (none _ (List.mem_append_right _ (List.mem_singleton_self _)))
      · rw [List.countP_append, List.countP_singleton, ← arrays]
        rfl
      · exact (told .cleared).symm

theorem after_of_run {calls : List SimpleModelCall} {t : TextList}
    (h : run step TextList.empty calls = some t) : After calls t := by
  apply run_history After (fun _ _ _ _ after h => after_step after h) _ h
  exact ⟨by simp [TextList.empty], by simp [TextList.empty], rfl, rfl⟩

/-- The first array is freed once another is set, as long as the model is never cleared. -/
theorem After.freed {calls : List SimpleModelCall} {t : TextList} (after : After calls t) :
    t.array = .freed ↔ .clear ∉ calls ∧ ∃ c ∈ calls, c.allocates := by
  have used : (∃ c ∈ calls, c.allocates) ↔ t.array ≠ .first := by
    rw [ne_eq, after.first]
    push Not
    rfl
  rw [← after.kept, used]
  cases t.array <;> simp

end TextList

namespace MySimpleModel

variable [GValueArray VArr]

/-- The lines that the user saw tell the texts: applied in order, they turn an empty list into
the texts of the model. The texts can be read unless the model still points at the first
array, which is freed. -/
theorem lines_tell : ∃ o : MySimpleModel VArr PArr, init empty = .ok o ∧
    ∀ (calls : List SimpleModelCall) (o' : MySimpleModel VArr PArr), run step o calls = some o' →
      ∃ items, run Printed.apply [] o'.env.printed = some items ∧
        o'.getItems = if .clear ∉ calls ∧ ∃ c ∈ calls, c.allocates then .error .danglingPointer
          else .ok items := by
  obtain ⟨o, new, rep⟩ := init_ok VArr PArr
  refine ⟨o, new, ?_⟩
  intro calls o' h
  obtain ⟨t, ht, p, q, rep'⟩ := run_isList ⟨0, 0, rep⟩ h
  have told : t.Told := TextList.told_of_run ⟨Nat.zero_le _, rfl⟩ ht
  refine ⟨t.items, by rw [rep'.printed]; exact told.2, ?_⟩
  rw [getItems_eq rep']
  exact if_congr (TextList.after_of_run ht).freed rfl rfl

/-- Texts that are added and removed in a model that is cleared and used again. -/
def session : List SimpleModelCall :=
  [.addText "a", .addText "b", .removeText "a", .clear, .addText "c"]

/-- The lines of the session tell the text that is left. They also do where the array that
the model points at is freed. -/
theorem lines_tell_session :
    ∃ o : MySimpleModel Values Strings, init empty = .ok o ∧
      (∃ o', run step o session = some o' ∧
        run Printed.apply [] o'.env.printed = some ["c"] ∧ o'.getItems = .ok ["c"]) ∧
      ∃ o', run step o [.addText "a", .setItems 0 []] = some o' ∧
        run Printed.apply [] o'.env.printed = some ["a"] ∧
        o'.getItems = .error .danglingPointer := by
  obtain ⟨o, new, tell⟩ := @lines_tell Values Strings _ _
  obtain ⟨model, new', isList⟩ := init_ok Values Strings
  cases new.symm.trans new'
  refine ⟨o, new, ?_, ?_⟩
  · obtain ⟨o', ran, p, q, rep⟩ := run_of_list ⟨0, 0, isList⟩
      (rfl : run TextList.step TextList.empty session = some _)
    obtain ⟨items, told, read⟩ := tell session o' ran
    rw [rep.printed] at told
    cases told
    exact ⟨o', ran, by rw [rep.printed]; rfl, read.trans (if_neg (by decide))⟩
  · obtain ⟨o', ran, p, q, rep⟩ := run_of_list ⟨0, 0, isList⟩
      (rfl : run TextList.step TextList.empty [.addText "a", .setItems 0 []] = some _)
    obtain ⟨items, told, read⟩ := tell _ o' ran
    exact ⟨o', ran, by rw [rep.printed]; rfl, read.trans (if_pos (by decide))⟩

/-! ### The end of the model -/

omit [GPtrArray PArr] in
theorem keepsCount : (slots : Slots (Application VArr PArr) SimpleModelMembers).KeepsCount := by
  intro o o' h
  have disposes : dispose objectClass o = .ok o' := h
  unfold dispose at disposes
  cases hc : o.priv.controller with
  | none =>
      simp only [hc] at disposes
      cases disposes
      rfl
  | some c =>
      simp only [hc] at disposes
      obtain ⟨env, -, rest⟩ := bind_eq_ok.mp disposes
      cases rest
      rfl

/-- The last reference on the model gone, the controller and its array go. -/
theorem unref_ok {o : MySimpleModel VArr PArr} {t : TextList} {p q : Nat}
    (isList : IsListAt o t p q) :
    ∃ o', slots.unref o = .ok o' ∧ o'.refCount = 0 ∧
      o'.env.sys.heap.storages = lostReferences t.lostArrays ∧
      (∃ marks, o'.env.sys.heap.controllers = [⟨.ptrArray, ⟨0, ⟨none⟩, marks⟩⟩]) ∧
      o'.env.sys.events = o.env.sys.events := by
  obtain ⟨heap, run, storages, marks, controllers⟩ := isList.holds.heap.unref_last
  rw [Slots.unref_last keepsCount isList.alive]
  have call : ∃ sys, o.env.call (.unrefController 0) = .ok { o.env with sys } ∧ sys.heap = heap ∧
      sys.events = o.env.sys.events := by
    unfold Application.call System.exec System.onHeap
    simp only [run, ok_bind, pure_eq_ok]
    exact ⟨_, rfl, rfl, rfl⟩
  obtain ⟨sys, call, rfl, events⟩ := call
  let released : MySimpleModel VArr PArr :=
    { o with priv := ⟨none, some q⟩, env := { o.env with sys } }
  have disposes : slots.dispose o = .ok (released.mark .parentDispose) := by
    show dispose objectClass o = _
    unfold dispose
    simp only [isList.members, call, ok_bind]
    rfl
  rw [disposes, ok_bind]
  exact ⟨_, rfl, rfl, storages, ⟨marks, controllers⟩, events⟩

/-- What is left in memory after a run and the last `g_object_unref` on the model. The
controller is finalised. An array for each `set_items` and `clear`, and an event for each text
that was removed, are never freed, and these events still point at the controller. -/
theorem leaked : ∃ o : MySimpleModel VArr PArr, init empty = .ok o ∧
    ∀ (calls : List SimpleModelCall) (o' : MySimpleModel VArr PArr), run step o calls = some o' →
      ∃ last, slots.unref o' = .ok last ∧
        (∀ x ∈ last.env.sys.heap.controllers, x.object.refCount = 0 ∧ x.object.priv.storage = none) ∧
        last.env.sys.heap.storages = lostReferences (calls.countP (·.allocates)) ∧
        last.env.sys.events.countP (fun x => 0 < x.refCount) =
          o'.env.printed.countP (·.isRemoved) ∧
        ∀ x ∈ last.env.sys.events, 0 < x.refCount → x.priv.getController = some 0 := by
  obtain ⟨o, new, isList⟩ := init_ok VArr PArr
  refine ⟨o, new, ?_⟩
  intro calls o' h
  obtain ⟨t, ht, p, q, isList'⟩ := run_isList ⟨0, 0, isList⟩ h
  have after := TextList.after_of_run ht
  obtain ⟨last, run, -, storages, ⟨marks, controllers⟩, events⟩ := unref_ok isList'
  refine ⟨last, run, ?_, ?_, ?_, ?_⟩
  · intro x mem
    rw [controllers, List.mem_singleton] at mem
    subst mem
    exact ⟨rfl, rfl⟩
  · rw [storages, after.arrays]
  · rw [events, isList'.events.count, after.events, isList'.printed]
  · intro x mem live
    rw [events] at mem
    rcases isList'.events.each x mem with isLost | gone
    · exact isLost.2
    · exact absurd gone.1 live.ne'

/-- The session leaves a reference on the array that `clear` made, and one event. -/
theorem leaked_session :
    ∃ o o' last : MySimpleModel Values Strings, init empty = .ok o ∧ run step o session = some o' ∧
      slots.unref o' = .ok last ∧ last.env.sys.heap.storages = lostReferences 1 ∧
      last.env.sys.events.countP (fun x => 0 < x.refCount) = 1 := by
  obtain ⟨o, new, leaks⟩ := @leaked Values Strings _ _
  obtain ⟨model, new', isList⟩ := init_ok Values Strings
  cases new.symm.trans new'
  obtain ⟨o', ran, p, q, rep⟩ := run_of_list ⟨0, 0, isList⟩
    (rfl : run TextList.step TextList.empty session = some _)
  obtain ⟨last, dropped, -, storages, events, -⟩ := leaks session o' ran
  rw [rep.printed] at events
  exact ⟨o, o', last, new, ran, dropped, storages, events⟩

end MySimpleModel

end GlibController

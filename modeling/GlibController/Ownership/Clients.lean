import GlibController.Ownership.Emission

/-!
All that clients of the library do, inside and outside of emissions.

An event is not closed when its emission begins: whoever holds a reference on it, a handler
too, may add indices. And who holds a controller may read its property, which gives a reference
on the storage. `ClientStep` adds both to the calls and emissions of a `SignalSystem`.
`appended` says that emissions stay as safe as they were, and that an event is a log over every
run: whatever steps come in between, an event holds the indices that it held before, in their
places, and after them those that the run has added to it.
-/

namespace GlibController

open Lib

variable {VArr Arg : Type} [GValueArray VArr] [ValueCollector Arg]

/-! ### Steps -/

/-- A step of a system with emissions, an addition to an event, or a look at the property of
a controller. -/
inductive ClientStep (VArr Arg : Type) where
  | signal (step : SignalStep VArr Arg)
  | add (e : Nat) (call : Addition Arg)
  | getProperty (c : Nat)

/-- The addition, on an event that is there. -/
def Addition.slot (call : Addition Arg) : Slot Heap (GControllerEvent Nat VArr) := fun o =>
  if o.refCount = 0 then .error .danglingPointer
  else do
    let event ← call.run o.priv
    return { o with priv := event }

/-- `g_object_get` of the storage of a controller. The caller owns what it gets. -/
def System.getProperty (sys : System VArr) (c : Nat) : Except Fault (System VArr) :=
  match sys.heap.controllers[c]? with
  | none => .error .danglingPointer
  | some x =>
      if x.object.refCount = 0 then .error .danglingPointer
      else do
        let (storages, storage) ← x.kind.getProperty ⟨x.object, sys.heap.storages⟩
        let read : System VArr := { sys with heap := { sys.heap with storages } }
        return read.withOutside fun out =>
          { out with storages := plus out.storages (x.kind.at storage) }

namespace SignalSystem

def act (x : SignalSystem VArr) : ClientStep VArr Arg → Except Fault (SignalSystem VArr)
  | .signal step => x.exec step
  | .add e call => do
      let sys ← x.sys.onEvent e call.slot
      return { x with sys }
  | .getProperty c => do
      let sys ← x.sys.getProperty c
      return { x with sys }

/-- An event has room for one more value. -/
def HasRoom (x : SignalSystem VArr) (e : Nat) : Prop :=
  ∀ event : GObject (GControllerEvent Nat VArr), x.sys.events[e]? = some event →
    event.priv.contents.length + 1 < UInt32.size

/-- Somebody holds a reference on what is passed, be it an emission. -/
def ClientHolds (x : SignalSystem VArr) : ClientStep VArr Arg → Prop
  | .signal step => x.CallerHolds step
  | .add e _ => 0 < x.sys.outside.events e ∧ x.HasRoom e
  | .getProperty c => 0 < x.sys.outside.controllers c

/-- Every interleaving of such steps from an empty memory. -/
def clientMachine (VArr Arg : Type) [GValueArray VArr] [ValueCollector Arg] :
    Machine (SignalSystem VArr) (ClientStep VArr Arg) where
  start x := x = ⟨System.empty, []⟩
  step x step x' := x.act step = .ok x'

end SignalSystem

/-! ### What a step appends -/

/-- The values that a step appends to an event of a type. -/
def ClientStep.added (e : Nat) (t : GType) : ClientStep VArr Arg → List GValue
  | .signal _ => []
  | .add e' call => if e' = e then call.added t else []
  | .getProperty _ => []

/-- An event with the same action and type, and these values after those that it had. -/
structure GControllerEvent.Grown (event : GControllerEvent Nat VArr) (values : List GValue)
    (event' : GControllerEvent Nat VArr) : Prop where
  action : event'.action = event.action
  indexType : event'.indexType = event.indexType
  contents : event'.contents = event.contents ++ values

/-- Every event is still there, grown by what was added to it. -/
def AllGrown (added : Nat → GType → List GValue)
    (events events' : List (GObject (GControllerEvent Nat VArr))) : Prop :=
  ∀ (e : Nat) (x : GObject (GControllerEvent Nat VArr)), events[e]? = some x →
    ∃ x' : GObject (GControllerEvent Nat VArr), events'[e]? = some x' ∧
      x.priv.Grown (added e x.priv.indexType) x'.priv

theorem AllGrown.trans {first second : Nat → GType → List GValue}
    {events events' events'' : List (GObject (GControllerEvent Nat VArr))}
    (grown : AllGrown first events events') (more : AllGrown second events' events'') :
    AllGrown (fun e t => first e t ++ second e t) events events'' := by
  intro e x hx
  obtain ⟨x', hx', now⟩ := grown e x hx
  obtain ⟨x'', hx'', after⟩ := more e x' hx'
  refine ⟨x'', hx'', after.action.trans now.action, after.indexType.trans now.indexType, ?_⟩
  rw [after.contents, now.contents, now.indexType, List.append_assoc]

/-- Events that keep what they record have grown by nothing. -/
theorem KeepsRecords.allGrown {events events' : List (GObject (GControllerEvent Nat VArr))}
    (keeps : KeepsRecords events events') : AllGrown (fun _ _ => []) events events' := by
  intro e x hx
  obtain ⟨x', hx', same⟩ := keeps e x hx
  have action := congrArg (fun r => r.1) same
  have indexType := congrArg (fun r => r.2.1) same
  have indices := congrArg (fun r => r.2.2) same
  refine ⟨x', hx', action, indexType, ?_⟩
  unfold GControllerEvent.contents
  rw [List.append_nil]
  exact congrArg listed indices

namespace SignalSystem

variable {x x' : SignalSystem VArr} {sys sys' : System VArr}

/-- No call and no emission changes what an event records. -/
theorem exec_records {step : SignalStep VArr Arg} (run : x.exec step = .ok x') :
    KeepsRecords x.sys.events x'.sys.events := by
  cases step with
  | call call =>
      obtain ⟨sys, hexec, rest⟩ := bind_eq_ok.mp run
      cases rest
      exact (System.exec_leaves hexec).records
  | emitChanged c e =>
      obtain ⟨⟨sys, em⟩, begins, rest⟩ := bind_eq_ok.mp run
      cases rest
      obtain ⟨event, -, rest⟩ := bind_eq_ok.mp begins
      obtain ⟨sys₁, run₁, rest⟩ := bind_eq_ok.mp rest
      obtain ⟨sys₂, run₂, rest⟩ := bind_eq_ok.mp rest
      cases rest
      exact (System.refController_eq run₂).1 ▸ (System.refEvent_eq run₁).1
  | finish =>
      unfold exec at run
      cases hem : x.emissions with
      | nil =>
          rw [hem] at run
          cases run
          exact .refl _
      | cons em emissions =>
          rw [hem] at run
          obtain ⟨sys, ends, rest⟩ := bind_eq_ok.mp run
          cases rest
          obtain ⟨sys₁, run₁, run₂⟩ := bind_eq_ok.mp ends
          have first : x.sys.exec (.unrefEvent em.event : OwnershipCall VArr Vararg) = .ok sys₁ := run₁
          have second : sys₁.exec (.unrefController em.controller : OwnershipCall VArr Vararg) =
              .ok sys := run₂
          exact (System.exec_leaves first).records.trans (System.exec_leaves second).records

/-- An addition that comes to an end has appended to its event. -/
theorem slot_grown {call : Addition Arg} {o o' : Instance Heap (GControllerEvent Nat VArr)}
    (run : call.slot o = .ok o') :
    o.priv.Grown (call.added o.priv.indexType) o'.priv ∧ o'.priv.controller = o.priv.controller ∧
      o'.refCount = o.refCount ∧ o'.marks = o.marks ∧ o'.env = o.env := by
  unfold Addition.slot at run
  split at run
  next => cases run
  next alive =>
    obtain ⟨event, added, rest⟩ := bind_eq_ok.mp run
    cases rest
    obtain ⟨head, contents⟩ := Addition.run_ok added
    exact ⟨⟨head.action, head.indexType, contents⟩, head.controller, rfl, rfl, rfl⟩

omit [GValueArray VArr] in
/-- Reading a property leaves the events, and the references on controllers and events. -/
theorem getProperty_eq {c : Nat} (run : sys.getProperty c = .ok sys') :
    sys'.events = sys.events ∧ sys'.outside.controllers = sys.outside.controllers ∧
      sys'.outside.events = sys.outside.events := by
  unfold System.getProperty at run
  split at run
  next => cases run
  next =>
    split at run
    next => cases run
    next =>
      obtain ⟨⟨storages, storage⟩, -, rest⟩ := bind_eq_ok.mp run
      cases rest
      exact ⟨rfl, rfl, rfl⟩

/-- A step appends to the event that it adds to, and to no other. -/
theorem act_grown {step : ClientStep VArr Arg} (run : x.act step = .ok x') :
    AllGrown (fun e t => step.added e t) x.sys.events x'.sys.events := by
  cases step with
  | signal step => exact (exec_records run).allGrown
  | add e call =>
      obtain ⟨sys, hadd, rest⟩ := bind_eq_ok.mp run
      cases rest
      obtain ⟨event, o', here, adds, rfl⟩ := System.onEvent_inv hadd
      obtain ⟨inside, -⟩ := List.getElem?_eq_some_iff.mp here
      intro b other hother
      by_cases same : e = b
      · subst same
        rw [here] at hother
        cases hother
        refine ⟨o'.toGObject, List.getElem?_set_self inside, ?_⟩
        simp only [ClientStep.added, if_true]
        exact (slot_grown adds).1
      · refine ⟨other, (List.getElem?_set_ne same).trans hother, rfl, rfl, ?_⟩
        simp only [ClientStep.added, if_neg same, List.append_nil]
  | getProperty c =>
      obtain ⟨sys, hread, rest⟩ := bind_eq_ok.mp run
      cases rest
      exact (getProperty_eq hread).1 ▸ (KeepsRecords.refl _).allGrown

/-- Over a run, an event grows by what the steps append to it, in their order. -/
theorem run_grown {steps : List (ClientStep VArr Arg)}
    (run : Lib.run (fun x step => (act x step).toOption) x steps = some x') :
    AllGrown (fun e t => steps.flatMap (ClientStep.added e t)) x.sys.events x'.sys.events := by
  induction steps generalizing x with
  | nil =>
      cases run
      exact (KeepsRecords.refl _).allGrown
  | cons step steps ih =>
      obtain ⟨next, first, rest⟩ := run_cons run
      have taken : x.act step = .ok next := by
        cases hstep : x.act step with
        | error e =>
            rw [hstep] at first
            cases first
        | ok y =>
            rw [hstep] at first
            cases first
            rfl
      simp only [List.flatMap_cons]
      exact (act_grown taken).trans (ih rest)

/-! ### Safety -/

/-- An addition leaves the references of an event, and what it holds. -/
theorem eventOwes_add {outside : RefCounts Storage} {o : Instance Heap (GControllerEvent Nat VArr)}
    (ok : HeapOk o.env outside) (event : EventOk o.toGObject) (alive : 0 < o.refCount)
    (call : Addition Arg) (room : o.priv.contents.length + 1 < UInt32.size) :
    EventOwes outside o o.refCount (call.slot o) := by
  intro others counts
  obtain ⟨event', added⟩ := call.run_total o.priv room
  have run : call.slot o = .ok { o with priv := event' } := by
    unfold Addition.slot
    rw [if_neg alive.ne', added]
    rfl
  obtain ⟨-, controller, refs, marks, env⟩ := slot_grown run
  refine ⟨_, run, rfl, ok, ?_, ?_, ?_⟩
  · rw [controller]
    exact counts
  · exact (Iff.of_eq (congrArg (· = none) controller)).trans event.disposed
  · intro dead
    exact controller.trans (event.finalized dead)

/-- The emissions that go on keep their references, and the actions they tell. -/
theorem add_ok (ok : SignalOk x) {e : Nat} {call : Addition Arg}
    (holds : x.ClientHolds (.add e call)) :
    ∃ x', x.act (.add e call) = .ok x' ∧ SignalOk x' := by
  obtain ⟨held, room⟩ := holds
  obtain ⟨event, here, alive, -⟩ := eventAt_ok ok.books held
  have owes := eventOwes_add (o := ⟨event, x.sys.heap⟩) ok.books.heap
    (ok.books.each event (List.mem_of_getElem? here)) alive call (room event here)
  obtain ⟨sys, hadd, books⟩ := System.onEvent_at_ok (fun n => n) (fun held => held) ok.books here owes
    (Function.update_eq_self _ _)
  have run : x.act (.add e call) = .ok { x with sys } := by
    simp only [act, hadd, ok_bind, pure_eq_ok]
  have grown := act_grown run
  obtain ⟨_, o', -, -, same⟩ := System.onEvent_inv hadd
  have outside : sys.outside = x.sys.outside := by rw [same]
  refine ⟨_, run, books, ?_, ?_, ?_⟩
  · intro c
    exact (ok.controllers c).trans_eq (congrFun (congrArg Outside.controllers outside.symm) c)
  · intro b
    exact (ok.events b).trans_eq (congrFun (congrArg Outside.events outside.symm) b)
  · intro em mem
    obtain ⟨before, hbefore, action⟩ := ok.actions em mem
    obtain ⟨after, hafter, now⟩ := grown em.event before hbefore
    exact ⟨after, hafter, now.action.trans action⟩

omit [GValueArray VArr] in
/-- The storage that a live controller points at is alive, so that it can be lent. -/
theorem lendStorage_ok (ok : SystemOk sys) {c : Nat} (held : 0 < sys.outside.controllers c) :
    ∃ sys', sys.getProperty c = .ok sys' ∧ SystemOk sys' := by
  obtain ⟨controller, here, count⟩ := Heap.exists_of_counts (ok.controllers.pos_of_outside held)
  have alive : controller.object.refCount ≠ 0 := by
    rw [count]
    exact (ok.controllers.pos_of_outside held).ne'
  have exist : ∀ s, controller.held = some s → 0 < sys.heap.storages s := by
    intro s points
    exact ok.heap.balanced.pos_of_mem
      (List.mem_map.mpr ⟨controller, List.mem_of_getElem? here, points⟩)
  have lent : controller.kind.getProperty ⟨controller.object, sys.heap.storages⟩ =
      .ok (plus sys.heap.storages controller.held, controller.object.priv.storage) := by
    rw [StorageKind.getProperty_eq, StorageController.getProperty]
    exact congrArg (fun r => r >>= fun env => .ok (env, controller.object.priv.storage))
      (RefCounts.refPtr_eq exist)
  refine ⟨{ sys with
      heap := { sys.heap with storages := plus sys.heap.storages controller.held }
      outside := { sys.outside with storages := plus sys.outside.storages controller.held } },
    ?_, ⟨ok.heap.balanced.lend controller.held, ok.heap.finalized⟩, ok.controllers, ok.events,
    ok.each⟩
  rw [System.getProperty, here]
  simp only [if_neg alive, lent, ok_bind, pure_eq_ok]
  rfl

theorem getProperty_ok (ok : SignalOk x) {c : Nat}
    (holds : x.ClientHolds (.getProperty c : ClientStep VArr Arg)) :
    ∃ x', x.act (.getProperty c : ClientStep VArr Arg) = .ok x' ∧ SignalOk x' := by
  obtain ⟨sys, read, books⟩ := lendStorage_ok ok.books holds
  obtain ⟨events, outsideControllers, outsideEvents⟩ := getProperty_eq read
  refine ⟨{ x with sys }, ?_, books, ?_, ?_, ?_⟩
  · simp only [act, read, ok_bind, pure_eq_ok]
  · intro c
    exact (ok.controllers c).trans_eq (congrFun outsideControllers.symm c)
  · intro e
    exact (ok.events e).trans_eq (congrFun outsideEvents.symm e)
  · exact actions_kept ok.actions (events ▸ KeepsRecords.refl _)

/-- Every step of a client that holds what it passes comes to an end. -/
theorem act_ok (ok : SignalOk x) {step : ClientStep VArr Arg} (holds : x.ClientHolds step) :
    ∃ x', x.act step = .ok x' ∧ SignalOk x' := by
  cases step with
  | signal step => exact step_ok ok holds
  | add e call => exact add_ok ok holds
  | getProperty c => exact getProperty_ok ok holds

theorem signalOk_of_clients (reach : (clientMachine VArr Arg).ReachBy ClientHolds x) :
    SignalOk x := by
  apply reach.invariant_of_returns SignalOk
  · exact fun _ _ _ run => run
  · rintro _ rfl
    have start : (machine VArr Arg).ReachBy CallerHolds ⟨System.empty, []⟩ := .start rfl
    exact signalOk_of_reach start
  · intro x step ok holds
    exact act_ok ok holds

/-- Emissions are as safe when events are added to while they go on, and over every run an
event keeps its values, in their places, before those that the run adds to it. -/
theorem appended (reach : (clientMachine VArr Arg).ReachBy ClientHolds x) :
    SystemOk x.sys ∧ (∀ em ∈ x.emissions, x.HandlerSafe em) ∧
      (∀ step : ClientStep VArr Arg, x.ClientHolds step → ∃ x', x.act step = .ok x') ∧
      ∀ (steps : List (ClientStep VArr Arg)) (x' : SignalSystem VArr),
        Lib.run (fun x step => (act x step).toOption) x steps = some x' →
          AllGrown (fun e t => steps.flatMap (ClientStep.added e t)) x.sys.events x'.sys.events := by
  have ok := signalOk_of_clients reach
  refine ⟨ok.books, fun em mem => handlerSafe_of_ok ok mem, ?_, fun steps x' => run_grown⟩
  intro step holds
  obtain ⟨x', run, -⟩ := act_ok ok holds
  exact ⟨x', run⟩

/-- A handler adds two values to the event of its emission, and returns. -/
def handlerAdds : List (ClientStep Values Vararg) :=
  [.add 0 (.addIndex (.word 7)), .add 0 (.addIndexValue ⟨.uint, 8⟩), .signal .finish]

theorem appended_handler :
    ∃ x x' : SignalSystem Values, x.emissions = [⟨0, 0, .add⟩] ∧ x'.emissions = [] ∧
      AllGrown (fun e t => handlerAdds.flatMap (ClientStep.added e t)) x.sys.events x'.sys.events := by
  have start : (clientMachine Values Vararg).ReachBy ClientHolds ⟨System.empty, []⟩ := .start rfl
  have controller := start.step (a := .signal (.call (.new .hash))) (by exact ⟨trivial, trivial⟩)
    (by rfl)
  have event := controller.step (a := .signal (.call (.createEvent 0 .add .uint (.createEventv none))))
    (by exact ⟨⟨by decide, trivial⟩, trivial⟩) (by rfl)
  have emitted := event.step (a := .signal (.emitChanged 0 0)) (by exact ⟨by decide, by decide⟩)
    (by rfl)
  exact ⟨_, _, rfl, rfl, (appended emitted).2.2.2 handlerAdds _ rfl⟩

end SignalSystem

end GlibController

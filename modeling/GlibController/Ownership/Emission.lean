import GlibController.Ownership.Accounting

/-!
Emissions of `GController::changed`, nested to any depth.

`g_controller_emit_changed` hands the event and its action to GSignal, which holds a
reference on the controller and one on the event until the last handler has returned.
A handler is any code: it may call every function of the interface, on the objects it
is passed as well, and it may emit again. `SignalSystem` is the system with the
emissions that go on, the innermost first, and `emissions_safe` says that in every
interleaving the books stay balanced, no call fails, and every handler sees a live
event with the action it was told.
-/

namespace GlibController

open Lib

variable {VArr Arg : Type}

/-! ### One emission -/

/-- An emission that goes on, with the arguments of its handlers. -/
structure Emission where
  controller : Nat
  event : Nat
  action : GControllerAction
  deriving DecidableEq, Repr

namespace System

/-- The event at an address, about to be read. -/
def eventAt (sys : System VArr) (e : Nat) : Except Fault (GControllerEvent Nat VArr) :=
  match sys.events[e]? with
  | none => .error .danglingPointer
  | some x => if x.refCount = 0 then .error .danglingPointer else .ok x.priv

def refEvent (sys : System VArr) (e : Nat) : Except Fault (System VArr) := do
  let sys ← sys.onEvent e Slots.ref
  return sys.withOutside fun out => { out with events := plus out.events (some e) }

def unrefEvent (sys : System VArr) (e : Nat) : Except Fault (System VArr) := do
  let sys ← sys.onEvent e eventClass.unref
  return sys.withOutside fun out => { out with events := minus out.events e }

def refController (sys : System VArr) (c : Nat) : Except Fault (System VArr) := do
  let sys ← sys.onHeap (Heap.refController c)
  return sys.withOutside fun out => { out with controllers := plus out.controllers (some c) }

def unrefController (sys : System VArr) (c : Nat) : Except Fault (System VArr) := do
  let sys ← sys.onHeap (Heap.unrefController c)
  return sys.withOutside fun out => { out with controllers := minus out.controllers c }

/-- `g_controller_emit_changed`, up to its handlers. The action is read from the event,
and the arguments of the signal hold references. -/
def beginEmission (sys : System VArr) (c e : Nat) : Except Fault (System VArr × Emission) := do
  let event ← sys.eventAt e
  let sys ← sys.refEvent e
  let sys ← sys.refController c
  return (sys, ⟨c, e, event.getAction⟩)

/-- The end of an emission: its references are dropped. -/
def finishEmission (sys : System VArr) (em : Emission) : Except Fault (System VArr) := do
  let sys ← sys.unrefEvent em.event
  sys.unrefController em.controller

end System

/-! ### Nested emissions -/

/-- A system and its emissions that go on, the innermost first. -/
structure SignalSystem (VArr : Type) where
  sys : System VArr
  emissions : List Emission

/-- A call, by the application or by a handler that runs, or the end of the innermost
emission. -/
inductive SignalStep (VArr Arg : Type) where
  | call (call : OwnershipCall VArr Arg)
  | emitChanged (c e : Nat)
  | finish

/-- How many references on a controller, and on an event, the call drops. -/
def OwnershipCall.dropsController : OwnershipCall VArr Arg → Nat → Nat
  | .unrefController c, c' => if c = c' then 1 else 0
  | _, _ => 0

def OwnershipCall.dropsEvent : OwnershipCall VArr Arg → Nat → Nat
  | .unrefEvent e, e' => if e = e' then 1 else 0
  | _, _ => 0

namespace SignalSystem

variable [GValueArray VArr] [ValueCollector Arg]

/-- The references on a controller, and on an event, that emissions hold. -/
def onController (x : SignalSystem VArr) (c : Nat) : Nat := x.emissions.countP (·.controller = c)

def onEvent (x : SignalSystem VArr) (e : Nat) : Nat := x.emissions.countP (·.event = e)

/-- An end without an emission changes nothing. -/
def exec (x : SignalSystem VArr) : SignalStep VArr Arg → Except Fault (SignalSystem VArr)
  | .call call => do
      let sys ← x.sys.exec call
      return { x with sys }
  | .emitChanged c e => do
      let (sys, em) ← x.sys.beginEmission c e
      return ⟨sys, em :: x.emissions⟩
  | .finish =>
      match x.emissions with
      | [] => .ok x
      | em :: emissions => do
          let sys ← x.sys.finishEmission em
          return ⟨sys, emissions⟩

/-- What the call drops is not a reference of an emission. -/
def SparesEmissions (x : SignalSystem VArr) : OwnershipCall VArr Arg → Prop
  | .unrefController c => x.onController c < x.sys.outside.controllers c
  | .unrefEvent e => x.onEvent e < x.sys.outside.events e
  | _ => True

/-- Somebody holds a reference on what is passed, be it an emission, and what is
dropped is the caller's own. -/
def CallerHolds (x : SignalSystem VArr) : SignalStep VArr Arg → Prop
  | .call call => x.sys.CallerHolds call ∧ x.SparesEmissions call
  | .emitChanged c e => 0 < x.sys.outside.controllers c ∧ 0 < x.sys.outside.events e
  | .finish => True

/-- Every interleaving of calls and emissions from an empty memory. -/
def machine (VArr Arg : Type) [GValueArray VArr] [ValueCollector Arg] :
    Machine (SignalSystem VArr) (SignalStep VArr Arg) where
  start x := x = ⟨System.empty, []⟩
  step x step x' := x.exec step = .ok x'

end SignalSystem

/-! ### What a call leaves -/

/-- What an event records. Its controller is not part of it: `dispose` drops that. -/
def GControllerEvent.record (event : GControllerEvent Nat VArr) :
    GControllerAction × GType × Option VArr :=
  (event.action, event.indexType, event.indices)

/-- The events are still there, with what they recorded. -/
def KeepsRecords (events events' : List (GObject (GControllerEvent Nat VArr))) : Prop :=
  ∀ (e : Nat) (x : GObject (GControllerEvent Nat VArr)), events[e]? = some x →
    ∃ x' : GObject (GControllerEvent Nat VArr), events'[e]? = some x' ∧
      x'.priv.record = x.priv.record

/-- A call drops no reference outside but the one it is for, and no event changes what it
records. -/
structure System.Leaves (call : OwnershipCall VArr Arg) (sys sys' : System VArr) : Prop where
  controllers : ∀ c, sys.outside.controllers c ≤
    sys'.outside.controllers c + call.dropsController c
  events : ∀ e, sys.outside.events e ≤ sys'.outside.events e + call.dropsEvent e
  records : KeepsRecords sys.events sys'.events

theorem KeepsRecords.refl (events : List (GObject (GControllerEvent Nat VArr))) :
    KeepsRecords events events := fun _ x hx => ⟨x, hx, rfl⟩

theorem KeepsRecords.trans {events events' events'' : List (GObject (GControllerEvent Nat VArr))}
    (first : KeepsRecords events events') (second : KeepsRecords events' events'') :
    KeepsRecords events events'' := by
  intro e x hx
  obtain ⟨x', hx', same⟩ := first e x hx
  obtain ⟨x'', hx'', same'⟩ := second e x' hx'
  exact ⟨x'', hx'', same'.trans same⟩

theorem KeepsRecords.append (events : List (GObject (GControllerEvent Nat VArr)))
    (x : GObject (GControllerEvent Nat VArr)) : KeepsRecords events (events ++ [x]) := by
  intro e y hy
  obtain ⟨inside, -⟩ := List.getElem?_eq_some_iff.mp hy
  exact ⟨y, by rw [List.getElem?_append_left inside, hy], rfl⟩

theorem KeepsRecords.set {events : List (GObject (GControllerEvent Nat VArr))} {e : Nat}
    {x x' : GObject (GControllerEvent Nat VArr)} (hx : events[e]? = some x)
    (same : x'.priv.record = x.priv.record) : KeepsRecords events (events.set e x') := by
  obtain ⟨inside, -⟩ := List.getElem?_eq_some_iff.mp hx
  intro e' y hy
  by_cases here : e' = e
  · subst here
    rw [hx] at hy
    cases hy
    exact ⟨x', List.getElem?_set_self inside, same⟩
  · exact ⟨y, by rw [List.getElem?_set_ne (Ne.symm here), hy], rfl⟩

namespace System

variable {sys sys' : System VArr}

theorem onHeap_eq {f : Heap → Except Fault Heap} (run : sys.onHeap f = .ok sys') :
    sys'.events = sys.events ∧ sys'.outside = sys.outside := by
  obtain ⟨heap, -, rest⟩ := bind_eq_ok.mp run
  cases rest
  exact ⟨rfl, rfl⟩

/-- What a function of one event does to the system. -/
theorem onEvent_inv {e : Nat} {f : Slot Heap (GControllerEvent Nat VArr)}
    (run : sys.onEvent e f = .ok sys') :
    ∃ x o', sys.events[e]? = some x ∧ f ⟨x, sys.heap⟩ = .ok o' ∧
      sys' = { sys with heap := o'.env, events := sys.events.set e o'.toGObject } := by
  unfold System.onEvent at run
  cases hx : sys.events[e]? with
  | none =>
      rw [hx] at run
      cases run
  | some x =>
      rw [hx] at run
      obtain ⟨o', hf, rest⟩ := bind_eq_ok.mp run
      cases rest
      exact ⟨x, o', rfl, hf, rfl⟩

/-- The functions of an object leave what the event records. -/
theorem record_of_call {o o' : Instance Heap (GControllerEvent Nat VArr)} {c : ObjectCall}
    (run : eventClass.call o c = .ok o') : o'.priv.record = o.priv.record := by
  cases GControllerEvent.lifeStep_of_call run with
  | ref _ => rfl
  | unref _ => rfl
  | last _ => rfl
  | runDispose _ => rfl

theorem onEvent_eq {e : Nat} (c : ObjectCall)
    (run : sys.onEvent e (fun o => eventClass.call o c) = .ok sys') :
    KeepsRecords sys.events sys'.events ∧ sys'.outside = sys.outside := by
  obtain ⟨x, o, hx, hf, rfl⟩ := onEvent_inv run
  exact ⟨KeepsRecords.set hx (record_of_call hf), rfl⟩

theorem createEvent_eq [GValueArray VArr] [ValueCollector Arg] {c : Nat}
    {action : GControllerAction} {t : GType} {creation : Creation VArr Arg}
    (run : sys.createEvent c action t creation = .ok sys') :
    KeepsRecords sys.events sys'.events ∧
      sys'.outside.controllers = sys.outside.controllers ∧
      ∀ e, sys.outside.events e ≤ sys'.outside.events e := by
  unfold createEvent at run
  obtain ⟨created, -, rest⟩ := bind_eq_ok.mp run
  cases created with
  | none =>
      cases rest
      exact ⟨.refl _, rfl, fun _ => le_refl _⟩
  | some event =>
      obtain ⟨_, -, rest⟩ := bind_eq_ok.mp rest
      obtain ⟨_, -, rest⟩ := bind_eq_ok.mp rest
      obtain ⟨_, -, rest⟩ := bind_eq_ok.mp rest
      cases rest
      exact ⟨.append _ _, rfl, fun _ => Nat.le_add_right _ _⟩

/-- Of a call that does this to the references outside. -/
theorem leaves_withOutside {call : OwnershipCall VArr Arg} {held : Outside → Outside}
    (events : KeepsRecords sys.events sys'.events) (outside : sys'.outside = sys.outside)
    (controllers : ∀ out c, out.controllers c ≤ (held out).controllers c + call.dropsController c)
    (counted : ∀ out e, out.events e ≤ (held out).events e + call.dropsEvent e) :
    sys.Leaves call (sys'.withOutside held) := by
  refine ⟨?_, ?_, events⟩
  · intro c
    rw [← outside]
    exact controllers _ c
  · intro e
    rw [← outside]
    exact counted _ e

/-- Of a call on the heap, and what it does to the references outside. -/
theorem onHeap_leaves {call : OwnershipCall VArr Arg} {f : Heap → Except Fault Heap}
    {held : Outside → Outside}
    (run : (sys.onHeap f >>= fun sys => .ok (sys.withOutside held)) = .ok sys')
    (controllers : ∀ out c, out.controllers c ≤ (held out).controllers c + call.dropsController c)
    (counted : ∀ out e, out.events e ≤ (held out).events e + call.dropsEvent e) :
    sys.Leaves call sys' := by
  obtain ⟨mid, first, rest⟩ := bind_eq_ok.mp run
  cases rest
  obtain ⟨events, outside⟩ := onHeap_eq first
  exact leaves_withOutside (events ▸ .refl _) outside controllers counted

/-- Of a call on an event. -/
theorem onEvent_leaves {call : OwnershipCall VArr Arg} {e : Nat} (c : ObjectCall)
    {held : Outside → Outside}
    (run : (sys.onEvent e (fun o => eventClass.call o c) >>= fun sys =>
      .ok (sys.withOutside held)) = .ok sys')
    (controllers : ∀ out c, out.controllers c ≤ (held out).controllers c + call.dropsController c)
    (counted : ∀ out e, out.events e ≤ (held out).events e + call.dropsEvent e) :
    sys.Leaves call sys' := by
  obtain ⟨mid, first, rest⟩ := bind_eq_ok.mp run
  cases rest
  obtain ⟨events, outside⟩ := onEvent_eq c first
  exact leaves_withOutside events outside controllers counted

theorem refEvent_eq {e : Nat} (run : sys.refEvent e = .ok sys') :
    KeepsRecords sys.events sys'.events ∧
      sys'.outside = { sys.outside with events := plus sys.outside.events (some e) } := by
  obtain ⟨mid, first, rest⟩ := bind_eq_ok.mp run
  cases rest
  obtain ⟨events, outside⟩ := onEvent_eq .ref first
  exact ⟨events, by rw [← outside]; rfl⟩

theorem refController_eq {c : Nat} (run : sys.refController c = .ok sys') :
    sys'.events = sys.events ∧
      sys'.outside = { sys.outside with controllers := plus sys.outside.controllers (some c) } := by
  obtain ⟨mid, first, rest⟩ := bind_eq_ok.mp run
  cases rest
  obtain ⟨events, outside⟩ := onHeap_eq first
  exact ⟨events, by rw [← outside]; rfl⟩

variable [GValueArray VArr]

theorem exec_leaves [ValueCollector Arg] {call : OwnershipCall VArr Arg} (run : sys.exec call = .ok sys') :
    sys.Leaves call sys' := by
  have kept : ∀ n k : Nat, n ≤ n + k := Nat.le_add_right
  have more : ∀ n m k : Nat, n ≤ n + m + k := by
    intro n m k
    omega
  cases call with
  | newStorage s => exact onHeap_leaves run (fun _ _ => kept _ _) fun _ _ => kept _ _
  | refStorage s => exact onHeap_leaves run (fun _ _ => kept _ _) fun _ _ => kept _ _
  | unrefStorage s => exact onHeap_leaves run (fun _ _ => kept _ _) fun _ _ => kept _ _
  | new kind =>
      obtain ⟨o, -, rest⟩ := bind_eq_ok.mp run
      cases rest
      exact ⟨fun _ => more _ _ _, fun _ => kept _ _, .refl _⟩
  | newWith kind storage =>
      obtain ⟨o, -, rest⟩ := bind_eq_ok.mp run
      cases rest
      exact ⟨fun _ => more _ _ _, fun _ => kept _ _, .refl _⟩
  | set c storage =>
      obtain ⟨events, outside⟩ := onHeap_eq run
      exact leaves_withOutside (events ▸ .refl _) outside (fun _ _ => kept _ _) fun _ _ => kept _ _
  | setProperty c storage =>
      obtain ⟨events, outside⟩ := onHeap_eq run
      exact leaves_withOutside (events ▸ .refl _) outside (fun _ _ => kept _ _) fun _ _ => kept _ _
  | createEvent c action t creation =>
      obtain ⟨actions, controllers, events⟩ := createEvent_eq run
      exact ⟨fun c => by rw [controllers]; exact kept _ _, fun e => (events e).trans (kept _ _), actions⟩
  | refController c => exact onHeap_leaves run (fun _ _ => more _ _ _) fun _ _ => kept _ _
  | unrefController c =>
      exact onHeap_leaves run (fun out _ => le_minus out.controllers c _) fun _ _ => kept _ _
  | runDisposeController c =>
      obtain ⟨events, outside⟩ := onHeap_eq run
      exact leaves_withOutside (events ▸ .refl _) outside (fun _ _ => kept _ _) fun _ _ => kept _ _
  | refEvent e => exact onEvent_leaves .ref run (fun _ _ => kept _ _) fun _ _ => more _ _ _
  | unrefEvent e =>
      exact onEvent_leaves .unref run (fun _ _ => kept _ _) fun out _ => le_minus out.events e _
  | runDisposeEvent e =>
      obtain ⟨events, outside⟩ := onEvent_eq .runDispose run
      exact leaves_withOutside events outside (fun _ _ => kept _ _) fun _ _ => kept _ _

/-! The calls that an emission makes itself. -/

theorem refEvent_ok {e : Nat} (ok : SystemOk sys) (holds : 0 < sys.outside.events e) :
    ∃ sys', sys.refEvent e = .ok sys' ∧ SystemOk sys' := by
  have kept : ∃ sys', sys.exec (.refEvent e : OwnershipCall VArr Vararg) = .ok sys' ∧ SystemOk sys' :=
    systemOk_exec ok holds
  exact kept

theorem refController_ok {c : Nat} (ok : SystemOk sys) (holds : 0 < sys.outside.controllers c) :
    ∃ sys', sys.refController c = .ok sys' ∧ SystemOk sys' := by
  have kept : ∃ sys', sys.exec (.refController c : OwnershipCall VArr Vararg) = .ok sys' ∧
      SystemOk sys' := systemOk_exec ok holds
  exact kept

theorem unrefEvent_ok {e : Nat} (ok : SystemOk sys) (holds : 0 < sys.outside.events e) :
    ∃ sys', sys.unrefEvent e = .ok sys' ∧ SystemOk sys' ∧
      sys.Leaves (.unrefEvent e : OwnershipCall VArr Vararg) sys' := by
  have kept : ∃ sys', sys.exec (.unrefEvent e : OwnershipCall VArr Vararg) = .ok sys' ∧
      SystemOk sys' := systemOk_exec ok holds
  obtain ⟨sys', run, ok'⟩ := kept
  exact ⟨sys', run, ok', exec_leaves run⟩

theorem unrefController_ok {c : Nat} (ok : SystemOk sys) (holds : 0 < sys.outside.controllers c) :
    ∃ sys', sys.unrefController c = .ok sys' ∧ SystemOk sys' ∧
      sys.Leaves (.unrefController c : OwnershipCall VArr Vararg) sys' := by
  have kept : ∃ sys', sys.exec (.unrefController c : OwnershipCall VArr Vararg) = .ok sys' ∧
      SystemOk sys' := systemOk_exec ok holds
  obtain ⟨sys', run, ok'⟩ := kept
  exact ⟨sys', run, ok', exec_leaves run⟩

end System

/-! ### The invariant -/

/-- The books are balanced, the emissions hold references outside, and their events have
the actions that the handlers are told. -/
structure SignalOk (x : SignalSystem VArr) : Prop where
  books : SystemOk x.sys
  controllers : ∀ c, x.onController c ≤ x.sys.outside.controllers c
  events : ∀ e, x.onEvent e ≤ x.sys.outside.events e
  actions : ∀ em ∈ x.emissions,
    ∃ event : GObject (GControllerEvent Nat VArr),
      x.sys.events[em.event]? = some event ∧ event.priv.action = em.action

namespace SignalSystem

variable {x x' : SignalSystem VArr} {sys : System VArr} {em : Emission}

theorem onController_cons (sys : System VArr) (em : Emission) (emissions : List Emission) (c : Nat) :
    onController ⟨sys, em :: emissions⟩ c =
      onController ⟨sys, emissions⟩ c + if em.controller = c then 1 else 0 := by
  simp [onController, List.countP_cons]

theorem onEvent_cons (sys : System VArr) (em : Emission) (emissions : List Emission) (e : Nat) :
    onEvent ⟨sys, em :: emissions⟩ e =
      onEvent ⟨sys, emissions⟩ e + if em.event = e then 1 else 0 := by
  simp [onEvent, List.countP_cons]

theorem onController_pos (mem : em ∈ x.emissions) : 0 < x.onController em.controller :=
  List.countP_pos_iff.mpr ⟨em, mem, decide_eq_true rfl⟩

theorem onEvent_pos (mem : em ∈ x.emissions) : 0 < x.onEvent em.event :=
  List.countP_pos_iff.mpr ⟨em, mem, decide_eq_true rfl⟩

/-- Emissions go on while the events keep what they record. -/
theorem actions_kept {emissions : List Emission} {before after : List (GObject (GControllerEvent Nat VArr))}
    (actions : ∀ em ∈ emissions, ∃ event : GObject (GControllerEvent Nat VArr),
      before[em.event]? = some event ∧ event.priv.action = em.action)
    (keeps : KeepsRecords before after) : ∀ em ∈ emissions,
      ∃ event : GObject (GControllerEvent Nat VArr),
        after[em.event]? = some event ∧ event.priv.action = em.action := by
  intro em mem
  obtain ⟨event, here, same⟩ := actions em mem
  obtain ⟨event', here', same'⟩ := keeps _ _ here
  exact ⟨event', here', (congrArg Prod.fst same').trans same⟩

/-- Whoever holds a reference on an event can read it. -/
theorem eventAt_ok (ok : SystemOk sys) {e : Nat} (holds : 0 < sys.outside.events e) :
    ∃ event : GObject (GControllerEvent Nat VArr), sys.events[e]? = some event ∧
      0 < event.refCount ∧ sys.eventAt e = .ok event.priv := by
  rw [← ok.events] at holds
  obtain ⟨event, here, count⟩ := exists_of_countsOf holds
  have alive : event.refCount ≠ 0 := by
    intro dead
    exact holds.ne' (count.symm.trans dead)
  refine ⟨event, here, Nat.pos_of_ne_zero alive, ?_⟩
  unfold System.eventAt
  rw [here]
  exact if_neg alive

variable [GValueArray VArr] [ValueCollector Arg]

omit [GValueArray VArr] [ValueCollector Arg] in
/-- The references of the emissions are there besides those that the call drops. -/
theorem spared_le (ok : SignalOk x) {call : OwnershipCall VArr Arg}
    (spares : x.SparesEmissions call) :
    (∀ c, x.onController c + call.dropsController c ≤ x.sys.outside.controllers c) ∧
      ∀ e, x.onEvent e + call.dropsEvent e ≤ x.sys.outside.events e := by
  constructor
  · intro c
    cases call with
    | unrefController dropped =>
        unfold OwnershipCall.dropsController
        dsimp only
        by_cases same : dropped = c
        · subst same
          rw [if_pos rfl]
          exact spares
        · rw [if_neg same]
          exact ok.controllers c
    | _ => exact ok.controllers c
  · intro e
    cases call with
    | unrefEvent dropped =>
        unfold OwnershipCall.dropsEvent
        dsimp only
        by_cases same : dropped = e
        · subst same
          rw [if_pos rfl]
          exact spares
        · rw [if_neg same]
          exact ok.events e
    | _ => exact ok.events e

theorem call_ok (ok : SignalOk x) {call : OwnershipCall VArr Arg}
    (holds : x.CallerHolds (.call call)) : ∃ x', x.exec (.call call) = .ok x' ∧ SignalOk x' := by
  obtain ⟨caller, spares⟩ := holds
  obtain ⟨sys, run, books⟩ := System.systemOk_exec ok.books caller
  have leaves := System.exec_leaves run
  obtain ⟨controllers, events⟩ := spared_le ok spares
  refine ⟨⟨sys, x.emissions⟩, ?_, books, ?_, ?_, actions_kept ok.actions leaves.records⟩
  · simp only [exec, run, ok_bind, pure_eq_ok]
  · intro c
    exact Nat.le_of_add_le_add_right ((controllers c).trans (leaves.controllers c))
  · intro e
    exact Nat.le_of_add_le_add_right ((events e).trans (leaves.events e))

/-- An emission begins on whatever controller and event somebody holds. -/
theorem beginEmission_ok (ok : SystemOk sys) {c e : Nat} (controller : 0 < sys.outside.controllers c)
    (event : 0 < sys.outside.events e) :
    ∃ sys' em, sys.beginEmission c e = .ok (sys', em) ∧ SystemOk sys' ∧ em.controller = c ∧
      em.event = e ∧ sys'.outside.controllers = plus sys.outside.controllers (some c) ∧
      sys'.outside.events = plus sys.outside.events (some e) ∧
      KeepsRecords sys.events sys'.events ∧
      ∃ there : GObject (GControllerEvent Nat VArr),
        sys.events[e]? = some there ∧ there.priv.action = em.action := by
  obtain ⟨there, here, -, read⟩ := eventAt_ok ok event
  obtain ⟨sys₁, run₁, ok₁⟩ := System.refEvent_ok ok event
  obtain ⟨keeps, outside₁⟩ := System.refEvent_eq run₁
  have holds : 0 < sys₁.outside.controllers c := by
    rw [outside₁]
    exact controller
  obtain ⟨sys₂, run₂, ok₂⟩ := System.refController_ok ok₁ holds
  obtain ⟨events₂, outside₂⟩ := System.refController_eq run₂
  refine ⟨sys₂, ⟨c, e, there.priv.getAction⟩, ?_, ok₂, rfl, rfl, ?_, ?_, events₂ ▸ keeps, there, here,
    rfl⟩
  · simp only [System.beginEmission, read, ok_bind, run₁, run₂, pure_eq_ok]
  · rw [outside₂, outside₁]
  · rw [outside₂, outside₁]

theorem emitChanged_ok (ok : SignalOk x) {c e : Nat}
    (holds : x.CallerHolds (.emitChanged c e : SignalStep VArr Arg)) :
    ∃ x', x.exec (.emitChanged c e : SignalStep VArr Arg) = .ok x' ∧ SignalOk x' := by
  obtain ⟨sys, em, run, books, rfl, rfl, controllers, events, keeps, there, here, action⟩ :=
    beginEmission_ok ok.books holds.1 holds.2
  refine ⟨⟨sys, em :: x.emissions⟩, ?_, books, ?_, ?_, ?_⟩
  · simp only [exec, run, ok_bind, pure_eq_ok]
  · intro c
    simp only [onController_cons, controllers, plus_apply, Option.some.injEq]
    exact Nat.add_le_add_right (ok.controllers c) _
  · intro e
    simp only [onEvent_cons, events, plus_apply, Option.some.injEq]
    exact Nat.add_le_add_right (ok.events e) _
  · apply actions_kept ?_ keeps
    intro em' mem
    rcases List.mem_cons.mp mem with rfl | mem
    · exact ⟨there, here, action⟩
    · exact ok.actions em' mem

/-- An emission ends with its references still its own. -/
theorem finish_ok (ok : SignalOk x) :
    ∃ x', x.exec (.finish : SignalStep VArr Arg) = .ok x' ∧ SignalOk x' := by
  obtain ⟨sys, emissions⟩ := x
  cases emissions with
  | nil => exact ⟨_, rfl, ok⟩
  | cons em emissions =>
      have controllers := ok.controllers
      have events := ok.events
      simp only [onController_cons] at controllers
      simp only [onEvent_cons] at events
      have holdsEvent : 0 < sys.outside.events em.event := by
        have held := events em.event
        rw [if_pos rfl] at held
        omega
      obtain ⟨sys₁, run₁, ok₁, leaves₁⟩ := System.unrefEvent_ok ok.books holdsEvent
      have kept₁ := leaves₁.controllers
      have holdsController : 0 < sys₁.outside.controllers em.controller := by
        have held := controllers em.controller
        have kept := kept₁ em.controller
        rw [if_pos rfl] at held
        simp only [OwnershipCall.dropsController] at kept
        omega
      obtain ⟨sys₂, run₂, ok₂, leaves₂⟩ := System.unrefController_ok ok₁ holdsController
      refine ⟨⟨sys₂, emissions⟩, ?_, ok₂, ?_, ?_, ?_⟩
      · simp only [exec, System.finishEmission, run₁, ok_bind, run₂, pure_eq_ok]
      · intro c
        have held := controllers c
        have first := kept₁ c
        have second := leaves₂.controllers c
        simp only [OwnershipCall.dropsController] at first second
        simp only [onController] at held ⊢
        omega
      · intro e
        have held := events e
        have first := leaves₁.events e
        have second := leaves₂.events e
        simp only [OwnershipCall.dropsEvent] at first second
        simp only [onEvent] at held ⊢
        omega
      · apply actions_kept (actions_kept ?_ leaves₁.records) leaves₂.records
        intro em' mem
        exact ok.actions em' (List.mem_cons_of_mem _ mem)

/-- Every step of a caller that holds what it passes comes to an end. -/
theorem step_ok (ok : SignalOk x) {step : SignalStep VArr Arg} (holds : x.CallerHolds step) :
    ∃ x', x.exec step = .ok x' ∧ SignalOk x' := by
  cases step with
  | call call => exact call_ok ok holds
  | emitChanged c e => exact emitChanged_ok ok holds
  | finish => exact finish_ok ok

theorem signalOk_of_reach (reach : (machine VArr Arg).ReachBy CallerHolds x) : SignalOk x := by
  apply reach.invariant_of_returns SignalOk
  · exact fun _ _ _ run => run
  · rintro _ rfl
    exact ⟨System.systemOk_empty, fun _ => Nat.zero_le _, fun _ => Nat.zero_le _,
      fun _ mem => absurd mem List.not_mem_nil⟩
  · intro x step ok holds
    exact step_ok ok holds

/-- What the handlers of an emission are passed is alive, and the event has the action
they are told. -/
structure HandlerSafe (x : SignalSystem VArr) (em : Emission) : Prop where
  controller : 0 < x.sys.heap.counts em.controller
  event : ∃ event : GObject (GControllerEvent Nat VArr), x.sys.events[em.event]? = some event ∧
    0 < event.refCount ∧ event.priv.getAction = em.action

omit [GValueArray VArr] in
theorem handlerSafe_of_ok (ok : SignalOk x) (mem : em ∈ x.emissions) : x.HandlerSafe em := by
  obtain ⟨event, here, action⟩ := ok.actions em mem
  have controller := ok.controllers em.controller
  have counted := ok.events em.event
  have onController := onController_pos mem
  have onEvent := onEvent_pos mem
  obtain ⟨event', here', alive, -⟩ := eventAt_ok ok.books (onEvent.trans_le counted)
  rw [here] at here'
  cases here'
  exact ⟨ok.books.controllers.pos_of_outside (onController.trans_le controller), event, here, alive,
    action⟩

/-- Whatever handlers do, and however deep they emit: the books are balanced, what every
handler was passed is alive, and no call and no end of an emission fails. -/
theorem emissions_safe (reach : (machine VArr Arg).ReachBy CallerHolds x) :
    SystemOk x.sys ∧ (∀ em ∈ x.emissions, x.HandlerSafe em) ∧
      ∀ step : SignalStep VArr Arg, x.CallerHolds step → ∃ x', x.exec step = .ok x' := by
  have ok := signalOk_of_reach reach
  refine ⟨ok.books, fun em mem => handlerSafe_of_ok ok mem, ?_⟩
  intro step holds
  obtain ⟨x', run, -⟩ := step_ok ok holds
  exact ⟨x', run⟩

/-- A handler emits an event of its own, and both callers have dropped what they
emitted. -/
theorem emissions_safe_nested :
    ∃ x : SignalSystem Values, x.emissions = [⟨0, 1, .remove⟩, ⟨0, 0, .add⟩] ∧
      x.sys.outside.events 0 = 1 ∧ x.sys.outside.events 1 = 1 ∧
      ∀ em ∈ x.emissions, x.HandlerSafe em := by
  have start : (machine Values Vararg).ReachBy CallerHolds ⟨System.empty, []⟩ := .start rfl
  have controller := start.step (a := .call (.new .hash)) (by exact ⟨trivial, trivial⟩) (by rfl)
  have outer := controller.step (a := .call (.createEvent 0 .add .uint (.createEventv none)))
    (by exact ⟨⟨by decide, trivial⟩, trivial⟩) (by rfl)
  have emitted := outer.step (a := .emitChanged 0 0) (by exact ⟨by decide, by decide⟩) (by rfl)
  have dropped := emitted.step (a := .call (.unrefEvent 0))
    (by exact ⟨by show 0 < _; decide, by show _ < _; decide⟩) (by rfl)
  have inner := dropped.step (a := .call (.createEvent 0 .remove .uint (.createEventv none)))
    (by exact ⟨⟨by decide, trivial⟩, trivial⟩) (by rfl)
  have nested := inner.step (a := .emitChanged 0 1) (by exact ⟨by decide, by decide⟩) (by rfl)
  have both := nested.step (a := .call (.unrefEvent 1))
    (by exact ⟨by show 0 < _; decide, by show _ < _; decide⟩) (by rfl)
  exact ⟨_, rfl, rfl, rfl, (emissions_safe both).2.1⟩

end SignalSystem

end GlibController

import GlibController.Event.Errors
import GlibController.Event.LifeCycle

/-!
The properties of an event, and events made from them.

`getProperty` reads what `setProperty` has set, and `constructed` looks at the event that
`g_object_new` has set the properties of. So an event can be made again from what its four
properties read (`remake`). `remade` says when: while there are references on it and until
the first dispose, which takes its controller. The new event answers as the old one does, now
and after whatever is added to both.
-/

namespace GlibController

open Lib GValueArray

variable {κ VArr Arg Env : Type} [GValueArray VArr]

namespace GControllerEvent

/-! ### Reading and constructing -/

/-- The properties that `g_controller_event_class_init` installs. -/
inductive PropertyId where
  | controller
  | action
  | indexType
  | indices
  deriving DecidableEq, Repr

/-- All of them, in their order. -/
def properties : List PropertyId := [.controller, .action, .indexType, .indices]

/-- `g_controller_event_get_property`. The value receives a copy of the array. -/
def getProperty (event : GControllerEvent κ VArr) : PropertyId → Property κ VArr
  | .controller => .controller event.controller
  | .action => .action event.action
  | .indexType => .indexType event.indexType
  | .indices => .indices (event.indices.map GValueArray.copy)

/-- What `constructed` warns of an event without an action. -/
def noValidAction (typeName : String) : String :=
  "The constructed event for the GController of type '" ++ typeName ++
    "' does not have a valid action."

/-- What it warns of an event without a type of indices. -/
def noValidIndexType (typeName : String) : String :=
  "The constructed event for the GController of type '" ++ typeName ++
    "' does not have a valid index type."

/-- `g_controller_event_constructed`, with the texts given to `g_critical`. -/
def constructed (typeName : κ → String) (event : GControllerEvent κ VArr) :
    Except Fault (List String) :=
  match event.controller with
  | none => .error .assertionFailed
  | some controller =>
      let action := if event.action = .invalidAction then [noValidAction (typeName controller)] else []
      let indexType := if event.indexType = .invalid then [noValidIndexType (typeName controller)] else []
      .ok (action ++ indexType)

/-- `g_object_new`: the properties are set, and the object is constructed. -/
def construct (typeName : κ → String) (values : List (Property κ VArr)) :
    Except Fault (GControllerEvent κ VArr × List String) := do
  let event ← values.foldlM setProperty init
  let messages ← event.constructed typeName
  return (event, messages)

/-- A new event from what the properties of an event read. -/
def remake (typeName : κ → String) (o : Instance Env (GControllerEvent κ VArr)) :
    Except Fault (GControllerEvent κ VArr × List String) :=
  if o.refCount = 0 then .error .danglingPointer
  else construct typeName (properties.map o.priv.getProperty)

/-! ### Events that answer alike -/

/-- All queries answer for the one event as for the other. -/
structure SameAnswers (event event' : GControllerEvent κ VArr) : Prop where
  observe : event'.observe = event.observe
  index : ∀ (Loc : Type) [ValueLocation Loc] (i : Gint) (loc : Loc),
    event'.getIndex i loc = event.getIndex i loc
  indexOf : ∀ (t : GType) (absent : t.Payload) (i : Gint),
    event'.getIndexOf t absent i = event.getIndexOf t absent i

variable {event event' : GControllerEvent κ VArr}

/-- The variadic reader looks at the stored values only. -/
theorem getIndex_contents {Loc : Type} [ValueLocation Loc] (event : GControllerEvent κ VArr)
    (i : Gint) (loc : Loc) :
    event.getIndex i loc =
      match event.contents[i.toUInt32.toNat]? with
      | none => (false, loc)
      | some value =>
          let (loc, error) := ValueLocation.lcopyValue value loc
          match error with
          | some _ => (false, loc)
          | none => (true, loc) := by
  unfold getIndex contents
  cases event.indices with
  | none => rfl
  | some arr => rfl

/-- A typed accessor looks at the index type and at the stored value. -/
theorem getIndexOf_nth (event : GControllerEvent κ VArr) (t : GType) (absent : t.Payload) (i : Gint) :
    event.getIndexOf t absent i =
      if event.indexType ≠ t then .ok absent
      else
        match event.nth i with
        | none => .ok absent
        | some value => value.get t := by
  by_cases type : event.indexType = t
  · subst type
    exact (getIndexOf_eq event absent i).trans (if_neg (not_not.mpr rfl)).symm
  · unfold getIndexOf
    rw [if_pos type, if_pos type]

/-- Events with one head that store the same values answer alike. -/
theorem sameAnswers (head : event.SameHead event') (same : event'.contents = event.contents) :
    event.SameAnswers event' where
  observe := observe_congr head same
  index _ _ i loc := by rw [getIndex_contents, getIndex_contents, same]
  indexOf t absent i := by rw [getIndexOf_nth, getIndexOf_nth, nth, nth, same, head.indexType]

/-! ### Making an event again -/

/-- The controller of an event that was disposed is gone. -/
def withoutController (event : GControllerEvent κ VArr) : GControllerEvent κ VArr :=
  { event with controller := none }

/-- Setting all four properties is what `new` does. -/
theorem construct_getProperty (typeName : κ → String) (event : GControllerEvent κ VArr) :
    construct typeName (properties.map event.getProperty) = do
      let again ← new event.controller event.action event.indexType event.indices
      let messages ← again.constructed typeName
      return (again, messages) := by
  unfold construct properties new
  simp only [List.map_cons, List.map_nil, List.foldlM_cons, List.foldlM_nil, getProperty, bind_pure]

theorem length_contents_lt (event : GControllerEvent κ VArr) :
    event.contents.length < UInt32.size := by
  unfold contents
  cases event.indices with
  | none =>
      rw [listed_none, List.length_nil]
      decide
  | some arr => exact length_lt arr

omit [GValueArray VArr] in
theorem constructed_congr (head : event.SameHead event') (typeName : κ → String) :
    event'.constructed typeName = event.constructed typeName := by
  unfold constructed
  rw [head.controller, head.action, head.indexType]

/-- Where `new` ends, the new event has the head and the values of the old one. -/
theorem new_same {again : GControllerEvent κ VArr}
    (run : new event.controller event.action event.indexType event.indices = .ok again) :
    event.SameHead again ∧ again.contents = event.contents := by
  rw [new_eq] at run
  obtain ⟨stored, hstored, rest⟩ := bind_eq_ok.mp run
  cases rest
  refine ⟨⟨rfl, rfl, rfl⟩, ?_⟩
  unfold contents
  rw [addIndices_ok hstored, listed_none, List.nil_append, listed_copy]

/-- The properties of an event make a new one exactly if they have a controller. -/
theorem construct_ok_iff {typeName : κ → String} :
    (∃ made, construct typeName (properties.map event.getProperty) = .ok made) ↔
      event.controller.isSome := by
  obtain ⟨again, run⟩ := new_total event.controller event.action event.indexType
    event.length_contents_lt
  rw [construct_getProperty, run, ok_bind, constructed_congr (new_same run).1]
  unfold constructed
  cases event.controller with
  | none =>
      constructor
      · rintro ⟨_, ⟨⟩⟩
      · rintro ⟨⟩
  | some controller => exact ⟨fun _ => rfl, fun _ => ⟨_, rfl⟩⟩

/-- What the new event is, and what is said about it. -/
theorem construct_ok {typeName : κ → String} {again : GControllerEvent κ VArr} {messages : List String}
    (run : construct typeName (properties.map event.getProperty) = .ok (again, messages)) :
    event.SameHead again ∧ again.contents = event.contents ∧
      event.constructed typeName = .ok messages := by
  rw [construct_getProperty] at run
  obtain ⟨made, hmade, rest⟩ := bind_eq_ok.mp run
  obtain ⟨said, hsaid, rest⟩ := bind_eq_ok.mp rest
  cases rest
  obtain ⟨head, same⟩ := new_same hmade
  exact ⟨head, same, by rw [← hsaid, constructed_congr head]⟩

/-! ### The life before -/

section Life

variable {unrefController : κ → Env → Except Fault Env}
  {o o' : Instance Env (GControllerEvent κ VArr)}

omit [GValueArray VArr] in
theorem LifeStep.alive (step : LifeStep unrefController o o') : 0 < o.refCount := by
  cases step with
  | ref pos => exact pos
  | unref many => omega
  | last one => omega
  | runDispose pos => exact pos

omit [GValueArray VArr] in
/-- A call after which there are references left has taken the controller if it disposed, and
nothing otherwise. -/
theorem priv_of_call {c : ObjectCall} (run : (eventClass unrefController).call o c = .ok o')
    (alive : 0 < o'.refCount) :
    o'.priv = if c = .runDispose then o.priv.withoutController else o.priv := by
  have pos := (lifeStep_of_call run).alive
  cases c with
  | ref =>
      rw [Slots.call, Slots.ref_eq pos] at run
      cases run
      rfl
  | unref =>
      by_cases many : 1 < o.refCount
      · rw [Slots.call, Slots.unref_many many] at run
        cases run
        rfl
      · rw [Slots.call, Slots.unref_last keepsCount (by omega)] at run
        obtain ⟨d, -, rest⟩ := bind_eq_ok.mp run
        rw [finalize_eq] at rest
        cases rest
        exact absurd alive (lt_irrefl 0)
  | runDispose =>
      rw [Slots.call, Slots.runDispose_eq keepsCount pos, dispose_eq] at run
      obtain ⟨d, hd, rest⟩ := bind_eq_ok.mp run
      obtain ⟨env, -, hdisposed⟩ := bind_eq_ok.mp hd
      cases hdisposed
      cases rest
      rfl

omit [GValueArray VArr] in
/-- As long as there are references, the first dispose takes the controller, and nothing else
changes. -/
theorem priv_of_calls {cs : List ObjectCall} (run : (eventClass unrefController).calls o cs = .ok o')
    (alive : 0 < o'.refCount) :
    o'.priv = if .runDispose ∈ cs then o.priv.withoutController else o.priv := by
  induction cs generalizing o with
  | nil =>
      cases run
      rfl
  | cons c cs ih =>
      obtain ⟨next, hnext, rest⟩ := bind_eq_ok.mp run
      have between : 0 < next.refCount := by
        cases cs with
        | nil =>
            cases rest
            exact alive
        | cons d ds =>
            obtain ⟨after, hafter, -⟩ := bind_eq_ok.mp rest
            exact (lifeStep_of_call hafter).alive
      rw [ih rest, priv_of_call hnext between]
      by_cases first : c = .runDispose
      · subst first
        simp [withoutController]
      · have other : ¬ ObjectCall.runDispose = c := fun same => first same.symm
        simp [first, other]

end Life

/-! ### Events made again -/

/-- The new event answers as the old one does, and so do the two after any additions that fit. -/
def ActsAs (Arg : Type) [ValueCollector Arg] (event again : GControllerEvent κ VArr) : Prop :=
  ∀ more : List (Addition Arg), event.contents.length + more.length < UInt32.size →
    ∃ a b, addAll event more = .ok a ∧ addAll again more = .ok b ∧ a.SameAnswers b

theorem actsAs [ValueCollector Arg] (head : event.SameHead event')
    (same : event'.contents = event.contents) : ActsAs Arg event event' := by
  intro more room
  obtain ⟨a, ha⟩ := addAll_total event more room
  obtain ⟨b, hb⟩ := addAll_total event' more (by rwa [same])
  obtain ⟨headA, contentsA⟩ := addAll_ok ha
  obtain ⟨headB, contentsB⟩ := addAll_ok hb
  refine ⟨a, b, ha, hb, sameAnswers ?_ ?_⟩
  · exact ⟨by rw [headB.controller, headA.controller, head.controller],
      by rw [headB.action, headA.action, head.action],
      by rw [headB.indexType, headA.indexType, head.indexType]⟩
  · rw [contentsB, contentsA, same, head.indexType]

/-- An event that was created and appended to, and then referenced and disposed in any order,
can be made again exactly as long as it has references and was not disposed. What is made is
warned of exactly if the action is not valid, and acts as the event. -/
theorem remade [ValueCollector Arg] {klass : GControllerClass κ VArr}
    (default : klass.createEvent = GController.defaultCreateEvent) {controller : κ}
    {action : GControllerAction} {t : GType} (valid : t ≠ .invalid) {creation : Creation VArr Arg}
    {calls : List (Addition Arg)} {unrefController : κ → Env → Except Fault Env}
    {o o' : Instance Env (GControllerEvent κ VArr)} {cs : List ObjectCall}
    (built : build klass controller action t creation calls = .ok (some o.priv))
    (run : (eventClass unrefController).calls o cs = .ok o') (typeName : κ → String) :
    ((∃ made, remake typeName o' = .ok made) ↔ 0 < o'.refCount ∧ .runDispose ∉ cs) ∧
      ∀ again messages, remake typeName o' = .ok (again, messages) →
        messages = (if action = .invalidAction then [noValidAction (typeName controller)] else []) ∧
          ActsAs Arg o.priv again := by
  have records := build_contents default valid built
  have priv := priv_of_calls run
  by_cases dead : o'.refCount = 0
  · have nothing : remake typeName o' = .error .danglingPointer := if_pos dead
    rw [nothing]
    constructor
    · constructor
      · rintro ⟨_, ⟨⟩⟩
      · rintro ⟨alive, -⟩
        omega
    · rintro _ _ ⟨⟩
  · have alive : 0 < o'.refCount := Nat.pos_of_ne_zero dead
    have made : remake typeName o' = construct typeName (properties.map o'.priv.getProperty) :=
      if_neg dead
    rw [made, construct_ok_iff, priv alive]
    split
    next disposes =>
      have gone : ¬ o.priv.withoutController.controller.isSome := Bool.false_ne_true
      constructor
      · exact ⟨fun there => absurd there gone, fun undisposed => absurd disposes undisposed.2⟩
      · intro again messages run
        exact absurd (construct_ok_iff.mp ⟨_, run⟩) gone
    next keeps =>
      constructor
      · rw [records.controller]
        exact ⟨fun _ => ⟨alive, keeps⟩, fun _ => rfl⟩
      · intro again messages run
        obtain ⟨head, same, said⟩ := construct_ok run
        refine ⟨?_, actsAs head same⟩
        unfold constructed at said
        rw [records.controller, records.action, records.indexType] at said
        simp only [if_neg valid, List.append_nil, Except.ok.injEq] at said
        exact said.symm

/-- An event of three indices without a valid action, with a number of references. -/
def referenced (refCount : Nat) : Instance Unit (GControllerEvent Nat Values) :=
  ⟨⟨refCount, ⟨some 7, .invalidAction, .uint, some ⟨[⟨.uint, (4 : Guint)⟩, ⟨.uint, (5 : Guint)⟩,
    ⟨.uint, (6 : Guint)⟩], by decide⟩⟩, []⟩, ()⟩

/-- Created from an array of two indices and appended to, the event is made again with a
warning; once it was disposed it cannot be. -/
theorem remade_appended :
    (∃ again, remake (fun _ => "GArrayController") (referenced 2) =
        .ok (again, [noValidAction "GArrayController"]) ∧
      ActsAs Vararg (referenced 2).priv again) ∧
    ∃ o', (eventClass fun _ env => .ok env).calls (referenced 1) [.ref, .runDispose] = .ok o' ∧
      ¬ ∃ made, remake (fun _ => "GArrayController") o' = .ok made := by
  have default : (GController.classInit : GControllerClass Nat Values).createEvent =
    GController.defaultCreateEvent := rfl
  have built : build GController.classInit 7 .invalidAction .uint
      (.createEventv (some ⟨[⟨.uint, (4 : Guint)⟩, ⟨.uint, (5 : Guint)⟩], by decide⟩))
      [.addIndex (Vararg.word 6)] = .ok (some (referenced 1).priv) := rfl
  constructor
  · have run : (eventClass fun _ env => .ok env).calls (referenced 1) [.ref, .ref, .unref] =
        .ok (referenced 2) := rfl
    obtain ⟨exactly, alike⟩ := remade default (by decide) built run fun _ => "GArrayController"
    obtain ⟨⟨again, messages⟩, made⟩ := exactly.mpr ⟨by decide, by decide⟩
    obtain ⟨said, acts⟩ := alike again messages made
    rw [if_pos rfl] at said
    subst said
    exact ⟨again, made, acts⟩
  · have run : (eventClass fun _ env => .ok env).calls (referenced 1) [.ref, .runDispose] =
        .ok _ := rfl
    refine ⟨_, run, ?_⟩
    intro made
    have undisposed := ((remade default (by decide) built run _).1.mp made).2
    exact undisposed (by decide)

end GControllerEvent

end GlibController

import GlibController.Event.Model

/-!
What each function does to the list of values an event stores.

`contents` is the stored list, empty while there is no array. A creation call lists
some values (`Creation.listed`) and an addition adds none or one
(`Addition.added`); `build_contents` is the whole history: the values listed
followed by the values added. The vector is copied whatever its values are, and a
variadic creation keeps the slot of the argument it failed on. `build_total` says
when a history comes to an end: enough arguments, and no array past `G_MAXUINT`.
-/

namespace GlibController

open Lib GValueArray

variable {κ VArr Arg : Type} [GValueArray VArr]

/-- The values of an array that may be `NULL`. -/
def listed (indices : Option VArr) : List GValue := (indices.map values).getD []

@[simp] theorem listed_none : listed (none : Option VArr) = [] := rfl

@[simp] theorem listed_some (arr : VArr) : listed (some arr) = values arr := rfl

@[simp] theorem listed_copy (indices : Option VArr) :
    listed (indices.map GValueArray.copy) = listed indices := by
  cases indices <;> simp

/-- An array allocated when there is none lists nothing. -/
@[simp] theorem values_getD_new (indices : Option VArr) (n : Guint) :
    values (indices.getD (new n)) = listed indices := by
  cases indices <;> simp

namespace GControllerEvent

def contents (event : GControllerEvent κ VArr) : List GValue := listed event.indices

/-- The data of an event that nothing changes after its creation. -/
structure SameHead (event event' : GControllerEvent κ VArr) : Prop where
  controller : event'.controller = event.controller
  action : event'.action = event.action
  indexType : event'.indexType = event.indexType

omit [GValueArray VArr] in
theorem SameHead.refl (event : GControllerEvent κ VArr) : event.SameHead event := ⟨rfl, rfl, rfl⟩

omit [GValueArray VArr] in
theorem SameHead.trans {a b c : GControllerEvent κ VArr} (h : a.SameHead b) (k : b.SameHead c) :
    a.SameHead c :=
  ⟨k.controller.trans h.controller, k.action.trans h.action, k.indexType.trans h.indexType⟩

/-! ### The copy loop -/

/-- The copy before a pass: the values up to the counter are copied. -/
def CopyInv (old : List GValue) (newIndices : VArr) (i : Guint) (arr : VArr) : Prop :=
  i.toNat ≤ (values newIndices).length ∧ values arr = old ++ (values newIndices).take i.toNat

theorem copyInv_next {old : List GValue} {newIndices arr arr' : VArr} {i : Guint}
    (inv : CopyInv old newIndices i arr) (guard : i < nValues newIndices)
    (h : append arr (getNth newIndices i) = .ok arr') : CopyInv old newIndices (i + 1) arr' := by
  obtain ⟨-, hvalues⟩ := inv
  have inside : i.toNat < (values newIndices).length := by
    rwa [UInt32.lt_iff_toNat_lt, toNat_nValues] at guard
  have succ := toNat_succ guard
  refine ⟨by omega, ?_⟩
  rw [append_ok h, hvalues, succ, getNth, List.getElem?_eq_getElem inside, Option.getD_some,
    List.append_assoc, List.take_append_getElem inside]

/-- At the end of the loop everything is copied. -/
theorem copyInv_stop {old : List GValue} {newIndices arr : VArr} {i : Guint}
    (inv : CopyInv old newIndices i arr) (stop : ¬ i < nValues newIndices) :
    values arr = old ++ values newIndices := by
  rw [UInt32.lt_iff_toNat_lt, toNat_nValues, not_lt] at stop
  rw [inv.2, List.take_of_length_le stop]

theorem addIndices_ok {curIndices newIndices indices : Option VArr}
    (h : addIndices curIndices newIndices = .ok indices) :
    listed indices = listed curIndices ++ listed newIndices := by
  cases newIndices with
  | none =>
      cases h
      simp
  | some newIndices =>
      obtain ⟨flow, run, rest⟩ := bind_eq_ok.mp h
      cases flow with
      | done r => exact r.elim
      | next arr =>
          cases rest
          have pass : ∀ i (arr arr' : VArr), CopyInv (listed curIndices) newIndices i arr →
              i < nValues newIndices → addIndicesPass newIndices i arr = .ok (.next arr') →
                CopyInv (listed curIndices) newIndices (i + 1) arr' := by
            intro i arr arr' inv guard hpass
            obtain ⟨_, happend, hnext⟩ := bind_eq_ok.mp hpass
            cases hnext
            exact copyInv_next inv guard happend
          obtain ⟨i, inv, stop⟩ := forBelow_partial _ pass ⟨by simp, by simp⟩ run
          exact copyInv_stop inv stop

theorem addIndices_total (curIndices newIndices : Option VArr)
    (room : (listed curIndices).length + (listed newIndices).length < UInt32.size) :
    ∃ indices, addIndices curIndices newIndices = .ok indices := by
  cases newIndices with
  | none => exact ⟨curIndices, rfl⟩
  | some newIndices =>
      have pass : ∀ i (arr : VArr), CopyInv (listed curIndices) newIndices i arr →
          i < nValues newIndices → ∃ arr', addIndicesPass newIndices i arr = .ok (.next arr') ∧
            CopyInv (listed curIndices) newIndices (i + 1) arr' := by
        intro i arr inv guard
        have inside : i.toNat < (values newIndices).length := by
          rwa [UInt32.lt_iff_toNat_lt, toNat_nValues] at guard
        have fits : (values arr).length + 1 < UInt32.size := by
          rw [inv.2, List.length_append, List.length_take]
          rw [listed_some] at room
          omega
        obtain ⟨arr', happend⟩ := append_room (getNth newIndices i) fits
        refine ⟨arr', ?_, copyInv_next inv guard happend⟩
        rw [addIndicesPass, happend]
        rfl
      obtain ⟨_, arr, run, -, -⟩ := forBelow_invariant (fun _ => nValues newIndices)
        (addIndicesPass newIndices) 0 (curIndices.getD (GValueArray.new (nValues newIndices)))
        (CopyInv (listed curIndices) newIndices) pass ⟨by simp, by simp⟩
      exact ⟨some arr, by simp only [addIndices, run, ok_bind, pure_eq_ok]⟩

/-! ### Construction -/

/-- `new` stores its arguments, the array through the copy loop. -/
theorem new_eq (controller : Option κ) (action : GControllerAction) (t : GType)
    (indices : Option VArr) :
    new controller action t indices = do
      let stored ← addIndices none (indices.map GValueArray.copy)
      return ⟨controller, action, t, stored⟩ := rfl

end GControllerEvent

/-- An event that records these data. -/
structure Records (event : GControllerEvent κ VArr) (controller : κ) (action : GControllerAction)
    (t : GType) (contents : List GValue) : Prop where
  controller : event.controller = some controller
  action : event.action = action
  indexType : event.indexType = t
  contents : event.contents = contents

theorem records_new {controller : κ} {action : GControllerAction} {t : GType}
    {indices : Option VArr} {event : GControllerEvent κ VArr}
    (h : GControllerEvent.new (some controller) action t indices = .ok event) :
    Records event controller action t (listed indices) := by
  rw [GControllerEvent.new_eq] at h
  obtain ⟨stored, hstored, rest⟩ := bind_eq_ok.mp h
  cases rest
  refine ⟨rfl, rfl, rfl, ?_⟩
  rw [GControllerEvent.contents, GControllerEvent.addIndices_ok hstored, listed_none,
    List.nil_append, listed_copy]

theorem new_total (controller : Option κ) (action : GControllerAction) (t : GType)
    {indices : Option VArr} (room : (listed indices).length < UInt32.size) :
    ∃ event, GControllerEvent.new controller action t indices = .ok event := by
  obtain ⟨stored, hstored⟩ := GControllerEvent.addIndices_total none
    (indices.map GValueArray.copy) (by simpa using room)
  exact ⟨_, by rw [GControllerEvent.new_eq, hstored]; rfl⟩

/-! ### Queries -/

namespace GControllerEvent

/-- The stored value at a position. -/
def nth (event : GControllerEvent κ VArr) (i : Gint) : Option GValue :=
  if 0 ≤ i.toInt then event.contents[i.toInt.toNat]? else none

theorem mem_of_nth {event : GControllerEvent κ VArr} {i : Gint} {value : GValue}
    (h : event.nth i = some value) : value ∈ event.contents := by
  rw [nth] at h
  split at h
  · exact List.mem_of_getElem? h
  · cases h

/-- The test before `g_value_array_get_nth` lets exactly the positions of the array pass. -/
theorem nthChecked_eq (arr : VArr) (i : Gint) :
    nthChecked arr i = .ok (if 0 ≤ i.toInt then (values arr)[i.toInt.toNat]? else none) := by
  simp only [nthChecked, ge_iff_le, UInt32.le_iff_toNat_le, toNat_nValues, Int32.lt_iff_toInt_lt,
    Int32.toInt_zero]
  by_cases nonneg : 0 ≤ i.toInt
  · rw [if_pos nonneg, toNat_toUInt32 nonneg]
    by_cases inside : i.toInt.toNat < (values arr).length
    · have nth : getNth arr i.toUInt32 = some (values arr)[i.toInt.toNat] := by
        rw [getNth, toNat_toUInt32 nonneg, List.getElem?_eq_getElem inside]
      rw [if_neg (by omega), nth, List.getElem?_eq_getElem inside]
    · rw [if_pos (by omega), List.getElem?_eq_none (by omega)]
  · rw [if_neg nonneg, if_pos (by omega)]

theorem getNIndices_eq {event : GControllerEvent κ VArr}
    (short : event.contents.length < 2 ^ 31) :
    event.getNIndices.toInt = event.contents.length := by
  rw [contents] at *
  rw [getNIndices]
  cases hind : event.indices with
  | none => simp
  | some arr =>
      rw [hind, listed_some] at short
      simp only [listed_some]
      rw [toInt_toInt32 (by rwa [toNat_nValues]), toNat_nValues]

theorem nth_of_none {event : GControllerEvent κ VArr} (h : event.indices = none) (i : Gint) :
    event.nth i = none := by
  rw [nth, contents, h, listed_none, List.getElem?_nil, ite_self]

theorem nthChecked_nth {event : GControllerEvent κ VArr} {arr : VArr}
    (h : event.indices = some arr) (i : Gint) : nthChecked arr i = .ok (event.nth i) := by
  rw [nthChecked_eq, nth, contents, h, listed_some]

theorem getIndexValue_eq (event : GControllerEvent κ VArr) (i : Gint) :
    event.getIndexValue i =
      .ok ((event.nth i).map fun value => value.copy (GValue.init event.indexType)) := by
  rw [getIndexValue]
  cases hind : event.indices with
  | none => rw [nth_of_none hind, Option.map_none]
  | some arr =>
      simp only [nthChecked_nth hind, ok_bind]
      cases event.nth i with
      | none => rfl
      | some value => rfl

/-- A typed accessor of the index type reads the stored value. -/
theorem getIndexOf_eq (event : GControllerEvent κ VArr) (absent : event.indexType.Payload)
    (i : Gint) :
    event.getIndexOf event.indexType absent i =
      match event.nth i with
      | none => .ok absent
      | some value => value.get event.indexType := by
  rw [getIndexOf, if_neg (not_not.mpr rfl)]
  cases hind : event.indices with
  | none => rw [nth_of_none hind]
  | some arr =>
      simp only [nthChecked_nth hind, ok_bind]
      cases event.nth i with
      | none => rfl
      | some value => rfl

end GControllerEvent

/-! ### Collection -/

namespace GController

variable [ValueCollector Arg]

/-- The values collected from arguments. The first error ends the list with what the
failed collection left. -/
def collected (t : GType) : List Arg → List GValue
  | [] => []
  | arg :: args =>
      match (collectInit t arg).2 with
      | some _ => [(collectInit t arg).1]
      | none => (collectInit t arg).1 :: collected t args

/-- The collection before a pass: the array holds what the arguments read so far
gave, and the rest of the arguments gives the rest. -/
def CollectInv (t : GType) (n : Nat) (args : List Arg) (i : Guint) (s : VArr × List Arg) : Prop :=
  i.toNat ≤ n ∧ (values s.1).length = i.toNat ∧ s.2 = args.drop i.toNat ∧
    collected t (args.take n) = values s.1 ++ collected t (s.2.take (n - i.toNat))

/-- The slot inserted by a pass is filled with the collected value. -/
theorem values_store_insert {arr slot : VArr} {i : Guint} (value : GValue)
    (length : (values arr).length = i.toNat) (h : insert arr i none = .ok slot) :
    values (store slot i value) = values arr ++ [value] := by
  rw [values_store, insert_ok length.ge h, ← length, List.insertIdx_length_self,
    List.set_append_right _ _ le_rfl]
  simp

theorem collectInv_pass {t : GType} {n : Nat} {args : List Arg} {i : Guint}
    {s : VArr × List Arg} {flow : Flow (VArr × List Arg) VArr} (inv : CollectInv t n args i s)
    (inside : i.toNat < n) (succ : (i + 1).toNat = i.toNat + 1)
    (h : collectPass t i s = .ok flow) :
    flow.Meets (CollectInv t n args (i + 1))
      (fun arr => values arr = collected t (args.take n)) := by
  obtain ⟨-, length, hrest, hall⟩ := inv
  obtain ⟨slot, hslot, h⟩ := bind_eq_ok.mp h
  obtain ⟨left, hleft⟩ : ∃ left, n - i.toNat = left + 1 := ⟨n - i.toNat - 1, by omega⟩
  cases hargs : s.2 with
  | nil =>
      rw [hargs] at h
      cases h
  | cons arg rest =>
      have drop : rest = args.drop (i + 1).toNat := by
        rw [succ, ← List.tail_drop, ← hrest, hargs, List.tail_cons]
      have fill := values_store_insert (collectInit t arg).1 length hslot
      rw [hargs, hleft, List.take_succ_cons, collected] at hall
      simp only [hargs] at h
      cases hcollect : collectInit t arg with
      | mk value error =>
          rw [hcollect] at h fill hall
          cases error with
          | some message =>
              cases h
              exact fill.trans hall.symm
          | none =>
              cases h
              refine ⟨by omega, ?_, drop, ?_⟩
              · rw [fill, List.length_append, length, succ]
                rfl
              · rw [hall, fill, succ, show n - (i.toNat + 1) = left by omega, List.append_assoc]
                rfl

theorem toNat_passes {n : Gint} {len : Nat} (h : n.toInt = len) : (passes n).toNat = len := by
  have nonneg : ¬ n < 0 := by
    rw [Int32.lt_iff_toInt_lt, h, Int32.toInt_zero]
    omega
  rw [passes, if_neg nonneg, toNat_toUInt32 (by omega), h, Int.toNat_natCast]

theorem collectIndices_ok {t : GType} {n : Gint} {args : List Arg} {arr : VArr}
    (h : collectIndices t n args = .ok arr) :
    values arr = collected t (args.take (passes n).toNat) := by
  obtain ⟨flow, run, rest⟩ := bind_eq_ok.mp h
  have meets := forBelow_outcome (CollectInv t (passes n).toNat args)
    (fun arr => values arr = collected t (args.take (passes n).toNat))
    (fun i s flow inv guard pass =>
      collectInv_pass inv (UInt32.lt_iff_toNat_lt.mp guard) (toNat_succ guard) pass)
    ⟨by simp, by simp, by simp, by simp⟩ run
  cases flow with
  | done arr =>
      cases rest
      exact meets
  | next s =>
      cases rest
      obtain ⟨i, ⟨le, -, -, hall⟩, stop⟩ := meets
      rw [UInt32.lt_iff_toNat_lt] at stop
      rw [hall, show (passes n).toNat - i.toNat = 0 by omega, List.take_zero, collected,
        List.append_nil]

theorem collectPass_total {t : GType} {n : Nat} {args : List Arg} {i : Guint}
    {s : VArr × List Arg} (inv : CollectInv t n args i s) (inside : i.toNat < n)
    (enough : n ≤ args.length) (room : n < UInt32.size) :
    ∃ flow : Flow (VArr × List Arg) VArr, collectPass t i s = .ok flow := by
  obtain ⟨-, length, hrest, -⟩ := inv
  obtain ⟨slot, hslot⟩ := insert_room s.1 i none length.ge (by omega)
  rw [List.drop_eq_getElem_cons (by omega)] at hrest
  cases hcollect : collectInit t args[i.toNat] with
  | mk value error =>
      cases error with
      | some message =>
          refine ⟨.done (store slot i value), ?_⟩
          simp only [collectPass, hslot, hrest, hcollect, ok_bind, pure_eq_ok]
      | none =>
          refine ⟨.next (store slot i value, args.drop (i.toNat + 1)), ?_⟩
          simp only [collectPass, hslot, hrest, hcollect, ok_bind, pure_eq_ok]

/-- Collection comes to an end when enough arguments are passed. -/
theorem collectIndices_total (VArr : Type) [GValueArray VArr] (t : GType) {n : Gint} {args : List Arg}
    (enough : (passes n).toNat ≤ args.length) :
    ∃ arr : VArr, collectIndices t n args = .ok arr := by
  have pass : ∀ i (s : VArr × List Arg), CollectInv t (passes n).toNat args i s → i < passes n →
      ∃ flow, collectPass t i s = .ok flow ∧
        flow.Meets (CollectInv t (passes n).toNat args (i + 1)) fun _ => True := by
    intro i s inv guard
    have inside := UInt32.lt_iff_toNat_lt.mp guard
    obtain ⟨flow, hpass⟩ := collectPass_total inv inside enough (toNat_lt_size _)
    have meets := collectInv_pass inv inside (toNat_succ guard) hpass
    refine ⟨flow, hpass, ?_⟩
    cases flow with
    | done arr => trivial
    | next s' => exact meets
  obtain ⟨flow, run, -⟩ := forBelow_total (fun _ => passes n) (collectPass t) 0
    ((new n.toUInt32 : VArr), args) _ _ pass ⟨by simp, by simp, by simp, by simp⟩
  cases flow with
  | done arr => exact ⟨arr, by simp only [collectIndices, run, ok_bind, pure_eq_ok]⟩
  | next s => exact ⟨s.1, by simp only [collectIndices, run, ok_bind, pure_eq_ok]⟩

end GController

/-! ### Histories -/

section History

variable [ValueCollector Arg]

/-- The values an addition adds to an event of an index type. -/
def Addition.added (t : GType) : Addition Arg → List GValue
  | .addIndex arg =>
      match (collectInit t arg).2 with
      | some _ => []
      | none => [(collectInit t arg).1]
  | .addIndexValue value => if value.gType = t then [value] else []

theorem Addition.run_ok {event event' : GControllerEvent κ VArr} {call : Addition Arg}
    (h : call.run event = .ok event') :
    event.SameHead event' ∧ event'.contents = event.contents ++ call.added event.indexType := by
  cases call with
  | addIndex arg =>
      simp only [Addition.run, GControllerEvent.addIndex] at h
      rw [Addition.added]
      cases hcollect : collectInit event.indexType arg with
      | mk value error =>
          rw [hcollect] at h
          cases error with
          | some message =>
              cases h
              exact ⟨⟨rfl, rfl, rfl⟩, by simp [GControllerEvent.contents]⟩
          | none =>
              obtain ⟨arr, happend, rest⟩ := bind_eq_ok.mp h
              cases rest
              exact ⟨⟨rfl, rfl, rfl⟩, by simp [GControllerEvent.contents, append_ok happend]⟩
  | addIndexValue value =>
      simp only [Addition.run, GControllerEvent.addIndexValue] at h
      rw [Addition.added]
      split at h
      next other =>
        cases h
        exact ⟨.refl event, by rw [if_neg other, List.append_nil]⟩
      next same =>
        obtain ⟨arr, happend, rest⟩ := bind_eq_ok.mp h
        cases rest
        rw [if_pos (not_not.mp same)]
        exact ⟨⟨rfl, rfl, rfl⟩, by simp [GControllerEvent.contents, append_ok happend]⟩

theorem Addition.run_total (event : GControllerEvent κ VArr) (call : Addition Arg)
    (room : event.contents.length + 1 < UInt32.size) : ∃ event', call.run event = .ok event' := by
  have fits : ∀ n value, ∃ arr', append (event.indices.getD (new n)) (some value) = .ok arr' :=
    fun n value => append_room _ (by rwa [values_getD_new])
  cases call with
  | addIndex arg =>
      obtain ⟨arr', happend⟩ := fits 1 (collectInit event.indexType arg).1
      simp only [Addition.run, GControllerEvent.addIndex]
      split
      · exact ⟨_, rfl⟩
      · rw [happend]
        exact ⟨_, rfl⟩
  | addIndexValue value =>
      obtain ⟨arr', happend⟩ := fits 0 value
      simp only [Addition.run, GControllerEvent.addIndexValue]
      split
      · exact ⟨_, rfl⟩
      · rw [happend]
        exact ⟨_, rfl⟩

theorem addAll_ok {event event' : GControllerEvent κ VArr} {calls : List (Addition Arg)}
    (h : addAll event calls = .ok event') :
    event.SameHead event' ∧
      event'.contents = event.contents ++ calls.flatMap (Addition.added event.indexType) := by
  induction calls generalizing event with
  | nil =>
      cases h
      exact ⟨.refl _, by simp⟩
  | cons call calls ih =>
      obtain ⟨next, hnext, rest⟩ := bind_eq_ok.mp h
      obtain ⟨head, hcontents⟩ := Addition.run_ok hnext
      obtain ⟨tail, hrest⟩ := ih rest
      rw [hcontents, head.indexType] at hrest
      exact ⟨head.trans tail, by rw [hrest, List.flatMap_cons, List.append_assoc]⟩

theorem Addition.length_added_le (t : GType) (call : Addition Arg) :
    (call.added t).length ≤ 1 := by
  cases call <;> rw [Addition.added] <;> split <;> simp

theorem addAll_total (event : GControllerEvent κ VArr) (calls : List (Addition Arg))
    (room : event.contents.length + calls.length < UInt32.size) :
    ∃ event', addAll event calls = .ok event' := by
  induction calls generalizing event with
  | nil => exact ⟨event, rfl⟩
  | cons call calls ih =>
      rw [List.length_cons] at room
      obtain ⟨next, hnext⟩ := call.run_total event (by omega)
      have hcontents := (Addition.run_ok hnext).2
      have added := call.length_added_le event.indexType
      obtain ⟨event', hrest⟩ := ih next
        (by rw [hcontents, List.length_append]; omega)
      exact ⟨event', by rw [addAll, hnext, ok_bind, hrest]⟩

/-- The values a creation call lists in an event of an index type. -/
def Creation.listed (t : GType) : Creation VArr Arg → List GValue
  | .createEvent nIndices args =>
      GController.collected t (args.take (GController.passes nIndices).toNat)
  | .createEventv indices => GlibController.listed indices

/-- As many arguments are passed as the call announces. -/
def Creation.Complete : Creation VArr Arg → Prop
  | .createEvent nIndices args => (GController.passes nIndices).toNat ≤ args.length
  | .createEventv _ => True

variable {klass : GControllerClass κ VArr} {controller : κ} {action : GControllerAction} {t : GType}

/-- With the default `create_event`, creation is `g_object_new`. -/
theorem createEventInternal_eq (default : klass.createEvent = GController.defaultCreateEvent)
    (valid : t ≠ .invalid) (indices : Option VArr) :
    GController.createEventInternal klass controller action t indices = do
      return some (← GControllerEvent.new (some controller) action t indices) := by
  rw [GController.createEventInternal, default, GController.defaultCreateEvent, if_neg valid]

theorem Creation.run_ok {creation : Creation VArr Arg} {created : Option (GControllerEvent κ VArr)}
    (default : klass.createEvent = GController.defaultCreateEvent) (valid : t ≠ .invalid)
    (h : creation.run klass controller action t = .ok created) :
    ∃ event, created = some event ∧ Records event controller action t (creation.listed t) := by
  have internal : ∀ {indices : Option VArr} {created : Option (GControllerEvent κ VArr)},
      GController.createEventInternal klass controller action t indices = .ok created →
        ∃ event, created = some event ∧
          Records event controller action t (GlibController.listed indices) := by
    intro indices created h
    rw [createEventInternal_eq default valid] at h
    obtain ⟨event, hnew, rest⟩ := bind_eq_ok.mp h
    cases rest
    exact ⟨event, rfl, records_new hnew⟩
  cases creation with
  | createEvent nIndices args =>
      simp only [Creation.run, GController.createEvent, if_neg valid] at h
      split at h
      next zero =>
        subst zero
        exact internal h
      next =>
        obtain ⟨arr, hcollect, rest⟩ := bind_eq_ok.mp h
        have records := internal rest
        rwa [listed_some, GController.collectIndices_ok hcollect] at records
  | createEventv indices =>
      simp only [Creation.run, GController.createEventv, if_neg valid] at h
      exact internal h

theorem Creation.run_total {creation : Creation VArr Arg} (controller : κ)
    (action : GControllerAction)
    (default : klass.createEvent = GController.defaultCreateEvent) (valid : t ≠ .invalid)
    (complete : creation.Complete) :
    ∃ created, creation.run klass controller action t = .ok created := by
  have internal : ∀ indices : Option VArr,
      ∃ created, GController.createEventInternal klass controller action t indices = .ok created := by
    intro indices
    have room : (GlibController.listed indices).length < UInt32.size := by
      cases indices with
      | none => simp
      | some arr => exact length_lt arr
    obtain ⟨event, hnew⟩ := new_total (some controller) action t room
    exact ⟨some event, by rw [createEventInternal_eq default valid, hnew]; rfl⟩
  cases creation with
  | createEvent nIndices args =>
      simp only [Creation.run, GController.createEvent, if_neg valid]
      split
      · exact internal none
      · obtain ⟨arr, hcollect⟩ := GController.collectIndices_total VArr t complete
        rw [hcollect]
        exact internal (some arr)
  | createEventv indices =>
      simp only [Creation.run, GController.createEventv, if_neg valid]
      exact internal indices

/-- A whole history: the event holds the values listed and then the values added. -/
theorem build_contents {creation : Creation VArr Arg} {calls : List (Addition Arg)}
    {event : GControllerEvent κ VArr}
    (default : klass.createEvent = GController.defaultCreateEvent) (valid : t ≠ .invalid)
    (h : build klass controller action t creation calls = .ok (some event)) :
    Records event controller action t (creation.listed t ++ calls.flatMap (Addition.added t)) := by
  obtain ⟨created, hcreate, rest⟩ := bind_eq_ok.mp h
  obtain ⟨first, rfl, records⟩ := Creation.run_ok default valid hcreate
  obtain ⟨last, hlast, rest⟩ := bind_eq_ok.mp rest
  cases rest
  obtain ⟨head, hcontents⟩ := addAll_ok hlast
  exact ⟨head.controller.trans records.controller, head.action.trans records.action,
    head.indexType.trans records.indexType, by rw [hcontents, records.contents, records.indexType]⟩

theorem build_total {creation : Creation VArr Arg} (calls : List (Addition Arg)) (controller : κ)
    (action : GControllerAction)
    (default : klass.createEvent = GController.defaultCreateEvent) (valid : t ≠ .invalid)
    (complete : creation.Complete)
    (room : (creation.listed t).length + calls.length < UInt32.size) :
    ∃ event, build klass controller action t creation calls = .ok (some event) := by
  obtain ⟨created, hcreate⟩ := Creation.run_total controller action
    default valid complete
  obtain ⟨first, rfl, records⟩ := Creation.run_ok default valid hcreate
  obtain ⟨last, hlast⟩ := addAll_total first calls (by rwa [records.contents])
  exact ⟨last, by rw [build, hcreate, ok_bind]; simp only [hlast, ok_bind, pure_eq_ok]⟩

end History

end GlibController

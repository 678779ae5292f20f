import GlibController.SimpleModel.Books
import GlibController.Event.Readers

/-!
The reports of the simple model, and what the user prints for them.

A report is a new event, its emission with the user inside, and then the release of the
event, or of the controller in its place. `Reports` is the outcome of the first two;
`report_text` and `report_nothing` give it for the reports that the model makes.
-/

namespace GlibController

open Lib GControllerEvent

variable {VArr PArr : Type} [GValueArray VArr] [GPtrArray PArr]

/-! ### The user -/

namespace Application

/-- The program with another state of the library, and with more lines. -/
def withSystem (app : Application VArr PArr) (sys : System VArr) : Application VArr PArr :=
  { app with sys }

def said (app : Application VArr PArr) (lines : List Printed) : Application VArr PArr :=
  { app with printed := app.printed ++ lines }

variable {app : Application VArr PArr} {model : SimpleModelMembers}
  {event : GControllerEvent Nat VArr} {w : Guint}

/-- An event of one index: the number of its indices, and the index. -/
theorem records_one {action : GControllerAction}
    (records : Records event 0 action .uint (uintValues [w])) :
    (GController.passes event.getNIndices).toNat = 1 ∧
      event.getIndexUint (0 : Guint).toInt32 = .ok w := by
  have short : event.contents.length < 2 ^ 31 := by
    rw [records.contents]
    exact Nat.one_lt_two_pow (by decide)
  have count := getNIndices_eq short
  rw [records.contents] at count
  refine ⟨GController.toNat_passes count, ?_⟩
  have types : ∀ value ∈ event.contents, value.gType = event.indexType := by
    rw [records.contents, records.indexType]
    intro value mem
    rw [List.mem_singleton.mp mem]
  have first : event.nth (0 : Guint).toInt32 = some ⟨.uint, w⟩ := by
    rw [nth, records.contents]
    rfl
  have typed := getIndexOf_typed types records.indexType (0 : Guint) (0 : Guint).toInt32
  rw [first] at typed
  obtain ⟨data, same, run⟩ := typed
  cases same
  exact run

/-- The user prints one line for one index. -/
theorem printTexts_one {action : GControllerAction} {line : String → Gint → Printed}
    (records : Records event 0 action .uint (uintValues [w])) :
    app.printTexts model event line =
      app.getText model w.toInt32 >>= fun text => .ok (app.print (line text w.toInt32)) := by
  obtain ⟨passes, read⟩ := records_one records
  unfold printTexts
  rw [forBelow_one passes]
  simp only [printPass, read, ok_bind, pure_eq_ok]
  cases app.getText model w.toInt32 <;> rfl

/-! ### Reports -/

variable {others : RefCounts Storage} {n p q : Nat}
  {events : List (GObject (GControllerEvent Nat VArr))} {action : GControllerAction}
  {indices : List Guint}

omit [GValueArray VArr] [GPtrArray PArr] in
theorem derefArray_ok (holds : Holds app.sys others n p events)
    (live : 0 < others ⟨.ptrArray, q⟩ ∨ p = q) : app.derefArray (some q) = .ok (app.arrays q) := by
  have counted := holds.storages ⟨.ptrArray, q⟩
  have there : app.sys.heap.storages ⟨.ptrArray, q⟩ ≠ 0 := by
    rcases live with live | rfl
    · omega
    · rw [if_pos rfl] at counted
      omega
  exact if_neg there

omit [GValueArray VArr] [GPtrArray PArr] in
theorem derefArray_error (holds : Holds app.sys others n p events)
    (gone : others ⟨.ptrArray, q⟩ = 0) (other : p ≠ q) :
    app.derefArray (some q) = .error .danglingPointer := by
  have counted := holds.storages ⟨.ptrArray, q⟩
  rw [gone, if_neg fun same => other (Storage.mk.inj same).2] at counted
  exact if_pos counted

/-- The user hears of the new event, while the emission holds references on the event and on
the controller. -/
theorem report_eq (app : Application VArr PArr) (model : SimpleModelMembers)
    (action : GControllerAction) (indices : List Guint)
    (controller : model.controller = some 0)
    (holds : Holds app.sys others 1 p app.sys.events) (short : indices.length < 2 ^ 31) :
    ∃ sys event, Holds sys others 3 p (app.sys.events ++ [⟨2, event, []⟩]) ∧
      Records event 0 action .uint (uintValues indices) ∧
      app.report model action indices =
        (app.withSystem sys).onModelChanged model ⟨0, app.sys.events.length, action⟩ >>= fun heard =>
          heard.sys.finishEmission ⟨0, app.sys.events.length, action⟩ >>= fun sys =>
            .ok (heard.withSystem sys, some app.sys.events.length) := by
  obtain ⟨sys₁, event, run₁, holds₁, records⟩ := holds.createEvent Nat.one_pos action short
  obtain ⟨sys₂, run₂, holds₂⟩ := holds₁.beginEmission (Nat.succ_pos 1) Nat.one_pos
  refine ⟨sys₂, event, holds₂, records, ?_⟩
  rw [records.action] at run₂
  unfold report
  rw [controller]
  simp only [call, run₁, ok_bind, pure_eq_ok, emitChanged, run₂, bind_assoc, withSystem]

/-- The user reads the text at the reported index. -/
theorem hears_index {line : String → Gint → Printed} {sys : System VArr}
    (prints : action = .add ∧ line = .added ∨ action = .remove ∧ line = .removed)
    (holds : Holds sys others n p (events ++ [⟨2, event, []⟩]))
    (records : Records event 0 action .uint (uintValues [w])) :
    (app.withSystem sys).onModelChanged model ⟨0, events.length, action⟩ =
      (app.withSystem sys).getText model w.toInt32 >>= fun text =>
        .ok ((app.withSystem sys).said [line text w.toInt32]) := by
  have read : (app.withSystem sys).sys.eventAt events.length = .ok event := holds.eventAt Nat.two_pos
  unfold onModelChanged
  simp only [read, ok_bind]
  rcases prints with ⟨rfl, rfl⟩ | ⟨rfl, rfl⟩
  · exact printTexts_one records
  · exact printTexts_one records

/-- The change is reported, and the user prints lines. -/
def Reports (app : Application VArr PArr) (model : SimpleModelMembers) (action : GControllerAction)
    (indices : List Guint) (others : RefCounts Storage) (p : Nat) (lines : List Printed) : Prop :=
  ∃ sys event, app.report model action indices =
      .ok ((app.withSystem sys).said lines, some app.sys.events.length) ∧
    Holds sys others 2 p (app.sys.events ++ [⟨1, event, []⟩]) ∧ event.controller = some 0

theorem reports_of_hears {lines : List Printed} (controller : model.controller = some 0)
    (holds : Holds app.sys others 1 p app.sys.events) (short : indices.length < 2 ^ 31)
    (hears : ∀ sys event, Holds sys others 3 p (app.sys.events ++ [⟨2, event, []⟩]) →
      Records event 0 action .uint (uintValues indices) →
      (app.withSystem sys).onModelChanged model ⟨0, app.sys.events.length, action⟩ =
        .ok ((app.withSystem sys).said lines)) : Reports app model action indices others p lines := by
  obtain ⟨sys₁, event, holds₁, records, run⟩ :=
    report_eq app model action indices controller holds short
  obtain ⟨sys₂, finish, holds₂⟩ := holds₁.finishEmission action (by decide) Nat.one_lt_two
  refine ⟨sys₂, event, ?_, holds₂, records.controller⟩
  rw [run, hears sys₁ event holds₁ records, ok_bind]
  simp only [said, withSystem, finish, ok_bind]

/-- A text is reported at its position. -/
theorem report_text {line : String → Gint → Printed} {i : Nat} {text : String}
    (prints : action = .add ∧ line = .added ∨ action = .remove ∧ line = .removed)
    (holds : Holds app.sys others 1 p app.sys.events)
    (live : 0 < others ⟨.ptrArray, q⟩ ∨ p = q) (place : w.toNat = i) (short : i < 2 ^ 31)
    (here : (GPtrArray.strings (app.arrays q))[i]? = some text) :
    Reports app ⟨some 0, some q⟩ action [w] others p [line text (Int32.ofNat i)] := by
  have signed : w.toInt32.toInt = i := by rw [toInt_toInt32 (place ▸ short), place]
  have position : w.toInt32 = Int32.ofNat i :=
    Int32.toInt.inj (signed.trans (Int32.toInt_ofNat_of_lt short).symm)
  apply reports_of_hears rfl holds (Nat.one_lt_two_pow (by decide))
  intro sys event holds records
  have read : (app.withSystem sys).getText ⟨some 0, some q⟩ w.toInt32 = .ok text := by
    have array : (app.withSystem sys).derefArray (some q) = .ok (app.arrays q) :=
      derefArray_ok holds live
    unfold getText
    rw [array, ok_bind]
    apply GPtrArray.index_eq
    · rw [signed]
      exact Int.natCast_nonneg i
    · rw [signed, Int.toNat_natCast]
      exact here
  rw [hears_index prints holds records, read, ok_bind, position]

/-- A position that is not a `gint` makes the user read before the array. -/
theorem report_error (holds : Holds app.sys others 1 p app.sys.events)
    (live : 0 < others ⟨.ptrArray, q⟩ ∨ p = q) (long : 2 ^ 31 ≤ w.toNat) :
    ∃ f, app.report ⟨some 0, some q⟩ .add [w] = .error f := by
  obtain ⟨sys, event, holds, records, run⟩ :=
    report_eq app ⟨some 0, some q⟩ .add [w] rfl holds (Nat.one_lt_two_pow (by decide))
  have negative : w.toInt32 < 0 := by
    rw [Int32.lt_iff_toInt_lt, toInt_eq_toUInt32, UInt32.toUInt32_toInt32, Int32.toInt_zero]
    have bound := toNat_lt_size w
    rw [show UInt32.size = 2 ^ 32 from rfl] at bound
    split <;> omega
  have read : ∃ f, (app.withSystem sys).getText ⟨some 0, some q⟩ w.toInt32 = .error f := by
    have array : (app.withSystem sys).derefArray (some q) = .ok (app.arrays q) :=
      derefArray_ok holds live
    unfold getText
    rw [array, ok_bind, GPtrArray.index_of_neg negative]
    exact ⟨_, rfl⟩
  obtain ⟨f, read⟩ := read
  refine ⟨f, ?_⟩
  rw [run, hears_index (.inl ⟨rfl, rfl⟩) holds records, read]
  rfl

/-- A report without an index. -/
theorem report_nothing {lines : List Printed}
    (prints : action = .clear ∧ lines = [.cleared] ∨ action = .replace ∧ lines = [])
    (controller : model.controller = some 0) (holds : Holds app.sys others 1 p app.sys.events) :
    Reports app model action [] others p lines := by
  apply reports_of_hears controller holds (show [].length < 2 ^ 31 from Nat.two_pow_pos 31)
  intro sys event holds records
  have read : (app.withSystem sys).sys.eventAt app.sys.events.length = .ok event :=
    holds.eventAt Nat.two_pos
  unfold onModelChanged
  simp only [read, ok_bind]
  rcases prints with ⟨rfl, rfl⟩ | ⟨rfl, rfl⟩
  · rfl
  · simp only [said, List.append_nil]
    rfl

/-! ### After a report -/

/-- An event that was released. -/
def EventGone (x : GObject (GControllerEvent Nat VArr)) : Prop :=
  x.refCount = 0 ∧ x.priv.controller = none

/-- An event that is never released. -/
def EventLost (x : GObject (GControllerEvent Nat VArr)) : Prop :=
  x.refCount = 1 ∧ x.priv.controller = some 0

variable {lines : List Printed}

theorem Reports.released (reports : Reports app model action indices others p lines) :
    ∃ sys x, (app.report model action indices >>= fun r => r.1.unrefEvent r.2) =
        .ok ((app.withSystem sys).said lines) ∧
      Holds sys others 1 p (app.sys.events ++ [x]) ∧ EventGone x := by
  obtain ⟨sys₁, event, run₁, holds₁, on⟩ := reports
  obtain ⟨sys₂, x, run₂, holds₂, count, none⟩ := holds₁.unrefEvent_last rfl on Nat.one_lt_two
  refine ⟨sys₂, x, ?_, holds₂, count, none⟩
  have run : sys₁.exec (.unrefEvent app.sys.events.length : OwnershipCall VArr Vararg) = .ok sys₂ :=
    run₂
  rw [run₁]
  simp only [ok_bind, unrefEvent, call, said, withSystem, run, pure_eq_ok]

/-- The controller is released in place of the event. -/
theorem Reports.lost (reports : Reports app model action indices others p lines) :
    ∃ sys x, (app.report model action indices >>= fun r => r.1.unrefController (some 0)) =
        .ok ((app.withSystem sys).said lines) ∧
      Holds sys others 1 p (app.sys.events ++ [x]) ∧ EventLost x := by
  obtain ⟨sys₁, event, run₁, holds₁, on⟩ := reports
  obtain ⟨sys₂, run₂, holds₂⟩ := holds₁.unrefController Nat.one_lt_two
  refine ⟨sys₂, _, ?_, holds₂, rfl, on⟩
  have run : sys₁.exec (.unrefController 0 : OwnershipCall VArr Vararg) = .ok sys₂ := run₂
  rw [run₁]
  simp only [ok_bind, unrefController, call, said, withSystem, run, pure_eq_ok]

end Application

end GlibController

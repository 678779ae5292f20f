import GlibController.SimpleModel.Reports
import GlibController.SimpleModel.TextList

/-!
The simple model is the list that it is for.

`IsList` relates the model in its memory to a `TextList`. A call and its step go wrong
together, and otherwise lead to related states (`stepsLike`), so a run shows what the list
shows.
-/

namespace GlibController

open Lib Application

variable {VArr PArr : Type} [GPtrArray PArr]

/-! ### The relation -/

/-- The references that are never dropped: one on each array but the first. -/
def lostReferences (lostArrays : Nat) : RefCounts Storage := fun s =>
  if s.kind = .ptrArray ∧ 0 < s.addr ∧ s.addr ≤ lostArrays then 1 else 0

/-- The events are lost or gone, and so many are lost. -/
structure EventsLost (events : List (GObject (GControllerEvent Nat VArr))) (lost : Nat) : Prop where
  each : ∀ x ∈ events, EventLost x ∨ EventGone x
  count : events.countP (fun x => 0 < x.refCount) = lost

/-- Which arrays the controller and the model point at, with a number of lost arrays. -/
def ArrayState.Points : ArrayState → (lost p q : Nat) → Prop
  | .first, lost, p, q => lost = 0 ∧ p = 0 ∧ q = 0
  | .kept, lost, _, q => 0 < q ∧ q ≤ lost
  | .freed, _, p, q => 0 < p ∧ q = 0

/-- The model in its memory is the list, with the array of the controller at `p` and that of
the model at `q`. -/
structure IsListAt (o : MySimpleModel VArr PArr) (t : TextList) (p q : Nat) : Prop where
  alive : o.refCount = 1
  members : o.priv = ⟨some 0, some q⟩
  holds : Holds o.env.sys (lostReferences t.lostArrays) 1 p o.env.sys.events
  events : EventsLost o.env.sys.events t.lostEvents
  fresh : o.env.freshArray = t.lostArrays + 1
  points : t.array.Points t.lostArrays p q
  texts : t.array ≠ .freed → GPtrArray.strings (o.env.arrays q) = t.items
  printed : o.env.printed = t.printed
  short : t.items.length ≤ 2 ^ 31

def IsList (o : MySimpleModel VArr PArr) (t : TextList) : Prop := ∃ p q, IsListAt o t p q

theorem EventsLost.append {events : List (GObject (GControllerEvent Nat VArr))} {lost : Nat}
    {x : GObject (GControllerEvent Nat VArr)} (ok : EventsLost events lost) :
    (EventLost x → EventsLost (events ++ [x]) (lost + 1)) ∧
      (EventGone x → EventsLost (events ++ [x]) lost) := by
  have each : EventLost x ∨ EventGone x → ∀ y ∈ events ++ [x], EventLost y ∨ EventGone y := by
    intro new y mem
    rcases List.mem_append.mp mem with old | last
    · exact ok.each y old
    · rw [List.mem_singleton.mp last]
      exact new
  constructor
  · intro isLost
    refine ⟨each (.inl isLost), ?_⟩
    rw [List.countP_append, ok.count, List.countP_singleton, isLost.1]
    rfl
  · intro gone
    refine ⟨each (.inr gone), ?_⟩
    rw [List.countP_append, ok.count, List.countP_singleton, gone.1]
    rfl

theorem lostReferences_self {lost q : Nat} (pos : 0 < q) (le : q ≤ lost) :
    lostReferences lost ⟨.ptrArray, q⟩ = 1 := if_pos ⟨rfl, pos, le⟩

theorem lostReferences_zero (lost : Nat) : lostReferences lost ⟨.ptrArray, 0⟩ = 0 :=
  if_neg fun h => Nat.lt_irrefl 0 h.2.1

/-- A new array, whose reference is lost. -/
theorem lostReferences_succ (lost : Nat) :
    plus (lostReferences lost) (some ⟨.ptrArray, lost + 1⟩) = lostReferences (lost + 1) := by
  funext s
  obtain ⟨kind, addr⟩ := s
  by_cases ptr : kind = .ptrArray
  · subst ptr
    simp only [plus_apply, lostReferences, Option.some.injEq, Storage.mk.injEq, true_and]
    split <;> split <;> split <;> omega
  · simp only [plus_apply, lostReferences, Option.some.injEq, Storage.mk.injEq, ptr, Ne.symm ptr,
      false_and, if_false]

omit [GPtrArray PArr] in
theorem arrays_writeArray (app : Application VArr PArr) (q : Nat) (arr : PArr) :
    (app.writeArray (some q) arr).arrays q = arr := Function.update_self _ _ _

namespace IsListAt

variable {o : MySimpleModel VArr PArr} {t : TextList} {p q : Nat}

/-- The model's array can be read, unless it is freed. -/
theorem live (rep : IsListAt o t p q) (readable : t.array ≠ .freed) :
    0 < lostReferences t.lostArrays ⟨.ptrArray, q⟩ ∨ p = q := by
  have points := rep.points
  cases harray : t.array with
  | first =>
      rw [harray] at points
      obtain ⟨-, rfl, rfl⟩ := points
      exact .inr rfl
  | kept =>
      rw [harray] at points
      rw [lostReferences_self points.1 points.2]
      exact .inl Nat.one_pos
  | freed => exact absurd harray readable

theorem derefArray (rep : IsListAt o t p q) :
    o.env.derefArray (some q) =
      if t.array = .freed then .error .danglingPointer else .ok (o.env.arrays q) := by
  by_cases freed : t.array = .freed
  · have points := rep.points
    rw [freed] at points
    obtain ⟨pos, rfl⟩ := points
    rw [if_pos freed]
    exact derefArray_error rep.holds (lostReferences_zero _) pos.ne'
  · rw [if_neg freed]
    exact derefArray_ok rep.holds (rep.live freed)

/-- The array of a model after it is written. -/
theorem derefArray_write (rep : IsListAt o t p q) (readable : t.array ≠ .freed) (arr : PArr) :
    (o.env.writeArray (some q) arr).derefArray (some q) = .ok arr := by
  have read : (o.env.writeArray (some q) arr).derefArray (some q) =
      .ok ((o.env.writeArray (some q) arr).arrays q) :=
    derefArray_ok rep.holds (rep.live readable)
  rw [read, arrays_writeArray]

/-- The model after a change whose event is gone, or lost. -/
theorem changed (rep : IsListAt o t p q) {t' : TextList} {app : Application VArr PArr}
    {x : GObject (GControllerEvent Nat VArr)}
    (holds : Holds app.sys (lostReferences t.lostArrays) 1 p (o.env.sys.events ++ [x]))
    (same : t'.array = t.array ∧ t'.lostArrays = t.lostArrays ∧ app.freshArray = o.env.freshArray)
    (event : EventGone x ∧ t'.lostEvents = t.lostEvents ∨
      EventLost x ∧ t'.lostEvents = t.lostEvents + 1)
    (texts : GPtrArray.strings (app.arrays q) = t'.items) (printed : app.printed = t'.printed)
    (short : t'.items.length ≤ 2 ^ 31) : IsListAt { o with env := app } t' p q := by
  obtain ⟨array, lost, fresh⟩ := same
  refine ⟨rep.alive, rep.members, ⟨?_, rfl⟩, ?_, ?_, ?_, fun _ => texts, printed, short⟩
  · rw [lost]
    exact holds.heap
  · rw [holds.events]
    rcases event with ⟨gone, count⟩ | ⟨isLost, count⟩
    · rw [count]
      exact rep.events.append.2 gone
    · rw [count]
      exact rep.events.append.1 isLost
  · rw [fresh, lost]
    exact rep.fresh
  · rw [array, lost]
    exact rep.points

end IsListAt

/-! ### Adding a text -/

section Add

variable {o : MySimpleModel VArr PArr} {t : TextList} {p q : Nat} {text : String} {arr : PArr}

/-- The position of the last text, as it is reported. -/
theorem lastIndex_eq {n : Nat} (short : n ≤ 2 ^ 31) : (UInt32.ofNat (n + 1) - 1).toNat = n := by
  have word : UInt32.ofNat (n + 1) - 1 = UInt32.ofNat n := by
    rw [UInt32.ofNat_add, show UInt32.ofNat 1 = 1 from rfl, UInt32.add_sub_cancel]
  rw [word, toNat_ofNat_of_lt (lt_of_le_of_lt short (by decide))]

/-- There is room for one more text, even if the user cannot read its position. -/
theorem IsListAt.room (rep : IsListAt o t p q) (readable : t.array ≠ .freed) :
    (GPtrArray.strings (o.env.arrays q)).length + 1 < UInt32.size := by
  rw [rep.texts readable]
  exact lt_of_le_of_lt (Nat.succ_le_succ rep.short) (by decide)

/-- The position that is reported, once the text is at the end. -/
theorem lastIndex_added (rep : IsListAt o t p q)
    (texts : GPtrArray.strings arr = t.items ++ [text]) :
    (GPtrArray.len arr - 1).toNat = t.items.length := by
  rw [GPtrArray.len, texts, List.length_append, List.length_singleton, lastIndex_eq rep.short]

variable [GValueArray VArr]

/-- A text that is added is reported at its position. -/
theorem addText_eq (rep : IsListAt o t p q) (filled : text ≠ "") (readable : t.array ≠ .freed)
    (added : GPtrArray.add (o.env.arrays q) text = .ok arr) :
    o.addText (some text) =
      ((o.env.writeArray (some q) arr).report ⟨some 0, some q⟩ .add [GPtrArray.len arr - 1] >>=
          fun r => r.1.unrefEvent r.2) >>= fun app => .ok { o with env := app } := by
  have array := rep.derefArray
  rw [if_neg readable] at array
  unfold MySimpleModel.addText arrayAdd
  simp only [if_neg filled, rep.members, array, ok_bind, added, pure_eq_ok,
    rep.derefArray_write readable, bind_assoc]

theorem addText_ok (rep : IsListAt o t p q) (filled : text ≠ "") (readable : t.array ≠ .freed)
    (room : t.items.length < 2 ^ 31) :
    ∃ o', o.addText (some text) = .ok o' ∧ IsListAt o' { t with
      items := t.items ++ [text]
      printed := t.printed ++ [.added text (Int32.ofNat t.items.length)] } p q := by
  obtain ⟨arr, added, texts⟩ := GPtrArray.add_last _ text (rep.room readable)
  rw [rep.texts readable] at texts
  have reports : Reports (o.env.writeArray (some q) arr) ⟨some 0, some q⟩ .add
      [GPtrArray.len arr - 1] (lostReferences t.lostArrays) p
      [.added text (Int32.ofNat t.items.length)] := by
    refine report_text (.inl ⟨rfl, rfl⟩) rep.holds (rep.live readable) (lastIndex_added rep texts)
      room ?_
    rw [arrays_writeArray, texts, List.getElem?_concat_length]
  obtain ⟨sys, x, run, holds, gone⟩ := reports.released
  refine ⟨_, by rw [addText_eq rep filled readable added, run]; rfl, ?_⟩
  refine rep.changed holds ⟨rfl, rfl, rfl⟩ (.inl ⟨gone, rfl⟩) ?_ ?_ ?_
  · rw [← texts]
    exact congrArg GPtrArray.strings (arrays_writeArray o.env q arr)
  · exact congrArg (· ++ _) rep.printed
  · rw [List.length_append]
    exact room

/-- The array is freed, or the user cannot read the position. -/
theorem addText_error (rep : IsListAt o t p q) (filled : text ≠ "")
    (wrong : t.array = .freed ∨ 2 ^ 31 ≤ t.items.length) : ∃ f, o.addText (some text) = .error f := by
  by_cases freed : t.array = .freed
  · have array := rep.derefArray
    rw [if_pos freed] at array
    refine ⟨.danglingPointer, ?_⟩
    unfold MySimpleModel.addText arrayAdd
    simp only [if_neg filled, rep.members, array, error_bind]
  · have long := wrong.resolve_left freed
    obtain ⟨arr, added, texts⟩ := GPtrArray.add_last _ text (rep.room freed)
    rw [rep.texts freed] at texts
    have run : ∃ f, (o.env.writeArray (some q) arr).report ⟨some 0, some q⟩ .add
        [GPtrArray.len arr - 1] = .error f :=
      report_error rep.holds (rep.live freed) ((lastIndex_added rep texts).symm ▸ long)
    obtain ⟨f, run⟩ := run
    refine ⟨f, ?_⟩
    rw [addText_eq rep filled freed added, run]
    rfl

theorem addText_step (rep : IsListAt o t p q) (text : Option String) :
    Option.Rel IsList (o.addText text).toOption (t.addText text) := by
  rcases text with _ | text
  · exact .some ⟨p, q, rep⟩
  rw [TextList.addText]
  by_cases blank : text = ""
  · rw [if_pos blank, MySimpleModel.addText, if_pos blank]
    exact .some ⟨p, q, rep⟩
  · rw [if_neg blank]
    by_cases wrong : t.array = .freed ∨ 2 ^ 31 ≤ t.items.length
    · obtain ⟨f, run⟩ := addText_error rep blank wrong
      rw [if_pos wrong, run]
      exact .none
    · rw [if_neg wrong]
      rw [not_or, not_le] at wrong
      obtain ⟨o', run, rep'⟩ := addText_ok rep blank wrong.1 wrong.2
      rw [run]
      exact .some ⟨p, q, rep'⟩

end Add

/-! ### Removing a text -/

section Remove

variable {o : MySimpleModel VArr PArr} {t : TextList} {p q : Nat} {arr : PArr} {text : String}

/-- The search before a pass: no text before the counter is the one looked for. -/
def FindInv (texts : List String) (text : String) (i : Guint) (_ : Unit) : Prop :=
  i.toNat ≤ texts.idxOf text

/-- What the search returns. -/
def Found (texts : List String) (text : String) (pos : Gint) : Prop :=
  text ∈ texts ∧ pos = Int32.ofNat (texts.idxOf text)

theorem index_toInt32 {i : Guint} (short : (GPtrArray.strings arr).length ≤ 2 ^ 31)
    (inside : i.toNat < (GPtrArray.strings arr).length) :
    GPtrArray.index arr i.toInt32 = .ok (GPtrArray.strings arr)[i.toNat] := by
  have signed := toInt_toInt32 (a := i) (inside.trans_le short)
  apply GPtrArray.index_eq
  · rw [signed]
    exact Int.natCast_nonneg _
  · rw [signed, Int.toNat_natCast, List.getElem?_eq_getElem inside]

theorem findPass_meets {i : Guint} (short : (GPtrArray.strings arr).length ≤ 2 ^ 31)
    (inv : FindInv (GPtrArray.strings arr) text i ()) (guard : i < GPtrArray.len arr) :
    ∃ flow, MySimpleModel.findPass arr text i () = .ok flow ∧
      flow.Meets (FindInv (GPtrArray.strings arr) text (i + 1))
        (Found (GPtrArray.strings arr) text) := by
  have inside : i.toNat < (GPtrArray.strings arr).length := by
    rwa [UInt32.lt_iff_toNat_lt, GPtrArray.toNat_len] at guard
  unfold MySimpleModel.findPass
  rw [index_toInt32 short inside, ok_bind]
  generalize GPtrArray.strings arr = texts at *
  by_cases here : texts[i.toNat] = text
  · have first : texts.idxOf text = i.toNat := by
      refine le_antisymm (not_lt.mp ?_) inv
      intro before
      have differs : (texts[i.toNat] == text) = false := List.not_of_lt_findIdx before
      rw [here, beq_self_eq_true] at differs
      cases differs
    refine ⟨_, if_pos here, here ▸ List.getElem_mem inside, ?_⟩
    rw [first]
    apply Int32.toInt.inj
    rw [toInt_toInt32 (inside.trans_le short), Int32.toInt_ofNat_of_lt (inside.trans_le short)]
  · refine ⟨_, if_neg here, ?_⟩
    have later : i.toNat ≠ texts.idxOf text := by
      intro same
      apply here
      simp only [same]
      exact List.getElem_idxOf (same ▸ inside)
    have succ := toNat_succ guard
    have inv : i.toNat ≤ texts.idxOf text := inv
    show (i + 1).toNat ≤ texts.idxOf text
    omega

/-- The search ends at the first such text, or at the end. -/
theorem find_ok (short : (GPtrArray.strings arr).length ≤ 2 ^ 31) (text : String) :
    forBelow (fun _ => GPtrArray.len arr) (MySimpleModel.findPass arr text) 0 () =
      .ok (if text ∈ GPtrArray.strings arr then
          .done (Int32.ofNat ((GPtrArray.strings arr).idxOf text)) else .next ()) := by
  obtain ⟨flow, run, meets⟩ := forBelow_total (fun _ => GPtrArray.len arr)
    (MySimpleModel.findPass arr text) 0 () (FindInv (GPtrArray.strings arr) text)
    (Found (GPtrArray.strings arr) text)
    (fun _ _ inv guard => findPass_meets short inv guard) (Nat.zero_le _)
  rw [run]
  cases flow with
  | next s =>
      obtain ⟨i, inv, stop⟩ := meets
      rw [UInt32.lt_iff_toNat_lt, GPtrArray.toNat_len, not_lt] at stop
      have absent : text ∉ GPtrArray.strings arr := by
        intro mem
        have inv : i.toNat ≤ (GPtrArray.strings arr).idxOf text := inv
        have inside := List.idxOf_lt_length_of_mem mem
        omega
      rw [if_neg absent]
  | done pos =>
      obtain ⟨mem, rfl⟩ := meets
      rw [if_pos mem]

variable [GValueArray VArr]

/-- The first such text is reported at its position, and the controller is released in place
of the event. -/
theorem removeText_eq (rep : IsListAt o t p q) (filled : text ≠ "")
    (readable : t.array ≠ .freed) :
    o.removeText (some text) =
      if text ∈ t.items then
        (o.env.report ⟨some 0, some q⟩ .remove [(Int32.ofNat (t.items.idxOf text)).toUInt32] >>=
            fun r => r.1.unrefController (some 0)) >>= fun app =>
          app.arrayRemoveIndex (some q) (Int32.ofNat (t.items.idxOf text)).toUInt32 >>= fun app =>
            .ok { o with env := app }
      else .ok o := by
  have array := rep.derefArray
  rw [if_neg readable] at array
  have search := find_ok ((congrArg List.length (rep.texts readable)).trans_le rep.short) text
  rw [rep.texts readable] at search
  unfold MySimpleModel.removeText
  simp only [if_neg filled, rep.members, array, ok_bind, search]
  by_cases mem : text ∈ t.items
  · rw [if_pos mem, if_pos mem]
    simp only [pure_eq_ok, bind_assoc]
  · rw [if_neg mem, if_neg mem]
    rfl

theorem removeText_ok (rep : IsListAt o t p q) (filled : text ≠ "") (readable : t.array ≠ .freed)
    (mem : text ∈ t.items) :
    ∃ o', o.removeText (some text) = .ok o' ∧ IsListAt o' { t with
      items := t.items.eraseIdx (t.items.idxOf text)
      printed := t.printed ++ [.removed text (Int32.ofNat (t.items.idxOf text))]
      lostEvents := t.lostEvents + 1 } p q := by
  have inside := List.idxOf_lt_length_of_mem mem
  have small := inside.trans_le rep.short
  have word : (Int32.ofNat (t.items.idxOf text)).toUInt32.toNat = t.items.idxOf text := by
    have signed := Int32.toInt_ofNat_of_lt small
    rw [toNat_toUInt32 (signed ▸ Int.natCast_nonneg _), signed, Int.toNat_natCast]
  have reports : Reports o.env ⟨some 0, some q⟩ .remove
      [(Int32.ofNat (t.items.idxOf text)).toUInt32] (lostReferences t.lostArrays) p
      [.removed text (Int32.ofNat (t.items.idxOf text))] := by
    refine report_text (.inr ⟨rfl, rfl⟩) rep.holds (rep.live readable) word small ?_
    rw [rep.texts readable, List.getElem?_eq_getElem inside, List.getElem_idxOf]
  obtain ⟨sys, x, run, holds, lost⟩ := reports.lost
  have array : ((o.env.withSystem sys).said
      [.removed text (Int32.ofNat (t.items.idxOf text))]).derefArray (some q) =
        .ok (o.env.arrays q) := derefArray_ok holds (rep.live readable)
  have removed : o.removeText (some text) = .ok { o with
      env := ((o.env.withSystem sys).said
        [.removed text (Int32.ofNat (t.items.idxOf text))]).writeArray (some q)
          (GPtrArray.removeIndex (o.env.arrays q)
            (Int32.ofNat (t.items.idxOf text)).toUInt32) } := by
    rw [removeText_eq rep filled readable, if_pos mem, run, ok_bind, arrayRemoveIndex, array]
    rfl
  refine ⟨_, removed, ?_⟩
  refine rep.changed holds ⟨rfl, rfl, rfl⟩ (.inr ⟨lost, rfl⟩) ?_ ?_ ?_
  · rw [arrays_writeArray, GPtrArray.strings_removeIndex, rep.texts readable, word]
  · exact congrArg (· ++ _) rep.printed
  · exact (List.length_eraseIdx_le _ _).trans rep.short

theorem removeText_step (rep : IsListAt o t p q) (text : Option String) :
    Option.Rel IsList (o.removeText text).toOption (t.removeText text) := by
  rcases text with _ | text
  · exact .some ⟨p, q, rep⟩
  rw [TextList.removeText]
  by_cases blank : text = ""
  · rw [if_pos blank, MySimpleModel.removeText, if_pos blank]
    exact .some ⟨p, q, rep⟩
  · rw [if_neg blank]
    by_cases freed : t.array = .freed
    · have array := rep.derefArray
      rw [if_pos freed] at array
      rw [if_pos freed, MySimpleModel.removeText, if_neg blank, rep.members]
      simp only [array, error_bind]
      exact .none
    · rw [if_neg freed]
      by_cases mem : text ∈ t.items
      · obtain ⟨o', run, rep'⟩ := removeText_ok rep blank freed mem
        rw [if_pos mem, run]
        exact .some ⟨p, q, rep'⟩
      · rw [if_neg mem, removeText_eq rep blank freed, if_neg mem]
        exact .some ⟨p, q, rep⟩

end Remove

/-! ### A new array -/

section NewArray

variable {o : MySimpleModel VArr PArr} {t : TextList} {p q : Nat}

/-- The program with a new array at the next address. -/
def renewed (app : Application VArr PArr) (sys : System VArr) : Application VArr PArr where
  sys := sys
  arrays := Function.update app.arrays app.freshArray GPtrArray.new
  freshArray := app.freshArray + 1
  printed := app.printed

theorem strings_renewed (app : Application VArr PArr) (sys : System VArr) :
    GPtrArray.strings ((renewed app sys).arrays app.freshArray) = [] := by
  have new : (renewed app sys).arrays app.freshArray = GPtrArray.new := Function.update_self _ _ _
  rw [new, GPtrArray.strings_new]

/-- The new array is not the one that the model points at, unless that is freed. -/
theorem IsListAt.other_array (rep : IsListAt o t p q) : q ≠ o.env.freshArray := by
  have points := rep.points
  rw [rep.fresh]
  cases harray : t.array with
  | first =>
      rw [harray] at points
      rw [points.2.2]
      exact (Nat.succ_ne_zero _).symm
  | kept =>
      rw [harray] at points
      exact (Nat.lt_succ_of_le points.2).ne
  | freed =>
      rw [harray] at points
      rw [points.2]
      exact (Nat.succ_ne_zero _).symm

/-- The loop over the strings only ends behind them. -/
theorem fill_error (array i : Nat) (text : List String) (app : Application VArr PArr) :
    ∃ f, MySimpleModel.fill array i text app = .error f := by
  induction text generalizing i app with
  | nil => exact ⟨_, rfl⟩
  | cons first rest ih =>
      rw [MySimpleModel.fill]
      cases app.arrayAdd (some array) first with
      | error f => exact ⟨f, rfl⟩
      | ok app => exact ih (i + 1) app

/-- The model after its array was replaced. -/
theorem IsListAt.renewed (rep : IsListAt o t p q) {t' : TextList} {q' : Nat}
    {sys : System VArr} {lines : List Printed} {x : GObject (GControllerEvent Nat VArr)}
    (holds : Holds sys (lostReferences (t.lostArrays + 1)) 1 (t.lostArrays + 1)
      (o.env.sys.events ++ [x])) (gone : EventGone x)
    (lost : t'.lostArrays = t.lostArrays + 1 ∧ t'.lostEvents = t.lostEvents)
    (points : t'.array.Points (t.lostArrays + 1) (t.lostArrays + 1) q')
    (texts : t'.array ≠ .freed → GPtrArray.strings ((renewed o.env sys).arrays q') = t'.items)
    (printed : t.printed ++ lines = t'.printed) (short : t'.items.length ≤ 2 ^ 31) :
    IsListAt { o with priv := ⟨some 0, some q'⟩, env := (GlibController.renewed o.env sys).said lines }
      t' (t.lostArrays + 1) q' := by
  obtain ⟨arrays, events⟩ := lost
  refine ⟨rep.alive, rfl, ⟨?_, rfl⟩, ?_, ?_, ?_, texts, ?_, short⟩
  · rw [arrays]
    exact holds.heap
  · have all : sys.events = o.env.sys.events ++ [x] := holds.events
    show EventsLost sys.events t'.lostEvents
    rw [all, events]
    exact rep.events.append.2 gone
  · rw [arrays]
    exact congrArg (· + 1) rep.fresh
  · rw [arrays]
    exact points
  · rw [← printed, ← rep.printed]
    rfl

variable [GValueArray VArr]

theorem newArray_ok (rep : IsListAt o t p q) :
    ∃ sys, o.env.newArray = .ok (renewed o.env sys) ∧
      Holds sys (lostReferences (t.lostArrays + 1)) 1 p o.env.sys.events := by
  obtain ⟨sys, run, holds⟩ := rep.holds.newStorage ⟨.ptrArray, o.env.freshArray⟩
  rw [rep.fresh, lostReferences_succ] at holds
  refine ⟨sys, ?_, holds⟩
  unfold newArray call
  rw [run]
  rfl

/-- The controller takes the new array, and nobody drops the other reference on it. -/
theorem setArray_ok (rep : IsListAt o t p q) {sys : System VArr}
    (holds : Holds sys (lostReferences (t.lostArrays + 1)) 1 p o.env.sys.events) :
    ∃ sys', (renewed o.env sys).setArray (some 0) o.env.freshArray = .ok (renewed o.env sys') ∧
      Holds sys' (lostReferences (t.lostArrays + 1)) 1 (t.lostArrays + 1) o.env.sys.events := by
  have exist : 0 < lostReferences (t.lostArrays + 1) ⟨.ptrArray, t.lostArrays + 1⟩ := by
    rw [lostReferences_self (Nat.succ_pos _) le_rfl]
    exact Nat.one_pos
  obtain ⟨sys', run, holds'⟩ := holds.set Nat.one_pos exist
  refine ⟨sys', ?_, holds'⟩
  rw [rep.fresh]
  unfold setArray call
  have run : (renewed o.env sys).sys.exec
      (.set 0 (some (t.lostArrays + 1)) : OwnershipCall VArr Vararg) = .ok sys' := run
  simp only [run, ok_bind]
  rfl

/-- The array is replaced, and that is reported. -/
theorem renew_ok (rep : IsListAt o t p q) {q' : Nat} {action : GControllerAction}
    {lines : List Printed}
    (prints : action = .clear ∧ lines = [.cleared] ∨ action = .replace ∧ lines = []) :
    ∃ sys x, (o.env.newArray >>= fun app => app.setArray (some 0) o.env.freshArray >>= fun app =>
        app.report ⟨some 0, some q'⟩ action [] >>= fun r => r.1.unrefEvent r.2) =
          .ok ((renewed o.env sys).said lines) ∧
      Holds sys (lostReferences (t.lostArrays + 1)) 1 (t.lostArrays + 1) (o.env.sys.events ++ [x]) ∧
      EventGone x := by
  obtain ⟨sys₁, run₁, holds₁⟩ := newArray_ok rep
  obtain ⟨sys₂, run₂, holds₂⟩ := setArray_ok rep holds₁
  have reports : Reports (renewed o.env sys₂) ⟨some 0, some q'⟩ action []
      (lostReferences (t.lostArrays + 1)) (t.lostArrays + 1) lines :=
    report_nothing prints rfl (holds₂.events.symm ▸ holds₂)
  obtain ⟨sys₃, x, run₃, holds₃, gone⟩ := reports.released
  have events : (renewed o.env sys₂).sys.events = o.env.sys.events := holds₂.events
  rw [events] at holds₃
  refine ⟨sys₃, x, ?_, holds₃, gone⟩
  rw [run₁, ok_bind, run₂, ok_bind, run₃]
  rfl

/-- The model keeps its own pointer, to an array that the controller has released. -/
theorem setItems_ok (rep : IsListAt o t p q) (text : List String) :
    ∃ o', o.setItems 0 text = .ok o' ∧ IsListAt o' { t with
      array := if t.array = .first then .freed else t.array
      lostArrays := t.lostArrays + 1 } (t.lostArrays + 1) q := by
  have replaced : ∃ sys x, (o.env.newArray >>= fun app => app.setArray (some 0) o.env.freshArray >>=
      fun app => app.report ⟨some 0, some q⟩ .replace [] >>= fun r => r.1.unrefEvent r.2) =
        .ok ((renewed o.env sys).said []) ∧
      Holds sys (lostReferences (t.lostArrays + 1)) 1 (t.lostArrays + 1) (o.env.sys.events ++ [x]) ∧
      EventGone x := renew_ok rep (.inr ⟨rfl, rfl⟩)
  obtain ⟨sys, x, run, holds, gone⟩ := replaced
  have same : o.setItems 0 text =
      (o.env.newArray >>= fun app => app.setArray (some 0) o.env.freshArray >>=
        fun app => app.report ⟨some 0, some q⟩ .replace [] >>= fun r => r.1.unrefEvent r.2) >>=
          fun app => .ok { o with priv := ⟨some 0, some q⟩, env := app } := by
    unfold MySimpleModel.setItems
    rw [rep.members]
    simp only [if_true, ok_bind, bind_assoc, pure_eq_ok]
    rw [← rep.members]
  refine ⟨_, by rw [same, run]; rfl, ?_⟩
  refine rep.renewed holds gone ⟨rfl, rfl⟩ ?_ ?_ (List.append_nil _) rep.short
  · have points := rep.points
    cases harray : t.array with
    | first =>
        rw [harray] at points
        exact ⟨Nat.succ_pos _, points.2.2⟩
    | kept =>
        rw [harray] at points
        exact ⟨points.1, Nat.le_succ_of_le points.2⟩
    | freed =>
        rw [harray] at points
        exact ⟨Nat.succ_pos _, points.2⟩
  · intro readable
    have before : t.array ≠ .freed := by
      intro freed
      apply readable
      rw [freed]
      rfl
    rw [← rep.texts before]
    exact congrArg GPtrArray.strings (Function.update_of_ne rep.other_array _ _)

theorem setItems_error (rep : IsListAt o t p q) {nStrings : Gint} (some_ : nStrings ≠ 0)
    (text : List String) : ∃ f, o.setItems nStrings text = .error f := by
  obtain ⟨sys, run, -⟩ := newArray_ok rep
  obtain ⟨f, fails⟩ := fill_error o.env.freshArray 0 text (renewed o.env sys)
  refine ⟨f, ?_⟩
  unfold MySimpleModel.setItems
  simp only [run, ok_bind, if_neg some_, fails, error_bind]

theorem clear_ok (rep : IsListAt o t p q) :
    ∃ o', o.clear = .ok o' ∧ IsListAt o' t.clear (t.lostArrays + 1) (t.lostArrays + 1) := by
  have replaced : ∃ sys x, (o.env.newArray >>= fun app => app.setArray (some 0) o.env.freshArray >>=
      fun app => app.report ⟨some 0, some o.env.freshArray⟩ .clear [] >>= fun r =>
        r.1.unrefEvent r.2) = .ok ((renewed o.env sys).said [.cleared]) ∧
      Holds sys (lostReferences (t.lostArrays + 1)) 1 (t.lostArrays + 1) (o.env.sys.events ++ [x]) ∧
      EventGone x := renew_ok rep (.inl ⟨rfl, rfl⟩)
  obtain ⟨sys, x, run, holds, gone⟩ := replaced
  have same : o.clear =
      (o.env.newArray >>= fun app => app.setArray (some 0) o.env.freshArray >>=
        fun app => app.report ⟨some 0, some o.env.freshArray⟩ .clear [] >>= fun r =>
          r.1.unrefEvent r.2) >>=
        fun app => .ok { o with priv := ⟨some 0, some o.env.freshArray⟩, env := app } := by
    unfold MySimpleModel.clear
    rw [rep.members]
    simp only [bind_assoc, pure_eq_ok]
  refine ⟨_, by rw [same, run]; rfl, ?_⟩
  rw [rep.fresh]
  refine rep.renewed holds gone ⟨rfl, rfl⟩ ⟨Nat.succ_pos _, le_rfl⟩ ?_ rfl (Nat.zero_le _)
  intro _
  rw [← rep.fresh]
  exact strings_renewed o.env sys

end NewArray

/-! ### Runs -/

section Runs

variable [GValueArray VArr]

omit [GValueArray VArr] in
theorem lostReferences_none : lostReferences 0 = fun _ => 0 := by
  funext s
  apply if_neg
  intro h
  exact absurd (h.2.1.trans_le h.2.2) (Nat.lt_irrefl 0)

/-- A new model has no texts. -/
theorem init_ok (VArr PArr : Type) [GValueArray VArr] [GPtrArray PArr] :
    ∃ o : MySimpleModel VArr PArr, MySimpleModel.init empty = .ok o ∧
      IsListAt o TextList.empty 0 0 := by
  let counts : RefCounts Storage := plus (fun _ => 0) (some ⟨.ptrArray, 0⟩)
  have made : ∃ marks, StorageKind.newWith .ptrArray counts (some 0) =
      .ok ⟨⟨1, ⟨some 0⟩, marks⟩, plus counts (some ⟨.ptrArray, 0⟩)⟩ := by
    apply StorageKind.newWith_ok
    intro s given
    cases given
    exact Nat.one_pos
  obtain ⟨marks, new⟩ := made
  have pos : 0 < plus counts (some ⟨.ptrArray, 0⟩) ⟨.ptrArray, 0⟩ := Nat.succ_pos _
  have dropped : RefCounts.unref (plus counts (some ⟨.ptrArray, 0⟩)) ⟨.ptrArray, 0⟩ = .ok counts := by
    rw [RefCounts.unref_eq pos, minus_plus]
  let o : MySimpleModel VArr PArr := ⟨⟨1, ⟨some 0, some 0⟩, []⟩,
    ⟨⟨⟨counts, [⟨.ptrArray, ⟨1, ⟨some 0⟩, marks⟩⟩]⟩, [],
      ⟨minus counts ⟨.ptrArray, 0⟩, plus (fun _ => 0) (some 0), fun _ => 0⟩⟩,
      Function.update (fun _ => GPtrArray.new) 0 GPtrArray.new, 1, []⟩⟩
  refine ⟨o, ?_, rfl, rfl, ⟨⟨?_, marks, rfl⟩, rfl⟩, ⟨?_, rfl⟩, rfl, ⟨rfl, rfl, rfl⟩, ?_, rfl,
    Nat.zero_le _⟩
  · simp only [MySimpleModel.init, newArray, call, System.exec, System.onStorages, System.onHeap, empty,
      System.empty, ok_bind, pure_eq_ok, System.withOutside, System.placeNew, Heap.place]
    simp only [counts] at new dropped
    simp only [new, ok_bind, dropped]
    rfl
  · exact congrArg (plus · _) lostReferences_none.symm
  · intro x mem
    exact absurd mem List.not_mem_nil
  · intro _
    exact GPtrArray.strings_new

theorem stepsLike : StepsLike IsList (fun _ => True)
    (MySimpleModel.step : MySimpleModel VArr PArr → _ → _) TextList.step := by
  rintro o t c ⟨p, q, rep⟩ -
  cases c with
  | addText text => exact addText_step rep text
  | removeText text => exact removeText_step rep text
  | setItems nStrings text =>
      unfold MySimpleModel.step MySimpleModel.exec TextList.step TextList.setItems
      by_cases zero : nStrings = 0
      · subst zero
        obtain ⟨o', run, rep'⟩ := setItems_ok rep text
        simp only [run, if_true]
        exact .some ⟨_, _, rep'⟩
      · obtain ⟨f, run⟩ := setItems_error rep zero text
        simp only [run, if_neg zero]
        exact .none
  | clear =>
      obtain ⟨o', run, rep'⟩ := clear_ok rep
      unfold MySimpleModel.step MySimpleModel.exec
      simp only [run]
      exact .some ⟨_, _, rep'⟩

end Runs

end GlibController

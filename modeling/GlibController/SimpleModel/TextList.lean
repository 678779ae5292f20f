import GlibController.SimpleModel.Model
import GlibController.Lib.Machine

/-!
What the simple model is for: a list of texts, and lines that tell every change.

`TextList` has the list, the lines, what has become of the array, and how much memory is
lost. Its step is partial: it is undefined where the program goes wrong.
`Printed.apply` does to a list what a line tells, and `told_of_run` says that the
lines of a run tell the whole list.
-/

namespace GlibController

open Lib

/-- What has become of the array that the model points at. -/
inductive ArrayState where
  /-- It is the first array, on which the controller holds the only reference. -/
  | first
  /-- It was made by `clear`, which never drops its reference. -/
  | kept
  /-- It was the first array, and the controller has released it. -/
  | freed
  deriving DecidableEq, Repr

/-- The list with its lines, the events and the arrays that are lost. -/
structure TextList where
  items : List String
  printed : List Printed
  array : ArrayState
  lostEvents : Nat
  lostArrays : Nat
  deriving DecidableEq, Repr

/-- The call makes an array. -/
def SimpleModelCall.allocates : SimpleModelCall → Bool
  | .setItems _ _ => true
  | .clear => true
  | _ => false

namespace TextList

def empty : TextList := ⟨[], [], .first, 0, 0⟩

/-- A text that is not empty is added, as long as its position is a `gint`. -/
def addText (t : TextList) : Option String → Option TextList
  | none => some t
  | some text =>
      if text = "" then some t
      else if t.array = .freed ∨ 2 ^ 31 ≤ t.items.length then none
      else some { t with
        items := t.items ++ [text]
        printed := t.printed ++ [.added text (Int32.ofNat t.items.length)] }

/-- The first such text is removed, and an event is lost. -/
def removeText (t : TextList) : Option String → Option TextList
  | none => some t
  | some text =>
      if text = "" then some t
      else if t.array = .freed then none
      else if text ∈ t.items then some { t with
        items := t.items.eraseIdx (t.items.idxOf text)
        printed := t.printed ++ [.removed text (Int32.ofNat (t.items.idxOf text))]
        lostEvents := t.lostEvents + 1 }
      else some t

/-- Nothing but the empty list can be set, and that changes no text. The controller
releases its array. -/
def setItems (t : TextList) (nStrings : Gint) : Option TextList :=
  if nStrings = 0 then some { t with
    array := if t.array = .first then .freed else t.array
    lostArrays := t.lostArrays + 1 }
  else none

def clear (t : TextList) : TextList where
  items := []
  printed := t.printed ++ [.cleared]
  array := .kept
  lostEvents := t.lostEvents
  lostArrays := t.lostArrays + 1

/-- Where a step leads, if the program does not go wrong. -/
def step (t : TextList) : SimpleModelCall → Option TextList
  | .addText text => t.addText text
  | .removeText text => t.removeText text
  | .setItems nStrings _ => t.setItems nStrings
  | .clear => some t.clear

/-- What a step can do. -/
inductive Effect (t : TextList) : SimpleModelCall → TextList → Prop where
  | nothing {c : SimpleModelCall} : ¬ c.allocates → Effect t c t
  | added (text : String) : t.array ≠ .freed → t.items.length < 2 ^ 31 →
      Effect t (.addText (some text)) { t with
        items := t.items ++ [text]
        printed := t.printed ++ [.added text (Int32.ofNat t.items.length)] }
  | removed (text : String) : text ∈ t.items → Effect t (.removeText (some text)) { t with
      items := t.items.eraseIdx (t.items.idxOf text)
      printed := t.printed ++ [.removed text (Int32.ofNat (t.items.idxOf text))]
      lostEvents := t.lostEvents + 1 }
  | set (text : List String) : Effect t (.setItems 0 text) { t with
      array := if t.array = .first then .freed else t.array
      lostArrays := t.lostArrays + 1 }
  | clear : Effect t .clear t.clear

theorem effect_of_step {t t' : TextList} {c : SimpleModelCall} (h : t.step c = some t') :
    Effect t c t' := by
  cases c with
  | addText text =>
      rcases text with _ | text
      · cases h
        exact .nothing Bool.false_ne_true
      rw [step, addText] at h
      by_cases blank : text = ""
      · rw [if_pos blank] at h
        cases h
        exact .nothing Bool.false_ne_true
      · rw [if_neg blank] at h
        by_cases shut : t.array = .freed ∨ 2 ^ 31 ≤ t.items.length
        · rw [if_pos shut] at h
          cases h
        · rw [if_neg shut] at h
          cases h
          rw [not_or, not_le] at shut
          exact .added text shut.1 shut.2
  | removeText text =>
      rcases text with _ | text
      · cases h
        exact .nothing Bool.false_ne_true
      rw [step, removeText] at h
      by_cases blank : text = ""
      · rw [if_pos blank] at h
        cases h
        exact .nothing Bool.false_ne_true
      · rw [if_neg blank] at h
        by_cases freed : t.array = .freed
        · rw [if_pos freed] at h
          cases h
        · rw [if_neg freed] at h
          by_cases mem : text ∈ t.items
          · rw [if_pos mem] at h
            cases h
            exact .removed text mem
          · rw [if_neg mem] at h
            cases h
            exact .nothing Bool.false_ne_true
  | setItems nStrings text =>
      rw [step, setItems] at h
      by_cases zero : nStrings = 0
      · rw [if_pos zero] at h
        cases h
        subst zero
        exact .set text
      · rw [if_neg zero] at h
        cases h
  | clear =>
      cases h
      exact .clear

/-- What a caller reads: the lines, the texts and their number. -/
def see (t : TextList) : List Printed × Option (List String × Gint) :=
  (t.printed,
    if t.array = .freed then none
    else some (t.items, (UInt32.ofNat t.items.length).toInt32))

end TextList

/-! ### The lines tell the list -/

/-- What a line tells, done to a list that it fits. -/
def Printed.apply (items : List String) : Printed → Option (List String)
  | .added text idx => if idx.toInt = items.length then some (items ++ [text]) else none
  | .removed text idx =>
      if 0 ≤ idx.toInt ∧ items[idx.toInt.toNat]? = some text then
        some (items.eraseIdx idx.toInt.toNat)
      else none
  | .cleared => some []

namespace TextList

/-- The lines, applied in order to the empty list, give the texts. -/
def Told (t : TextList) : Prop :=
  t.items.length ≤ 2 ^ 31 ∧ run Printed.apply [] t.printed = some t.items

/-- One line more. -/
theorem told_line {printed : List Printed} {items items' : List String} {line : Printed}
    (told : run Printed.apply [] printed = some items) (fits : line.apply items = some items') :
    run Printed.apply [] (printed ++ [line]) = some items' := by
  rw [run_append, told, Option.bind_some, run_singleton, fits]

theorem told_step {t t' : TextList} {c : SimpleModelCall} (told : t.Told) (h : t.step c = some t') :
    t'.Told := by
  obtain ⟨short, replay⟩ := told
  cases effect_of_step h with
  | nothing _ => exact ⟨short, replay⟩
  | added text _ room =>
      refine ⟨by rw [List.length_append]; exact room, told_line replay ?_⟩
      unfold Printed.apply
      exact if_pos (Int32.toInt_ofNat_of_lt room)
  | removed text mem =>
      have inside := List.idxOf_lt_length_of_mem mem
      have place : (Int32.ofNat (t.items.idxOf text)).toInt = t.items.idxOf text :=
        Int32.toInt_ofNat_of_lt (inside.trans_le short)
      have here : t.items[t.items.idxOf text]? = some text := by
        rw [List.getElem?_eq_getElem inside, List.getElem_idxOf]
      refine ⟨(List.length_eraseIdx_le _ _).trans short, told_line replay ?_⟩
      unfold Printed.apply
      simp only [place, Int.toNat_natCast]
      exact if_pos ⟨Int.natCast_nonneg _, here⟩
  | set _ => exact ⟨short, replay⟩
  | clear => exact ⟨Nat.zero_le _, told_line replay rfl⟩

/-- The lines of a run tell the texts. -/
theorem told_of_run {calls : List SimpleModelCall} {t t' : TextList} (told : t.Told)
    (h : run step t calls = some t') : t'.Told := by
  exact run_invariant Told (fun _ _ _ told h => told_step told h) told h

end TextList

end GlibController

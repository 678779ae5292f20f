import GlibController.Lib.Machine
import GlibController.IndexSet.Contents

/-!
Runs of the index set interface over a store of sets.

`Effect` says once what a successful call can do to the store, and `NewContent`
what it leaves in the set it is called on. Every fact about runs is derived from
these two through `exec_contents`.
-/

namespace GlibController

open Lib

namespace Store

open GArray GIndexSet

variable {Arr : Type} [GArray Arr]

/-- Runs of calls from the empty store. -/
def machine (Arr : Type) [GArray Arr] : Machine (Store Arr) Call where
  start st := st = empty
  step st c st' := ∃ p, st.exec c = .ok (st', p)

/-- The content that a call leaves in the set it is called on. -/
inductive NewContent (st : Store Arr) (a : Nat) (set : GIndexSet Arr) :
    Call → Option (List Guint) → Prop where
  | ref : NewContent st a set (.ref (some a)) set.stored
  | unref : NewContent st a set (.unref (some a)) set.stored
  | init : NewContent st a set (.init (some a)) (some [])
  | index (x : Guint) : NewContent st a set (.initWithIndex (some a) x) (some [x])
  | range (r : GRange) : NewContent st a set (.initWithRange (some a) (some r))
      (some (interval r.location r.length ++ elems (set.resized r)))
  | copy {b : Nat} {source : GIndexSet Arr} : a ≠ b → st.sets b = some source →
      NewContent st a set (.initWithSet (some a) (some b)) (some source.members)
  | copySelf : NewContent st a set (.initWithSet (some a) (some a)) (some [])

/-- What a successful call does to the store. -/
inductive Effect (st : Store Arr) (c : Call) : Store Arr → Prop where
  | nothing : Effect st c st
  | allocated : c = .alloc → Effect st c st.alloc.1
  | freed (a : Nat) : c = .unref (some a) →
      Effect st c { st with sets := Function.update st.sets a none }
  | changed {a : Nat} {set set' : GIndexSet Arr} : st.sets a = some set →
      NewContent st a set c set'.stored → Effect st c (st.write a set')

omit [GArray Arr] in
/-- A call through a pointer succeeds on a live set only. -/
theorem through_ok {st st' : Store Arr} {a : Nat} {p : SetPtr}
    {f : GIndexSet Arr → Except Fault (GIndexSet Arr)}
    (h : st.through (some a) f = .ok (st', p)) :
    ∃ set set', st.sets a = some set ∧ f set = .ok set' ∧ st' = st.write a set' := by
  cases hset : st.sets a with
  | none => simp [through, deref, hset] at h
  | some set =>
      rw [through_some hset] at h
      cases hf : f set with
      | error e => rw [hf] at h; cases h
      | ok set' => rw [hf] at h; cases h; exact ⟨set, set', rfl, hf, rfl⟩

theorem exec_effect {st st' : Store Arr} {c : Call} {p : SetPtr} (h : st.exec c = .ok (st', p)) :
    Effect st c st' := by
  cases c with
  | alloc => cases h; exact .allocated rfl
  | ref q =>
      cases q with
      | none => cases h; exact .nothing
      | some a =>
          obtain ⟨set, _, hset, hf, rfl⟩ := through_ok h
          cases hf
          exact .changed hset .ref
  | unref q =>
      cases q with
      | none => cases h; exact .nothing
      | some a =>
          cases hset : st.sets a with
          | none => simp [exec, unref, deref, hset] at h
          | some set =>
              simp only [exec, unref, deref_ok hset, ok_bind] at h
              split at h
              · cases h; exact .freed a rfl
              · cases h; exact .changed hset .unref
  | init q =>
      cases q with
      | none => cases h; exact .nothing
      | some a =>
          obtain ⟨set, _, hset, hf, rfl⟩ := through_ok h
          cases hf
          exact .changed hset (by rw [stored_init]; exact .init)
  | initWithIndex q x =>
      cases q with
      | none => cases h; exact .nothing
      | some a =>
          obtain ⟨set, set', hset, hf, rfl⟩ := through_ok h
          obtain ⟨t, ht, content⟩ := set.initWithIndex_spec x
          rw [hf] at ht
          cases ht
          exact .changed hset (by rw [content]; exact .index x)
  | initWithRange q r =>
      cases q with
      | none => cases h; exact .nothing
      | some a =>
          cases r with
          | none => cases h; exact .nothing
          | some r =>
              obtain ⟨set, set', hset, hf, rfl⟩ := through_ok h
              exact .changed hset (by rw [initWithRange_ok hf]; exact .range r)
  | initWithSet q q' =>
      cases q with
      | none => cases h; exact .nothing
      | some a =>
          cases q' with
          | none => cases h; exact .nothing
          | some b =>
              cases hset : st.sets a with
              | none => simp [exec, initWithSet, deref, hset] at h
              | some set =>
                  by_cases hne : a = b
                  · subst hne
                    simp only [exec, initWithSet_self hset] at h
                    cases h
                    exact .changed hset (by rw [stored_init]; exact .copySelf)
                  · cases hsrc : st.sets b with
                    | none =>
                        simp [exec, initWithSet, setIndices, deref, hset, hsrc,
                          Function.update_of_ne (Ne.symm hne)] at h
                    | some source =>
                        obtain ⟨arr, run, helems⟩ := initWithSet_of_ne hne hset hsrc
                        simp only [exec, run] at h
                        cases h
                        exact .changed hset (by
                          rw [stored_mk_some, helems]; exact .copy hne hsrc)

/-- What a property of contents needs in order to hold after a call: to hold of the
content the call leaves. -/
theorem exec_contents {P : Option (List Guint) → Prop} (none : P none) {st st' : Store Arr}
    {c : Call} {p : SetPtr} (inv : ∀ a set, st.sets a = some set → P set.stored)
    (new : ∀ a set content, st.sets a = some set → NewContent st a set c content → P content)
    (h : st.exec c = .ok (st', p)) : ∀ a set, st'.sets a = some set → P set.stored := by
  intro a set hset
  cases exec_effect h with
  | nothing => exact inv a set hset
  | allocated _ =>
      by_cases hfresh : a = st.fresh
      · subst hfresh
        rw [alloc, sets_write, Function.update_self] at hset
        cases hset
        exact none
      · rw [alloc, sets_write, Function.update_of_ne hfresh] at hset
        exact inv a set hset
  | freed b _ =>
      by_cases hb : a = b
      · subst hb; simp at hset
      · simp only [Function.update_of_ne hb] at hset
        exact inv a set hset
  | @changed b old set' hold content =>
      by_cases hb : a = b
      · subst hb
        rw [sets_write, Function.update_self] at hset
        cases hset
        exact new a old _ hold content
      · rw [sets_write, Function.update_of_ne hb] at hset
        exact inv a set hset

end Store

end GlibController

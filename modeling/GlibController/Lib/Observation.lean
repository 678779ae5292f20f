import GlibController.Lib.Machine

/-!
What can be told of the state of a deterministic system from outside.

An observer takes actions and then asks a question, which need not have an answer. Two states,
of one system or of two, are `Indistinguishable` if no observer can tell them apart; then they
are so after every action that both can take (`Indistinguishable.next`).

A system `Implements` a model if a map of states carries its steps to the steps of the model
and its answers to the answers there. States of implementations, of different ones too, are
indistinguishable exactly if the states of the model are (`Implements.indistinguishable_iff`).
-/

namespace GlibController.Lib

/-- A deterministic system with the questions that can be asked. -/
structure Observed (S A Q R : Type) where
  step : S → A → Option S
  see : S → Q → Option R

namespace Observed

variable {S T U A Q R : Type}

/-- The answer after some actions, if they can all be taken and there is one. -/
def answer (sys : Observed S A Q R) (s : S) (as : List A) (q : Q) : Option R :=
  (run sys.step s as).bind fun s' => sys.see s' q

/-- No observer can tell the states apart. -/
def Indistinguishable (sys : Observed S A Q R) (sys' : Observed T A Q R) (s : S) (t : T) : Prop :=
  ∀ as q, sys.answer s as q = sys'.answer t as q

variable {sys : Observed S A Q R} {sys' : Observed T A Q R} {s s' : S} {t t' : T}

theorem answer_cons {a : A} (h : sys.step s a = some s') (as : List A) (q : Q) :
    sys.answer s (a :: as) q = sys.answer s' as q := by
  unfold answer
  rw [run, h, Option.bind_some]

theorem Indistinguishable.symm (same : Indistinguishable sys sys' s t) :
    Indistinguishable sys' sys t s := by
  intro as q
  exact (same as q).symm

/-- Every question has the answer that it has of the other state. -/
theorem Indistinguishable.now (same : Indistinguishable sys sys' s t) (q : Q) :
    sys.see s q = sys'.see t q :=
  same [] q

/-- After one action that both can take, the states are still indistinguishable. -/
theorem Indistinguishable.next (same : Indistinguishable sys sys' s t) {a : A}
    (left : sys.step s a = some s') (right : sys'.step t a = some t') :
    Indistinguishable sys sys' s' t' := by
  intro as q
  rw [← answer_cons left, ← answer_cons right]
  exact same (a :: as) q

/-- Steps and answers of the system are those of the model. -/
structure Implements (sys : Observed S A Q R) (model : Observed U A Q R) (abs : S → U) : Prop where
  step : ∀ s a, (sys.step s a).map abs = model.step (abs s) a
  see : ∀ s q, sys.see s q = model.see (abs s) q

variable {model : Observed U A Q R} {abs : S → U} {abs' : T → U}

/-- Runs of the system are runs of the model. -/
theorem Implements.run (sim : Implements sys model abs) (s : S) (as : List A) :
    (run sys.step s as).map abs = run model.step (abs s) as := by
  induction as generalizing s with
  | nil => rfl
  | cons a as ih =>
      have first := sim.step s a
      rw [Lib.run, Lib.run, ← first]
      cases sys.step s a with
      | none => rfl
      | some next => exact ih next

theorem Implements.answer (sim : Implements sys model abs) (s : S) (as : List A) (q : Q) :
    sys.answer s as q = model.answer (abs s) as q := by
  unfold Observed.answer
  rw [← sim.run]
  cases Lib.run sys.step s as with
  | none => rfl
  | some last => exact sim.see last q

/-- Implementations of one model differ exactly where the states of the model do. -/
theorem Implements.indistinguishable_iff (sim : Implements sys model abs)
    (sim' : Implements sys' model abs') :
    Indistinguishable sys sys' s t ↔ Indistinguishable model model (abs s) (abs' t) := by
  unfold Indistinguishable
  simp only [sim.answer, sim'.answer]

end Observed

end GlibController.Lib

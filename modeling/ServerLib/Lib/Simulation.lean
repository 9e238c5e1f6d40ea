import Mathlib.Data.List.Basic

/-! Machines that answer each call, and the rule that two of them give the same answers when a
relation between their states survives every call. -/

namespace ServerLib.Lib

variable {σ τ ℓ ο : Type*}

/-- The answers to the calls `ls`, from the state `s` on. -/
def answers (step : σ → ℓ → ο × σ) : σ → List ℓ → List ο
  | _, [] => []
  | s, l :: ls => (step s l).1 :: answers step (step s l).2 ls

/-- Calls in related states have the same answer and lead to related states. -/
def Simulates (step : σ → ℓ → ο × σ) (step' : τ → ℓ → ο × τ) (R : σ → τ → Prop) : Prop :=
  ∀ s t l, R s t → (step s l).1 = (step' t l).1 ∧ R (step s l).2 (step' t l).2

theorem Simulates.answers_eq {step : σ → ℓ → ο × σ} {step' : τ → ℓ → ο × τ} {R : σ → τ → Prop}
    (h : Simulates step step' R) {s : σ} {t : τ} (hst : R s t) (ls : List ℓ) :
    answers step s ls = answers step' t ls := by
  induction ls generalizing s t with
  | nil => rfl
  | cons l ls ih =>
    obtain ⟨hanswer, hnext⟩ := h s t l hst
    rw [answers, answers, hanswer, ih hnext]

end ServerLib.Lib

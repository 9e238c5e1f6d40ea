import Mathlib.Data.List.Basic

/-! Runs of a step function: the state after a list of labels, the conditions that hold along a
run, and the induction rule for the properties that every step keeps. -/

namespace ServerLib.Lib

variable {σ ℓ : Type*} (step : σ → ℓ → σ)

def run (s : σ) (ls : List ℓ) : σ := ls.foldl step s

/-- Every step of the run over `ls` from `s` is taken from a state and with a label that meet
`C`. -/
def Along (C : σ → ℓ → Prop) : σ → List ℓ → Prop
  | _, [] => True
  | s, l :: ls => C s l ∧ Along C (step s l) ls

instance (C : σ → ℓ → Prop) [∀ s l, Decidable (C s l)] :
    (s : σ) → (ls : List ℓ) → Decidable (Along step C s ls)
  | _, [] => isTrue trivial
  | s, l :: ls =>
    have := instDecidableAlong C (step s l) ls
    inferInstanceAs (Decidable (C s l ∧ Along step C (step s l) ls))

@[simp] theorem run_nil (s : σ) : run step s [] = s := rfl

@[simp] theorem run_cons (s : σ) (l : ℓ) (ls : List ℓ) :
    run step s (l :: ls) = run step (step s l) ls := rfl

@[simp] theorem along_nil (C : σ → ℓ → Prop) (s : σ) : Along step C s [] := trivial

@[simp] theorem along_cons (C : σ → ℓ → Prop) (s : σ) (l : ℓ) (ls : List ℓ) :
    Along step C s (l :: ls) ↔ C s l ∧ Along step C (step s l) ls := Iff.rfl

theorem run_append (s : σ) (ls ls' : List ℓ) :
    run step s (ls ++ ls') = run step (run step s ls) ls' := by
  simp [run]

theorem along_append (C : σ → ℓ → Prop) (s : σ) (ls ls' : List ℓ) :
    Along step C s (ls ++ ls') ↔ Along step C s ls ∧ Along step C (run step s ls) ls' := by
  induction ls generalizing s with
  | nil => simp
  | cons l ls ih => simp [ih, and_assoc]

theorem along_of_forall (h : ∀ s l, C s l) (s : σ) (ls : List ℓ) : Along step C s ls := by
  induction ls generalizing s with
  | nil => trivial
  | cons l ls ih => exact ⟨h s l, ih _⟩

variable {step : σ → ℓ → σ}

theorem along_of_forall_mem {S : ℓ → Prop} (h : ∀ l ∈ ls, S l) (s : σ) :
    Along step (fun _ l => S l) s ls := by
  induction ls generalizing s with
  | nil => trivial
  | cons l ls ih =>
    obtain ⟨hl, hrest⟩ := List.forall_mem_cons.mp h
    exact ⟨hl, ih hrest _⟩

theorem Along.mono (h : ∀ s l, C s l → D s l) (hC : Along step C s ls) : Along step D s ls := by
  induction ls generalizing s with
  | nil => trivial
  | cons l ls ih => exact ⟨h s l hC.1, ih hC.2⟩

theorem Along.and (hC : Along step C s ls) (hD : Along step D s ls) :
    Along step (fun s l => C s l ∧ D s l) s ls := by
  induction ls generalizing s with
  | nil => trivial
  | cons l ls ih => exact ⟨⟨hC.1, hD.1⟩, ih hC.2 hD.2⟩

/-- A property that holds at the start of a run and that each step keeps under the run's
condition holds at its end. -/
theorem run_invariant {I : σ → Prop} (hstep : ∀ s l, I s → C s l → I (step s l)) (hs : I s)
    (hC : Along step C s ls) : I (run step s ls) := by
  induction ls generalizing s with
  | nil => exact hs
  | cons l ls ih => exact ih (hstep s l hs hC.1) hC.2

theorem run_preserves {I : σ → Prop} (hstep : ∀ s l, I s → I (step s l)) (hs : I s) (ls : List ℓ) :
    I (run step s ls) :=
  run_invariant (C := fun _ _ => True) (fun s l h _ => hstep s l h) hs
    (along_of_forall step (fun _ _ => trivial) s ls)

theorem along_of_invariant {I : σ → Prop} (hstep : ∀ s l, I s → C s l → I (step s l))
    (hD : ∀ s l, I s → C s l → D s l) (hs : I s) (hC : Along step C s ls) : Along step D s ls := by
  induction ls generalizing s with
  | nil => trivial
  | cons l ls ih => exact ⟨hD s l hs hC.1, ih (hstep s l hs hC.1) hC.2⟩

end ServerLib.Lib

import Mathlib.Logic.Function.Basic

/-! Jobs that wait in a queue and are served from its front, out of a budget that they share and an
allowance that each has of its own.  Serving stops at the first job that cannot be served whole, so
a job whose allowance runs out can hold back those behind it. -/

namespace ServerLib.Lib

open Function

structure Job where
  amount : Nat
  allowance : Nat

/-- The jobs that wait, by their keys, and the budget that they share. -/
structure Backlog (κ : Type) where
  jobs : κ → Option Job
  budget : Nat

namespace Backlog

variable {κ : Type} [DecidableEq κ]

variable (b : Backlog κ) (k : κ)

def available (job : Job) : Nat := min b.budget job.allowance

def finish (job : Job) : Backlog κ where
  jobs := Function.update b.jobs k none
  budget := b.budget - job.amount

def advance (job : Job) : Backlog κ where
  jobs := Function.update b.jobs k
    (some ⟨job.amount - b.available job, job.allowance - b.available job⟩)
  budget := b.budget - b.available job

/-- Serves a queue, and returns what waits after it and the rest of the queue. -/
def serve : List κ → Backlog κ → Backlog κ × List κ
  | [], b => (b, [])
  | k :: queue, b =>
    match b.jobs k with
    | none => serve queue b
    | some job =>
      if job.amount ≤ b.available job then serve queue (b.finish k job)
      else (b.advance k job, k :: queue)

def Blocked : Prop :=
  ∀ k job, b.jobs k = some job → b.budget = 0 ∨ job.allowance = 0

def Queued (queue : List κ) (b : Backlog κ) : Prop := ∀ k job, b.jobs k = some job → k ∈ queue

/-- Serving stops at a job whose allowance is less than the budget that is left, while another job
in the queue has an allowance. -/
def heldBack : List κ → Backlog κ → Bool
  | [], _ => false
  | k :: queue, b =>
    match b.jobs k with
    | none => heldBack queue b
    | some job =>
      if job.amount ≤ b.available job then heldBack queue (b.finish k job)
      else job.allowance < b.budget ∧
        queue.any fun k' => k' ≠ k ∧ (b.jobs k').any fun job' => 0 < job'.allowance

omit [DecidableEq κ] in
theorem ext {b b' : Backlog κ} (hjobs : ∀ k, b.jobs k = b'.jobs k)
    (hbudget : b.budget = b'.budget) : b = b' := by
  cases b
  cases b'
  cases hbudget
  cases funext hjobs
  rfl

@[simp] theorem jobs_finish_self (job : Job) : (b.finish k job).jobs k = none :=
  update_self _ _ _

@[simp] theorem jobs_finish_of_ne {k k' : κ} (h : k' ≠ k) (job : Job) :
    (b.finish k job).jobs k' = b.jobs k' :=
  update_of_ne h _ _

@[simp] theorem jobs_advance_self (job : Job) :
    (b.advance k job).jobs k =
      some ⟨job.amount - b.available job, job.allowance - b.available job⟩ :=
  update_self _ _ _

@[simp] theorem jobs_advance_of_ne {k k' : κ} (h : k' ≠ k) (job : Job) :
    (b.advance k job).jobs k' = b.jobs k' :=
  update_of_ne h _ _

theorem Queued.finish {k : κ} {queue : List κ} {b : Backlog κ} (h : Queued (k :: queue) b)
    (job : Job) : Queued queue (b.finish k job) := by
  intro k' job' hjob'
  by_cases hk : k' = k
  · subst hk
    simp at hjob'
  · rw [jobs_finish_of_ne b hk] at hjob'
    exact (List.mem_cons.mp (h k' job' hjob')).resolve_left hk

omit [DecidableEq κ] in
theorem Queued.of_none {k : κ} {queue : List κ} {b : Backlog κ} (h : Queued (k :: queue) b)
    (hk : b.jobs k = none) : Queued queue b := by
  intro k' job' hjob'
  refine (List.mem_cons.mp (h k' job' hjob')).resolve_left ?_
  rintro rfl
  rw [hk] at hjob'
  contradiction

theorem Queued.serve {queue : List κ} {b : Backlog κ} (h : Queued queue b) :
    Queued (serve queue b).2 (serve queue b).1 := by
  fun_induction Backlog.serve queue b with
  | case1 => exact h
  | case2 k queue b hk ih => exact ih (h.of_none hk)
  | case3 k queue b job hk hfits ih => exact ih (h.finish job)
  | case4 k queue b job hk hfits =>
    intro k' job' hjob'
    by_cases hk' : k' = k
    · rw [hk']
      exact List.mem_cons_self
    · exact h k' job' ((jobs_advance_of_ne b hk' job).symm.trans hjob')

/-- A job that stops the queue holds another one back exactly if its allowance runs out first and
the other one has an allowance. -/
theorem blocked_advance_iff {k : κ} {b : Backlog κ} (h : Queued (k :: queue) b) (job : Job) :
    (b.advance k job).Blocked ↔ ¬(job.allowance < b.budget ∧
      queue.any fun k' => k' ≠ k ∧ (b.jobs k').any fun job' => 0 < job'.allowance) := by
  have hbudget : (b.advance k job).budget = b.budget - min b.budget job.allowance := rfl
  constructor
  · rintro hblocked ⟨hlt, hany⟩
    obtain ⟨k', -, hk'⟩ := List.any_eq_true.mp hany
    obtain ⟨hne, hallowed⟩ := of_decide_eq_true hk'
    obtain ⟨job', hjob', hpos⟩ := (Option.any_eq_true _ _).mp hallowed
    have hpos := of_decide_eq_true hpos
    rcases hblocked k' job' ((jobs_advance_of_ne b hne job).trans hjob') with hzero | hzero
    · rw [hbudget] at hzero
      omega
    · omega
  · intro hnot k' job' hjob'
    by_cases hlt : job.allowance < b.budget
    · right
      by_cases hk' : k' = k
      · subst hk'
        cases (jobs_advance_self b k' job).symm.trans hjob'
        show job.allowance - min b.budget job.allowance = 0
        omega
      · rw [jobs_advance_of_ne b hk'] at hjob'
        by_contra hpos
        refine hnot ⟨hlt, List.any_eq_true.mpr ⟨k', ?_, ?_⟩⟩
        · exact (List.mem_cons.mp (h k' job' hjob')).resolve_left hk'
        · exact decide_eq_true ⟨hk', (Option.any_eq_true _ _).mpr
            ⟨job', hjob', decide_eq_true (Nat.pos_of_ne_zero hpos)⟩⟩
    · left
      rw [hbudget]
      omega

theorem blocked_serve_iff {queue : List κ} {b : Backlog κ} (h : Queued queue b) :
    (serve queue b).1.Blocked ↔ heldBack queue b = false := by
  induction queue generalizing b with
  | nil =>
    refine ⟨fun _ => rfl, fun _ k job hjob => ?_⟩
    exact absurd (h k job hjob) List.not_mem_nil
  | cons k queue ih =>
    rw [serve, heldBack]
    split
    · rename_i hk
      exact ih (h.of_none hk)
    · rename_i job hk
      split
      · exact ih (h.finish job)
      · rw [blocked_advance_iff h job, decide_eq_false_iff_not]

end Backlog

end ServerLib.Lib

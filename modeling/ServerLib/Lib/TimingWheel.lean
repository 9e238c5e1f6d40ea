import Mathlib.Algebra.BigOperators.Intervals
import Mathlib.Algebra.Order.BigOperators.Group.Finset
import Mathlib.Tactic.Ring

/-! The arithmetic of hierarchical timing wheels.  Every wheel has `n` slots and a cursor, and one
turn of the wheel at level `k` takes `n ^ k` ticks, so the cursors are the digits of a clock in
base `n`.  `low` is the part of that clock below a level.  It includes a carry that has left one
level and has not yet reached the next, so a deadline can be followed through a tick that advances
the wheels one after the other.  An item is in one of the lists of the wheels at a time. -/

namespace ServerLib.Lib.TimingWheel

open Finset

/-- The time that the cursors of the first `k` levels stand for. -/
def passed (n : Nat) (c : Nat → Nat) (k : Nat) : Nat := ∑ i ∈ range k, c i * n ^ i

/-- The number of steps, from 1 to `n`, that take a cursor from `c` to slot `j`. -/
def turns (n c j : Nat) : Nat := (j + n - c - 1) % n + 1

/-- The time below level `k`, with a carry into level `pending` that the wheels from that level on
have not yet received. -/
def low (n : Nat) (c : Nat → Nat) (pending : Option Nat) (k : Nat) : Nat :=
  passed n c k + match pending with
    | some p => if p ≤ k then n ^ p else 0
    | none => 0

/-- The cursors after the wheel at level `p` has advanced. -/
def advance (n : Nat) (c : Nat → Nat) (p : Nat) : Nat → Nat :=
  Function.update c p ((c p + 1) % n)

/-- No item is twice in the lists of a family. -/
def Once (lists : ι → List α) : Prop :=
  (∀ l, (lists l).Nodup) ∧ ∀ l l' x, x ∈ lists l → x ∈ lists l' → l = l'

section

variable {lists lists' : ι → List α}

theorem Once.sublist (h : Once lists) (hs : ∀ l, (lists' l).Sublist (lists l)) : Once lists' :=
  ⟨fun l => (h.1 l).sublist (hs l),
    fun l l' x hx hx' => h.2 l l' x ((hs l).subset hx) ((hs l').subset hx')⟩

theorem Once.comp (h : Once lists) {f : κ → ι} (hf : f.Injective) : Once (lists ∘ f) :=
  ⟨fun l => h.1 (f l), fun l l' x hx hx' => hf (h.2 (f l) (f l') x hx hx')⟩

theorem mem_update_cons [DecidableEq ι] {l₀ l : ι} {x y : α} :
    y ∈ Function.update lists l₀ (x :: lists l₀) l ↔ y ∈ lists l ∨ l = l₀ ∧ y = x := by
  by_cases hl : l = l₀
  · subst hl
    simp [or_comm]
  · simp [hl]

theorem Once.insert [DecidableEq ι] (h : Once lists) (hx : ∀ l, x ∉ lists l) (l₀ : ι) :
    Once (Function.update lists l₀ (x :: lists l₀)) := by
  refine ⟨fun l => ?_, fun l l' y hy hy' => ?_⟩
  · by_cases hl : l = l₀
    · subst hl
      simpa using ⟨hx l, h.1 l⟩
    · simpa [hl] using h.1 l
  · rw [mem_update_cons] at hy hy'
    rcases hy with hy | ⟨hl, rfl⟩ <;> rcases hy' with hy' | ⟨hl', hyx⟩
    · exact h.2 l l' y hy hy'
    · exact absurd (hyx ▸ hy) (hx l)
    · exact absurd hy' (hx l')
    · exact hl.trans hl'.symm

end

theorem one_le_turns (n c j : Nat) : 1 ≤ turns n c j := Nat.le_add_left _ _

variable {n k p : Nat} {c : Nat → Nat}

theorem turns_place {c idx : Nat} (hc : c < n) (h1 : 1 ≤ idx) (hn : idx < n) :
    turns n c ((c + idx) % n) = idx := by
  unfold turns
  by_cases h : c + idx < n
  · rw [Nat.mod_eq_of_lt h, show c + idx + n - c - 1 = idx - 1 + n by omega, Nat.add_mod_right,
      Nat.mod_eq_of_lt (by omega)]
    omega
  · have hpos : (c + idx) % n = c + idx - n := by
      rw [Nat.mod_eq_sub_mod (by omega), Nat.mod_eq_of_lt (by omega)]
    rw [hpos, show c + idx - n + n - c - 1 = idx - 1 by omega, Nat.mod_eq_of_lt (by omega)]
    omega

theorem turns_next_slot {c : Nat} (hc : c < n) (hn : 1 < n) : turns n c ((c + 1) % n) = 1 :=
  turns_place hc (Nat.le_refl 1) hn

theorem turns_advance {c j : Nat} (hc : c < n) (hj : j < n) (hne : j ≠ (c + 1) % n) :
    turns n ((c + 1) % n) j + 1 = turns n c j := by
  unfold turns
  by_cases h : c + 1 < n
  · rw [Nat.mod_eq_of_lt h] at hne ⊢
    by_cases hjc : j ≤ c
    · rw [Nat.mod_eq_of_lt (a := j + n - (c + 1) - 1) (by omega),
        Nat.mod_eq_of_lt (a := j + n - c - 1) (by omega)]
      omega
    · rw [show j + n - (c + 1) - 1 = j - c - 2 + n by omega,
        show j + n - c - 1 = j - c - 1 + n by omega, Nat.add_mod_right, Nat.add_mod_right,
        Nat.mod_eq_of_lt (by omega), Nat.mod_eq_of_lt (by omega)]
      omega
  · have hcn : c + 1 = n := by omega
    rw [hcn, Nat.mod_self] at hne ⊢
    rw [show j + n - 0 - 1 = j - 1 + n by omega, show j + n - c - 1 = j by omega,
      Nat.add_mod_right, Nat.mod_eq_of_lt (by omega), Nat.mod_eq_of_lt hj]
    omega

@[simp] theorem passed_zero (n : Nat) (c : Nat → Nat) : passed n c 0 = 0 := rfl

theorem passed_succ (n : Nat) (c : Nat → Nat) (k : Nat) :
    passed n c (k + 1) = passed n c k + c k * n ^ k := sum_range_succ _ _

theorem passed_congr (h : ∀ i < k, c i = c' i) : passed n c k = passed n c' k :=
  sum_congr rfl fun i hi => by rw [h i (mem_range.mp hi)]

theorem passed_eq_zero (h : ∀ i < k, c i = 0) : passed n c k = 0 :=
  sum_eq_zero fun i hi => by rw [h i (mem_range.mp hi), Nat.zero_mul]

theorem passed_mono (n : Nat) (c : Nat → Nat) (h : k ≤ k') : passed n c k ≤ passed n c k' :=
  Finset.sum_le_sum_of_subset (range_mono h)

theorem passed_lt (h : ∀ i, c i < n) (k : Nat) : passed n c k < n ^ k := by
  induction k with
  | zero => simp
  | succ k ih =>
    have hk : c k * n ^ k + n ^ k ≤ n ^ (k + 1) := by
      rw [pow_succ, Nat.mul_comm (n ^ k) n, ← Nat.succ_mul]
      exact Nat.mul_le_mul_right _ (h k)
    rw [passed_succ]
    omega

theorem passed_advance_of_le (h : k ≤ p) : passed n (advance n c p) k = passed n c k :=
  passed_congr fun i hi => Function.update_of_ne (by omega) _ _

/-- Above the level that advances, the clock gains the carry that came in, less the carry that
goes out when the cursor comes round to 0. -/
theorem passed_advance_of_lt (hc : ∀ i, c i < n) (h : p < k) :
    passed n (advance n c p) k + (if advance n c p p = 0 then n ^ (p + 1) else 0) =
      passed n c k + n ^ p := by
  induction k, h using Nat.le_induction with
  | base =>
    have hp := hc p
    rw [passed_succ, passed_succ, passed_advance_of_le le_rfl]
    simp only [advance, Function.update_self]
    by_cases hw : c p + 1 < n
    · rw [Nat.mod_eq_of_lt hw, if_neg (by omega)]
      ring
    · have hn : c p + 1 = n := by omega
      have hturn : n ^ (p + 1) = c p * n ^ p + n ^ p := by
        rw [pow_succ, Nat.mul_comm, ← Nat.succ_mul, Nat.succ_eq_add_one, hn]
      rw [hn, Nat.mod_self, if_pos rfl, hturn]
      omega
  | succ k hk ih =>
    rw [passed_succ, passed_succ, show advance n c p k = c k from
      Function.update_of_ne (by omega) _ _]
    omega

theorem low_none (n : Nat) (c : Nat → Nat) (k : Nat) : low n c none k = passed n c k := rfl

theorem low_of_lt (h : k < p) : low n c (some p) k = passed n c k := by
  simp [low, Nat.not_le.mpr h]

theorem low_self (n : Nat) (c : Nat → Nat) (p : Nat) :
    low n c (some p) p = passed n c p + n ^ p := by
  simp [low]

/-- The carry that waits after level `p` has advanced. -/
def carryOut (n : Nat) (c : Nat → Nat) (p : Nat) : Option Nat :=
  if advance n c p p = 0 then some (p + 1) else none

theorem low_advance_of_le (h : k ≤ p) :
    low n (advance n c p) (carryOut n c p) k = passed n c k := by
  rw [← passed_advance_of_le h (c := c) (n := n)]
  unfold carryOut
  split
  · exact low_of_lt (by omega)
  · rfl

/-- A carry that a level takes in and, if its cursor comes round to 0, passes on leaves the time
below the levels above it as it was. -/
theorem low_advance_of_lt (hc : ∀ i, c i < n) (h : p < k) :
    low n (advance n c p) (carryOut n c p) k = low n c (some p) k := by
  have key := passed_advance_of_lt hc h
  by_cases hw : advance n c p p = 0
  · rw [if_pos hw] at key
    simpa [carryOut, low, hw, show p + 1 ≤ k by omega, show p ≤ k by omega] using key
  · rw [if_neg hw] at key
    simpa [carryOut, low, hw, show p ≤ k by omega] using key

end ServerLib.Lib.TimingWheel

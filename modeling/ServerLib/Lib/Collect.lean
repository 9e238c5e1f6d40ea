import Mathlib.Algebra.BigOperators.Group.List.Basic
import Mathlib.Algebra.GroupWithZero.Nat

/-! Greedy collecting: elements are taken from a list one by one until their weights reach a target,
and an element with which the sum would get beyond a limit is left out. -/

namespace ServerLib.Lib

variable {α : Type*} (weight : α → Nat) (target limit : Nat)

def collect : Nat → List α → Nat × List α
  | collected, [] => (collected, [])
  | collected, a :: as =>
    if limit < collected + weight a then collect collected as
    else if target ≤ collected + weight a then (collected + weight a, [a])
    else
      let rest := collect (collected + weight a) as
      (rest.1, a :: rest.2)

theorem collect_sublist (collected : Nat) (as : List α) :
    (collect weight target limit collected as).2.Sublist as := by
  induction as generalizing collected with
  | nil => exact List.Sublist.slnil
  | cons a as ih =>
    rw [collect]
    split
    · exact (ih collected).cons a
    split
    · exact (List.nil_sublist as).cons_cons a
    · exact (ih _).cons_cons a

/-- If the limit leaves room for any element beyond the target, then nothing is left out before the
target is reached, and it is reached exactly if there is enough. -/
theorem le_collect_iff (hcollected : collected ≤ target)
    (hroom : ∀ a ∈ as, target + weight a ≤ limit) :
    target ≤ (collect weight target limit collected as).1 ↔
      target ≤ collected + (as.map weight).sum := by
  induction as generalizing collected with
  | nil => simp [collect]
  | cons a as ih =>
    obtain ⟨ha, hroom⟩ := List.forall_mem_cons.mp hroom
    rw [collect, if_neg (by omega), List.map_cons, List.sum_cons]
    split_ifs with hreached
    · omega
    · rw [ih (by omega) hroom, Nat.add_assoc]

end ServerLib.Lib

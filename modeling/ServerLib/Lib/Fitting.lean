import Mathlib.Algebra.GroupWithZero.Nat
import Mathlib.Data.List.Forall2
import Mathlib.Data.List.Infix

/-! Bounded queues.  Each item has a weight, the newest item comes first, and room is made by
dropping the oldest items.  What is left is the longest run of newest items that fits. -/

namespace ServerLib.Lib

variable {α β : Type}

def weight (w : α → Nat) (items : List α) : Nat := (items.map w).sum

@[simp] theorem weight_nil (w : α → Nat) : weight w [] = 0 := rfl

@[simp] theorem weight_cons (w : α → Nat) (a : α) (items : List α) :
    weight w (a :: items) = w a + weight w items := by
  simp [weight]

theorem weight_append (w : α → Nat) (items items' : List α) :
    weight w (items ++ items') = weight w items + weight w items' := by
  simp [weight]

variable {items : List α}

theorem weight_append_weightless (items : List α) {items' : List α} (h : ∀ a ∈ items', w a = 0) :
    weight w (items ++ items') = weight w items := by
  have hzero : weight w items' = 0 := by
    induction items' with
    | nil => rfl
    | cons a items' ih =>
      obtain ⟨ha, hitems⟩ := List.forall_mem_cons.mp h
      rw [weight_cons, ha, ih hitems]
  rw [weight_append, hzero, Nat.add_zero]

/-- The newest items that fit into `limit` together. -/
def fitting (w : α → Nat) : Nat → List α → List α
  | _, [] => []
  | limit, a :: items => if w a ≤ limit then a :: fitting w (limit - w a) items else []

theorem fitting_eq_self (h : weight w items ≤ limit) : fitting w limit items = items := by
  induction items generalizing limit with
  | nil => rfl
  | cons a items ih =>
    rw [weight_cons] at h
    rw [fitting, if_pos (by omega), ih (by omega)]

theorem fitting_dropLast (h : limit < weight w items) :
    fitting w limit items.dropLast = fitting w limit items := by
  induction items generalizing limit with
  | nil => rfl
  | cons a items ih =>
    rw [weight_cons] at h
    cases items with
    | nil =>
      rw [weight_nil] at h
      rw [fitting, if_neg (by omega)]
      rfl
    | cons b items =>
      rw [List.dropLast_cons_cons, fitting, fitting]
      split
      · rw [ih (by omega)]
      · rfl

theorem weight_fitting_le (w : α → Nat) (limit : Nat) (items : List α) :
    weight w (fitting w limit items) ≤ limit := by
  fun_induction fitting w limit items with
  | case1 | case3 => exact Nat.zero_le _
  | case2 limit a items hle ih =>
    rw [weight_cons]
    omega

theorem mem_of_mem_fitting (h : a ∈ fitting w limit items) : a ∈ items := by
  fun_induction fitting w limit items with
  | case1 | case3 => cases h
  | case2 limit b items hle ih =>
    rcases List.mem_cons.mp h with rfl | h
    · exact List.mem_cons_self
    · exact List.mem_cons_of_mem _ (ih h)

variable {R : α → β → Prop}

theorem forall₂_fitting (hw : ∀ a b, R a b → w a = w' b) (h : List.Forall₂ R items items')
    (limit : Nat) : List.Forall₂ R (fitting w limit items) (fitting w' limit items') := by
  induction h generalizing limit with
  | nil => exact List.Forall₂.nil
  | @cons a b items items' hab _ ih =>
    rw [fitting, fitting, hw a b hab]
    split
    · exact List.Forall₂.cons hab (ih _)
    · exact List.Forall₂.nil

/-- The items of the second queue begin with items that correspond to those of the first. -/
def Covers (R : α → β → Prop) (items : List α) (items' : List β) : Prop :=
  ∃ shared older, items' = shared ++ older ∧ List.Forall₂ R items shared

theorem covers_of_forall₂ (h : List.Forall₂ R items items') : Covers R items items' :=
  ⟨items', [], (List.append_nil _).symm, h⟩

theorem Covers.nil (R : α → β → Prop) (items' : List β) : Covers R [] items' :=
  ⟨[], items', rfl, List.Forall₂.nil⟩

theorem Covers.cons (hab : R a b) (h : Covers R items items') :
    Covers R (a :: items) (b :: items') := by
  obtain ⟨shared, older, rfl, hshared⟩ := h
  exact ⟨b :: shared, older, rfl, List.Forall₂.cons hab hshared⟩

theorem Covers.of_cons (h : Covers R (a :: items) items') :
    ∃ b rest, items' = b :: rest ∧ R a b ∧ Covers R items rest := by
  obtain ⟨shared, older, rfl, hshared⟩ := h
  cases hshared with
  | @cons _ b _ rest hab hrest => exact ⟨b, rest ++ older, rfl, hab, rest, older, rfl, hrest⟩

theorem Covers.fitting (hw : ∀ a b, R a b → w a = w' b) (h : Covers R items items')
    (hroom : weight w (fitting w limit items) ≤ limit') :
    Covers R (fitting w limit items) (fitting w' limit' items') := by
  fun_induction Lib.fitting w limit items generalizing items' limit' with
  | case1 | case3 => exact .nil R _
  | case2 limit a items hle ih =>
    obtain ⟨b, rest, rfl, hab, hrest⟩ := h.of_cons
    rw [weight_cons] at hroom
    rw [Lib.fitting, if_pos (by rw [← hw a b hab]; omega), ← hw a b hab]
    exact (ih hrest (by omega)).cons hab

theorem Covers.getElem? (h : Covers R items items') {i : Nat}
    (hi : items[i]? = some a) : ∃ b, items'[i]? = some b ∧ R a b := by
  induction items generalizing items' i with
  | nil => simp at hi
  | cons c items ih =>
    obtain ⟨b, rest, rfl, hab, hrest⟩ := h.of_cons
    cases i with
    | zero =>
      obtain rfl : c = a := by simpa using hi
      exact ⟨b, rfl, hab⟩
    | succ i => exact ih hrest (by simpa using hi)

theorem Covers.length_le (h : Covers R items items') : items.length ≤ items'.length := by
  obtain ⟨shared, older, rfl, hshared⟩ := h
  rw [hshared.length_eq, List.length_append]
  exact Nat.le_add_right _ _

theorem Covers.of_fitting (h : Covers R items items') (limit : Nat) :
    Covers R (Lib.fitting w limit items) items' := by
  fun_induction Lib.fitting w limit items generalizing items' with
  | case1 | case3 => exact .nil R _
  | case2 limit a items hle ih =>
    obtain ⟨b, rest, rfl, hab, hrest⟩ := h.of_cons
    exact (ih hrest).cons hab

end ServerLib.Lib

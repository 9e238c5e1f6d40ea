import Mathlib.Data.List.TakeWhile

/-! Lists that a delimiter divides: the part up to its first occurrence and the part after it. -/

namespace ServerLib.Lib

open List

variable {α : Type*} [DecidableEq α] {c : α} {t rest : List α}

theorem takeWhile_ne_of_not_mem (h : c ∉ t) : t.takeWhile (· ≠ c) = t := by
  rw [takeWhile_eq_self_iff]
  intro d hd
  simp only [ne_eq, decide_not, Bool.not_eq_eq_eq_not, Bool.not_true, decide_eq_false_iff_not]
  rintro rfl
  exact h hd

theorem takeWhile_append_cons : (t ++ c :: rest).takeWhile (· ≠ c) = t.takeWhile (· ≠ c) := by
  induction t with
  | nil => simp
  | cons d t ih =>
    rw [cons_append, takeWhile_cons, takeWhile_cons, ih]

theorem not_mem_takeWhile (t : List α) (c : α) : c ∉ t.takeWhile (· ≠ c) := by
  intro h
  simpa using mem_takeWhile_imp h

theorem dropWhile_append_cons (h : c ∉ t) : (t ++ c :: rest).dropWhile (· ≠ c) = c :: rest := by
  rw [dropWhile_append_of_pos, dropWhile_cons_of_neg (by simp)]
  intro d hd
  simp only [ne_eq, decide_not, Bool.not_eq_eq_eq_not, Bool.not_true, decide_eq_false_iff_not]
  rintro rfl
  exact h hd

/-- What follows the first `c`. -/
def afterFirst (c : α) (t : List α) : Option (List α) :=
  if c ∈ t then some (t.dropWhile (· ≠ c)).tail else none

theorem afterFirst_append_cons (h : c ∉ t) : afterFirst c (t ++ c :: rest) = some rest := by
  rw [afterFirst, if_pos (by simp), dropWhile_append_cons h, tail_cons]

theorem afterFirst_eq_some : afterFirst c t = some rest ↔ t = t.takeWhile (· ≠ c) ++ c :: rest := by
  constructor
  · intro h
    have hmem : c ∈ t := by
      by_contra hc
      rw [afterFirst, if_neg hc] at h
      cases h
    obtain ⟨first, last, rfl, hfirst⟩ := eq_append_cons_of_mem hmem
    rw [afterFirst_append_cons hfirst] at h
    rw [takeWhile_append_cons, takeWhile_ne_of_not_mem hfirst, Option.some.inj h]
  · intro h
    rw [h]
    exact afterFirst_append_cons (not_mem_takeWhile t c)

theorem afterFirst_eq_drop (h : c ∈ t) :
    afterFirst c t = some (t.drop ((t.takeWhile (· ≠ c)).length + 1)) := by
  obtain ⟨first, last, rfl, hfirst⟩ := eq_append_cons_of_mem h
  rw [afterFirst_append_cons hfirst, takeWhile_append_cons, takeWhile_ne_of_not_mem hfirst,
    ← drop_drop, drop_left, drop_one, tail_cons]

theorem afterFirst_append (h : afterFirst c t = some rest) (u : List α) :
    afterFirst c (t ++ u) = some (rest ++ u) := by
  have hnot := not_mem_takeWhile t c
  rw [afterFirst_eq_some.mp h, append_assoc, cons_append]
  exact afterFirst_append_cons hnot

end ServerLib.Lib

import Mathlib.Data.List.Induction
import Mathlib.Data.List.Sort
import Mathlib.Order.Interval.Finset.Nat
import Mathlib.Tactic.Order

/-!
Half-open intervals, kept in a list in the order of their starts.  An interval that is added takes
in those that it overlaps or touches.  An interval whose end is not after its start holds nothing.
-/

namespace ServerLib.Lib

variable {α β : Type} [LinearOrder α]

def Within (x : α) (a : α × α) : Prop := a.1 ≤ x ∧ x < a.2

/-- `b` lies before or after `a`, with a gap between them. -/
def Misses (a b : α × α) : Prop := b.2 < a.1 ∨ a.2 < b.1

instance (a b : α × α) : Decidable (Misses a b) :=
  inferInstanceAs (Decidable (b.2 < a.1 ∨ a.2 < b.1))

def absorb (a b : α × α) : α × α :=
  if Misses a b then a else (min a.1 b.1, max a.2 b.2)

section

variable (span : β → α × α)

/-- `a` with all intervals that it takes in, one after the other. -/
def hull (a : α × α) (l : List β) : α × α := l.foldl (fun a b => absorb a (span b)) a

/-- The items that are left, and one for the hull. -/
def merged (l : List β) (hull : α × α) (item : β) : List β :=
  (l.filter (fun b => Misses hull (span b)) ++ [item]).insertionSort
    fun b c => (span b).1 ≤ (span c).1

/-- Two intervals that hold something have a gap between them. -/
def Apart (b c : β) : Prop :=
  (span b).1 < (span b).2 → (span c).1 < (span c).2 → Misses (span b) (span c)

structure Spaced (l : List β) : Prop where
  sorted : l.Pairwise fun b c => (span b).1 ≤ (span c).1
  apart : l.Pairwise (Apart span)

variable {span}

theorem Spaced.nil : Spaced span ([] : List β) := ⟨.nil, .nil⟩

theorem Apart.symm (h : Apart span b c) : Apart span c b :=
  fun hc hb => (h hb hc).symm

theorem absorb_le (a b : α × α) : (absorb a b).1 ≤ a.1 ∧ a.2 ≤ (absorb a b).2 := by
  unfold absorb
  split
  · exact ⟨le_rfl, le_rfl⟩
  · exact ⟨min_le_left _ _, le_max_left _ _⟩

theorem hull_le (a : α × α) (l : List β) : (hull span a l).1 ≤ a.1 ∧ a.2 ≤ (hull span a l).2 := by
  induction l using List.reverseRecOn with
  | nil => exact ⟨le_rfl, le_rfl⟩
  | append_singleton l b ih =>
    have hstep := absorb_le (hull span a l) (span b)
    rw [hull, List.foldl_append] at *
    exact ⟨hstep.1.trans ih.1, ih.2.trans hstep.2⟩

theorem hull_lt (ha : a.1 < bound ∧ a.2 < bound)
    (hl : ∀ b ∈ l, (span b).1 < bound ∧ (span b).2 < bound) :
    (hull span a l).1 < bound ∧ (hull span a l).2 < bound := by
  induction l generalizing a with
  | nil => exact ha
  | cons b l ih =>
    obtain ⟨hb, hl⟩ := List.forall_mem_cons.mp hl
    have hstep : (absorb a (span b)).1 < bound ∧ (absorb a (span b)).2 < bound := by
      unfold absorb
      split
      · exact ha
      · exact ⟨(min_le_left _ _).trans_lt ha.1, max_lt ha.2 hb.2⟩
    exact ih hstep hl

theorem within_absorb {x : α} (h : Within x (absorb a b)) : Within x a ∨ Within x b := by
  unfold absorb at h
  split_ifs at h with hmiss
  · exact .inl h
  · simp only [Misses, not_or, not_lt] at hmiss
    simp only [Within, min_le_iff, lt_max_iff] at h ⊢
    grind

theorem within_absorb_of_lt {x : α} (hx : b.2 < x) : Within x (absorb a b) ↔ Within x a := by
  refine ⟨fun h => (within_absorb h).resolve_right fun h => lt_asymm h.2 hx, fun h => ?_⟩
  have hle := absorb_le a b
  exact ⟨hle.1.trans h.1, h.2.trans_le hle.2⟩

theorem within_hull {a : α × α} (h : Within x (hull span a l)) :
    Within x a ∨ ∃ b ∈ l, Within x (span b) := by
  induction l generalizing a with
  | nil => exact .inl h
  | cons b l ih =>
    rcases ih h with h | ⟨c, hc, h⟩
    · exact (within_absorb h).imp_right fun h => ⟨b, List.mem_cons_self, h⟩
    · exact .inr ⟨c, List.mem_cons_of_mem _ hc, h⟩

theorem absorb_keeps {a b r : α × α} (hr : r.1 < r.2) (hsorted : r.1 ≤ b.1)
    (hapart : b.1 < b.2 → Misses r b) (h : (a.1 ≤ r.1 ∧ r.2 ≤ a.2) ∨ Misses a r) :
    ((absorb a b).1 ≤ r.1 ∧ r.2 ≤ (absorb a b).2) ∨ Misses (absorb a b) r := by
  unfold absorb
  split_ifs with htouch
  · exact h
  rw [Misses, not_or, not_lt, not_lt] at htouch
  rcases h with h | h | h
  · exact .inl ⟨(min_le_left _ _).trans h.1, h.2.trans (le_max_left _ _)⟩
  · refine .inr (.inl (lt_min h ?_))
    rcases lt_or_ge b.1 b.2 with hb | hb
    · -- `b` starts behind the end of `r`
      rcases hapart hb with hmiss | hmiss
      · exact absurd hmiss (by order)
      · exact hmiss
    · order
  · exact absurd h (by order)

theorem hull_cases (hl : Spaced span l) (a : α × α) (hr : r ∈ l)
    (hproper : (span r).1 < (span r).2) :
    ((hull span a l).1 ≤ (span r).1 ∧ (span r).2 ≤ (hull span a l).2) ∨
      Misses (hull span a l) (span r) := by
  induction l using List.reverseRecOn with
  | nil => cases hr
  | append_singleton l b ih =>
    obtain ⟨hsorted, -, hsortedLast⟩ := List.pairwise_append.mp hl.sorted
    obtain ⟨hapart, -, hapartLast⟩ := List.pairwise_append.mp hl.apart
    rw [hull, List.foldl_append, List.foldl_cons, List.foldl_nil]
    rcases List.mem_append.mp hr with hr | hr
    · exact absorb_keeps hproper (hsortedLast r hr b List.mem_cons_self)
        (hapartLast r hr b List.mem_cons_self hproper) (ih ⟨hsorted, hapart⟩ hr)
    · cases List.mem_singleton.mp hr
      rw [absorb]
      split_ifs with hmiss
      · exact .inr hmiss
      · exact .inl ⟨min_le_right _ _, le_max_right _ _⟩

theorem merged_perm (l : List β) (a : α × α) (item : β) :
    (merged span l a item).Perm (l.filter (fun b => Misses a (span b)) ++ [item]) :=
  List.perm_insertionSort _ _

theorem Spaced.merged (hl : Spaced span l) (hitem : span item = hull span a l) :
    Spaced span (merged span l (hull span a l) item) := by
  refine ⟨List.pairwise_insertionSort _ _, ?_⟩
  rw [(merged_perm l _ item).pairwise_iff Apart.symm, List.pairwise_append]
  refine ⟨hl.apart.filter _, List.pairwise_singleton _ _, ?_⟩
  intro b hb c hc _ _
  cases List.mem_singleton.mp hc
  rw [hitem]
  exact .symm (of_decide_eq_true (List.mem_filter.mp hb).2)

theorem mem_merged : b ∈ merged span l a item ↔ (b ∈ l ∧ Misses a (span b)) ∨ b = item := by
  simp [(merged_perm l a item).mem_iff]

theorem within_merged (hl : Spaced span l) (hitem : span item = hull span a l)
    (h : Within x a ∨ ∃ b ∈ l, Within x (span b)) :
    ∃ b ∈ merged span l (hull span a l) item, Within x (span b) := by
  rcases h with ⟨hlow, hhigh⟩ | ⟨b, hb, hlow, hhigh⟩
  · have hle : (hull span a l).1 ≤ a.1 ∧ a.2 ≤ (hull span a l).2 := hull_le a l
    refine ⟨item, mem_merged.mpr (.inr rfl), ?_⟩
    rw [hitem]
    exact ⟨hle.1.trans hlow, hhigh.trans_le hle.2⟩
  · rcases hull_cases hl a hb (hlow.trans_lt hhigh) with hin | hmiss
    · refine ⟨item, mem_merged.mpr (.inr rfl), ?_⟩
      rw [hitem]
      exact ⟨hin.1.trans hlow, hhigh.trans_le hin.2⟩
    · exact ⟨b, mem_merged.mpr (.inl ⟨hb, hmiss⟩), hlow, hhigh⟩

theorem Spaced.gaps (hl : Spaced span l) (hproper : ∀ b ∈ l, (span b).1 < (span b).2) :
    l.Pairwise fun b c => (span b).2 < (span c).1 := by
  apply (hl.sorted.and hl.apart).imp_of_mem
  rintro b c hb hc ⟨hsorted, hapart⟩
  have hc := hproper c hc
  exact (hapart (hproper b hb) hc).resolve_left fun h => absurd h (by order)

end

section

open Finset

variable (span : β → ℕ × ℕ)

/-- The numbers that the intervals hold. -/
def cells (l : List β) : Finset ℕ :=
  l.foldr (fun b cells => Ico (span b).1 (span b).2 ∪ cells) ∅

variable {span}

theorem mem_cells : x ∈ cells span l ↔ ∃ b ∈ l, Within x (span b) := by
  induction l with
  | nil => simp [cells]
  | cons b l ih =>
    show x ∈ Ico (span b).1 (span b).2 ∪ cells span l ↔ _
    simp [ih, Within]

theorem cells_merged (hl : Spaced span l) (hitem : span item = hull span a l) :
    cells span (merged span l (hull span a l) item) = Ico a.1 a.2 ∪ cells span l := by
  ext x
  simp only [mem_union, mem_Ico, mem_cells]
  refine ⟨?_, within_merged hl hitem⟩
  rintro ⟨b, hb, hx⟩
  rcases mem_merged.mp hb with hb | rfl
  · exact .inr ⟨b, hb.1, hx⟩
  · rw [hitem] at hx
    exact within_hull hx

/-- The numbers that an interval shares with a list, counted by widening it on the way. -/
theorem card_inter_cells_cons (hgap : ∀ c ∈ l, (span b).2 < (span c).1) :
    (Ico a.1 a.2 ∩ cells span (b :: l)).card = (min (span b).2 a.2 - max (span b).1 a.1) +
      (Ico (absorb a (span b)).1 (absorb a (span b)).2 ∩ cells span l).card := by
  have hbehind : ∀ x ∈ cells span l, (span b).2 < x := by
    intro x hx
    obtain ⟨c, hc, hlow, -⟩ := mem_cells.mp hx
    exact (hgap c hc).trans_le hlow
  have hsame : Ico (absorb a (span b)).1 (absorb a (span b)).2 ∩ cells span l =
      Ico a.1 a.2 ∩ cells span l := by
    ext x
    simp only [mem_inter, mem_Ico]
    exact and_congr_left fun hx => within_absorb_of_lt (hbehind x hx)
  have hdisjoint : Disjoint (Ico a.1 a.2 ∩ Ico (span b).1 (span b).2)
      (Ico a.1 a.2 ∩ cells span l) := by
    refine disjoint_left.mpr fun x hx hx' => ?_
    have := hbehind x (mem_inter.mp hx').2
    simp only [mem_inter, mem_Ico] at hx
    omega
  show (Ico a.1 a.2 ∩ (Ico (span b).1 (span b).2 ∪ cells span l)).card = _
  rw [inter_union_distrib_left, card_union_of_disjoint hdisjoint, hsame, Ico_inter_Ico,
    Nat.card_Ico, min_comm, max_comm]

end

end ServerLib.Lib

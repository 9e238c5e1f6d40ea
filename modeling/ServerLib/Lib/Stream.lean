import Mathlib.Data.List.Infix
import ServerLib.Lib.Run

/-!
Frames in a stream.  A decoder keeps what it has not used, and takes frames off the front as long
as there is a whole one.  It may have a state, which every frame changes.  `Delivers` says which
frames a text holds; it does not matter how the text is cut into segments.
-/

namespace ServerLib.Lib

open List

variable {σ τ α : Type}

/-- Takes a frame off the front: the frame, the state after it and the rest. -/
abbrev Pull (σ τ α : Type) := σ → List τ → Option (α × σ × List τ)

structure Stream (σ τ α : Type) where
  state : σ
  buffer : List τ := []
  out : List α := []

def drain (pull : Pull σ τ α) : Nat → Stream σ τ α → Stream σ τ α
  | 0, st => st
  | limit + 1, st =>
    match pull st.state st.buffer with
    | none => st
    | some (a, s, rest) => drain pull limit ⟨s, rest, st.out ++ [a]⟩

def feed (pull : Pull σ τ α) (st : Stream σ τ α) (segment : List τ) : Stream σ τ α :=
  drain pull ((st.buffer ++ segment).length + 1) { st with buffer := st.buffer ++ segment }

/-- `text` is a frame, whatever comes after it, and no part of it is. -/
structure Carries (pull : Pull σ τ α) (s : σ) (text : List τ) (a : α) (s' : σ) : Prop where
  nonempty : text ≠ []
  whole : ∀ rest, pull s (text ++ rest) = some (a, s', rest)
  early : ∀ front, front <+: text → front ≠ text → pull s front = none

/-- The frames of a text, the state after them, and what is left because no part of it is a
frame. -/
inductive Delivers (pull : Pull σ τ α) : σ → List τ → List α → σ → List τ → Prop
  | stop {s text} (h : ∀ front, front <+: text → pull s front = none) :
      Delivers pull s text [] s text
  | frame {s s₁ s' text later a out left} (h : Carries pull s text a s₁)
      (hlater : Delivers pull s₁ later out s' left) :
      Delivers pull s (text ++ later) (a :: out) s' left

section Segments

variable {s s' : σ} {out : List α}

def Stream.Idle (pull : Pull σ τ α) (st : Stream σ τ α) : Prop :=
  pull st.state st.buffer = none ∨ st.buffer = []

variable {st : Stream σ τ α}

theorem drain_of_none (h : pull st.state st.buffer = none) (limit : Nat) :
    drain pull limit st = st := by
  cases limit with
  | zero => rfl
  | succ limit => rw [drain, h]

theorem front_cases {front later first second : List τ} (h : front ++ later = first ++ second) :
    (front <+: first ∧ front ≠ first) ∨ ∃ part, front = first ++ part ∧ second = part ++ later := by
  rcases append_eq_append_iff.mp h with ⟨part, rfl, rfl⟩ | ⟨part, rfl, rfl⟩
  · by_cases hnil : part = []
    · subst hnil
      exact .inr ⟨[], by simp, rfl⟩
    · exact .inl ⟨prefix_append _ _, by simpa using hnil⟩
  · exact .inr ⟨part, rfl, rfl⟩

theorem delivers_drain (st : Stream σ τ α)
    (h : Delivers pull st.state (st.buffer ++ later) out s' left)
    (hlimit : st.buffer.length < limit) :
    ∃ first last, out = first ++ last ∧ (drain pull limit st).out = st.out ++ first ∧
      Delivers pull (drain pull limit st).state ((drain pull limit st).buffer ++ later) last s'
        left ∧
      (drain pull limit st).Idle pull := by
  induction limit generalizing st out with
  | zero => omega
  | succ limit ih =>
    generalize htext : st.buffer ++ later = text at h
    cases h with
    | stop hstop =>
      have hnone : pull st.state st.buffer = none := hstop _ (htext ▸ prefix_append _ _)
      rw [drain_of_none hnone, htext]
      exact ⟨[], [], rfl, (append_nil _).symm, .stop hstop, .inl hnone⟩
    | @frame _ s₁ _ w later' a out' _ hw hlater =>
      rcases front_cases htext with ⟨hfront, hne⟩ | ⟨part, hbuffer, rfl⟩
      · have hnone : pull st.state st.buffer = none := hw.early _ hfront hne
        rw [drain_of_none hnone, htext]
        exact ⟨[], a :: out', rfl, (append_nil _).symm, .frame hw hlater, .inl hnone⟩
      · have hpull : pull st.state st.buffer = some (a, s₁, part) := by
          rw [hbuffer]
          exact hw.whole part
        have hlen : 0 < w.length := length_pos_of_ne_nil hw.nonempty
        rw [hbuffer, length_append] at hlimit
        rw [drain, hpull]
        obtain ⟨first, last, rfl, hout, hrest, hidle⟩ :=
          ih ⟨s₁, part, st.out ++ [a]⟩ hlater (by dsimp only; omega)
        refine ⟨a :: first, last, rfl, ?_, hrest, hidle⟩
        rw [hout, append_assoc, singleton_append]

theorem Delivers.eq_of_idle (h : Delivers pull st.state st.buffer out s' left)
    (hidle : st.Idle pull) : out = [] ∧ s' = st.state ∧ left = st.buffer := by
  generalize htext : st.buffer = text at h
  cases h with
  | stop hstop => exact ⟨rfl, rfl, rfl⟩
  | frame hw hlater =>
    rcases hidle with hnone | hnil
    · rw [htext, hw.whole] at hnone
      cases hnone
    · rw [hnil] at htext
      exact absurd (append_eq_nil_iff.mp htext.symm).1 hw.nonempty

theorem run_feed {segments : List (List τ)} (hidle : st.Idle pull)
    (h : Delivers pull st.state (st.buffer ++ segments.flatten) out s' left) :
    run (feed pull) st segments = ⟨s', left, st.out ++ out⟩ := by
  induction segments generalizing st out with
  | nil =>
    rw [flatten_nil, append_nil] at h
    obtain ⟨rfl, rfl, rfl⟩ := h.eq_of_idle hidle
    rw [append_nil]
    rfl
  | cons segment segments ih =>
    rw [flatten_cons, ← append_assoc] at h
    obtain ⟨first, last, rfl, hout, hrest, hidle'⟩ :=
      delivers_drain { st with buffer := st.buffer ++ segment } h (Nat.lt_succ_self _)
    have hlast := ih hidle' hrest
    rw [hout, append_assoc] at hlast
    exact hlast

/-- However a text is cut into segments, its frames come out, and the rest is left. -/
theorem run_feed_start {segments : List (List τ)}
    (h : Delivers pull s segments.flatten out s' left) :
    run (feed pull) ⟨s, [], []⟩ segments = ⟨s', left, out⟩ :=
  run_feed (.inr rfl) h

theorem forall_out_drain {P : α → Prop}
    (hpull : ∀ s buffer a s' rest, pull s buffer = some (a, s', rest) → P a) (limit : Nat)
    (st : Stream σ τ α) (h : ∀ a ∈ st.out, P a) : ∀ a ∈ (drain pull limit st).out, P a := by
  fun_induction drain pull limit st with
  | case1 | case2 => exact h
  | case3 limit st a s rest hframe ih =>
    apply ih
    intro a' hmem
    rcases mem_append.mp hmem with hmem | hmem
    · exact h a' hmem
    · rw [mem_singleton.mp hmem]
      exact hpull _ _ _ _ _ hframe

theorem forall_out_run {P : α → Prop}
    (hpull : ∀ s buffer a s' rest, pull s buffer = some (a, s', rest) → P a)
    (segments : List (List τ)) : ∀ a ∈ (run (feed pull) ⟨s, [], []⟩ segments).out, P a := by
  refine run_preserves (I := fun st : Stream σ τ α => ∀ a ∈ st.out, P a) ?_ ?_ segments
  · intro st segment h
    exact forall_out_drain hpull _ { st with buffer := st.buffer ++ segment } h
  · intro a hmem
    cases hmem

end Segments

end ServerLib.Lib

import ServerLib.Lib.TimingWheel
import ServerLib.Timer.Wheel

/-! Where `place_timer` puts a timer.  It walks up the wheels, adding the time that each has passed
to the timer's `remain_`, and stops at the first one that reaches as far.  A timeout is a
`uint32_t`, so it stops at level 3 or below. -/

namespace ServerLib.Timer

open Lib.TimingWheel

/-- The wheel at place `k` of `ws`, whose first wheel has level `base`, or the wheel that
`place_timer` would add there. -/
def wheelAt (base : Nat) (ws : List Wheel) (k : Nat) : Wheel :=
  ws.getD k (Wheel.new 1000 (1000 ^ (base + k)))

@[simp] theorem wheelAt_cons_zero (base : Nat) (w : Wheel) (ws : List Wheel) :
    wheelAt base (w :: ws) 0 = w := rfl

@[simp] theorem wheelAt_cons_succ (base : Nat) (w : Wheel) (ws : List Wheel) (k : Nat) :
    wheelAt base (w :: ws) (k + 1) = wheelAt (base + 1) ws k := by
  simp [wheelAt, show base + (k + 1) = base + 1 + k by omega]

variable {base k i remain : Nat} {w : Wheel}

theorem wheelAt_of_getElem? (h : ws[k]? = some w) : wheelAt base ws k = w := by
  simp [wheelAt, h]

theorem wheelAt_of_length_le (h : ws.length ≤ k) :
    wheelAt base ws k = Wheel.new 1000 (1000 ^ (base + k)) := by
  simp [wheelAt, h]

theorem wheelAt_set (w : Wheel) (k : Nat) (h : i < ws.length) :
    wheelAt base (ws.set i w) k = if k = i then w else wheelAt base ws k := by
  unfold wheelAt
  by_cases hk : k = i
  · subst hk
    simp [List.getElem?_set_self h]
  · simp [List.getElem?_set_ne (Ne.symm hk), hk]

theorem wheelAt_onDelete (base id k : Nat) (ws : List Wheel) :
    wheelAt base (ws.map (·.onDelete id)) k = (wheelAt base ws k).onDelete id := by
  by_cases h : k < ws.length
  · simp [wheelAt, h]
  · simp [wheelAt, Nat.not_lt.mp h, Wheel.new, Wheel.onDelete]

/-- The wheel has the unit of level `k`, 1000 slots, and its cursor on one of them. -/
structure Wheel.HasLevel (w : Wheel) (k : Nat) : Prop where
  timeUnit : w.timeUnit = 1000 ^ k
  size : w.size = 1000
  cursor : w.cursor < 1000

theorem Wheel.HasLevel.unitMaxTime (h : w.HasLevel k) : w.unitMaxTime = 1000 ^ (k + 1) := by
  rw [Wheel.unitMaxTime, h.timeUnit, h.size, pow_succ]

theorem Wheel.HasLevel.getPassedTime (h : w.HasLevel k) :
    w.getPassedTime = w.cursor * 1000 ^ k := by
  rw [Wheel.getPassedTime, h.timeUnit]

theorem Wheel.new_hasLevel (h : k ≤ 3) : (Wheel.new 1000 (1000 ^ k)).HasLevel k := by
  refine ⟨Nat.mod_eq_of_lt ?_, rfl, Nat.zero_lt_succ 999⟩
  calc 1000 ^ k ≤ 1000 ^ 3 := Nat.pow_le_pow_right (by decide) h
    _ < 2 ^ 32 := by decide

def cursors (base : Nat) (ws : List Wheel) (k : Nat) : Nat := (wheelAt base ws k).cursor

/-- The time that the first `k` wheels of `ws` have passed. -/
def passedFrom (base : Nat) (ws : List Wheel) (k : Nat) : Nat :=
  ∑ i ∈ Finset.range k, cursors base ws i * 1000 ^ (base + i)

theorem passedFrom_zero_base (ws : List Wheel) (k : Nat) :
    passedFrom 0 ws k = passed 1000 (cursors 0 ws) k := by
  simp [passedFrom, passed]

theorem passedFrom_cons (base : Nat) (w : Wheel) (ws : List Wheel) (k : Nat) :
    passedFrom base (w :: ws) (k + 1) = w.cursor * 1000 ^ base + passedFrom (base + 1) ws k := by
  rw [passedFrom, Finset.sum_range_succ', Nat.add_comm]
  congr 1
  refine Finset.sum_congr rfl fun i _ => ?_
  simp [cursors, show base + (i + 1) = base + 1 + i by omega]

/-- `out` is `ws` and `remain` after timer `id` has been placed at place `i`. -/
structure PlacedAt (base : Nat) (ws : List Wheel) (id remain : Nat) (out : List Wheel × Nat)
    (i : Nat) : Prop where
  level : base + i ≤ 3
  wheel : ∀ k, wheelAt base out.1 k =
    if k = i then (wheelAt base ws i).placeTimer (out.2 / 1000 ^ (base + i)) id
    else wheelAt base ws k
  length : out.1.length = max ws.length (i + 1)
  total : out.2 = remain + passedFrom base ws i
  fits : out.2 < 1000 ^ (base + i + 1)
  skipped : ∀ k < i, 1000 ^ (base + k + 1) ≤ remain + passedFrom base ws k

theorem PlacedAt.here {id : Nat} (hbase : base ≤ 3) (hw : w.HasLevel base)
    (h : remain < w.unitMaxTime) :
    PlacedAt base (w :: ws) id remain (w.placeTimer (remain / w.timeUnit) id :: ws, remain) 0 where
  level := hbase
  wheel k := by
    cases k with
    | zero => simp [hw.timeUnit]
    | succ k => simp
  length := by simp
  total := by simp [passedFrom]
  fits := by simpa [hw.unitMaxTime] using h
  skipped k hk := absurd hk (Nat.not_lt_zero k)

theorem PlacedAt.above {id : Nat} (hw : w.HasLevel base) (h : w.unitMaxTime ≤ remain)
    (ho : PlacedAt (base + 1) ws id (remain + w.getPassedTime) out i) :
    PlacedAt base (w :: ws) id remain (w :: out.1, out.2) (i + 1) where
  level := by have := ho.level; omega
  wheel k := by
    cases k with
    | zero => simp
    | succ k =>
      have := ho.wheel k
      simp only [wheelAt_cons_succ, this, Nat.add_right_cancel_iff,
        show base + (i + 1) = base + 1 + i by omega]
  length := by simp [ho.length]
  total := by
    rw [ho.total, passedFrom_cons, hw.getPassedTime, Nat.add_assoc]
  fits := by
    have := ho.fits
    rwa [show base + 1 + i + 1 = base + (i + 1) + 1 by omega] at this
  skipped k hk := by
    cases k with
    | zero => simpa [passedFrom, hw.unitMaxTime] using h
    | succ k =>
      have := ho.skipped k (by omega)
      rw [hw.getPassedTime] at this
      rw [passedFrom_cons, show base + (k + 1) + 1 = base + 1 + k + 1 by omega]
      omega

theorem PlacedAt.added {id : Nat}
    (h : PlacedAt base [Wheel.new 1000 (1000 ^ base)] id remain out i) :
    PlacedAt base [] id remain out i := by
  have same : ∀ k, wheelAt base [Wheel.new 1000 (1000 ^ base)] k = wheelAt base [] k := by
    intro k
    cases k with
    | zero => rfl
    | succ k =>
      rw [wheelAt_cons_succ, wheelAt, wheelAt, show base + 1 + k = base + (k + 1) by omega]
      rfl
  have samePassed : ∀ k, passedFrom base [Wheel.new 1000 (1000 ^ base)] k = passedFrom base [] k :=
    fun k => Finset.sum_congr rfl fun j _ => by rw [cursors, cursors, same]
  exact
    { level := h.level
      wheel k := by rw [h.wheel, same, same]
      length := by rw [h.length]; simp
      total := by rw [h.total, samePassed]
      fits := h.fits
      skipped k hk := by rw [← samePassed]; exact h.skipped k hk }

/-- A remaining time below `2 ^ 32` plus what the wheels below `base` have passed fits at
level 3, and stays within the bound of the next level where it does not fit. -/
theorem remain_above (hbase : base ≤ 3) (hw : w.HasLevel base)
    (hr : remain < 2 ^ 32 + 1000 ^ base) (h : w.unitMaxTime ≤ remain) :
    base + 1 ≤ 3 ∧ remain + w.getPassedTime < 2 ^ 32 + 1000 ^ (base + 1) := by
  have hc := hw.cursor
  rw [hw.unitMaxTime] at h
  rw [hw.getPassedTime]
  have hmul : w.cursor * 1000 ^ base ≤ 999 * 1000 ^ base := Nat.mul_le_mul_right _ (by omega)
  rw [pow_succ] at h ⊢
  refine ⟨?_, by omega⟩
  by_contra hcon
  obtain rfl : base = 3 := by omega
  omega

theorem addWheels_placedAt (turns id base remain : Nat) (hbase : base ≤ 3)
    (hturns : 4 ≤ base + turns) (hr : remain < 2 ^ 32 + 1000 ^ base) :
    ∃ i, PlacedAt base [] id remain (addWheels 1000 id turns (1000 ^ base) remain) i := by
  induction turns generalizing base remain with
  | zero => omega
  | succ turns ih =>
    have hw := Wheel.new_hasLevel hbase
    simp only [addWheels]
    split_ifs with hfit
    · exact ⟨0, (PlacedAt.here hbase hw hfit).added⟩
    · have hfit := Nat.not_lt.mp hfit
      obtain ⟨hbase', hr'⟩ := remain_above hbase hw hr hfit
      obtain ⟨i, hi⟩ := ih (base + 1) _ hbase' (by omega) hr'
      rw [← hw.unitMaxTime] at hi
      exact ⟨i + 1, (PlacedAt.above hw hfit hi).added⟩

theorem placeInWheels_placedAt (ws : List Wheel) (id base remain : Nat) (hbase : base ≤ 3)
    (hws : ∀ (k : Nat) (w : Wheel), ws[k]? = some w → w.HasLevel (base + k))
    (hr : remain < 2 ^ 32 + 1000 ^ base) :
    ∃ i, PlacedAt base ws id remain (placeInWheels 1000 id ws (1000 ^ base) remain) i := by
  induction ws generalizing base remain with
  | nil => exact addWheels_placedAt 64 id base remain hbase (by omega) hr
  | cons w ws ih =>
    have hw : w.HasLevel base := hws 0 w rfl
    simp only [placeInWheels]
    split_ifs with hfit
    · exact ⟨0, PlacedAt.here hbase hw hfit⟩
    have hfit := Nat.not_lt.mp hfit
    obtain ⟨hbase', hr'⟩ := remain_above hbase hw hr hfit
    obtain ⟨i, hi⟩ := ih (base + 1) _ hbase' (fun k v hk => by
      have := hws (k + 1) v (by simpa using hk)
      rwa [show base + (k + 1) = base + 1 + k by omega] at this) hr'
    rw [← hw.unitMaxTime] at hi
    exact ⟨i + 1, PlacedAt.above hw hfit hi⟩

/-- From level 0, the slot that a timer is put in is as many turns away as its remaining time
says, and what is left after those turns is below the unit of the wheel. -/
theorem PlacedAt.turns {id : Nat} (h : PlacedAt 0 ws id remain out i)
    (hw : (wheelAt 0 ws i).HasLevel i) :
    ∃ j < 1000, (wheelAt 0 out.1 i).items =
        Function.update (wheelAt 0 ws i).items j (id :: (wheelAt 0 ws i).items j) ∧
      max remain 1 + passed 1000 (cursors 0 ws) i =
        turns 1000 (cursors 0 ws i) j * 1000 ^ i + out.2 % 1000 ^ i := by
  have hfit := h.fits
  have hrem := h.total
  have hcur : cursors 0 ws i < 1000 := hw.cursor
  rw [passedFrom_zero_base] at hrem
  simp only [Nat.zero_add] at hfit
  refine ⟨(cursors 0 ws i + if out.2 / 1000 ^ i % 1000 = 0 then 1 else out.2 / 1000 ^ i) % 1000,
    Nat.mod_lt _ (by decide), ?_, ?_⟩
  · rw [h.wheel i, if_pos rfl]
    simp [Wheel.placeTimer, hw.size, cursors]
  · have hidx : out.2 / 1000 ^ i < 1000 := by
      rw [Nat.div_lt_iff_lt_mul (Nat.pow_pos (by decide)), Nat.mul_comm, ← pow_succ]
      exact hfit
    rw [Nat.mod_eq_of_lt hidx]
    by_cases h0 : out.2 / 1000 ^ i = 0
    · -- Only a timer with nothing remaining, at level 0, meets the slot under the cursor.
      have hlt : out.2 < 1000 ^ i := by
        rcases Nat.div_eq_zero_iff.mp h0 with hz | hlt
        · exact absurd hz (Nat.pow_pos (by decide)).ne'
        · exact hlt
      obtain rfl : i = 0 := by
        by_contra hi
        obtain ⟨k, rfl⟩ : ∃ k, i = k + 1 := ⟨i - 1, by omega⟩
        have hskip := h.skipped k (by omega)
        rw [passedFrom_zero_base] at hskip
        have := passed_mono 1000 (cursors 0 ws) (Nat.le_add_right k 1)
        simp only [Nat.zero_add] at hskip
        omega
      rw [if_pos h0, turns_place hcur (Nat.le_refl 1) (by decide)]
      omega
    · rw [if_neg h0, turns_place hcur (Nat.pos_of_ne_zero h0) hidx, Nat.mul_comm,
        Nat.div_add_mod, hrem]
      have h1 : 1 ≤ remain := by
        by_contra hz
        obtain rfl : remain = 0 := by omega
        refine h0 (Nat.div_eq_of_lt ?_)
        rw [hrem, Nat.zero_add]
        cases i with
        | zero => simp
        | succ k =>
          have hskip := h.skipped 0 (by omega)
          simp [passedFrom] at hskip
      omega

end ServerLib.Timer

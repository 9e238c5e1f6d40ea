import ServerLib.Timer.Invariant

/-! The steps of the manager keep its invariant: taking a timer out of its list, placing it,
advancing a wheel, and from these every label. -/

namespace ServerLib.Timer

open Lib.TimingWheel Function

theorem Wheel.HasLevel.placeTimer {w : Wheel} (h : w.HasLevel k) (idx id : Nat) :
    (w.placeTimer idx id).HasLevel k :=
  ⟨h.timeUnit, h.size, h.cursor⟩

theorem PlacedAt.cursors {id remain i : Nat} (h : PlacedAt 0 ws id remain out i) :
    cursors 0 out.1 = cursors 0 ws := by
  funext k
  rw [Timer.cursors, Timer.cursors, h.wheel]
  split_ifs with hk
  · rw [hk]
    rfl
  · rfl

namespace WheelTimerManager

variable {m : WheelTimerManager} {id : Nat}

theorem Timed.pop (h : m.Timed none p) (hhelper : m.helperItem = id :: rest) :
    Timed { m with helperItem := rest } (some id) p := by
  have hnodup : id ∉ rest ∧ rest.Nodup := List.nodup_cons.mp (hhelper ▸ h.once.1 none)
  have hid : id ∈ m.lists none := by simp [lists, hhelper]
  have hmem : ∀ l x, x ∈ lists { m with helperItem := rest } l ↔ x ∈ m.lists l ∧ x ≠ id := by
    intro l x
    rcases l with _ | ⟨k, j⟩
    · simp only [lists, hhelper, List.mem_cons]
      exact ⟨fun hx => ⟨.inr hx, fun he => hnodup.1 (he ▸ hx)⟩, fun hx => hx.1.resolve_left hx.2⟩
    · refine ⟨fun hx => ⟨hx, ?_⟩, fun hx => hx.1⟩
      rintro rfl
      exact absurd (h.once.2 (some (k, j)) none x hx hid) (by simp)
  exact
    { h with
      once := h.once.sublist fun l => by
        rcases l with _ | ⟨k, j⟩
        · simp [lists, hhelper]
        · exact .refl _
      handOff x hx l hl := ((hmem l x).mp hl).2 (Option.some.inj hx).symm
      waits x hx := by
        have hne : x ≠ id := fun he => hx (by rw [he])
        simp only [hmem, and_iff_left hne]
        exact h.waits x (by simp) }

theorem cursors_onDelete (ws : List Wheel) (id : Nat) :
    cursors 0 (ws.map (·.onDelete id)) = cursors 0 ws := by
  funext k
  rw [cursors, wheelAt_onDelete]
  rfl

theorem Timed.takeOut (h : m.Timed none p) (id : Nat) :
    Timed { m with
      helperItem := m.helperItem.filter (· ≠ id)
      wheels := m.wheels.map (·.onDelete id) } (some id) p := by
  have hlists : lists { m with
      helperItem := m.helperItem.filter (· ≠ id)
      wheels := m.wheels.map (·.onDelete id) } = fun l => (m.lists l).filter (· ≠ id) := by
    funext l
    rcases l with _ | ⟨k, j⟩
    · rfl
    · rw [lists, wheelAt_onDelete]
      rfl
  exact
    { h with
      length := by simpa using h.length
      level k hk := by
        rw [wheelAt_onDelete]
        exact ⟨(h.level k hk).timeUnit, (h.level k hk).size, (h.level k hk).cursor⟩
      slot k j x hx := by
        rw [cursors_onDelete]
        rw [Slot, hlists] at hx
        exact h.slot k j x (List.mem_of_mem_filter hx)
      once := hlists ▸ h.once.sublist fun l => List.filter_sublist
      handOff x hx l hl := by
        rw [hlists] at hl
        simp_all
      waits x hx := by
        have hne : x ≠ id := fun he => hx (by rw [he])
        simp only [hlists, List.mem_filter, hne, ne_eq, not_false_eq_true, decide_true, and_true]
        exact h.waits x (by simp) }

/-- The cursors below the level of a waiting carry are 0, and a timer that is placed does not
reach that level. -/
def Below (m : WheelTimerManager) (p : Option Nat) (remain : Nat) : Prop :=
  ∀ q, p = some q → 1 ≤ q ∧ remain < 1000 ^ q ∧ ∀ k < q, cursors 0 m.wheels k = 0

/-- A carry that waits is above the level that the timer goes to. -/
theorem Below.lt {out : List Wheel × Nat} {remain i : Nat} (h : m.Below (some q) remain)
    (hi : PlacedAt 0 m.wheels id remain out i) : i < q := by
  obtain ⟨h1, hlt, hzero⟩ := h q rfl
  by_contra hiq
  have hskip := hi.skipped (q - 1) (by omega)
  rw [passedFrom_zero_base, passed_eq_zero fun k hk => hzero k (by omega),
    show 0 + (q - 1) + 1 = q by omega] at hskip
  omega

theorem Timed.placeTimer_eq (h : m.Timed (some id) p) (hrem : (m.timer id).remain < 2 ^ 32) :
    ∃ out i, PlacedAt 0 m.wheels id (m.timer id).remain out i ∧
      m.placeTimer id = { m with
        wheels := out.1
        timer := update m.timer id ((m.timer id).setRemain out.2) } := by
  have hlevels : ∀ (k : Nat) (w : Wheel), m.wheels[k]? = some w → w.HasLevel (0 + k) := by
    intro k w hk
    have hlt : k < m.wheels.length := (List.getElem?_eq_some_iff.mp hk).1
    have := h.level k (by have := h.length; omega)
    rw [wheelAt_of_getElem? hk] at this
    simpa using this
  obtain ⟨i, hi⟩ := placeInWheels_placedAt m.wheels id 0 (m.timer id).remain (by decide) hlevels
    (by omega)
  refine ⟨_, i, hi, ?_⟩
  simp [placeTimer, h.count, h.timeUnit]

/-- A timer in hand goes to the slot that the wheels choose for it. -/
theorem Timed.placedAt {out : List Wheel × Nat} (h : m.Timed (some id) p)
    (hi : PlacedAt 0 m.wheels id (m.timer id).remain out i) (hstate : (m.timer id).state = .init)
    (hid : id < m.nextId) (hdue : m.due id = m.ticks + max (m.timer id).remain 1)
    (hlevel : ∀ q, p = some q → i < q) :
    Timed { m with
      wheels := out.1
      timer := update m.timer id ((m.timer id).setRemain out.2) } none p := by
  have hi3 : i ≤ 3 := by have := hi.level; omega
  obtain ⟨j₀, hj₀, hitems, hturns⟩ := hi.turns (h.level i hi3)
  have hset := h.setRemain hid hstate out.2
  have hlists : lists { m with
      wheels := out.1
      timer := update m.timer id ((m.timer id).setRemain out.2) } =
      update m.lists (some (i, j₀)) (id :: m.lists (some (i, j₀))) := by
    funext l
    rcases l with _ | ⟨k, j⟩
    · rfl
    · by_cases hk : k = i
      · subst hk
        rw [lists, hitems]
        by_cases hj : j = j₀
        · subst hj
          simp [lists]
        · simp [hj, lists]
      · simp [lists, hi.wheel, hk]
  exact
    { hset with
      length := by
        show out.1.length ≤ 4
        have := h.length
        have := hi.length
        omega
      level k hk := by
        rw [hi.wheel]
        split_ifs with hki
        · subst hki
          exact (h.level k hk).placeTimer _ _
        · exact h.level k hk
      slot k j x hx := by
        rw [hi.cursors]
        rw [Slot, hlists, mem_update_cons] at hx
        rcases hx with hs | ⟨hkj, rfl⟩
        · exact hset.slot k j x hs
        · obtain ⟨rfl, rfl⟩ : k = i ∧ j = j₀ := by simpa using hkj
          have hlow : low 1000 (cursors 0 m.wheels) p k = passed 1000 (cursors 0 m.wheels) k := by
            cases p with
            | none => rfl
            | some q => exact low_of_lt (hlevel q rfl)
          simp only [due, expected, update_self, WheelTimer.setRemain] at hdue ⊢
          refine ⟨hj₀, ?_⟩
          rw [hdue, hlow]
          omega
      once := hlists ▸ h.once.insert (h.handOff id rfl) _
      handOff x hx := by simp at hx
      waits x _ := by
        simp only [hlists, mem_update_cons]
        by_cases hxid : x = id
        · subst hxid
          exact iff_of_true (by simpa [WheelTimer.setRemain] using hstate) ⟨_, .inr ⟨rfl, rfl⟩⟩
        · simpa [hxid] using h.waits x fun he => hxid (Option.some.inj he).symm }

theorem Timed.place (h : m.Timed (some id) p) (hstate : (m.timer id).state = .init)
    (hrem : (m.timer id).remain < 2 ^ 32) (hid : id < m.nextId)
    (hdue : m.due id = m.ticks + max (m.timer id).remain 1)
    (hbelow : m.Below p (m.timer id).remain) :
    (m.placeTimer id).Timed none p ∧
      cursors 0 (m.placeTimer id).wheels = cursors 0 m.wheels ∧
      m.wheels.length ≤ (m.placeTimer id).wheels.length ∧
      ∀ q, p = some q → q < m.wheels.length →
        (m.placeTimer id).wheels.length = m.wheels.length := by
  obtain ⟨out, i, hi, hplaced⟩ := h.placeTimer_eq hrem
  have hlevel : ∀ q, p = some q → i < q := by
    rintro q rfl
    exact hbelow.lt hi
  have hlen := hi.length
  rw [hplaced]
  refine ⟨h.placedAt hi hstate hid hdue hlevel, hi.cursors, by simp [hlen], fun q hq hlt => ?_⟩
  have := hlevel q hq
  show out.1.length = m.wheels.length
  omega

/-- The slot that the cursor of the wheel at level `i` comes to next. -/
def reached (m : WheelTimerManager) (i : Nat) : Nat := (cursors 0 m.wheels i + 1) % 1000

/-- A slot of the wheel that has advanced is one turn nearer, and the carry has been taken from
what the wheels above still have to receive. -/
theorem Timed.slot_advance (h : m.Timed none (some i)) (hx : m.Slot k j x)
    (hne : ¬(k = i ∧ j = m.reached i)) :
    m.due x + low 1000 (advance 1000 (cursors 0 m.wheels) i)
        (if i + 1 < m.wheels.length then carryOut 1000 (cursors 0 m.wheels) i else none) k =
      m.ticks + turns 1000 (advance 1000 (cursors 0 m.wheels) i k) j * 1000 ^ k +
        (m.timer x).remain % 1000 ^ k := by
  obtain ⟨hj, heq⟩ := h.slot k j x hx
  have hklen := Timed.slot_lt_length hx
  have hlow : k ≤ i → low 1000 (advance 1000 (cursors 0 m.wheels) i)
      (if i + 1 < m.wheels.length then carryOut 1000 (cursors 0 m.wheels) i else none) k =
      passed 1000 (cursors 0 m.wheels) k := by
    intro hk
    split
    · exact low_advance_of_le hk
    · rw [low_none, passed_advance_of_le hk]
  rcases Nat.lt_trichotomy k i with hk | rfl | hk
  · rw [low_of_lt hk] at heq
    rw [hlow hk.le, advance, update_of_ne (by omega)]
    exact heq
  · have hturn := turns_advance (h.cursors_lt k) hj fun hjc => hne ⟨rfl, hjc⟩
    rw [low_self, ← hturn, Nat.add_mul, Nat.one_mul] at heq
    rw [hlow le_rfl, advance, update_self]
    omega
  · rw [if_pos (by omega), low_advance_of_lt h.cursors_lt hk, advance, update_of_ne (by omega)]
    exact heq

section

variable (h : m.Timed none (some i)) (hhelper : m.helperItem = []) (hi : i < m.wheels.length)

include h hhelper hi

/-- The slot that the cursor of the wheel comes to is the new `helper_item_`. -/
theorem advanceWheel_eq (wheelCount : Nat) :
    m.advanceWheel i wheelCount = { m with
      wheels := m.wheels.set i { wheelAt 0 m.wheels i with
        cursor := m.reached i
        items := update (wheelAt 0 m.wheels i).items (m.reached i) [] }
      helperItem := m.lists (some (i, m.reached i))
      control := .draining i wheelCount } := by
  have hget : m.wheels[i]? = some (wheelAt 0 m.wheels i) := by
    simp [wheelAt, hi]
  have hsize := (h.level i (by have := h.length; omega)).size
  simp [advanceWheel, hget, Wheel.tick, hhelper, hsize, reached, cursors, lists]

theorem cursors_advanceWheel (wheelCount : Nat) :
    cursors 0 (m.advanceWheel i wheelCount).wheels = advance 1000 (cursors 0 m.wheels) i := by
  funext k
  rw [advanceWheel_eq h hhelper hi, cursors, wheelAt_set _ _ hi]
  split_ifs with hk
  · rw [hk, advance, update_self]
    rfl
  · rw [advance, update_of_ne hk]
    rfl

/-- The two lists change places, since `helper_item_` was empty. -/
theorem lists_advanceWheel (wheelCount : Nat) :
    (m.advanceWheel i wheelCount).lists =
      m.lists ∘ Equiv.swap none (some (i, m.reached i)) := by
  rw [advanceWheel_eq h hhelper hi]
  funext l
  rcases l with _ | ⟨k, j⟩
  · simp [lists]
  · rw [comp_apply, Equiv.swap_apply_def, lists, wheelAt_set _ _ hi]
    by_cases hk : k = i
    · subst hk
      by_cases hj : j = m.reached k
      · simp [hj, lists, hhelper]
      · simp [hj, lists]
    · simp [hk, lists]

theorem slot_advanceWheel (wheelCount : Nat) :
    (m.advanceWheel i wheelCount).Slot k j x ↔
      m.Slot k j x ∧ ¬(k = i ∧ j = m.reached i) := by
  rw [Slot, lists_advanceWheel h hhelper hi, comp_apply, Equiv.swap_apply_def, if_neg (by simp)]
  split_ifs with hl
  · simp_all [lists]
  · simp_all [Slot]

theorem pending_advanceWheel (wheelCount : Nat) :
    (m.advanceWheel i wheelCount).pending =
      if i + 1 < wheelCount then carryOut 1000 (cursors 0 m.wheels) i else none := by
  have hloop : (m.advanceWheel i wheelCount).loop = some (i, wheelCount) := by
    rw [advanceWheel_eq h hhelper hi, loop]
  simp only [pending, hloop, cursors_advanceWheel h hhelper hi, carryOut]
  split <;> split <;> simp_all

theorem Timed.advanced :
    (m.advanceWheel i m.wheels.length).Timed none
      (m.advanceWheel i m.wheels.length).pending := by
  have hcur := cursors_advanceWheel h hhelper hi m.wheels.length
  have hlists := lists_advanceWheel h hhelper hi m.wheels.length
  have hslot : ∀ k j x, _ := fun k j x =>
    slot_advanceWheel (k := k) (j := j) (x := x) h hhelper hi m.wheels.length
  have hpend := pending_advanceWheel h hhelper hi m.wheels.length
  have heq := advanceWheel_eq h hhelper hi m.wheels.length
  rw [hpend]
  generalize m.advanceWheel i m.wheels.length = m' at *
  subst heq
  exact
    { h with
      length := by simpa using h.length
      level k hk := by
        rw [wheelAt_set _ _ hi]
        split_ifs with hki
        · subst hki
          exact ⟨(h.level k hk).timeUnit, (h.level k hk).size, Nat.mod_lt _ (by decide)⟩
        · exact h.level k hk
      slot k j x hx := by
        obtain ⟨hs, hne⟩ := (hslot k j x).mp hx
        rw [hcur]
        exact ⟨(h.slot k j x hs).1, h.slot_advance hs hne⟩
      once := hlists ▸ h.once.comp (Equiv.injective _)
      handOff x hx := by simp at hx
      waits x hx := by
        rw [hlists]
        exact (h.waits x hx).trans (Equiv.surjective _).exists }

theorem Timed.advanceWheel (hzero : ∀ k < i, cursors 0 m.wheels k = 0)
    (hproc : ∀ x, (m.timer x).state ≠ .processing) :
    (m.advanceWheel i m.wheels.length).Inv none := by
  have htimed := h.advanced hhelper hi
  have hcur := cursors_advanceWheel h hhelper hi m.wheels.length
  have heq := advanceWheel_eq h hhelper hi m.wheels.length
  generalize m.advanceWheel i m.wheels.length = m' at *
  subst heq
  refine ⟨htimed, fun h => by simp at h, ?_, ?_, ?_, ?_⟩
  · intro i' wheelCount hloop x hx
    obtain ⟨rfl, rfl⟩ := hloop
    obtain ⟨-, heq⟩ := h.slot i _ x hx
    have hone : turns 1000 (cursors 0 m.wheels i) (m.reached i) = 1 :=
      turns_next_slot (h.cursors_lt i) (by decide)
    rw [low_self, passed_eq_zero hzero, hone] at heq
    show m.due x = m.ticks + (m.timer x).remain % 1000 ^ i
    omega
  · intro i' wheelCount hloop
    obtain ⟨rfl, rfl⟩ := hloop
    refine ⟨hi, by simp, fun k hk => ?_, fun _ => by simp⟩
    rw [hcur, advance, update_of_ne (by omega)]
    exact hzero k hk
  · intro x hx
    exact absurd hx (hproc x)
  · intro i' wheelCount x hx
    simp at hx

end

end WheelTimerManager

end ServerLib.Timer

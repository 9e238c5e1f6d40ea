import ServerLib.Timer.Placement

/-! The invariant of the timer manager.  Every timer has a tick at which it is due, which follows
from its history alone, and the invariant relates that tick to the slot that holds the timer, to
its `remain_`, and to the cursors of all wheels.  It holds in the middle of a tick as well as
between ticks, with the carry that is on its way from one wheel to the next. -/

namespace ServerLib.Timer

open Lib.TimingWheel Function

/-- The timer may be triggered after `k` earlier triggers: always once, and again if it is
periodic, up to `period_` times if that is positive. -/
def WheelTimer.Allows (t : WheelTimer) (k : Nat) : Prop :=
  k = 0 ∨ t.period ≠ 0 ∧ t.interval ≠ 0 ∧ t.task = true ∧ (0 < t.period → (k : Int) < t.period)

namespace WheelTimerManager

section

variable (m : WheelTimerManager)

/-- The lists of the manager: `helper_item_`, and slot `j` of the wheel at level `k`. -/
def lists : Option (Nat × Nat) → List Nat
  | none => m.helperItem
  | some (k, j) => (wheelAt 0 m.wheels k).items j

/-- Timer `id` is in the list of slot `j` of the wheel at level `k`. -/
def Slot (k j id : Nat) : Prop := id ∈ m.lists (some (k, j))

/-- The wheel and the number of wheels of the loop that `tick` is in. -/
def loop : Option (Nat × Nat) :=
  match m.control with
  | .idle => none
  | .draining i wheelCount | .callback i wheelCount _ => some (i, wheelCount)

/-- The level that `tick` is about to advance because the wheel below has come round. -/
def pending : Option Nat :=
  match m.loop with
  | some (i, wheelCount) =>
    if cursors 0 m.wheels i = 0 ∧ i + 1 < wheelCount then some (i + 1) else none
  | none => none

/-- The tick at which timer `id` is to be triggered after `k` earlier triggers. -/
def expected (id k : Nat) : Nat :=
  m.scheduledAt id + max (m.timeout id) 1 + k * max (m.timer id).interval 1

/-- The tick of the next trigger of timer `id`. -/
def due (id : Nat) : Nat := m.expected id (m.fired id).length

/-- The triggers of timer `id` so far, and what its state says about their number. -/
def Counted (id : Nat) : Prop :=
  m.fired id = (List.range (m.fired id).length).map (m.expected id) ∧
  match (m.timer id).state with
  | .init => (m.timer id).Allows (m.fired id).length ∧
      (0 < (m.timer id).period → (m.timer id).periodCounter = (m.fired id).length)
  | .processing => ∃ k, (m.fired id).length = k + 1 ∧ (m.timer id).Allows k ∧
      (0 < (m.timer id).period → (m.timer id).periodCounter = k)
  | .done => ∃ k, (m.fired id).length = k + 1 ∧ (m.timer id).Allows k ∧
      ¬(m.timer id).Allows (k + 1)
  | .cancal => True

/-- The part of the invariant that does not depend on where `tick` stands, with a carry into level
`p` on its way.  `hand` is a timer that has been taken out of its list and not yet dealt with. -/
structure Timed (hand p : Option Nat) : Prop where
  timeUnit : m.timeUnit = 1
  count : m.count = 1000
  length : m.wheels.length ≤ 4
  level : ∀ k ≤ 3, (wheelAt 0 m.wheels k).HasLevel k
  slot : ∀ k j id, m.Slot k j id → j < 1000 ∧ m.due id + low 1000 (cursors 0 m.wheels) p k =
    m.ticks + turns 1000 (cursors 0 m.wheels k) j * 1000 ^ k + (m.timer id).remain % 1000 ^ k
  once : Once m.lists
  handOff : ∀ id, hand = some id → ∀ l, id ∉ m.lists l
  waits : ∀ id, hand ≠ some id → ((m.timer id).state = .init ↔ ∃ l, id ∈ m.lists l)
  fresh : ∀ id, m.nextId ≤ id → (m.timer id).state = .done ∧ (m.timer id).handleActive = false
  bounds : ∀ id, (m.timer id).interval < 2 ^ 32 ∧ (m.timer id).period < 2 ^ 31
  counted : ∀ id < m.nextId, m.Counted id

end

/-- The invariant of the manager, with a timer `hand` that is being dealt with. -/
structure Inv (m : WheelTimerManager) (hand : Option Nat) : Prop where
  timed : m.Timed hand m.pending
  idleHelper : m.control = .idle → m.helperItem = []
  helperDue : ∀ i wheelCount, m.loop = some (i, wheelCount) → ∀ id ∈ m.helperItem,
    m.due id = m.ticks + (m.timer id).remain % 1000 ^ i
  loopShape : ∀ i wheelCount, m.loop = some (i, wheelCount) →
    i < wheelCount ∧ wheelCount ≤ m.wheels.length ∧ (∀ k < i, cursors 0 m.wheels k = 0) ∧
    (m.pending ≠ none → m.wheels.length = wheelCount)
  processing : ∀ id, (m.timer id).state = .processing →
    ∃ i wheelCount, m.control = .callback i wheelCount id
  callback : ∀ i wheelCount id, m.control = .callback i wheelCount id →
    id < m.nextId ∧ m.due id = m.ticks + max (m.timer id).interval 1 ∧
    ((m.timer id).state = .processing ∨ (m.timer id).state = .cancal)

theorem lists_init (l : Option (Nat × Nat)) : init.lists l = [] := by
  rcases l with _ | ⟨k, j⟩
  · rfl
  · simp [lists, wheelAt, init, Wheel.new]

theorem init_inv : Inv init none where
  timed :=
    { timeUnit := rfl
      count := rfl
      length := by decide
      level k hk := by
        have := Wheel.new_hasLevel hk
        simpa [wheelAt, init] using this
      slot k j id h := by simp [Slot, lists_init] at h
      once := by simp [Once, lists_init]
      handOff id h := by simp at h
      waits id _ := iff_of_false (by simp [init]) (by simp [lists_init])
      fresh id _ := ⟨rfl, rfl⟩
      bounds id := by simp [init, WheelTimer.new]
      counted id h := absurd h (Nat.not_lt_zero id) }
  idleHelper _ := rfl
  helperDue i wheelCount h := by simp [loop, init] at h
  loopShape i wheelCount h := by simp [loop, init] at h
  processing id h := by simp [init] at h
  callback i wheelCount id h := by simp [init] at h

variable {m m' : WheelTimerManager} {id : Nat}

theorem Timed.cursors_lt (h : m.Timed hand p) (k : Nat) : cursors 0 m.wheels k < 1000 := by
  by_cases hk : k ≤ 3
  · exact (h.level k hk).cursor
  · have hlen := h.length
    rw [cursors, wheelAt_of_length_le (by omega)]
    exact Nat.zero_lt_succ 999

theorem Timed.slot_lt_length (h : m.Slot k j id) : k < m.wheels.length := by
  by_contra hk
  rw [Slot, lists, wheelAt_of_length_le (Nat.not_lt.mp hk)] at h
  simp [Wheel.new] at h

theorem Timed.state_of_mem (h : m.Timed hand p) (hx : x ∈ m.lists l) : (m.timer x).state = .init :=
  (h.waits x fun hhand => h.handOff x hhand l hx).mpr ⟨l, hx⟩

theorem expected_congr (hscheduled : m'.scheduledAt id = m.scheduledAt id)
    (htimeout : m'.timeout id = m.timeout id)
    (hinterval : (m'.timer id).interval = (m.timer id).interval) :
    m'.expected id = m.expected id := by
  funext k
  rw [expected, expected, hscheduled, htimeout, hinterval]

/-- From `m` to `m'` timer `id` may have changed or come in, and no other one. -/
structure Spares (m m' : WheelTimerManager) (id : Nat) : Prop where
  ticks : m'.ticks = m.ticks
  nextId : m.nextId ≤ m'.nextId ∧ ∀ x < m'.nextId, x ≠ id → x < m.nextId
  timer : ∀ x ≠ id, m'.timer x = m.timer x
  fired : ∀ x ≠ id, m'.fired x = m.fired x
  history : ∀ x ≠ id, m'.scheduledAt x = m.scheduledAt x ∧ m'.timeout x = m.timeout x

theorem Spares.of_eq (hfired : ∀ x ≠ id, m'.fired x = m.fired x := by exact fun _ _ => rfl)
    (htimer : ∀ x ≠ id, m'.timer x = m.timer x := by exact fun _ hx => update_of_ne hx _ _)
    (hticks : m'.ticks = m.ticks := by rfl) (hnext : m'.nextId = m.nextId := by rfl)
    (hscheduled : m'.scheduledAt = m.scheduledAt := by rfl)
    (htimeout : m'.timeout = m.timeout := by rfl) : Spares m m' id where
  ticks := hticks
  nextId := by rw [hnext]; exact ⟨le_rfl, fun _ hx _ => hx⟩
  timer := htimer
  fired := hfired
  history _ _ := by rw [hscheduled, htimeout]; exact ⟨rfl, rfl⟩

theorem Spares.expected (hs : Spares m m' id) (hx : x ≠ id) : m'.expected x = m.expected x :=
  expected_congr (hs.history x hx).1 (hs.history x hx).2 (by rw [hs.timer x hx])

theorem Spares.due (hs : Spares m m' id) (hx : x ≠ id) : m'.due x = m.due x := by
  rw [WheelTimerManager.due, WheelTimerManager.due, hs.expected hx, hs.fired x hx]

/-- A timer that no list holds can be changed, and a new one can come in, as long as its own part
of the invariant is seen to. -/
theorem Timed.frame (h : m.Timed (some id) p) (hs : Spares m m' id) (hand' : Option Nat)
    (hid : id < m'.nextId) (hstate : (m'.timer id).state = .init → hand' = some id)
    (hbounds : (m'.timer id).interval < 2 ^ 32 ∧ (m'.timer id).period < 2 ^ 31)
    (hcounted : m'.Counted id) (hhand : ∀ x, hand' = some x → x = id := by simp)
    (hunit : m'.timeUnit = m.timeUnit := by rfl) (hcount : m'.count = m.count := by rfl)
    (hwheels : m'.wheels = m.wheels := by rfl)
    (hhelper : m'.helperItem = m.helperItem := by rfl) : m'.Timed hand' p := by
  have hlists : m'.lists = m.lists := by
    funext l
    cases l <;> simp only [lists, hwheels, hhelper]
  have hne : ∀ l x, x ∈ m.lists l → x ≠ id := by
    rintro l x hx rfl
    exact h.handOff x rfl l hx
  exact
    { timeUnit := hunit.trans h.timeUnit
      count := hcount.trans h.count
      length := by rw [hwheels]; exact h.length
      level := by rw [hwheels]; exact h.level
      slot k j x hx := by
        rw [Slot, hlists] at hx
        have hxid := hne _ x hx
        rw [hs.due hxid, hs.timer x hxid, hwheels, hs.ticks]
        exact h.slot k j x hx
      once := hlists ▸ h.once
      handOff x hx := by
        rw [hhand x hx, hlists]
        exact h.handOff id rfl
      waits x hx := by
        rw [hlists]
        by_cases hxid : x = id
        · subst hxid
          exact iff_of_false (fun hinit => hx (hstate hinit)) fun ⟨l, hl⟩ => hne l x hl rfl
        · rw [hs.timer x hxid]
          exact h.waits x fun hhand => hxid (Option.some.inj hhand).symm
      fresh x hx := by
        by_cases hxid : x = id
        · exact absurd hid (Nat.not_lt.mpr (hxid ▸ hx))
        · rw [hs.timer x hxid]
          exact h.fresh x (Nat.le_trans hs.nextId.1 hx)
      bounds x := by
        by_cases hxid : x = id
        · subst hxid
          exact hbounds
        · rw [hs.timer x hxid]
          exact h.bounds x
      counted x hx := by
        by_cases hxid : x = id
        · subst hxid
          exact hcounted
        · have := h.counted x (hs.nextId.2 x hx hxid)
          simp only [Counted, hs.expected hxid, hs.timer x hxid, hs.fired x hxid]
          exact this }

theorem expected_setRemain (m : WheelTimerManager) (id remain : Nat) :
    expected { m with timer := update m.timer id ((m.timer id).setRemain remain) } id =
      m.expected id :=
  expected_congr rfl rfl (by simp [WheelTimer.setRemain])

theorem Timed.setRemain (h : m.Timed (some id) p) (hid : id < m.nextId)
    (hstate : (m.timer id).state = .init) (remain : Nat) :
    Timed { m with timer := update m.timer id ((m.timer id).setRemain remain) } (some id) p := by
  refine h.frame .of_eq _ hid (fun _ => rfl) ?_ ?_
  · simpa [WheelTimer.setRemain] using h.bounds id
  · have hcounted := h.counted id hid
    rw [Counted, expected_setRemain]
    simpa [Counted, WheelTimer.setRemain, hstate, WheelTimer.Allows] using hcounted

end WheelTimerManager

end ServerLib.Timer

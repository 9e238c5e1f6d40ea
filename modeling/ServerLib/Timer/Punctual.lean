import ServerLib.Timer.Labels

/-! When timers are triggered.  A timer that is never cancelled is triggered exactly at the ticks
that its timeout, its interval, and its period say, in every run in which no timer is placed past a
carry.  Every tick that has begun can be completed, so each of those ticks comes. -/

namespace ServerLib.Timer

open Lib.TimingWheel Function WheelTimer

namespace WheelTimerManager

variable {m : WheelTimerManager} {id : Nat}

/-- The user can call the manager: it is outside of `tick` or in a callback. -/
def callable (m : WheelTimerManager) : Bool :=
  match m.control with
  | .draining _ _ => false
  | _ => true

/-- The triggers of timer `id`, which was made as `t` and scheduled after tick `T` with the timeout
`timeout`, are those that are due: the `k`-th comes at the tick that belongs to it, and between
ticks none is missing. -/
structure OnTime (m : WheelTimerManager) (id T timeout : Nat) (t : WheelTimer) : Prop where
  exact : ∀ k tick, (m.fired id)[k]? = some tick →
    tick = T + max timeout 1 + k * max t.interval 1 ∧ t.Allows k
  complete : m.control = .idle → ∀ k, t.Allows k →
    T + max timeout 1 + k * max t.interval 1 ≤ m.ticks → k < (m.fired id).length

/-- Timer `id` is known in `m`, and `m'` has the same record of how it was made. -/
structure Keeps (m m' : WheelTimerManager) (id : Nat) : Prop where
  nextId : m.nextId ≤ m'.nextId
  scheduledAt : m'.scheduledAt id = m.scheduledAt id
  timeout : m'.timeout id = m.timeout id
  interval : (m'.timer id).interval = (m.timer id).interval
  period : (m'.timer id).period = (m.timer id).period
  task : (m'.timer id).state ≠ .cancal →
    (m.timer id).state ≠ .cancal ∧ (m'.timer id).task = (m.timer id).task

theorem Keeps.of_eq {m' : WheelTimerManager} (hnext : m'.nextId = m.nextId := by rfl)
    (hsched : m'.scheduledAt = m.scheduledAt := by rfl)
    (htimeout : m'.timeout = m.timeout := by rfl) (htimer : m'.timer = m.timer := by rfl) :
    Keeps m m' id := by
  refine ⟨by rw [hnext], by rw [hsched], by rw [htimeout], ?_, ?_, ?_⟩ <;> rw [htimer]
  exact fun h => ⟨h, rfl⟩

theorem Keeps.trans {m₁ m₂ m₃ : WheelTimerManager} (h : Keeps m₁ m₂ id) (h' : Keeps m₂ m₃ id) :
    Keeps m₁ m₃ id where
  nextId := Nat.le_trans h.nextId h'.nextId
  scheduledAt := h'.scheduledAt.trans h.scheduledAt
  timeout := h'.timeout.trans h.timeout
  interval := h'.interval.trans h.interval
  period := h'.period.trans h.period
  task hs :=
    ⟨(h.task (h'.task hs).1).1, (h'.task hs).2.trans (h.task (h'.task hs).1).2⟩

theorem Keeps.update {m' : WheelTimerManager} {x : Nat} {t : WheelTimer}
    (htimer : m'.timer = update m.timer x t)
    (htask : t.state ≠ .cancal → (m.timer x).state ≠ .cancal ∧ t.task = (m.timer x).task)
    (hint : t.interval = (m.timer x).interval := by rfl)
    (hper : t.period = (m.timer x).period := by rfl) (hnext : m'.nextId = m.nextId := by rfl)
    (hsched : m'.scheduledAt = m.scheduledAt := by rfl)
    (htimeout : m'.timeout = m.timeout := by rfl) : Keeps m m' id := by
  refine ⟨by rw [hnext], by rw [hsched], by rw [htimeout], ?_, ?_, ?_⟩ <;> rw [htimer] <;>
    rcases eq_or_ne id x with rfl | hne
  · rw [update_self, hint]
  · rw [update_of_ne hne]
  · rw [update_self, hper]
  · rw [update_of_ne hne]
  · rw [update_self]
    exact htask
  · rw [update_of_ne hne]
    exact fun h => ⟨h, rfl⟩

section

variable (m : WheelTimerManager)

theorem placeTimer_keeps (x id : Nat) : Keeps m (m.placeTimer x) id :=
  .update rfl fun h => ⟨h, rfl⟩

theorem advanceWheel_keeps (i wheelCount id : Nat) : Keeps m (m.advanceWheel i wheelCount) id := by
  unfold advanceWheel
  split <;> exact .of_eq

theorem schedule_keeps (timeout interval : UInt32) (task needFree : Bool)
    (period : Int32) (hid : id < m.nextId) :
    Keeps m (m.schedule timeout interval task needFree period) id := by
  have hne : id ≠ m.nextId := Nat.ne_of_lt hid
  refine .trans ?_ (placeTimer_keeps _ m.nextId id)
  constructor
  · exact Nat.le_succ _
  · exact update_of_ne hne _ _
  · exact update_of_ne hne _ _
  · simp [hne]
  · simp [hne]
  · simp [hne]

theorem triggerBegin_keeps (i wheelCount x id : Nat) :
    Keeps m (m.triggerBegin i wheelCount x) id := by
  unfold triggerBegin
  split_ifs with hs
  · exact .update rfl fun _ => ⟨by simp [hs], rfl⟩
  · exact .of_eq

theorem drainNext_keeps (i wheelCount : Nat) (w : Wheel) (id : Nat) :
    Keeps m (m.drainNext i wheelCount w) id := by
  unfold drainNext
  split
  · rename_i x rest _
    have hset : Keeps m { m with
        helperItem := rest
        timer := Function.update m.timer x
          ((m.timer x).setRemain ((m.timer x).remain % w.timeUnit)) } id :=
      .update rfl fun h => ⟨h, rfl⟩
    dsimp only
    split
    · exact hset.trans (triggerBegin_keeps _ i wheelCount x id)
    · exact hset.trans (placeTimer_keeps _ x id)
  · split
    · exact .of_eq
    · split
      · exact advanceWheel_keeps m (i + 1) wheelCount id
      · exact .of_eq

end

theorem callbackReturn_keeps (m : WheelTimerManager) (i wheelCount x id : Nat) :
    Keeps m (m.callbackReturn i wheelCount x) id := by
  obtain ⟨hint, hper, htask⟩ := triggerEnd_settings (m.timer x)
  have hset : Keeps m { m with
      timer := Function.update m.timer x (m.timer x).triggerEnd
      control := .draining i wheelCount } id :=
    .update rfl htask hint hper
  unfold callbackReturn
  dsimp only
  split
  · exact hset.trans (placeTimer_keeps _ x id)
  · exact hset

theorem step_keeps (m : WheelTimerManager) (l : Label) (hid : id < m.nextId) :
    Keeps m (m.step l) id := by
  have hstep := stepped_step m l
  generalize m.step l = m' at hstep
  cases hstep with
  | schedule => exact schedule_keeps m _ _ _ _ _ hid
  | cancel =>
    unfold cancel
    split
    · exact .update rfl fun h => absurd rfl h
    · exact .of_eq
  | tick =>
    unfold tickBegin
    have hticks : Keeps m { m with ticks := m.ticks + 1 } id :=
      .of_eq
    dsimp only
    split
    · exact hticks.trans (advanceWheel_keeps _ _ _ id)
    · exact hticks
  | next => exact drainNext_keeps m _ _ _ id
  | ret => exact callbackReturn_keeps m _ _ _ id
  | cleanup => exact .of_eq
  | refused => exact .of_eq

variable (ls : List Label)

theorem run_keeps (hid : id < m.nextId) : Keeps m (Lib.run step m ls) id := by
  induction ls generalizing m with
  | nil => exact .of_eq
  | cons l ls ih =>
    have hl := step_keeps m l hid
    exact hl.trans (ih (Nat.lt_of_lt_of_le hid hl.nextId))

theorem length_le_placeInWheels (count id : Nat) (ws : List Wheel) (timeUnit remain : Nat) :
    ws.length ≤ (placeInWheels count id ws timeUnit remain).1.length := by
  fun_induction placeInWheels count id ws timeUnit remain with
  | case1 => exact Nat.zero_le _
  | case2 => exact le_rfl
  | case3 _ _ _ _ _ _ ih => exact Nat.succ_le_succ ih

/-- `ls` only lets `tick` and its callbacks go on. -/
def Continues : Prop := ∀ l ∈ ls, l = .next ∨ l = .ret

/-- `tick` is at wheel `i`, which exists. -/
structure Drains (m : WheelTimerManager) (i wheelCount : Nat) : Prop where
  control : m.control = .draining i wheelCount
  lt_length : i < m.wheels.length

theorem Drains.step_next (h : m.Drains i wheelCount) :
    ∃ w, m.step .next = m.drainNext i wheelCount w :=
  ⟨_, WheelTimerManager.step_next h.control (List.getElem?_eq_getElem h.lt_length)⟩

theorem Drains.placeTimer (h : m.Drains i wheelCount) (id : Nat) :
    (m.placeTimer id).Drains i wheelCount :=
  ⟨h.control, Nat.lt_of_lt_of_le h.lt_length (length_le_placeInWheels _ _ _ _ _)⟩

theorem callbackReturn_drains (m : WheelTimerManager) (hi : i < m.wheels.length)
    (wheelCount id : Nat) :
    (m.callbackReturn i wheelCount id).Drains i wheelCount ∧
      (m.callbackReturn i wheelCount id).helperItem = m.helperItem ∧
      (m.callbackReturn i wheelCount id).ticks = m.ticks := by
  have hret : Drains { m with
      timer := Function.update m.timer id (m.timer id).triggerEnd
      control := .draining i wheelCount } i wheelCount := ⟨rfl, hi⟩
  rw [callbackReturn]
  split
  · exact ⟨hret.placeTimer id, rfl, rfl⟩
  · exact ⟨hret, rfl, rfl⟩

theorem drainTimer_continues {rest : List Nat} (h : m.Drains i wheelCount)
    (hhelper : m.helperItem = id :: rest) :
    ∃ ls, Continues ls ∧ (Lib.run step m ls).Drains i wheelCount ∧
      (Lib.run step m ls).helperItem = rest ∧ (Lib.run step m ls).ticks = m.ticks := by
  obtain ⟨w, hnext⟩ := h.step_next
  set m' : WheelTimerManager := { m with
    helperItem := rest
    timer := Function.update m.timer id
      ((m.timer id).setRemain ((m.timer id).remain % w.timeUnit)) } with hm'
  have h' : m'.Drains i wheelCount := ⟨h.control, h.lt_length⟩
  have hdrain : m.drainNext i wheelCount w =
      if (m.timer id).remain % w.timeUnit < m.timeUnit then m'.triggerBegin i wheelCount id
      else m'.placeTimer id := by
    rw [drainNext, hhelper]
    rfl
  rw [hdrain] at hnext
  split at hnext
  · unfold triggerBegin at hnext
    split at hnext
    · refine ⟨[.next, .ret], by simp [Continues], ?_⟩
      simp only [Lib.run_cons, Lib.run_nil, hnext]
      rw [step_ret rfl]
      refine callbackReturn_drains _ ?_ wheelCount id
      exact h.lt_length
    · refine ⟨[.next], by simp [Continues], ?_⟩
      simp only [Lib.run_cons, Lib.run_nil, hnext]
      exact ⟨h', rfl, rfl⟩
  · refine ⟨[.next], by simp [Continues], ?_⟩
    simp only [Lib.run_cons, Lib.run_nil, hnext]
    exact ⟨h'.placeTimer id, rfl, rfl⟩

theorem Continues.append {ls ls' : List Label} (h : Continues ls) (h' : Continues ls') :
    Continues (ls ++ ls') := fun l hl =>
  (List.mem_append.mp hl).elim (h l) (h' l)

theorem Continues.cons {ls : List Label} (h : l = .next ∨ l = .ret) (h' : Continues ls) :
    Continues (l :: ls) := List.forall_mem_cons.mpr ⟨h, h'⟩

theorem drain_continues (timers : List Nat) (h : m.Drains i wheelCount)
    (hhelper : m.helperItem = timers) :
    ∃ ls, Continues ls ∧ (Lib.run step m ls).Drains i wheelCount ∧
      (Lib.run step m ls).helperItem = [] ∧ (Lib.run step m ls).ticks = m.ticks := by
  induction timers generalizing m with
  | nil => exact ⟨[], fun l hl => absurd hl List.not_mem_nil, h, hhelper, rfl⟩
  | cons id rest ih =>
    obtain ⟨ls, hls, h', hh', ht'⟩ := drainTimer_continues h hhelper
    obtain ⟨ls', hls', h'', hh'', ht''⟩ := ih h' hh'
    refine ⟨ls ++ ls', hls.append hls', ?_⟩
    rw [Lib.run_append]
    exact ⟨h'', hh'', ht''.trans ht'⟩

theorem drainEnd_step (h : m.Drains i wheelCount) (hhelper : m.helperItem = []) :
    (m.step .next).ticks = m.ticks ∧ ((m.step .next).control = .idle ∨
      i + 1 < wheelCount ∧ (m.step .next).Drains (i + 1) wheelCount) := by
  obtain ⟨w, hnext⟩ := h.step_next
  rw [hnext, drainNext, hhelper]
  dsimp only
  split
  · exact ⟨rfl, .inl rfl⟩
  split_ifs with hlt
  · unfold advanceWheel
    split
    · rename_i hw
      have hlength := (List.getElem?_eq_some_iff.mp hw).1
      exact ⟨rfl, .inr ⟨hlt, rfl, by simpa using hlength⟩⟩
    · exact ⟨rfl, .inl rfl⟩
  · exact ⟨rfl, .inl rfl⟩

theorem wheel_continues (h : m.Drains i wheelCount) :
    ∃ ls, Continues ls ∧ (Lib.run step m ls).ticks = m.ticks ∧
      ((Lib.run step m ls).control = .idle ∨
        i + 1 < wheelCount ∧ (Lib.run step m ls).Drains (i + 1) wheelCount) := by
  obtain ⟨ls, hls, h', hh', ht'⟩ := drain_continues _ h rfl
  obtain ⟨ht, hnext⟩ := drainEnd_step h' hh'
  refine ⟨ls ++ [.next], hls.append (by simp [Continues]), ?_⟩
  rw [Lib.run_append]
  exact ⟨ht.trans ht', hnext⟩

theorem loop_continues (left : Nat) (hleft : wheelCount ≤ i + left) (h : m.Drains i wheelCount) :
    ∃ ls, Continues ls ∧ (Lib.run step m ls).control = .idle ∧
      (Lib.run step m ls).ticks = m.ticks := by
  induction left generalizing m i with
  | zero =>
    obtain ⟨ls, hls, ht, hidle | ⟨hlt, -⟩⟩ := wheel_continues h
    · exact ⟨ls, hls, hidle, ht⟩
    · omega
  | succ left ih =>
    obtain ⟨ls, hls, ht, hidle | ⟨-, hup⟩⟩ := wheel_continues h
    · exact ⟨ls, hls, hidle, ht⟩
    · obtain ⟨ls', hls', hc', ht'⟩ := ih (by omega) hup
      refine ⟨ls ++ ls', hls.append hls', ?_⟩
      rw [Lib.run_append]
      exact ⟨hc', ht'.trans ht⟩

theorem tick_completes (h : m.Inv none) :
    ∃ ls, Continues ls ∧ (Lib.run step m ls).control = .idle ∧
      (Lib.run step m ls).ticks = m.ticks := by
  have hi : ∀ i wheelCount, m.loop = some (i, wheelCount) → i < m.wheels.length := by
    intro i wheelCount hloop
    obtain ⟨hi, hwc, -⟩ := h.loopShape i wheelCount hloop
    omega
  cases hc : m.control with
  | idle => exact ⟨[], fun l hl => absurd hl List.not_mem_nil, hc, rfl⟩
  | draining i wheelCount =>
    exact loop_continues wheelCount (Nat.le_add_left _ _) ⟨hc, hi i wheelCount (loop_draining hc)⟩
  | callback i wheelCount id =>
    obtain ⟨hret, -, ht⟩ :=
      callbackReturn_drains m (hi i wheelCount (loop_callback hc)) wheelCount id
    rw [← step_ret hc] at hret ht
    obtain ⟨ls, hls, hc', ht'⟩ := loop_continues wheelCount (Nat.le_add_left _ _) hret
    exact ⟨.ret :: ls, hls.cons (.inr rfl), hc', ht'.trans ht⟩

theorem Inv.ticks_lt_due (h : m.Inv none) (hidle : m.control = .idle)
    (hstate : (m.timer id).state = .init) : m.ticks < m.due id := by
  have hpend : m.pending = none := by simp [pending, loop, hidle]
  have htimed := h.timed
  rw [hpend] at htimed
  obtain ⟨_ | ⟨k, j⟩, hs⟩ := (htimed.waits id (by simp)).mp hstate
  · simp [lists, h.idleHelper hidle] at hs
  · obtain ⟨hj, hdue⟩ := htimed.slot k j id hs
    have hturns := one_le_turns (n := 1000) (c := cursors 0 m.wheels k) (j := j)
    have hpassed := passed_lt (n := 1000) (k := k) htimed.cursors_lt
    rw [low_none] at hdue
    have hmul := Nat.mul_le_mul_right (1000 ^ k) hturns
    omega

theorem expected_mono (m : WheelTimerManager) (id : Nat) (h : k ≤ k') :
    m.expected id k ≤ m.expected id k' :=
  Nat.add_le_add_left (Nat.mul_le_mul_right _ h) _

theorem Counted.getElem? (h : m.Counted id) (hstate : (m.timer id).state ≠ .cancal)
    (hk : (m.fired id)[k]? = some tick) : tick = m.expected id k ∧ (m.timer id).Allows k := by
  obtain ⟨hlt, -⟩ := List.getElem?_eq_some_iff.mp hk
  constructor
  · rw [h.1] at hk
    simpa [hlt, eq_comm] using hk
  · have hcount := h.2
    split at hcount
    · exact hcount.1.of_le (Nat.le_of_lt hlt)
    · obtain ⟨n, hn, hallows, -⟩ := hcount
      exact hallows.of_le (by omega)
    · obtain ⟨n, hn, hallows, -⟩ := hcount
      exact hallows.of_le (by omega)
    · contradiction

theorem Inv.lt_length_fired (h : m.Inv none) (hidle : m.control = .idle) (hid : id < m.nextId)
    (hstate : (m.timer id).state ≠ .cancal) (hallows : (m.timer id).Allows k)
    (hk : m.expected id k ≤ m.ticks) : k < (m.fired id).length := by
  by_contra hle
  have hle := Nat.not_lt.mp hle
  have hcount := (h.timed.counted id hid).2
  split at hcount
  · rename_i hinit
    have hdue := h.ticks_lt_due hidle hinit
    have := expected_mono m id hle
    rw [due] at hdue
    omega
  · rename_i hproc
    obtain ⟨i, wheelCount, hc⟩ := h.processing id hproc
    simp [hidle] at hc
  · obtain ⟨n, hn, -, hnot⟩ := hcount
    exact hnot (hallows.of_le (by omega))
  · contradiction

theorem schedule_made (m : WheelTimerManager) (timeout interval : UInt32) (task needFree : Bool)
    (period : Int32) :
    let m' := m.schedule timeout interval task needFree period
    m.nextId < m'.nextId ∧ m'.scheduledAt m.nextId = m.ticks ∧
    m'.timeout m.nextId = timeout.toNat ∧ (m'.timer m.nextId).interval = interval.toNat ∧
    (m'.timer m.nextId).period = period.toInt ∧ (m'.timer m.nextId).task = task := by
  simp [schedule, placeTimer, setRemain, new]

theorem step_schedule (h : m.callable = true) (timeout interval : UInt32) (task needFree : Bool)
    (period : Int32) : m.step (.schedule timeout interval task needFree period) =
      m.schedule timeout interval task needFree period := by
  cases hc : m.control with
  | idle => exact step_schedule_of (.inl hc) timeout interval task needFree period
  | draining i wheelCount => simp [callable, hc] at h
  | callback i wheelCount id =>
    exact step_schedule_of (.inr ⟨i, wheelCount, id, hc⟩) timeout interval task needFree period

/-- In a run in which no timer is placed past a carry, a timer that is not cancelled is triggered
exactly when it is due, and a tick that has begun comes to its end. -/
theorem triggered_on_time (before later : List Label) (timeout interval : UInt32)
    (task needFree : Bool) (period : Int32) (hcall : (after before).callable = true)
    (hpunctual : Lib.Along step Punctual init
      (before ++ .schedule timeout interval task needFree period :: later))
    (hcancal : ((after (before ++ .schedule timeout interval task needFree period :: later)).timer
      (after before).nextId).state ≠ .cancal) :
    OnTime (after (before ++ .schedule timeout interval task needFree period :: later))
      (after before).nextId (after before).ticks timeout.toNat
      (new timeout.toNat interval.toNat task needFree period.toInt) ∧
    ∃ rest, Continues rest ∧
      (after (before ++ .schedule timeout interval task needFree period :: later ++ rest)).control =
        .idle ∧
      (after (before ++ .schedule timeout interval task needFree period :: later ++ rest)).ticks =
        (after (before ++ .schedule timeout interval task needFree period :: later)).ticks := by
  set run := before ++ .schedule timeout interval task needFree period :: later with hrun
  have hinv : (after run).Inv none := Lib.run_invariant step_inv init_inv hpunctual
  have hmade := schedule_made (after before) timeout interval task needFree period
  have hkeeps : Keeps ((after before).schedule timeout interval task needFree period) (after run)
      (after before).nextId := by
    have h := run_keeps later hmade.1
    rw [← step_schedule hcall] at h ⊢
    simpa [after, hrun, Lib.run_append] using h
  obtain ⟨hnext, hsched, htimeout, hinterval, hperiod, htask⟩ := hmade
  have hid := Nat.lt_of_lt_of_le hnext hkeeps.nextId
  have hexpected : ∀ k, (after run).expected (after before).nextId k =
      (after before).ticks + max timeout.toNat 1 + k * max interval.toNat 1 := by
    intro k
    rw [expected, hkeeps.scheduledAt, hkeeps.timeout, hkeeps.interval, hsched, htimeout, hinterval]
  have hallows : ∀ k, ((after run).timer (after before).nextId).Allows k ↔
      (new timeout.toNat interval.toNat task needFree period.toInt).Allows k := by
    intro k
    simp only [WheelTimer.Allows, new, hkeeps.interval, hkeeps.period,
      (hkeeps.task hcancal).2, hinterval, hperiod, htask]
  refine ⟨⟨fun k tick hk => ?_, fun hidle k hk hle => ?_⟩, ?_⟩
  · rw [← hallows]
    exact hexpected k ▸ (hinv.timed.counted _ hid).getElem? hcancal hk
  · exact hinv.lt_length_fired hidle hid hcancal ((hallows k).mpr hk) (hexpected k ▸ hle)
  · obtain ⟨rest, hrest, hidle, hticks⟩ := tick_completes hinv
    refine ⟨rest, hrest, ?_⟩
    rw [after, Lib.run_append]
    exact ⟨hidle, hticks⟩

/-- A timer with the period 2 that is triggered twice. -/
theorem triggered_on_time_twice :
    OnTime (after [.schedule 1 3 true true 2, .tick, .next, .ret, .next, .tick, .next, .tick, .next,
        .tick, .next, .ret, .next]) 0 0 1 (new 1 3 true true 2) ∧
      (after [.schedule 1 3 true true 2, .tick, .next, .ret, .next, .tick, .next, .tick, .next,
        .tick, .next, .ret, .next]).fired 0 = [1, 4] :=
  ⟨(triggered_on_time [] [.tick, .next, .ret, .next, .tick, .next, .tick, .next,
    .tick, .next, .ret, .next] 1 3 true true 2 (by decide) (by decide) (by decide)).1, by decide⟩

/-- `n` ticks, each with the turn that finds the list of the slot empty. -/
def quietTicks : Nat → List Label
  | 0 => []
  | n + 1 => .tick :: .next :: quietTicks n

theorem run_quietTicks (n : Nat) (hidle : m.control = .idle) (hhelper : m.helperItem = [])
    (hwheels : m.wheels = w :: ws) (hunit : w.timeUnit = 1) (hn : w.cursor + n < w.size)
    (hempty : ∀ j, w.cursor < j → w.items j = []) :
    Lib.run step m (quietTicks n) =
      { m with ticks := m.ticks + n, wheels := { w with cursor := w.cursor + n } :: ws } := by
  induction n generalizing m w with
  | zero =>
    rw [quietTicks, Lib.run_nil, Nat.add_zero, Nat.add_zero, ← hwheels]
  | succ n ih =>
    have hmod : (w.cursor + 1) % w.size = w.cursor + 1 := Nat.mod_eq_of_lt (by omega)
    have hitem : w.items (w.cursor + 1) = [] := hempty _ (Nat.lt_succ_self _)
    have hstep : (m.step .tick).step .next =
        { m with ticks := m.ticks + 1, wheels := { w with cursor := w.cursor + 1 } :: ws } := by
      have hitems : update w.items (w.cursor + 1) [] = w.items := hitem ▸ update_eq_self _ _
      have htick : m.step .tick =
          { m with
            ticks := m.ticks + 1
            wheels := { w with cursor := w.cursor + 1 } :: ws
            control := .draining 0 (ws.length + 1) } := by
        rw [step_tick hidle]
        simp [tickBegin, hwheels, advanceWheel, Wheel.tick, hhelper, hmod, hitem, hitems]
      rw [htick, step_next rfl rfl]
      simp [drainNext, Wheel.getPassedTime, hunit, hidle, hhelper]
    have hrest := ih (w := { w with cursor := w.cursor + 1 })
      (m := { m with ticks := m.ticks + 1, wheels := { w with cursor := w.cursor + 1 } :: ws })
      hidle hhelper rfl hunit (by dsimp only; omega) fun j hj => hempty j (Nat.lt_of_succ_lt hj)
    rw [quietTicks, Lib.run_cons, Lib.run_cons, hstep, hrest]
    simp only [Nat.add_assoc, Nat.add_comm 1 n]

/-- A run up to a callback of tick 1000, in which wheel 0 has come round and wheel 1 is about to
advance. -/
def beforeCarry : List Label :=
  [.schedule 1500 0 true true 0, .tick, .next, .schedule 999 0 true true 0] ++
    (quietTicks 998 ++ [.tick, .next])

theorem after_beforeCarry : after beforeCarry = Lib.run step
    { after [.schedule 1500 0 true true 0, .tick, .next, .schedule 999 0 true true 0] with
      ticks := 999
      wheels := [⟨999, 1, 1000, update (update (fun _ => []) 1 []) 0 [1]⟩,
        ⟨0, 1000, 1000, update (fun _ => []) 1 [0]⟩] } [.tick, .next] := by
  rw [after, beforeCarry, Lib.run_append, Lib.run_append, ← after]
  rw [run_quietTicks 998 (w := ⟨1, 1, 1000, update (update (fun _ => []) 1 []) 0 [1]⟩)
    rfl rfl rfl rfl (by decide)]
  · rfl
  · intro j hj
    simp [show j ≠ 0 by rintro rfl; simp at hj]

/-- A timer that a callback schedules for 1000 ticks ahead, at tick 1000, while wheel 1 is about
to advance, is triggered at tick 1000 and not at tick 2000. -/
theorem overtaking_timer_early :
    (after beforeCarry).callable = true ∧ (after beforeCarry).ticks = 1000 ∧
    (after beforeCarry).nextId = 2 ∧
    ((after (beforeCarry ++ [.schedule 1000 0 true true 0, .ret, .next, .next])).timer 2).state ≠
      .cancal ∧
    (after (beforeCarry ++ [.schedule 1000 0 true true 0, .ret, .next, .next])).fired 2 = [1000] ∧
    ¬OnTime (after (beforeCarry ++ [.schedule 1000 0 true true 0, .ret, .next, .next])) 2 1000 1000
      (new 1000 0 true true 0) := by
  have hrun : after (beforeCarry ++ [.schedule 1000 0 true true 0, .ret, .next, .next]) =
      Lib.run step (after beforeCarry) [.schedule 1000 0 true true 0, .ret, .next, .next] :=
    Lib.run_append _ _ _ _
  rw [hrun, after_beforeCarry]
  refine ⟨by decide, by decide, by decide, by decide, by decide, fun h => ?_⟩
  have hexact := (h.exact 0 1000 (by decide)).1
  omega

end WheelTimerManager

end ServerLib.Timer

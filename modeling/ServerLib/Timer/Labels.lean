import ServerLib.Timer.Steps

/-! Every label keeps the manager's invariant, as long as no timer is placed past a carry:
`place_timer` reads the cursors of all wheels, and a callback that runs after a wheel has come round
and before the next one has advanced sees the higher cursors one step behind. -/

namespace ServerLib.Timer

open Lib.TimingWheel Function WheelTimer List

namespace WheelTimer

theorem Allows.of_le {t : WheelTimer} (h : t.Allows k) (hk : k' ≤ k) : t.Allows k' := by
  rcases h with rfl | ⟨h1, h2, h3, h4⟩
  · exact .inl (by omega)
  · exact .inr ⟨h1, h2, h3, fun hp => by have := h4 hp; omega⟩

theorem triggerEnd_settings (t : WheelTimer) :
    t.triggerEnd.interval = t.interval ∧ t.triggerEnd.period = t.period ∧
    (t.triggerEnd.state ≠ .cancal → t.state ≠ .cancal ∧ t.triggerEnd.task = t.task) := by
  unfold triggerEnd
  split
  · exact ⟨rfl, rfl, fun h => ⟨h, rfl⟩⟩
  rename_i hs
  split
  · split
    · dsimp only
      split <;> exact ⟨rfl, rfl, fun _ => ⟨hs, rfl⟩⟩
    · exact ⟨rfl, rfl, fun _ => ⟨hs, rfl⟩⟩
  · exact ⟨rfl, rfl, fun _ => ⟨hs, rfl⟩⟩

theorem triggerEnd_of_processing {t : WheelTimer} (hstate : t.state = .processing)
    (hperiod : t.period < 2 ^ 31) (hk : t.Allows k) (hcount : 0 < t.period → t.periodCounter = k) :
    t.triggerEnd.state = .init ∧ t.triggerEnd.remain = t.interval ∧ t.Allows (k + 1) ∧
        (0 < t.period → t.triggerEnd.periodCounter = k + 1) ∨
      t.triggerEnd.state = .done ∧ ¬t.Allows (k + 1) := by
  rw [triggerEnd, if_neg (by simp [hstate])]
  split
  · rename_i hre
    obtain ⟨hp0, hi0, htask⟩ := hre
    split
    · rename_i hpos
      have hlt : (k : Int) < t.period := by
        rcases hk with rfl | ⟨-, -, -, hlt⟩
        · exact_mod_cast hpos
        · exact hlt hpos
      have hmod : (t.periodCounter + 1) % 2 ^ 32 = k + 1 := by
        rw [hcount hpos, Nat.mod_eq_of_lt (by omega)]
      simp only [hmod]
      split_ifs with hend
      · refine .inr ⟨rfl, ?_⟩
        rintro (h | ⟨-, -, -, h⟩)
        · omega
        · have := h hpos
          omega
      · exact .inl ⟨rfl, rfl, .inr ⟨hp0, hi0, htask, fun _ => by omega⟩, fun _ => rfl⟩
    · rename_i hneg
      exact .inl ⟨rfl, rfl, .inr ⟨hp0, hi0, htask, fun hpos => absurd hpos hneg⟩,
        fun hpos => absurd hpos hneg⟩
  · rename_i hre
    refine .inr ⟨rfl, ?_⟩
    rintro (h | ⟨h1, h2, h3, -⟩)
    · omega
    · exact hre ⟨h1, h2, h3⟩

end WheelTimer

namespace WheelTimerManager

/-- A timer with `remain` left would be placed past a carry: wheel `i`, which `tick` is at, has
come round to 0, the wheel after it is still to advance, and `remain` reaches past wheel `i`. -/
def overtakesCarry (m : WheelTimerManager) (i wheelCount remain : Nat) : Bool :=
  match m.wheels[i]? with
  | some w => w.getPassedTime == 0 && decide (i + 1 < wheelCount) && decide (w.unitMaxTime ≤ remain)
  | none => false

/-- The step places no timer past a carry: neither a timer that a callback schedules, nor the
periodic timer whose callback returns. -/
def Punctual (m : WheelTimerManager) (l : Label) : Prop :=
  match l, m.control with
  | .schedule timeout _ _ _ _, .callback i wheelCount _ =>
    m.overtakesCarry i wheelCount timeout.toNat = false
  | .ret, .callback i wheelCount id =>
    (m.timer id).triggerEnd.ready = true →
      m.overtakesCarry i wheelCount (m.timer id).interval = false
  | _, _ => True

instance (m : WheelTimerManager) (l : Label) : Decidable (m.Punctual l) := by
  unfold Punctual
  split <;> infer_instance

variable {m m' : WheelTimerManager} {id : Nat}

theorem loop_callback (h : m.control = .callback i wheelCount id) :
    m.loop = some (i, wheelCount) := by
  rw [loop, h]

theorem loop_draining (h : m.control = .draining i wheelCount) : m.loop = some (i, wheelCount) := by
  rw [loop, h]

theorem loop_eq_none : m.loop = none ↔ m.control = .idle := by
  rw [loop]
  cases m.control <;> simp

/-- A carry that waits is one level above the wheel that `tick` is at, and all cursors below it
are 0. -/
theorem Inv.below (h : m.Inv hand) {remain : Nat} (hloop : m.loop = some (i, wheelCount))
    (hrem : m.pending ≠ none → remain < 1000 ^ (i + 1)) : m.Below m.pending remain := by
  intro q hq
  have hshape := h.loopShape i wheelCount hloop
  have hrem := hrem (by rw [hq]; simp)
  simp only [pending, hloop] at hq
  split at hq
  · rename_i hc
    cases hq
    refine ⟨by omega, hrem, fun k hk => ?_⟩
    rcases Nat.lt_or_eq_of_le (Nat.le_of_lt_succ hk) with hk | rfl
    · exact hshape.2.2.1 k hk
    · exact hc.1
  · simp at hq

theorem Inv.lt_of_not_overtakesCarry (h : m.Inv hand) {remain : Nat}
    (hloop : m.loop = some (i, wheelCount)) (hno : m.overtakesCarry i wheelCount remain = false)
    (hp : m.pending ≠ none) : remain < 1000 ^ (i + 1) := by
  obtain ⟨hi, hlen, -, -⟩ := h.loopShape i wheelCount hloop
  have hlevel := h.timed.level i (by have := h.timed.length; omega)
  have hget : m.wheels[i]? = some (wheelAt 0 m.wheels i) := by
    simp [wheelAt, show i < m.wheels.length by omega]
  simp only [pending, hloop] at hp
  split_ifs at hp with hc
  · have hzero : (wheelAt 0 m.wheels i).getPassedTime = 0 := by
      rw [hlevel.getPassedTime, show (wheelAt 0 m.wheels i).cursor = 0 from hc.1, Nat.zero_mul]
    simpa [overtakesCarry, hget, hzero, hc.2, hlevel.unitMaxTime] using hno
  · simp at hp

theorem Timed.inHand (h : m.Timed none p) (hstate : (m.timer id).state ≠ .init) :
    m.Timed (some id) p :=
  { h with
    handOff x hx l hl := by
      cases hx
      exact hstate (h.state_of_mem hl)
    waits x _ := h.waits x (by simp) }

theorem Inv.pending_lt (h : m.Inv hand) (hq : m.pending = some q) : q < m.wheels.length := by
  rw [pending] at hq
  split at hq
  · rename_i i wheelCount hloop
    have hlen := (h.loopShape i wheelCount hloop).2.1
    split at hq
    · cases hq
      omega
    · simp at hq
  · simp at hq

/-- Where `tick` stays in its loop and only timer `id` changes, there is little to see to. -/
theorem Inv.frame (h : m.Inv hand) (hs : Spares m m' id) (hloop : m'.loop = m.loop)
    (hhelper : ∀ x ∈ m'.helperItem, x ∈ m.helperItem ∧ x ≠ id) (htimed : m'.Timed hand' m.pending)
    (hprocessing : ∀ x, (m'.timer x).state = .processing →
      ∃ i wheelCount, m'.control = .callback i wheelCount x)
    (hcallback : ∀ i wheelCount x, m'.control = .callback i wheelCount x →
      x < m'.nextId ∧ m'.due x = m'.ticks + max (m'.timer x).interval 1 ∧
      ((m'.timer x).state = .processing ∨ (m'.timer x).state = .cancal))
    (hcur : cursors 0 m'.wheels = cursors 0 m.wheels := by rfl)
    (hlen : m.wheels.length ≤ m'.wheels.length ∧
      (m.pending ≠ none → m'.wheels.length = m.wheels.length) := by
        exact ⟨le_rfl, fun _ => rfl⟩) : m'.Inv hand' := by
  have hpend : m'.pending = m.pending := by simp only [pending, hcur, hloop]
  refine ⟨hpend ▸ htimed, fun hidle => ?_, fun i wheelCount hl x hx => ?_,
    fun i wheelCount hl => ?_, hprocessing, hcallback⟩
  · have hnil := h.idleHelper (loop_eq_none.mp (hloop ▸ loop_eq_none.mpr hidle))
    refine eq_nil_iff_forall_not_mem.mpr fun x hx => ?_
    simpa [hnil] using (hhelper x hx).1
  · obtain ⟨hx, hxid⟩ := hhelper x hx
    rw [hs.due hxid, hs.timer x hxid, hs.ticks]
    exact h.helperDue i wheelCount (hloop ▸ hl) x hx
  · obtain ⟨hi, hwc, hzero, hpending⟩ := h.loopShape i wheelCount (hloop ▸ hl)
    refine ⟨hi, Nat.le_trans hwc hlen.1, hcur ▸ hzero, fun hp => ?_⟩
    rw [hpend] at hp
    rw [hlen.2 hp, hpending hp]

theorem Inv.frame_control (h : m.Inv hand) (hs : Spares m m' id)
    (hhelper : ∀ x ∈ m'.helperItem, x ∈ m.helperItem ∧ x ≠ id) (htimed : m'.Timed hand' m.pending)
    (hstate : (m'.timer id).state ≠ .processing)
    (hself : ∀ i wheelCount, m.control = .callback i wheelCount id →
      m'.due id = m.ticks + max (m'.timer id).interval 1 ∧ (m'.timer id).state = .cancal)
    (hcontrol : m'.control = m.control := by rfl)
    (hcur : cursors 0 m'.wheels = cursors 0 m.wheels := by rfl)
    (hlen : m.wheels.length ≤ m'.wheels.length ∧
      (m.pending ≠ none → m'.wheels.length = m.wheels.length) := by
        exact ⟨le_rfl, fun _ => rfl⟩) : m'.Inv hand' := by
  refine h.frame hs (by rw [loop, loop, hcontrol]) hhelper htimed (fun x hx => ?_)
    (fun i wheelCount x hx => ?_) hcur hlen
  · have hxid : x ≠ id := by
      rintro rfl
      exact hstate hx
    rw [hs.timer x hxid] at hx
    rw [hcontrol]
    exact h.processing x hx
  · rw [hcontrol] at hx
    obtain ⟨hlt, hdue, hx'⟩ := h.callback i wheelCount x hx
    refine ⟨Nat.lt_of_lt_of_le hlt hs.nextId.1, ?_⟩
    rw [hs.ticks]
    by_cases hxid : x = id
    · subst hxid
      exact ⟨(hself i wheelCount hx).1, .inr (hself i wheelCount hx).2⟩
    · rw [hs.due hxid, hs.timer x hxid]
      exact ⟨hdue, hx'⟩

theorem Inv.place (h : m.Inv (some id)) (hstate : (m.timer id).state = .init)
    (hrem : (m.timer id).remain < 2 ^ 32) (hid : id < m.nextId)
    (hdue : m.due id = m.ticks + max (m.timer id).remain 1)
    (hbelow : m.Below m.pending (m.timer id).remain) : (m.placeTimer id).Inv none := by
  obtain ⟨htimed, hcur, hle, hlen⟩ := h.timed.place hstate hrem hid hdue hbelow
  have hself : ((m.placeTimer id).timer id).state = .init := by
    simp [placeTimer, setRemain, hstate]
  have hoff := h.timed.handOff id rfl
  have hs : Spares m (m.placeTimer id) id := .of_eq
  refine h.frame_control hs (fun x hx => ⟨hx, fun he => hoff none (he ▸ hx)⟩) htimed
    (by simp [hself]) (fun i wheelCount hx => ?_) rfl hcur ⟨hle, fun hp => ?_⟩
  · rcases (h.callback i wheelCount id hx).2.2 with hx | hx <;> simp [hstate] at hx
  · obtain ⟨q, hq⟩ := Option.ne_none_iff_exists'.mp hp
    exact hlen q hq (h.pending_lt hq)

theorem Inv.not_processing (h : m.Inv hand)
    (hcontrol : ∀ i wheelCount x, m.control ≠ .callback i wheelCount x) (x : Nat) :
    (m.timer x).state ≠ .processing := by
  intro hx
  obtain ⟨i, wheelCount, hc⟩ := h.processing x hx
  exact hcontrol i wheelCount x hc

/-- The trigger of a timer that is due is recorded. -/
theorem Inv.triggerBegin (h : m.Inv (some id)) (hcontrol : m.control = .draining i wheelCount)
    (hstate : (m.timer id).state = .init) (hid : id < m.nextId) (hnot : id ∉ m.helperItem)
    (hdue : m.due id = m.ticks) : (m.triggerBegin i wheelCount id).Inv none := by
  have hloop := loop_draining hcontrol
  rw [WheelTimerManager.triggerBegin, if_pos hstate]
  set m' : WheelTimerManager := { m with
    timer := update m.timer id { m.timer id with state := .processing }
    fired := update m.fired id (m.fired id ++ [m.ticks])
    control := .callback i wheelCount id } with hm'
  have hself : m'.timer id = { m.timer id with state := .processing } := update_self _ _ _
  have hfired : m'.fired id = m.fired id ++ [m.ticks] := update_self _ _ _
  have hs : Spares m m' id := .of_eq fun x hx => update_of_ne hx _ _
  have hexp : m'.expected id = m.expected id := expected_congr rfl rfl (by rw [hself])
  refine h.frame hs hloop.symm (fun x hx => ⟨hx, fun he => hnot (he ▸ hx)⟩) ?_ (fun x hx => ?_) ?_
  · refine h.timed.frame hs none hid (by simp [hself]) ?_ ?_
    · rw [hself]
      exact h.timed.bounds id
    · obtain ⟨hlist, hallow⟩ := h.timed.counted id hid
      rw [hstate] at hallow
      have hlen : (m'.fired id).length = (m.fired id).length + 1 := by simp [hfired]
      refine ⟨?_, ?_⟩
      · rw [hexp, hlen, range_succ, map_append, ← hlist, hfired, ← hdue]
        rfl
      · rw [hself, hlen]
        exact ⟨_, rfl, hallow.1, hallow.2⟩
  · by_cases hxid : x = id
    · exact ⟨i, wheelCount, by rw [hxid]⟩
    · rw [hs.timer x hxid] at hx
      exact absurd hx (h.not_processing (by simp [hcontrol]) x)
  · intro i' wheelCount' x hx
    obtain ⟨rfl, rfl, rfl⟩ : i = i' ∧ wheelCount = wheelCount' ∧ id = x := by simpa [hm'] using hx
    refine ⟨hid, ?_, .inl (by rw [hself])⟩
    rw [due, hexp, hfired]
    simp only [length_append, length_cons, length_nil]
    rw [hself, expected, Nat.zero_add, Nat.add_mul, Nat.one_mul, ← Nat.add_assoc]
    show m.due id + max (m.timer id).interval 1 = m.ticks + max (m.timer id).interval 1
    rw [hdue]

section

variable (h : m.Inv none)
include h

theorem cancel_inv (id : Nat) : (m.cancel id).Inv none := by
  rw [cancel]
  split
  swap
  · exact h
  rename_i hactive
  have hid : id < m.nextId := Nat.not_le.mp (mt (h.timed.fresh id) (by simp [hactive]))
  set m' : WheelTimerManager := { m with
    timer := update m.timer id (m.timer id).cancel
    helperItem := m.helperItem.filter (· ≠ id)
    wheels := m.wheels.map (·.onDelete id) } with hm'
  have hs : Spares m m' id := .of_eq
  have hself : m'.timer id = (m.timer id).cancel := update_self _ _ _
  have hexp : m'.expected id = m.expected id := expected_congr rfl rfl (by rw [hself]; rfl)
  refine h.frame_control hs (fun x hx => by simpa [hm'] using hx) ?_
    (by simp [hself, WheelTimer.cancel])
    (fun i wheelCount hx => ⟨?_, by simp [hself, WheelTimer.cancel]⟩) rfl
    (cursors_onDelete m.wheels id) (by simp [hm'])
  · refine (h.timed.takeOut id).frame ⟨hs.ticks, hs.nextId, hs.timer, hs.fired, hs.history⟩ none
      hid ?_ ?_ ⟨?_, by simp [hself, WheelTimer.cancel]⟩
    · simp [hself, WheelTimer.cancel]
    · simpa [hself, WheelTimer.cancel] using h.timed.bounds id
    · rw [hexp]
      exact (h.timed.counted id hid).1
  · rw [due, hexp, hself]
    exact (h.callback i wheelCount id hx).2.1

theorem schedule_inv (timeout interval : UInt32) (task needFree : Bool)
    (period : Int32) (hbelow : m.Below m.pending timeout.toNat) :
    (m.schedule timeout interval task needFree period).Inv none := by
  rw [schedule]
  set t := new timeout.toNat interval.toNat task needFree period.toInt with ht
  set m' : WheelTimerManager := { m with
    timer := update m.timer m.nextId t
    nextId := m.nextId + 1
    timers := m.timers ++ [m.nextId]
    scheduledAt := update m.scheduledAt m.nextId m.ticks
    timeout := update m.timeout m.nextId timeout.toNat
    fired := update m.fired m.nextId [] } with hm'
  have hfresh := (h.timed.fresh m.nextId le_rfl).1
  have hself : m'.timer m.nextId = t := update_self _ _ _
  have hs : Spares m m' m.nextId :=
    ⟨rfl, ⟨Nat.le_succ _, fun x (hx : x < m.nextId + 1) hne => by omega⟩,
      fun x hx => update_of_ne hx _ _, fun x hx => update_of_ne hx _ _,
      fun x hx => ⟨update_of_ne hx _ _, update_of_ne hx _ _⟩⟩
  have htimeout : timeout.toNat < 2 ^ 32 := timeout.toNat_lt
  have hbounds : t.interval < 2 ^ 32 ∧ t.period < 2 ^ 31 := ⟨interval.toNat_lt, period.toInt_lt⟩
  have hinv : m'.Inv (some m.nextId) := by
    refine h.frame_control hs (fun x hx => ⟨hx, ?_⟩) ?_ (by simp [hself, ht, new])
      fun i wheelCount hx => ?_
    · rintro rfl
      simpa [hfresh] using h.timed.state_of_mem (l := none) hx
    · refine (h.timed.inHand (by simp [hfresh])).frame hs (some m.nextId) (Nat.lt_succ_self _)
        (fun _ => rfl) (by rw [hself]; exact hbounds) ?_
      simp [Counted, hm', ht, new, WheelTimer.Allows]
    · exact absurd (h.callback i wheelCount _ hx).1 (Nat.lt_irrefl _)
  apply hinv.place
  · simp [hself, ht, new]
  · simpa [hself, ht, new] using htimeout
  · exact Nat.lt_succ_self _
  · simp [due, expected, hm', ht, new]
  · rw [hself]
    exact hbelow

theorem tickBegin_inv (hidle : m.control = .idle) : m.tickBegin.Inv none := by
  have hpend : m.pending = none := by simp [pending, loop, hidle]
  have hhelper := h.idleHelper hidle
  have hproc := h.not_processing (by simp [hidle])
  -- The new tick is a carry into level 0.
  have htimed : Timed { m with ticks := m.ticks + 1 } none (some 0) :=
    { h.timed with
      slot k j x hx := by
        obtain ⟨hj, heq⟩ := h.timed.slot k j x hx
        refine ⟨hj, ?_⟩
        rw [hpend, low_none] at heq
        show m.due x + _ = m.ticks + 1 + _ + _
        simp only [low, Nat.zero_le, if_true, pow_zero]
        omega }
  rw [tickBegin]
  split_ifs with hlen
  · exact htimed.advanceWheel hhelper hlen (fun k hk => absurd hk (Nat.not_lt_zero k)) hproc
  refine ⟨?_, fun _ => hhelper, ?_, ?_, fun x hx => absurd hx (hproc x), ?_⟩
  · refine { htimed with slot := fun k j x hx => ?_ }
    have := Timed.slot_lt_length hx
    exact absurd (Nat.lt_of_le_of_lt (Nat.zero_le k) this) hlen
  · intro i wheelCount hloop
    simp [loop, hidle] at hloop
  · intro i wheelCount hloop
    simp [loop, hidle] at hloop
  · intro i wheelCount x hx
    simp [hidle] at hx

/-- A turn of the inner loop of `tick` with a timer in `helper_item_`: what is left of its time
is below the unit of the wheel, and if nothing is left the timer is due now. -/
theorem drainTimer_inv (hcontrol : m.control = .draining i wheelCount)
    (hhelper : m.helperItem = id :: rest) :
    (m.drainNext i wheelCount (wheelAt 0 m.wheels i)).Inv none := by
  have hloop := loop_draining hcontrol
  obtain ⟨hi, hwc, hzero, hpending⟩ := h.loopShape i wheelCount hloop
  have hi3 : i ≤ 3 := by have := h.timed.length; omega
  have hmem : id ∈ m.helperItem := hhelper ▸ mem_cons_self
  have hstate := h.timed.state_of_mem (l := none) hmem
  have hdue := h.helperDue i wheelCount hloop id hmem
  have hid : id < m.nextId := Nat.not_le.mp (mt (h.timed.fresh id) (by simp [hstate]))
  have hnot : id ∉ rest := (nodup_cons.mp (hhelper ▸ h.timed.once.1 none)).1
  rw [drainNext, hhelper]
  simp only [(h.timed.level i hi3).timeUnit]
  set t := (m.timer id).setRemain ((m.timer id).remain % 1000 ^ i) with ht
  set m' : WheelTimerManager := { m with
    helperItem := rest
    timer := update m.timer id t } with hm'
  have hself : m'.timer id = t := update_self _ _ _
  have hdue' : m'.due id = m.due id :=
    congrFun (expected_setRemain { m with helperItem := rest } ..) _
  have hremlt : t.remain < 1000 ^ i := Nat.mod_lt _ (Nat.pow_pos (by decide))
  have hinv : m'.Inv (some id) := by
    have hs : Spares m m' id := .of_eq
    refine h.frame_control hs
      (fun x hx => ⟨hhelper ▸ mem_cons_of_mem id hx, fun he => hnot (he ▸ hx)⟩)
      ((h.timed.pop hhelper).setRemain hid hstate _) (by simp [hself, ht, setRemain, hstate])
      fun i wheelCount hx => ?_
    simp [hcontrol] at hx
  have hstate' : (m'.timer id).state = .init := by rw [hself]; exact hstate
  split_ifs with hnow
  · -- The timer is due in this tick, and its trigger is recorded.
    have hnow : t.remain = 0 := by
      have hunit : m.timeUnit = 1 := h.timed.timeUnit
      omega
    have hdue0 : m'.due id = m'.ticks := by
      rw [hdue', hdue]
      show m.ticks + t.remain = m.ticks
      omega
    exact hinv.triggerBegin hcontrol hstate' hid hnot hdue0
  · have hpos : 1 ≤ t.remain := by
      have hunit : m.timeUnit = 1 := h.timed.timeUnit
      omega
    apply hinv.place hstate' _ hid
    · rw [hdue', hdue, hself]
      show m.ticks + t.remain = m.ticks + max t.remain 1
      omega
    · apply hinv.below hloop
      intro _
      rw [hself]
      exact Nat.lt_of_lt_of_le hremlt (Nat.pow_le_pow_right (by decide) (Nat.le_succ i))
    · rw [hself]
      exact Nat.lt_trans hremlt (Nat.lt_of_le_of_lt (Nat.pow_le_pow_right (by decide) hi3)
        (by decide))

theorem drainEnd_inv (hcontrol : m.control = .draining i wheelCount)
    (hhelper : m.helperItem = []) : (m.drainNext i wheelCount (wheelAt 0 m.wheels i)).Inv none := by
  have hloop := loop_draining hcontrol
  obtain ⟨hi, hwc, hzero, hpending⟩ := h.loopShape i wheelCount hloop
  have hlevel := h.timed.level i (by have := h.timed.length; omega)
  have hproc := h.not_processing (by simp [hcontrol])
  have hidle : m.pending = none → Inv { m with control := .idle } none := by
    intro hp
    refine ⟨?_, fun _ => hhelper, fun _ _ hl => by simp [loop] at hl,
      fun _ _ hl => by simp [loop] at hl, fun x hx => absurd hx (hproc x),
      fun _ _ _ hc => by simp at hc⟩
    have htimed := h.timed
    rw [hp] at htimed
    exact { htimed with }
  have hpassed : (wheelAt 0 m.wheels i).getPassedTime = 0 ↔ cursors 0 m.wheels i = 0 := by
    rw [hlevel.getPassedTime, Nat.mul_eq_zero]
    exact or_iff_left (Nat.pow_pos (by decide)).ne'
  unfold drainNext
  split
  · rename_i hcons
    simp [hhelper] at hcons
  split
  · rename_i hne
    apply hidle
    simp [pending, hloop, mt hpassed.mpr hne]
  · rename_i heq
    have hcur := hpassed.mp (not_not.mp heq)
    split_ifs with hnext
    · have hp : m.pending = some (i + 1) := by simp [pending, hloop, hcur, hnext]
      have hlen := hpending (by rw [hp]; simp)
      have htimed := h.timed
      rw [hp] at htimed
      rw [← hlen]
      refine htimed.advanceWheel hhelper (by omega) (fun k hk => ?_) hproc
      rcases Nat.lt_or_eq_of_le (Nat.le_of_lt_succ hk) with hk | rfl
      · exact hzero k hk
      · exact hcur
    · apply hidle
      simp [pending, hloop, hnext]

theorem callbackReturn_inv (hcontrol : m.control = .callback i wheelCount id)
    (hno : (m.timer id).triggerEnd.ready →
      m.overtakesCarry i wheelCount (m.timer id).interval = false) :
    (m.callbackReturn i wheelCount id).Inv none := by
  have hloop := loop_callback hcontrol
  obtain ⟨hid, hdue, hstate⟩ := h.callback i wheelCount id hcontrol
  have honly : ∀ x, (m.timer x).state = .processing → x = id := by
    intro x hx
    obtain ⟨i', wheelCount', hc⟩ := h.processing x hx
    rw [hcontrol] at hc
    simp only [Control.callback.injEq] at hc
    exact hc.2.2.symm
  rw [callbackReturn]
  set t := (m.timer id).triggerEnd with ht
  set m' : WheelTimerManager := { m with
    timer := update m.timer id t
    control := .draining i wheelCount } with hm'
  have hself : m'.timer id = t := update_self _ _ _
  have hs : Spares m m' id := .of_eq
  have hinit : (m.timer id).state ≠ .init := by
    rcases hstate with hs | hs <;> simp [hs]
  obtain ⟨hint, hper, htask⟩ := triggerEnd_settings (m.timer id)
  have hexp : m'.expected id = m.expected id := expected_congr rfl rfl (by rw [hself]; exact hint)
  have hfired : m'.fired id = m.fired id := rfl
  -- What the invariant asks of `m'` once the timer's own part is known.
  have hinv : ∀ hand, (t.state = .init → hand = some id) → (∀ x, hand = some x → x = id) →
      t.state ≠ .processing → m'.Counted id → m'.Inv hand := by
    intro hand hst hh hnp hc
    refine h.frame hs hloop.symm (fun x hx => ⟨hx, ?_⟩) ?_ (fun x hx => ?_)
      fun i' wheelCount' x hx => by simp [hm'] at hx
    · rintro rfl
      exact hinit (h.timed.state_of_mem (l := none) hx)
    · refine (h.timed.inHand hinit).frame hs hand hid (by rw [hself]; exact hst) ?_ hc hh
      rw [hself, hint, hper]
      exact h.timed.bounds id
    · by_cases hxid : x = id
      · subst hxid
        rw [hself] at hx
        exact absurd hx hnp
      · rw [hs.timer x hxid] at hx
        exact absurd (honly x hx) hxid
  obtain ⟨hlist, hcount⟩ := h.timed.counted id hid
  rw [← hexp, ← hfired] at hlist
  rcases hstate with hproc | hcancal
  · rw [hproc] at hcount
    obtain ⟨k, hlen, hallow, hcounter⟩ := hcount
    have hend := triggerEnd_of_processing hproc (h.timed.bounds id).2 hallow hcounter
    have hallows : t.state ≠ .cancal → ∀ k, t.Allows k ↔ (m.timer id).Allows k := by
      intro hne k
      rw [WheelTimer.Allows, WheelTimer.Allows, hper, hint, (htask hne).2]
    rcases hend with ⟨hready, hremain, hnext, hcounter'⟩ | ⟨hdone, hlast⟩
    · have hr : t.ready := by simp [ready, ht, hready]
      rw [if_pos hr]
      have hi := hinv (some id) (fun _ => rfl) (by simp) (by simp [ht, hready]) <| by
        refine ⟨hlist, ?_⟩
        rw [hself, hready, hfired, hlen]
        exact ⟨(hallows (by simp [ht, hready]) _).mpr hnext, fun hp => hcounter' (hper ▸ hp)⟩
      have hrem : (m'.timer id).remain = (m.timer id).interval := by rw [hself]; exact hremain
      apply hi.place (by rw [hself]; exact hready) _ hid
      · rw [hrem, due, hexp, hfired]
        exact hdue
      · have hpend : m'.pending = m.pending := by
          simp only [pending, hloop]
          rfl
        rw [hrem]
        exact hi.below rfl fun hp => h.lt_of_not_overtakesCarry hloop (hno hr) (hpend ▸ hp)
      · rw [hrem]
        exact (h.timed.bounds id).1
    · have hr : ¬t.ready := by simp [ready, ht, hdone]
      rw [if_neg hr]
      apply hinv none (by simp [ht, hdone]) (by simp) (by simp [ht, hdone])
      refine ⟨hlist, ?_⟩
      rw [hself, hdone, hfired]
      have hallows := hallows (by simp [ht, hdone])
      exact ⟨k, hlen, (hallows k).mpr hallow, mt (hallows _).mp hlast⟩
  · have hsame : t.state = .cancal := by rw [ht, triggerEnd, if_pos hcancal, hcancal]
    have hr : ¬t.ready := by simp [ready, hsame]
    rw [if_neg hr]
    apply hinv none (by simp [hsame]) (by simp) (by simp [hsame])
    refine ⟨hlist, ?_⟩
    rw [hself, hsame]
    trivial

end

theorem step_inv (m : WheelTimerManager) (l : Label) (h : m.Inv none) (hl : m.Punctual l) :
    (m.step l).Inv none := by
  have hstep := stepped_step m l
  generalize m.step l = m' at hstep
  cases hstep with
  | schedule _ _ _ _ _ hcall =>
    apply schedule_inv h
    obtain hidle | ⟨i, wheelCount, x, hc⟩ := hcall
    · simp [Below, pending, loop, hidle]
    · have hloop := loop_callback hc
      apply h.below hloop
      simp only [Punctual, hc] at hl
      exact h.lt_of_not_overtakesCarry hloop hl
  | cancel id => exact cancel_inv h id
  | tick hidle => exact tickBegin_inv h hidle
  | next hc hw =>
    rw [← wheelAt_of_getElem? hw]
    cases hhelper : m.helperItem with
    | nil => exact drainEnd_inv h hc hhelper
    | cons id rest => exact drainTimer_inv h hc hhelper
  | ret hc =>
    simp only [Punctual, hc] at hl
    exact callbackReturn_inv h hc hl
  | cleanup =>
    exact ⟨{ h.timed with }, h.idleHelper, h.helperDue, h.loopShape, h.processing, h.callback⟩
  | refused => exact h

end WheelTimerManager

end ServerLib.Timer

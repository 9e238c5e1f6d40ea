import Mathlib.Algebra.Group.Nat.Defs
import ServerLib.Lib.Run

/-! The timers, the wheels, and the manager of `wheel_timer.cpp` and `wheel_timer_manager.cpp`.  A
timer object is named by a number.  The list that a `WheelTimerItem` links is a list of names, with
the head first.  `tick` calls the tasks of the timers that it triggers, and these call back into
the manager, so the manager's state includes the point that `tick` has reached, and a run
interleaves the calls of the user with the steps of `tick`. -/

namespace ServerLib.Timer

open Function (update)

inductive TimerState
  | init
  | processing
  | done
  | cancal
deriving DecidableEq

/-- A `WheelTimer`.  `task` and `ownedTask` say whether `task_` and `owned_task_` are set, and
`handleActive` whether the timer's handle can still cancel it. -/
structure WheelTimer where
  state : TimerState
  period : Int
  periodCounter : Nat
  interval : Nat
  remain : Nat
  task : Bool
  ownedTask : Bool
  handleActive : Bool

namespace WheelTimer

/-- The constructor, with `bind_task`: a task that says `need_free` is owned. -/
def new (timeout interval : Nat) (task needFree : Bool) (period : Int) : WheelTimer where
  state := .init
  period := period
  periodCounter := 0
  interval := interval
  remain := timeout
  task := task
  ownedTask := task && needFree
  handleActive := true

variable (t : WheelTimer)

def ready : Bool := t.state == .init

/-- `cancel`, apart from the removal of the timer from its item's list. -/
def cancel : WheelTimer :=
  { t with state := .cancal, handleActive := false, task := t.task && t.ownedTask }

def reset : WheelTimer := { t with state := .init, periodCounter := 0 }

def setRemain (remain : Nat) : WheelTimer := { t with remain := remain }

/-- `trigger` after the call of `on_timer` has returned. -/
def triggerEnd : WheelTimer :=
  if t.state = .cancal then t
  else if t.period ≠ 0 ∧ t.interval ≠ 0 ∧ t.task then
    if 0 < t.period then
      let counter : Nat := (t.periodCounter + 1) % 2 ^ 32
      if (counter : Int) = t.period then
        { t with
          state := .done, remain := t.interval, periodCounter := counter, handleActive := false }
      else { t with state := .init, remain := t.interval, periodCounter := counter }
    else { t with remain := t.interval }.reset
  else { t with state := .done, handleActive := false }

end WheelTimer

/-- A `Wheel`: `items` gives the list of each of its `size` slots. -/
structure Wheel where
  cursor : Nat
  timeUnit : Nat
  size : Nat
  items : Nat → List Nat

namespace Wheel

/-- The constructor.  Its parameter `unit` is a `uint32_t`. -/
def new (size unit : Nat) : Wheel := ⟨0, unit % 2 ^ 32, size, fun _ => []⟩

variable (w : Wheel)

def unitMaxTime : Nat := w.timeUnit * w.size

def getPassedTime : Nat := w.cursor * w.timeUnit

/-- `place_timer`: the slot under the cursor is never used, so a timer goes at least to the
next one. -/
def placeTimer (idx id : Nat) : Wheel :=
  let idx := if idx % w.size = 0 then 1 else idx
  let pos := (w.cursor + idx) % w.size
  { w with items := update w.items pos (id :: w.items pos) }

/-- `tick`: the cursor moves on, and the list of the slot under it is exchanged for `newItem`. -/
def tick (newItem : List Nat) : Wheel × List Nat :=
  let cursor := (w.cursor + 1) % w.size
  ({ w with cursor := cursor, items := update w.items cursor newItem }, w.items cursor)

/-- `on_delete` for a timer that is in one of the wheel's lists. -/
def onDelete (id : Nat) : Wheel :=
  { w with items := fun j => (w.items j).filter (· ≠ id) }

end Wheel

/-- The point that `tick` has reached: outside of it, in the loop that empties `helper_item_` for
wheel `i` of the `wheelCount` wheels that it set out to advance, or in the call of `on_timer` for
timer `id` from that loop. -/
inductive Control
  | idle
  | draining (i wheelCount : Nat)
  | callback (i wheelCount id : Nat)

/-- A `WheelTimerManager`.  `timer` gives the timer objects, `nextId` the name of the next one, and
`timers` the names of those in `timers_`.  The last four fields record the history: the number of
single-unit ticks that have begun, and for each timer the number when it was scheduled, the
timeout it was scheduled with, and the numbers of the ticks that triggered it. -/
structure WheelTimerManager where
  timeUnit : Nat
  count : Nat
  helperItem : List Nat
  wheels : List Wheel
  timer : Nat → WheelTimer
  nextId : Nat
  timers : List Nat
  control : Control
  ticks : Nat
  scheduledAt : Nat → Nat
  timeout : Nat → Nat
  fired : Nat → List Nat

/-- The loop of `place_timer` that adds wheels until one reaches as far as `remain`.  Four wheels
reach past every `uint32_t` timeout, so the bound on the number of turns is never met. -/
def addWheels (count id : Nat) : Nat → Nat → Nat → List Wheel × Nat
  | 0, _, remain => ([], remain)
  | turns + 1, timeUnit, remain =>
    let w := Wheel.new count timeUnit
    if remain < w.unitMaxTime then ([w.placeTimer (remain / w.timeUnit) id], remain)
    else
      let rest := addWheels count id turns w.unitMaxTime (remain + w.getPassedTime)
      (w :: rest.1, rest.2)

/-- `place_timer` on the wheels `ws`: the wheels after it, and the timer's `remain_`. -/
def placeInWheels (count id : Nat) : List Wheel → Nat → Nat → List Wheel × Nat
  | [], timeUnit, remain => addWheels count id 64 timeUnit remain
  | w :: ws, _, remain =>
    if remain < w.unitMaxTime then (w.placeTimer (remain / w.timeUnit) id :: ws, remain)
    else
      let rest := placeInWheels count id ws w.unitMaxTime (remain + w.getPassedTime)
      (w :: rest.1, rest.2)

namespace WheelTimerManager

/-- The constructor: `count_` is 1000 and `time_unit_` is 1. -/
def init : WheelTimerManager where
  timeUnit := 1
  count := 1000
  helperItem := []
  wheels := []
  timer _ := { WheelTimer.new 0 0 false false 0 with state := .done, handleActive := false }
  nextId := 0
  timers := []
  control := .idle
  ticks := 0
  scheduledAt _ := 0
  timeout _ := 0
  fired _ := []

section

variable (m : WheelTimerManager)

def placeTimer (id : Nat) : WheelTimerManager :=
  let placed := placeInWheels m.count id m.wheels m.timeUnit (m.timer id).remain
  { m with
    wheels := placed.1
    timer := update m.timer id ((m.timer id).setRemain placed.2) }

/-- `schedule`: a new timer, placed at once. -/
def schedule (timeout interval : UInt32) (task needFree : Bool) (period : Int32) :
    WheelTimerManager :=
  let id := m.nextId
  placeTimer
    { m with
      timer := update m.timer id
        (WheelTimer.new timeout.toNat interval.toNat task needFree period.toInt)
      nextId := id + 1
      timers := m.timers ++ [id]
      scheduledAt := update m.scheduledAt id m.ticks
      timeout := update m.timeout id timeout.toNat
      fired := update m.fired id [] }
    id

/-- `TimerHandle::cancel`: a handle that is still active cancels its timer, which leaves the list
that holds it. -/
def cancel (id : Nat) : WheelTimerManager :=
  if (m.timer id).handleActive then
    { m with
      timer := update m.timer id (m.timer id).cancel
      helperItem := m.helperItem.filter (· ≠ id)
      wheels := m.wheels.map (·.onDelete id) }
  else m

def cleanupFinishedTimers : WheelTimerManager :=
  { m with timers := m.timers.filter fun id =>
      (m.timer id).state ≠ .done ∧ (m.timer id).state ≠ .cancal }

/-- The body of the loop over the wheels in `tick`, up to its inner loop: wheel `i` advances, and
the list of its slot becomes `helper_item_`. -/
def advanceWheel (i wheelCount : Nat) : WheelTimerManager :=
  match m.wheels[i]? with
  | some w =>
    let ticked := w.tick m.helperItem
    { m with
      wheels := m.wheels.set i ticked.1
      helperItem := ticked.2
      control := .draining i wheelCount }
  | none => { m with control := .idle }

/-- The first turn of the loop over `click` in `tick`. -/
def tickBegin : WheelTimerManager :=
  let m := { m with ticks := m.ticks + 1 }
  if 0 < m.wheels.length then m.advanceWheel 0 m.wheels.length else m

/-- `trigger` up to the call of `on_timer`. -/
def triggerBegin (i wheelCount id : Nat) : WheelTimerManager :=
  if (m.timer id).state = .init then
    { m with
      timer := update m.timer id { m.timer id with state := .processing }
      fired := update m.fired id (m.fired id ++ [m.ticks])
      control := .callback i wheelCount id }
  else m

/-- One turn of the inner loop of `tick` for wheel `i`: the first timer of `helper_item_` is
triggered or placed again.  When the list is empty, the loop over the wheels goes on to the next
wheel if the cursor of wheel `i` is at 0. -/
def drainNext (i wheelCount : Nat) (w : Wheel) : WheelTimerManager :=
  match m.helperItem with
  | id :: rest =>
    let t := (m.timer id).setRemain ((m.timer id).remain % w.timeUnit)
    let m := { m with helperItem := rest, timer := update m.timer id t }
    if t.remain < m.timeUnit then m.triggerBegin i wheelCount id else m.placeTimer id
  | [] =>
    if w.getPassedTime ≠ 0 then { m with control := .idle }
    else if i + 1 < wheelCount then m.advanceWheel (i + 1) wheelCount
    else { m with control := .idle }

/-- The rest of `trigger` for timer `id`, after which `tick` places a timer that is ready. -/
def callbackReturn (i wheelCount id : Nat) : WheelTimerManager :=
  let t := (m.timer id).triggerEnd
  let m := { m with timer := update m.timer id t, control := .draining i wheelCount }
  if t.ready then m.placeTimer id else m

end

/-- What a run is made of.  The user schedules and cancels outside of `tick` and from callbacks;
`tick` begins a single-unit tick; `next` is a turn of the inner loop of `tick`; `ret` is the
return of a callback; `cleanup` ends a call of `tick`. -/
inductive Label
  | schedule (timeout interval : UInt32) (task needFree : Bool) (period : Int32)
  | cancel (id : Nat)
  | tick
  | next
  | ret
  | cleanup
deriving DecidableEq

/-- One step.  A label that the manager is not at the point for changes nothing. -/
def step (m : WheelTimerManager) (l : Label) : WheelTimerManager :=
  match l, m.control with
  | .schedule timeout interval task needFree period, .idle
  | .schedule timeout interval task needFree period, .callback _ _ _ =>
    m.schedule timeout interval task needFree period
  | .cancel id, .idle | .cancel id, .callback _ _ _ => m.cancel id
  | .tick, .idle => m.tickBegin
  | .next, .draining i wheelCount =>
    match m.wheels[i]? with
    | some w => m.drainNext i wheelCount w
    | none => m
  | .ret, .callback i wheelCount id => m.callbackReturn i wheelCount id
  | .cleanup, .idle => m.cleanupFinishedTimers
  | _, _ => m

/-- What a step can be. -/
inductive Stepped (m : WheelTimerManager) : Label → WheelTimerManager → Prop
  | schedule (timeout interval : UInt32) (task needFree : Bool) (period : Int32)
    (hcall : m.control = .idle ∨ ∃ i wheelCount id, m.control = .callback i wheelCount id) :
    Stepped m (.schedule timeout interval task needFree period)
      (m.schedule timeout interval task needFree period)
  | cancel (id : Nat) : Stepped m (.cancel id) (m.cancel id)
  | tick (hidle : m.control = .idle) : Stepped m .tick m.tickBegin
  | next {i wheelCount : Nat} {w : Wheel} (hc : m.control = .draining i wheelCount)
    (hw : m.wheels[i]? = some w) : Stepped m .next (m.drainNext i wheelCount w)
  | ret {i wheelCount id : Nat} (hc : m.control = .callback i wheelCount id) :
    Stepped m .ret (m.callbackReturn i wheelCount id)
  | cleanup (hidle : m.control = .idle) : Stepped m .cleanup m.cleanupFinishedTimers
  | refused (l : Label) : Stepped m l m

variable {m : WheelTimerManager}

theorem step_schedule_of
    (hcall : m.control = .idle ∨ ∃ i wheelCount id, m.control = .callback i wheelCount id)
    (timeout interval : UInt32) (task needFree : Bool) (period : Int32) :
    m.step (.schedule timeout interval task needFree period) =
      m.schedule timeout interval task needFree period := by
  unfold step
  obtain hc | ⟨i, wheelCount, id, hc⟩ := hcall
  · rw [hc]
  · rw [hc]

theorem step_tick (hidle : m.control = .idle) : m.step .tick = m.tickBegin := by
  unfold step
  rw [hidle]

theorem step_next (hc : m.control = .draining i wheelCount) (hw : m.wheels[i]? = some w) :
    m.step .next = m.drainNext i wheelCount w := by
  unfold step
  rw [hc]
  dsimp only
  rw [hw]

theorem step_ret {i wheelCount id : Nat} (hc : m.control = .callback i wheelCount id) :
    m.step .ret = m.callbackReturn i wheelCount id := by
  unfold step
  rw [hc]

theorem stepped_step (m : WheelTimerManager) (l : Label) : Stepped m l (m.step l) := by
  unfold step
  cases hc : m.control with
  | idle =>
    cases l with
    | schedule => exact .schedule _ _ _ _ _ (.inl hc)
    | cancel id => exact .cancel id
    | tick => exact .tick hc
    | cleanup => exact .cleanup hc
    | next | ret => exact .refused _
  | draining i wheelCount =>
    cases l with
    | next =>
      dsimp only
      cases hw : m.wheels[i]? with
      | some w => exact .next hc hw
      | none => exact .refused _
    | schedule | cancel | tick | ret | cleanup => exact .refused _
  | callback i wheelCount id =>
    cases l with
    | schedule => exact .schedule _ _ _ _ _ (.inr ⟨_, _, _, hc⟩)
    | cancel id => exact .cancel id
    | ret => exact .ret hc
    | tick | next | cleanup => exact .refused _

def after (ls : List Label) : WheelTimerManager := Lib.run step init ls

end WheelTimerManager

end ServerLib.Timer

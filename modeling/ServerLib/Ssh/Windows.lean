import Mathlib.Logic.Function.Basic
import ServerLib.Ssh.ConnectionManager

/-! The windows of the channels of a session.  `drain_channel_pending_data` keeps to them,
`SshTerminalBridge` does not look at them, and a CHANNEL_OPEN_CONFIRMATION writes over them. -/

namespace ServerLib.Ssh

open Lib Function List Option

/-- A channel, the window that the peer has opened it with, the sum of the adjustments that have
come for it, and the data that has been sent.  For a channel that the server opens, the peer gives
its window in the confirmation. -/
structure ChannelFlow where
  channel : SshChannel
  initial : Option Nat
  adjusted : Nat := 0
  sent : List ChannelMessage := []

/-- What happens to a channel.  `pump` is for the output of a process, and `close` for all that
takes a channel out of the table. -/
inductive FlowEvent
  | open (remoteId window maxPacket : UInt32)
  | openForwarded (window maxPacket : UInt32)
  | confirm (remoteId window maxPacket : UInt32)
  | enqueue (block : Bytes)
  | drain
  | windowAdjust (bytesToAdd : UInt32)
  | pump (output : Bytes)
  | eof (blocks : List Bytes)
  | close

namespace ChannelFlow

variable (f : ChannelFlow)

/-- A confirmation is taken for any channel of the table, whoever has opened it and whatever its
state.  `pump_pty_once` and `pump_all_pty_once` put all of the output into one message. -/
def next : FlowEvent → Option ChannelFlow
  | .open _ _ _ | .openForwarded _ _ => some f
  | .confirm remoteId remoteWindow remoteMaxPacket => some { f with
      channel := { f.channel with remoteId, remoteWindow, remoteMaxPacket, state := .open }
      initial := f.initial.or (some remoteWindow.toNat) }
  | .enqueue block => some { f with channel := f.channel.enqueueData block }
  | .drain => some { f with channel := f.channel.drain.1, sent := f.sent ++ f.channel.drain.2 }
  | .windowAdjust bytesToAdd => some { f with
      channel := f.channel.adjustRemoteWindow bytesToAdd
      adjusted := f.adjusted + bytesToAdd.toNat }
  | .pump output => some { f with
      sent := f.sent ++ if output = [] then [] else [.data f.channel.remoteId output] }
  | .eof blocks => some { f with channel := (f.channel.handleEof blocks).1 }
  | .close => none

/-- The window is what the peer has allowed without what has been sent, which is never more.  Before
the peer has given a window, nothing is sent. -/
def Exact : Prop :=
  match f.initial with
  | none => f.sent = []
  | some initial =>
    (f.sent.flatMap ChannelMessage.payload).length + f.channel.remoteWindow.toNat =
      initial + f.adjusted

/-- The data is within the peer's window and the counter exact, and no message since `before` is
larger than the peer takes. -/
def Keeps (before : Option ChannelFlow) : Prop :=
  f.Exact ∧ ∀ message ∈ f.sent.drop (before.elim 0 fun f => f.sent.length),
    message.payload.length ≤ f.channel.remoteMaxPacket.toNat

/-- The terminal bridge sends nothing, no window wraps, and a confirmation is the first that the
peer says of its window, or tells what the window is anyway. -/
def Metered : FlowEvent → Prop
  | .confirm _ window _ =>
    if f.initial = none then f.adjusted = 0 else window = f.channel.remoteWindow
  | .windowAdjust bytesToAdd =>
    f.initial = none ∨ f.channel.remoteWindow.toNat + bytesToAdd.toNat < 2 ^ 32
  | .pump output => output = []
  | _ => True

end ChannelFlow

/-- The channels of a session by their numbers. -/
abbrev Flows := UInt32 → Option ChannelFlow

namespace Flows

variable (s : Flows)

/-- The event is for the channel with the number beside it.  `drain_channel_pending_data` is one
event for each of the channels. -/
def step (event : UInt32 × FlowEvent) : Flows :=
  update s event.1 (match s event.1, event.2 with
    | some f, event => f.next event
    | none, .open remoteId remoteWindow remoteMaxPacket => some {
        channel := { remoteId, remoteWindow, remoteMaxPacket }, initial := some remoteWindow.toNat }
    | none, .openForwarded remoteWindow remoteMaxPacket => some {
        channel := { state := .opening, remoteWindow, remoteMaxPacket }, initial := none }
    | none, _ => none)

def Within (event : UInt32 × FlowEvent) : Prop := ∀ id, ∀ f ∈ s.step event id, f.Keeps (s id)

def Metered (event : UInt32 × FlowEvent) : Prop := ∀ f ∈ s event.1, f.Metered event.2

end Flows

theorem SshChannel.handleEof_remote (c : SshChannel) (blocks : List Bytes) :
    (c.handleEof blocks).1.remoteWindow = c.remoteWindow ∧
      (c.state = .opening → (c.handleEof blocks).1.state = .opening) := by
  by_cases hopen : c.state = .open
  · have hkeeps : ∀ (c' : SshChannel) block, c'.remoteWindow = c.remoteWindow →
        (c'.enqueueData block).remoteWindow = c.remoteWindow := fun _ _ h => h
    have hrun := run_preserves hkeeps (s := { c with state := .eof }) rfl blocks
    rw [handleEof, if_neg (not_not.mpr hopen), hopen]
    refine ⟨?_, fun hopening => by cases hopening⟩
    dsimp only
    split
    · exact hrun
    · exact hrun
  · rw [handleEof, if_pos hopen]
    exact ⟨rfl, id⟩

namespace ChannelFlow

variable {f f' : ChannelFlow}

/-- Without a window of the peer, the channel is not drained. -/
structure Sound (f : ChannelFlow) : Prop where
  exact : f.Exact
  opening : f.initial = none → f.channel.state = .opening

theorem Sound.of_next (h : f.Sound) (hnext : f' ∈ f.next event) (hexact : f'.Exact) :
    f'.Sound := by
  refine ⟨hexact, fun hinitial => ?_⟩
  cases event with
  | confirm =>
    cases hnext
    simp at hinitial
  | drain =>
    cases hnext
    exact f.channel.drains_drain.state.trans (h.opening hinitial)
  | eof blocks =>
    cases hnext
    exact (f.channel.handleEof_remote blocks).2 (h.opening hinitial)
  | close => cases hnext
  | _ =>
    cases hnext
    exact h.opening hinitial

theorem Sound.next_iff (h : f.Sound) (event : FlowEvent) :
    (∀ f' ∈ f.next event, f'.Keeps (some f)) ↔ f.Metered event := by
  have hexact := h.exact
  rw [Exact] at hexact
  simp only [Keeps, elim_some]
  cases event with
  | close => exact iff_of_true nofun trivial
  | «open» | openForwarded | enqueue =>
    refine iff_of_true ?_ trivial
    rintro f' ⟨⟩
    exact ⟨hexact, by simp⟩
  | eof blocks =>
    refine iff_of_true ?_ trivial
    rintro f' ⟨⟩
    rw [Exact, (f.channel.handleEof_remote blocks).1]
    exact ⟨hexact, by simp⟩
  | drain =>
    have hdrains := f.channel.drains_drain
    refine iff_of_true ?_ trivial
    rintro f' ⟨⟩
    rw [drop_left, hdrains.remoteMaxPacket]
    refine ⟨?_, hdrains.packet⟩
    rw [Exact]
    cases hinitial : f.initial with
    | none =>
      have hnone : f.channel.drain = (f.channel, []) :=
        if_pos (by rw [h.opening hinitial]; decide)
      simpa [hinitial, hnone] using hexact
    | some initial =>
      have hwindow := hdrains.window
      simp only [hinitial, flatMap_append, length_append] at hexact ⊢
      omega
  | confirm remoteId window maxPacket =>
    cases hinitial : f.initial with
    | none =>
      rw [hinitial] at hexact
      simp [next, Exact, Metered, hinitial, hexact]
    | some initial =>
      simp only [hinitial] at hexact
      simp [next, Exact, Metered, hinitial, ← hexact, UInt32.toNat_inj]
  | windowAdjust bytesToAdd =>
    cases hinitial : f.initial with
    | none =>
      rw [hinitial] at hexact
      simp [next, Exact, Metered, hinitial, hexact]
    | some initial =>
      simp only [hinitial, length_flatMap] at hexact
      simp [next, Exact, Metered, hinitial, SshChannel.adjustRemoteWindow]
      omega
  | pump output =>
    by_cases hnone : output = []
    · refine iff_of_true ?_ hnone
      rintro f' ⟨⟩
      rw [if_pos hnone, append_nil]
      exact ⟨hexact, by simp⟩
    · refine iff_of_false (fun h' => ?_) hnone
      have hafter := (h' _ rfl).1
      rw [Exact, if_neg hnone] at hafter
      have hpos := length_pos_iff.mpr hnone
      cases hinitial : f.initial with
      | none => simp [hinitial] at hafter
      | some initial =>
        simp only [hinitial, flatMap_append, flatMap_singleton, length_append,
          ChannelMessage.payload] at hafter hexact
        omega

end ChannelFlow

namespace Flows

/-- The channels of the table are sound. -/
def Sound (s : Flows) : Prop := ∀ id, ∀ f ∈ s id, f.Sound

variable {s : Flows}

theorem Sound.within_iff (h : s.Sound) (event : UInt32 × FlowEvent) :
    s.Within event ↔ s.Metered event := by
  obtain ⟨id, event⟩ := event
  have hothers : ∀ id' ≠ id, ∀ f ∈ s id', f.Keeps (s id') := by
    rintro id' - f hf
    rw [mem_def.mp hf]
    exact ⟨(h id' f hf).exact, by simp⟩
  refine (forall_update_iff s fun id' f' => ∀ f ∈ f', f.Keeps (s id')).trans ?_
  rw [and_iff_left hothers, Metered]
  cases hid : s id with
  | some f => simpa using (h id f hid).next_iff event
  | none =>
    refine iff_of_true ?_ nofun
    cases event with
    | «open» | openForwarded => simp [ChannelFlow.Keeps, ChannelFlow.Exact]
    | _ => simp

theorem Sound.step (h : s.Sound) (hwithin : s.Within event) : (s.step event).Sound := by
  intro id' f hf
  have hexact := (hwithin id' f hf).1
  obtain ⟨id, event⟩ := event
  by_cases hsame : id' = id
  · subst hsame
    rw [Flows.step, update_self] at hf
    cases hid : s id' with
    | some f' =>
      simp only [hid] at hf
      exact (h id' f' hid).of_next hf hexact
    | none =>
      refine ⟨hexact, fun hinitial => ?_⟩
      simp only [hid] at hf
      cases event <;> cases hf
      · cases hinitial
      · rfl
  · rw [Flows.step, update_of_ne hsame] at hf
    exact h id' f hf

/-- In every run of a session the data on every channel stays within the peer's windows, and the
counters are exact, if and only if the terminal bridge sends nothing, no window wraps and no
confirmation changes a window. -/
theorem within_run_iff (events : List (UInt32 × FlowEvent)) :
    Along step Within (fun _ => none) events ↔ Along step Metered (fun _ => none) events := by
  have hnew : Sound fun _ => none := fun _ _ => nofun
  constructor
  · exact along_of_invariant (fun _ _ h => h.step) (fun _ event h => (h.within_iff event).mp) hnew
  · exact along_of_invariant (fun _ event h hmetered => h.step ((h.within_iff event).mpr hmetered))
      (fun _ event h => (h.within_iff event).mpr) hnew

/-- A shell writes more than the window of its channel. -/
theorem not_within_pump :
    ¬Along step Within (fun _ => none) [(0, .open 0 1 32768), (0, .pump [0x61, 0x62])] := by
  rintro ⟨-, h, -⟩
  exact absurd (show 2 + 1 = 1 + 0 from (h 0 _ rfl).1) (by decide)

end Flows

/-- A channel, what the peer was allowed to send on it in all, and what it has sent. -/
structure Inflow where
  channel : PeerChannel
  allowed : Nat
  received : Nat := 0

def PeerMessage.isData : PeerMessage → Bool
  | .data _ | .extendedData _ => true
  | _ => false

def PeerMessage.content : PeerMessage → Bytes
  | .data bytes | .extendedData bytes => bytes
  | _ => []

def Reply.adjustment : Reply → Nat
  | .windowAdjust _ bytesToAdd => bytesToAdd.toNat
  | _ => 0

namespace Inflow

def new (channel : PeerChannel) : Inflow := { channel, allowed := channel.localWindow.toNat }

variable (key : AuthorizedKey) (subsystems : List Bytes) (f : Inflow)

def step (message : PeerMessage) : Inflow :=
  let out := f.channel.receive key subsystems message
  { channel := out.1.getD f.channel
    allowed := f.allowed + (out.2.2.map Reply.adjustment).sum
    received := f.received + message.content.length }

/-- The peer sends data, and keeps to what it was allowed and to the size of a packet. -/
structure Keeps (message : PeerMessage) : Prop where
  isData : message.isData
  window : f.received + message.content.length ≤ f.allowed
  packet : message.content.length ≤ f.channel.localMaxPacket.toNat

/-- The window of an open channel is what is allowed without what has come. -/
structure Exact : Prop where
  state : f.channel.state = .open
  window : f.channel.localWindow.toNat + f.received = f.allowed

/-- The message is taken off the window, which stays exact and is never left below the threshold.
The handlers are told of data, and of no extended data. -/
structure Handled (message : PeerMessage) : Prop where
  told : ∀ data, message = .data data →
    .onChannelData data ∈ (f.channel.receive key subsystems message).2.1
  untold : ∀ data, message = .extendedData data →
    (f.channel.receive key subsystems message).2.1 = []
  taken : (f.channel.receive key subsystems message).1 =
    some (f.channel.take message.content.length).1
  exact : (f.step key subsystems message).Exact
  threshold : defaultWindowSize / 4 ≤ (f.step key subsystems message).channel.localWindow

end Inflow

theorem PeerChannel.window_take (c : PeerChannel) (h : size ≤ c.localWindow.toNat) :
    (c.take size).1.state = c.state ∧
      defaultWindowSize / 4 ≤ (c.take size).1.localWindow ∧
      (c.take size).1.localWindow.toNat + size =
        c.localWindow.toNat + ((c.take size).2.map Reply.adjustment).sum := by
  have hsize : (UInt32.ofNat size).toNat = size := by
    rw [UInt32.toNat_ofNat', Nat.mod_eq_of_lt (h.trans_lt c.localWindow.toNat_lt)]
  have hafter : (c.localWindow - UInt32.ofNat size).toNat = c.localWindow.toNat - size := by
    rw [UInt32.toNat_sub_of_le, hsize]
    rwa [UInt32.le_iff_toNat_le, hsize]
  by_cases hlow : c.localWindow - UInt32.ofNat size < defaultWindowSize / 4
  · rw [take, maybeAdjustWindow, if_pos hlow]
    have hquarter : defaultWindowSize / 4 ≤ defaultWindowSize := by decide
    have hback := UInt32.toNat_sub_of_le _ _ (UInt32.le_trans (UInt32.le_of_lt hlow) hquarter)
    have hle := UInt32.le_iff_toNat_le.mp (UInt32.le_trans (UInt32.le_of_lt hlow) hquarter)
    refine ⟨rfl, hquarter, ?_⟩
    simp only [map_cons, map_nil, sum_cons, sum_nil, Reply.adjustment, hback]
    omega
  · rw [take, maybeAdjustWindow, if_neg hlow]
    refine ⟨rfl, UInt32.not_lt.mp hlow, ?_⟩
    simp only [map_nil, sum_nil]
    omega

namespace Inflow

theorem Exact.handled {f : Inflow} (h : f.Exact) (hkeeps : f.Keeps message) :
    f.Handled key subsystems message := by
  have hwindow := h.window
  have hsize : message.content.length ≤ f.channel.localWindow.toNat := by
    have := hkeeps.window
    omega
  obtain ⟨hstate, hthreshold, htaken⟩ := f.channel.window_take hsize
  have hroom : ¬f.channel.localWindow < UInt32.ofNat message.content.length := by
    rw [UInt32.lt_iff_toNat_lt, UInt32.toNat_ofNat']
    exact Nat.not_lt.mpr ((Nat.mod_le _ _).trans hsize)
  have hreceive : ∃ calls, f.channel.receive key subsystems message =
      (some (f.channel.take message.content.length).1, calls,
        (f.channel.take message.content.length).2) ∧
      (∀ data, message = .data data → .onChannelData data ∈ calls) ∧
      ∀ data, message = .extendedData data → calls = [] := by
    cases message with
    | data data =>
      refine ⟨_, if_neg ?_, by simp, nofun⟩
      rintro (hstate | hlong | hshort)
      · exact hstate h.state
      · exact absurd hkeeps.packet (Nat.not_le.mpr hlong)
      · exact hroom hshort
    | extendedData data =>
      refine ⟨_, if_neg ?_, nofun, fun _ _ => rfl⟩
      rintro (hstate | hshort)
      · exact hstate h.state
      · exact hroom hshort
    | _ => cases hkeeps.isData
  obtain ⟨calls, hreceive, htold, huntold⟩ := hreceive
  constructor
  · rwa [hreceive]
  · rwa [hreceive]
  · rw [hreceive]
  · constructor
    · simp only [step, hreceive, getD_some, hstate, h.state]
    · simp only [step, hreceive, getD_some]
      omega
  · simpa only [step, hreceive, getD_some] using hthreshold

end Inflow

end ServerLib.Ssh

import ServerLib.Lib.Run
import ServerLib.Ssh.Crypto

/-! The output of a channel: the blocks that wait for the peer's window, and what becomes of them
when the peer sends an EOF. -/

namespace ServerLib.Ssh

open Lib List

inductive ChannelState
  | closed
  | opening
  | open
  | eof
  | closing
deriving DecidableEq

/-- `subsystemRequested` is a field of `terminal_session_state`. -/
structure SshChannel where
  remoteId : UInt32 := 0
  state : ChannelState := .open
  remoteWindow : UInt32 := 0
  remoteMaxPacket : UInt32 := 0
  pendingData : List Bytes := []
  subsystemRequested : Bool := false
deriving DecidableEq

/-- What the manager builds for the peer, with the peer's number of the channel. -/
inductive ChannelMessage
  | data (recipient : UInt32) (payload : Bytes)
  | eof (recipient : UInt32)
  | close (recipient : UInt32)

namespace SshChannel

variable (c : SshChannel)

def enqueueData (data : Bytes) : SshChannel := { c with pendingData := c.pendingData ++ [data] }

def dequeuePending (maxBytes : Nat) : SshChannel × Bytes :=
  match c.pendingData with
  | [] => (c, [])
  | front :: rest =>
    if front.length ≤ maxBytes then ({ c with pendingData := rest }, front)
    else ({ c with pendingData := front.drop maxBytes :: rest }, front.take maxBytes)

def consumeRemoteWindow (bytes : Nat) : SshChannel :=
  { c with remoteWindow := c.remoteWindow - UInt32.ofNat (min bytes c.remoteWindow.toNat) }

def adjustRemoteWindow (bytesToAdd : UInt32) : SshChannel :=
  { c with remoteWindow := c.remoteWindow + bytesToAdd }

/-- `chunk_size` in `drain_channel_pending_data`. -/
def chunkSize : Nat := min (min c.remoteWindow.toNat c.remoteMaxPacket.toNat) (256 * 1024)

/-- The inner loop of `drain_channel_pending_data`, which takes a byte at least in every round but
the last. -/
def drainLoop : Nat → SshChannel → SshChannel × List ChannelMessage
  | 0, c => (c, [])
  | rounds + 1, c =>
    if c.pendingData = [] ∨ c.remoteWindow = 0 then (c, [])
    else
      let (c, data) := c.dequeuePending c.chunkSize
      if data = [] then (c, [])
      else
        let (drained, later) := drainLoop rounds (c.consumeRemoteWindow data.length)
        (drained, .data c.remoteId data :: later)

def queued : Bytes := c.pendingData.flatten

/-- One round of the outer loop of `drain_channel_pending_data`. -/
def drain : SshChannel × List ChannelMessage :=
  if c.state ≠ .open then (c, []) else drainLoop (c.queued.length + 1) c

/-- `handle_channel_eof`; `blocks` is what `on_eof` of the channel's handler enqueues. -/
def handleEof (blocks : List Bytes) : SshChannel × List ChannelMessage :=
  if c.state ≠ .open then (c, [])
  else
    let c := run enqueueData { c with state := .eof } blocks
    if c.subsystemRequested then ({ c with state := .closing }, [.close c.remoteId])
    else (c, [.eof c.remoteId])

end SshChannel

/-- What may happen to a channel that is open. -/
inductive ChannelEvent
  | enqueue (block : Bytes)
  | drain
  | windowAdjust (bytesToAdd : UInt32)
  | eof (blocks : List Bytes)

/-- A channel, what has been enqueued so far, and what has been sent. -/
structure ChannelRun where
  channel : SshChannel
  enqueued : Bytes := []
  sent : List ChannelMessage := []

def ChannelMessage.payload : ChannelMessage → Bytes
  | .data _ payload => payload
  | _ => []

def ChannelMessage.isEnd : ChannelMessage → Bool
  | .data _ _ => false
  | _ => true

namespace ChannelRun

variable (r : ChannelRun)

def step : ChannelEvent → ChannelRun
  | .enqueue block =>
    { r with channel := r.channel.enqueueData block, enqueued := r.enqueued ++ block }
  | .drain => { r with channel := r.channel.drain.1, sent := r.sent ++ r.channel.drain.2 }
  | .windowAdjust bytesToAdd => { r with channel := r.channel.adjustRemoteWindow bytesToAdd }
  | .eof blocks =>
    let answered := r.channel.handleEof blocks
    { channel := answered.1
      enqueued := if r.channel.state = .open then r.enqueued ++ blocks.flatten else r.enqueued
      sent := r.sent ++ answered.2 }

def Conserves : Prop :=
  r.sent.flatMap ChannelMessage.payload ++ r.channel.queued = r.enqueued

/-- A step that ends the channel's output, or after which it is not drained any more, finds nothing
that waits. -/
def Finishes (event : ChannelEvent) : Prop :=
  let after := r.step event
  after.Conserves ∧
    ((after.channel.state ≠ .open ∨ ∃ message ∈ after.sent.drop r.sent.length, message.isEnd) →
      after.channel.queued = [])

/-- Nothing waits when the peer sends its EOF, and nothing comes after it. -/
def Quiet : ChannelEvent → Prop
  | .enqueue block => r.channel.state ≠ .open → block = []
  | .eof blocks => r.channel.state = .open → r.channel.queued = [] ∧ blocks.flatten = []
  | _ => True

end ChannelRun

namespace SshChannel

variable (c : SshChannel)

theorem queued_enqueueData (data : Bytes) : (c.enqueueData data).queued = c.queued ++ data := by
  simp [queued, enqueueData]

theorem dequeuePending_spec (maxBytes : Nat) : ∃ pendingData,
    (c.dequeuePending maxBytes).1 = { c with pendingData } ∧
      (c.dequeuePending maxBytes).2 ++ pendingData.flatten = c.queued ∧
      (c.dequeuePending maxBytes).2.length ≤ maxBytes := by
  rw [dequeuePending]
  split
  · exact ⟨c.pendingData, rfl, rfl, Nat.zero_le _⟩
  · rename_i front rest hpending
    split_ifs with hlength
    · exact ⟨rest, rfl, by simp [queued, hpending], hlength⟩
    · refine ⟨front.drop maxBytes :: rest, rfl, ?_, length_take_le _ _⟩
      simp [queued, hpending, ← append_assoc]

/-- The channel `c'` is what is left of `c` after the data in `messages`. -/
structure Drains (c c' : SshChannel) (messages : List ChannelMessage) : Prop where
  state : c'.state = c.state
  remoteMaxPacket : c'.remoteMaxPacket = c.remoteMaxPacket
  queued : messages.flatMap ChannelMessage.payload ++ c'.queued = c.queued
  window : (messages.flatMap ChannelMessage.payload).length + c'.remoteWindow.toNat =
    c.remoteWindow.toNat
  data : ∀ message ∈ messages, message.isEnd = false
  packet : ∀ message ∈ messages, message.payload.length ≤ c.remoteMaxPacket.toNat

theorem Drains.refl : c.Drains c [] := ⟨rfl, rfl, rfl, Nat.zero_add _, nofun, nofun⟩

theorem toNat_consumeRemoteWindow (h : bytes ≤ c.remoteWindow.toNat) :
    (c.consumeRemoteWindow bytes).remoteWindow.toNat = c.remoteWindow.toNat - bytes := by
  have hcast : (UInt32.ofNat bytes).toNat = bytes :=
    Nat.mod_eq_of_lt (h.trans_lt c.remoteWindow.toNat_lt)
  rw [consumeRemoteWindow, Nat.min_eq_left h, UInt32.toNat_sub_of_le, hcast]
  exact UInt32.le_iff_toNat_le.mpr (hcast.trans_le h)

theorem drains_drainLoop (rounds : Nat) (c : SshChannel) :
    c.Drains (drainLoop rounds c).1 (drainLoop rounds c).2 := by
  induction rounds generalizing c with
  | zero => exact .refl c
  | succ rounds ih =>
    rw [drainLoop]
    split
    · exact .refl c
    obtain ⟨pendingData, hafter, hqueued, hlength⟩ := c.dequeuePending_spec c.chunkSize
    generalize c.dequeuePending c.chunkSize = taken at hafter hqueued hlength
    obtain ⟨after, data⟩ := taken
    obtain rfl : after = _ := hafter
    rw [chunkSize] at hlength
    dsimp only at hqueued hlength ⊢
    split_ifs with hnone
    · rw [hnone] at hqueued
      exact ⟨rfl, rfl, hqueued, Nat.zero_add _, nofun, nofun⟩
    have hrest := ih ({ c with pendingData }.consumeRemoteWindow data.length)
    have hwindow := hrest.window
    rw [toNat_consumeRemoteWindow { c with pendingData } (by dsimp only; omega)] at hwindow
    dsimp only at hwindow
    refine ⟨hrest.state, hrest.remoteMaxPacket, ?_, ?_,
      forall_mem_cons.mpr ⟨rfl, hrest.data⟩,
      forall_mem_cons.mpr ⟨show data.length ≤ _ by omega, hrest.packet⟩⟩
    · rw [flatMap_cons, append_assoc, hrest.queued, ← hqueued]
      rfl
    · simp only [flatMap_cons, length_append, ChannelMessage.payload]
      omega

theorem drains_drain : c.Drains c.drain.1 c.drain.2 := by
  rw [drain]
  split
  · exact .refl c
  · exact drains_drainLoop _ c

theorem handleEof_spec {c : SshChannel} (hopen : c.state = .open) (blocks : List Bytes) :
    (c.handleEof blocks).1.state ≠ .open ∧
      (c.handleEof blocks).1.queued = c.queued ++ blocks.flatten ∧
      (c.handleEof blocks).2.flatMap ChannelMessage.payload = [] := by
  have hrun : ∀ c : SshChannel, (run enqueueData c blocks).queued = c.queued ++ blocks.flatten ∧
      (run enqueueData c blocks).state = c.state := by
    induction blocks with
    | nil => simp
    | cons block blocks ih =>
      intro c
      rw [run_cons, (ih _).1, (ih _).2, queued_enqueueData]
      exact ⟨by simp, rfl⟩
  obtain ⟨hqueued, hstate⟩ := hrun { c with state := .eof }
  rw [handleEof, if_neg (not_not.mpr hopen)]
  dsimp only
  split
  · exact ⟨nofun, hqueued, rfl⟩
  · exact ⟨by rw [hstate]; exact nofun, hqueued, rfl⟩

end SshChannel

namespace ChannelRun

variable {r : ChannelRun}

/-- A channel that is drained no more has nothing that waits. -/
structure Good (r : ChannelRun) : Prop where
  conserves : r.Conserves
  drained : r.channel.state ≠ .open → r.channel.queued = []

theorem finishes_of_quiet (h : r.Good) {event : ChannelEvent} (hquiet : r.Quiet event) :
    r.Finishes event := by
  have hconserves := h.conserves
  rw [Conserves] at hconserves
  cases event with
  | enqueue block =>
    refine ⟨?_, fun hend => ?_⟩
    · simp [Conserves, step, SshChannel.queued_enqueueData, ← hconserves]
    · have hstate : r.channel.state ≠ .open := by simpa [step, SshChannel.enqueueData] using hend
      simp [step, SshChannel.queued_enqueueData, h.drained hstate, hquiet hstate]
  | drain =>
    have hdrains := r.channel.drains_drain
    have hqueued := hdrains.queued
    refine ⟨?_, fun hend => ?_⟩
    · simp [Conserves, step, hqueued, hconserves]
    · rw [step, hdrains.state, drop_left] at hend
      have hstate : r.channel.state ≠ .open := hend.resolve_right fun ⟨message, hmem, hmessage⟩ =>
        Bool.false_ne_true ((hdrains.data message hmem).symm.trans hmessage)
      rw [h.drained hstate] at hqueued
      exact (append_eq_nil_iff.mp hqueued).2
  | windowAdjust bytesToAdd =>
    refine ⟨hconserves, fun hend => h.drained ?_⟩
    simpa [step, SshChannel.adjustRemoteWindow] using hend
  | eof blocks =>
    by_cases hopen : r.channel.state = .open
    · obtain ⟨_, hqueued, hpayload⟩ := SshChannel.handleEof_spec hopen blocks
      obtain ⟨hnone, hblocks⟩ := hquiet hopen
      refine ⟨?_, fun _ => ?_⟩
      · simp [Conserves, step, hopen, hqueued, hpayload, ← hconserves]
      · rw [step, hqueued, hnone, hblocks]
        rfl
    · have hnone : r.channel.handleEof blocks = (r.channel, []) := if_pos hopen
      refine ⟨?_, fun _ => ?_⟩
      · simpa [Conserves, step, hnone, hopen] using hconserves
      · simpa [step, hnone] using h.drained hopen

theorem quiet_of_finishes {event : ChannelEvent} (hfinishes : r.Finishes event) :
    r.Quiet event := by
  cases event with
  | enqueue block =>
    intro hstate
    have hqueued := hfinishes.2 (.inl hstate)
    rw [step, SshChannel.queued_enqueueData] at hqueued
    exact (append_eq_nil_iff.mp hqueued).2
  | eof blocks =>
    intro hopen
    obtain ⟨hstate, hqueued, _⟩ := SshChannel.handleEof_spec hopen blocks
    have hnone := hfinishes.2 (.inl hstate)
    rw [step, hqueued] at hnone
    exact append_eq_nil_iff.mp hnone
  | _ => trivial

/-- Along every run of a new channel, what is enqueued is sent or waits, and the output is not ended
while something waits, exactly if nothing waits at the peer's EOF and nothing comes after it. -/
theorem finishes_run_iff (remoteId remoteWindow remoteMaxPacket : UInt32)
    (subsystemRequested : Bool) (events : List ChannelEvent) :
    Along step Finishes
        { channel := { remoteId, remoteWindow, remoteMaxPacket, subsystemRequested } } events ↔
      Along step Quiet
        { channel := { remoteId, remoteWindow, remoteMaxPacket, subsystemRequested } } events := by
  have hnew : Good { channel := { remoteId, remoteWindow, remoteMaxPacket, subsystemRequested } } :=
    ⟨rfl, fun _ => rfl⟩
  have hgood : ∀ r event, Good r → r.Finishes event → (r.step event).Good :=
    fun r event _ h => ⟨h.1, fun hstate => h.2 (.inl hstate)⟩
  constructor
  · exact along_of_invariant hgood (fun r event _ h => quiet_of_finishes h) hnew
  · exact along_of_invariant (fun r event h hquiet => hgood r event h (finishes_of_quiet h hquiet))
      (fun r event h => finishes_of_quiet h) hnew

/-- The peer's window is used up, and its EOF is answered at once: the rest of the block stays. -/
theorem not_finishes_eof :
    ¬Along step Finishes { channel := { remoteWindow := 1, remoteMaxPacket := 32768 } }
      [.enqueue [0x61, 0x62], .drain, .eof []] := by
  intro h
  exact absurd (quiet_of_finishes h.2.2.1 rfl) (by decide)

end ChannelRun

end ServerLib.Ssh

import ServerLib.Lib.Run
import ServerLib.WebSocket.Packing

/-! `WebSocketConnection`: what it writes to its connection, and when. -/

namespace ServerLib.WebSocket

open Lib List

inductive State
  | connecting
  | connected
  | closing
  | closed
deriving DecidableEq

/-- `written` is what the connection was given.  A limit of 0 is none, and so is a
`heartBeatTimeout` of 0. -/
structure WebSocketConnection where
  state : State := .connecting
  closeSent : Bool := false
  pongDeadlineMs : UInt32 := 0
  heartBeatTimeout : UInt32 := 0
  inputChunks : List ProtoChunk := []
  outboundQueue : List Bytes := []
  outboundQueueMaxMessages : Nat := 0
  outboundQueueMaxBytes : Nat := 0
  written : List Bytes := []

inductive FrameDispatchResult
  | ok
  | close
  | error

/-- What an application may do, also while it is given data. -/
inductive Call
  | send (masks : Nat → Option Mask) (data : Bytes) (type : OpCode)
  | close (mask : Option Mask) (code : UInt16)
  | shutdown

namespace WebSocketConnection

variable (c : WebSocketConnection)

def write (output : List Bytes) : WebSocketConnection := { c with written := c.written ++ output }

def enqueueOutput (output : List Bytes) : Option WebSocketConnection :=
  let bytes (frames : List Bytes) := (frames.map List.length).sum
  if 0 < c.outboundQueueMaxMessages ∧
      c.outboundQueueMaxMessages < c.outboundQueue.length + output.length then none
  else if 0 < c.outboundQueueMaxBytes ∧
      c.outboundQueueMaxBytes < bytes c.outboundQueue + bytes output then none
  else some { c with outboundQueue := c.outboundQueue ++ output }

def flushOutputQueue : WebSocketConnection := { c.write c.outboundQueue with outboundQueue := [] }

/-- `pack` is the one for control frames or the one for messages. -/
def send (masks : Nat → Option Mask) (data : Bytes) (type : OpCode) : WebSocketConnection :=
  if c.state ≠ .connected then c
  else
    match if type.isControl then packControl (masks 0) data type else pack masks data type with
    | none => c
    | some output => (c.enqueueOutput output).elim c flushOutputQueue

variable (mask : Option Mask)

def sendPingFrame (now : UInt32) : WebSocketConnection :=
  match packControl mask [] .ping with
  | none => c
  | some output =>
    { c.write output with
      pongDeadlineMs := if c.heartBeatTimeout > 0 then now + c.heartBeatTimeout else 0 }

def sendPongFrame (payload : Bytes) : WebSocketConnection :=
  (packControl mask payload .pong).elim c c.write

def sendCloseFrame (code : UInt16) : WebSocketConnection :=
  if c.closeSent then c
  else
    match packControl mask [(code >>> 8).toUInt8, code.toUInt8] .close with
    | none => c
    | some output => { c.write output with closeSent := true, state := .closing }

def close (code : UInt16) : WebSocketConnection :=
  if c.state = .closed ∨ c.closeSent then c
  else sendCloseFrame { c with state := .closing } mask code

def shutdown : WebSocketConnection :=
  { c with inputChunks := [], outboundQueue := [], state := .closed }

/-- The callback of the heartbeat timer. -/
def heartbeat (now : UInt32) : WebSocketConnection :=
  if c.state ≠ .connected then c
  else if c.pongDeadlineMs ≠ 0 ∧ c.pongDeadlineMs ≤ now then { c with state := .closed }
  else c.sendPingFrame mask now

def call : Call → WebSocketConnection
  | .send masks data type => c.send masks data type
  | .close mask code => c.close mask code
  | .shutdown => c.shutdown

/-- The loop of `dispatch_frames`, and what comes after it.  The chunks are taken from
`input_chunks_`, which `shutdown` clears. -/
def dispatchLoop (masks : Nat → Option Mask) (onData : Bytes → List Call) :
    List ProtoChunk → WebSocketConnection → WebSocketConnection × FrameDispatchResult
  | [], c => ({ c with inputChunks := [] }, .ok)
  | chunk :: rest, c =>
    if c.inputChunks = [] then (c, .ok)
    else if !chunk.isCompleted then (c, .error)
    else if chunk.head.opcode = OpCode.close.code then
      ({ c with state := .closing, inputChunks := [] }, .close)
    else if chunk.head.opcode = OpCode.ping.code then
      dispatchLoop masks onData rest (c.sendPongFrame (masks rest.length) chunk.body)
    else if chunk.head.opcode = OpCode.pong.code then
      dispatchLoop masks onData rest { c with pongDeadlineMs := 0 }
    else if chunk.body ≠ [] ∨ chunk.head.extendPayLoadLen = 0 then
      dispatchLoop masks onData rest (run call c (onData chunk.body))
    else (c, .error)

def dispatchFrames (masks : Nat → Option Mask) (onData : Bytes → List Call) :
    WebSocketConnection × FrameDispatchResult :=
  dispatchLoop masks onData c.inputChunks c

end WebSocketConnection

/-- What happens to a connection after its handshake: calls, frames that have been unpacked, and
timers. -/
inductive ConnectionEvent
  | call (made : Call)
  | sendCloseFrame (mask : Option Mask) (code : UInt16)
  | unpacked (chunks : List ProtoChunk)
  | dispatchFrames (masks : Nat → Option Mask) (onData : Bytes → List Call)
  | heartbeat (mask : Option Mask) (now : UInt32)
  | closeDeadline

namespace WebSocketConnection

def step (c : WebSocketConnection) : ConnectionEvent → WebSocketConnection
  | .call made => c.call made
  | .sendCloseFrame mask code => c.sendCloseFrame mask code
  | .unpacked chunks => { c with inputChunks := c.inputChunks ++ chunks }
  | .dispatchFrames masks onData => (c.dispatchFrames masks onData).1
  | .heartbeat mask now => c.heartbeat mask now
  | .closeDeadline => if c.state = .closing then { c with state := .closed } else c

end WebSocketConnection

def isCloseFrame (frame : Bytes) : Prop := opcode frame = OpCode.close.code

def isDataFrame (frame : Bytes) : Prop :=
  opcode frame ∈ [OpCode.continuation.code, OpCode.text.code, OpCode.binary.code]

instance (frame : Bytes) : Decidable (isCloseFrame frame) := inferInstanceAs (Decidable (_ = _))
instance (frame : Bytes) : Decidable (isDataFrame frame) := inferInstanceAs (Decidable (_ ∈ _))

/-- After a close frame there is neither data nor another close frame. -/
def CloseEnds (written : List Bytes) : Prop :=
  written.Pairwise fun earlier later =>
    isCloseFrame earlier → ¬isDataFrame later ∧ ¬isCloseFrame later

/-- The close frame is left to `close` and `send_close_frame_to`. -/
def Call.Plain : Call → Prop
  | .send _ _ type => type ≠ .close
  | _ => True

def ConnectionEvent.Plain : ConnectionEvent → Prop
  | .call made => made.Plain
  | .dispatchFrames _ onData => ∀ body, ∀ made ∈ onData body, made.Plain
  | _ => True

namespace WebSocketConnection

/-- A connection that has written a close frame knows it and is not connected any more. -/
structure Inv (c : WebSocketConnection) : Prop where
  queue : c.outboundQueue = []
  silent : c.closeSent = false → ∀ frame ∈ c.written, ¬isCloseFrame frame
  sent : c.closeSent = true → c.state ≠ .connected
  ends : CloseEnds c.written

variable {c : WebSocketConnection}

variable {output : List Bytes}

theorem pairwise_of_not_close (hclose : ∀ frame ∈ output, ¬isCloseFrame frame) : CloseEnds output :=
  pairwise_of_forall_mem_list fun earlier hearlier _ _ hfirst =>
    absurd hfirst (hclose earlier hearlier)

theorem Inv.write (h : c.Inv) (hclose : ∀ frame ∈ output, ¬isCloseFrame frame)
    (hdata : c.state = .connected ∨ ∀ frame ∈ output, ¬isDataFrame frame) :
    (c.write output).Inv where
  queue := h.queue
  silent hsent frame hframe := by
    rcases mem_append.mp hframe with hframe | hframe
    · exact h.silent hsent frame hframe
    · exact hclose frame hframe
  sent := h.sent
  ends := by
    refine pairwise_append.mpr ⟨h.ends, pairwise_of_not_close hclose, ?_⟩
    intro earlier hearlier later hlater hfirst
    rcases hdata with hconnected | hdata
    · have hsent : c.closeSent = false := by
        by_contra hsent
        exact h.sent (Bool.not_eq_false _ ▸ hsent) hconnected
      exact absurd hfirst (h.silent hsent earlier hearlier)
    · exact ⟨hdata later hlater, hclose later hlater⟩

theorem Inv.of_eq (h : c.Inv) {c' : WebSocketConnection} (hqueue : c'.outboundQueue = [])
    (hsent : c'.closeSent = c.closeSent) (hwritten : c'.written = c.written)
    (hstate : c'.state = .connected → c.state = .connected) : c'.Inv := by
  refine ⟨hqueue, ?_, fun h' hconnected => ?_, ?_⟩
  · rw [hsent, hwritten]
    exact h.silent
  · exact h.sent (hsent ▸ h') (hstate hconnected)
  · rw [hwritten]
    exact h.ends

theorem inv_send (h : c.Inv) (masks : Nat → Option Mask) (data : Bytes) {type : OpCode}
    (htype : type ≠ .close) : (c.send masks data type).Inv := by
  rw [send]
  split
  · exact h
  rename_i hconnected
  rw [not_not] at hconnected
  split
  · exact h
  rename_i output houtput
  have hclose : ∀ frame ∈ output, ¬isCloseFrame frame := by
    intro frame hframe hfirst
    have hcode : opcode frame = 0 ∨ opcode frame = type.code := by
      split at houtput
      · obtain ⟨only, rfl, hcode⟩ := opcode_packControl houtput
        exact .inr (mem_singleton.mp hframe ▸ hcode)
      · exact opcode_packLoop houtput frame hframe
    rw [isCloseFrame] at hfirst
    rw [hfirst] at hcode
    cases type <;> simp_all [OpCode.code]
  rw [enqueueOutput, h.queue]
  split_ifs
  · exact h
  · exact h
  · exact (h.write hclose (.inl hconnected)).of_eq rfl rfl rfl id

theorem inv_control (h : c.Inv) {mask : Option Mask} (htype : type = .ping ∨ type = .pong)
    (houtput : packControl mask data type = some output) : (c.write output).Inv := by
  obtain ⟨frame, rfl, hcode⟩ := opcode_packControl houtput
  have hframe : ¬isCloseFrame frame ∧ ¬isDataFrame frame := by
    rw [isCloseFrame, isDataFrame, hcode]
    rcases htype with rfl | rfl <;> decide
  exact h.write (by simpa using hframe.1) (.inr (by simpa using hframe.2))

theorem inv_sendCloseFrame (h : c.Inv) (mask : Option Mask) (code : UInt16) :
    (c.sendCloseFrame mask code).Inv := by
  rw [sendCloseFrame]
  split_ifs with hsent
  · exact h
  split
  · exact h
  rename_i output houtput
  have hsilent := h.silent (Bool.not_eq_true _ ▸ hsent)
  obtain ⟨frame, rfl, _⟩ := opcode_packControl houtput
  refine ⟨h.queue, nofun, nofun, ?_⟩
  refine pairwise_append.mpr ⟨h.ends, pairwise_singleton _ _, ?_⟩
  exact fun earlier hearlier _ _ hfirst => absurd hfirst (hsilent earlier hearlier)

theorem inv_call (h : c.Inv) {made : Call} (hplain : made.Plain) : (c.call made).Inv := by
  cases made with
  | send masks data type => exact inv_send h masks data hplain
  | close mask code =>
    rw [call, close]
    split
    · exact h
    · have hclosing : Inv { c with state := .closing } := h.of_eq h.queue rfl rfl nofun
      exact inv_sendCloseFrame hclosing mask code
  | shutdown => exact h.of_eq rfl rfl rfl nofun

theorem inv_dispatchLoop (hplain : ∀ body, ∀ made ∈ onData body, made.Plain)
    (chunks : List ProtoChunk) (h : c.Inv) : (dispatchLoop masks onData chunks c).1.Inv := by
  induction chunks generalizing c with
  | nil => exact h.of_eq h.queue rfl rfl id
  | cons chunk rest ih =>
    rw [dispatchLoop]
    split_ifs
    · exact h
    · exact h
    · exact h.of_eq h.queue rfl rfl nofun
    · apply ih
      rw [sendPongFrame]
      cases houtput : packControl (masks rest.length) chunk.body .pong with
      | none => exact h
      | some output => exact inv_control h (.inr rfl) houtput
    · exact ih (h.of_eq h.queue rfl rfl id)
    · apply ih
      exact run_invariant (I := Inv) (fun c made h => inv_call h) h
        (along_of_forall_mem (hplain chunk.body) c)
    · exact h

theorem inv_step (h : c.Inv) {event : ConnectionEvent} (hplain : event.Plain) :
    (c.step event).Inv := by
  cases event with
  | call made => exact inv_call h hplain
  | sendCloseFrame mask code => exact inv_sendCloseFrame h mask code
  | unpacked chunks => exact h.of_eq h.queue rfl rfl id
  | dispatchFrames masks onData => exact inv_dispatchLoop hplain c.inputChunks h
  | heartbeat mask now =>
    rw [step, heartbeat]
    split_ifs
    · exact h
    · exact h.of_eq h.queue rfl rfl nofun
    · rw [sendPingFrame]
      split
      · exact h
      · rename_i output houtput
        exact (inv_control h (.inl rfl) houtput).of_eq h.queue rfl rfl id
  | closeDeadline =>
    rw [step]
    split
    · exact h.of_eq h.queue rfl rfl nofun
    · exact h

/-- Whatever is done with a new connection, nothing but control frames comes after a close frame, as
long as close frames are not sent as messages. -/
theorem closeEnds_run (hnew : c.written = []) (hsent : c.closeSent = false)
    (hqueue : c.outboundQueue = []) {events : List ConnectionEvent}
    (hplain : ∀ event ∈ events, event.Plain) : CloseEnds (run step c events).written := by
  have hstart : c.Inv := by
    refine ⟨hqueue, fun _ => ?_, fun htrue => ?_, ?_⟩
    · simp [hnew]
    · rw [hsent] at htrue
      cases htrue
    · rw [hnew]
      exact List.Pairwise.nil
  have hinv : (run step c events).Inv :=
    run_invariant (I := Inv) (fun c event h => inv_step h) hstart
      (along_of_forall_mem hplain c)
  exact hinv.ends

/-- A message, a close frame, and another message that comes too late. -/
theorem closeEnds_run_close :
    CloseEnds (run step { state := .connected }
      [.call (.send (fun _ => none) [0x61] .text), .call (.close none 1000),
        .call (.send (fun _ => none) [0x62] .text)]).written := by
  refine closeEnds_run rfl rfl rfl ?_
  simp [ConnectionEvent.Plain, Call.Plain]

/-- The close frame is sent as a message: then a message and another close frame follow. -/
theorem not_closeEnds_run_send :
    ¬CloseEnds (run step { state := .connected }
      [.call (.send (fun _ => none) [] .close), .call (.send (fun _ => none) [0x62] .text),
        .call (.close none 1000)]).written := by
  unfold CloseEnds
  decide +kernel

end WebSocketConnection

end ServerLib.WebSocket

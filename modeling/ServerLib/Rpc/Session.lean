import ServerLib.Rpc.PendingCalls

/-!
A session: calls are sent, responses come in, calls time out and the transport closes.  A send is
two steps, as responses may come in, and other calls be sent, while the transport has the frame.
What a handler does comes as the steps that follow: a handler is called last, after its call has
left the table.
-/

namespace ServerLib.Rpc

open Lib PendingCallRegistry

structure CallOptions where
  timeout : Int := 3000
  coroutineId : UInt64 := 0
  serialization : Serialization := .raw
  compression : Compression := .none
  encryption : Encryption := .none
  keyId : UInt32 := 0
  nonce : UInt64 := 0

structure RpcSession where
  server : Option (Message → Response) := none
  encodeOptions : EncodeOptions := {}
  decoder : FrameStreamDecoder := ⟨{}, []⟩
  pending : PendingCallRegistry := {}

/-- A send whose frame the transport has.  Without a frame it fails. -/
structure Sending where
  id : UInt64
  encoded : Bool

/-- The number that a call got, and when it times out. -/
structure Ticket where
  id : UInt64
  deadline : Int
deriving DecidableEq

/-- The session and its transport, and what has happened: the number of sends, the tickets that
calls got, the sends that returned true and the handlers that were called. -/
structure System where
  session : RpcSession
  isOpen : Bool := true
  outgoing : List Bytes := []
  sending : List (Nat × Sending) := []
  begun : Nat := 0
  tickets : List (Nat × Ticket) := []
  accepted : List Nat := []
  invoked : List Invocation := []

inductive Event
  | beginSend (message : Message) (hasHandler : Bool) (options : CallOptions) (now : Int)
  | finishSend (call : Nat) (sent : Bool)
  | push (message : Message)
  | receiveBytes (data : Bytes)
  | pollTimeouts (now : Int)
  | setServer (server : Option (Message → Response))
  | close

def Message.request (message : Message) (id : UInt64) (options : CallOptions) : Message :=
  let plain := message.encryption = .none
  { message with
    kind := .request
    requestId := id
    coroutineId := if message.coroutineId = 0 then options.coroutineId else message.coroutineId
    serialization :=
      if message.serialization = .raw then options.serialization else message.serialization
    compression :=
      if message.compression = .none then options.compression else message.compression
    encryption := if plain then options.encryption else message.encryption
    keyId := if plain then options.keyId else message.keyId
    nonce := if plain then options.nonce else message.nonce }

def Response.answerTo (response : Response) (message : Message) : Response :=
  { response with
    requestId := message.requestId
    coroutineId := message.coroutineId
    serialization :=
      if response.serialization = .raw then message.serialization else response.serialization
    compression :=
      if response.compression = .none then message.compression else response.compression }

namespace System

def start (server : Option (Message → Response)) (encodeOptions : EncodeOptions)
    (decodeOptions : DecodeOptions) : System :=
  { session := { server, encodeOptions, decoder := ⟨decodeOptions, []⟩ } }

variable (s : System)

def withPending (pending : PendingCallRegistry) : System :=
  { s with session := { s.session with pending } }

def withDecoder (decoder : FrameStreamDecoder) : System :=
  { s with session := { s.session with decoder } }

/-- Calls have left the table, and their handlers are called. -/
def answer (answered : List Invocation × PendingCallRegistry) : System :=
  { s.withPending answered.2 with invoked := s.invoked ++ answered.1 }

/-- The call has its number, and its frame, if there is one, is given to the transport. -/
def started (ticket : Ticket) (pending : PendingCallRegistry) (frame : Option Bytes) : System :=
  { s with
    session := { s.session with pending }
    begun := s.begun + 1
    tickets := (s.begun, ticket) :: s.tickets
    sending := (s.begun, ⟨ticket.id, frame.isSome⟩) :: s.sending
    outgoing := s.outgoing ++ frame.toList }

/-- `send`, up to the call of `send_frame`. -/
def beginSend (message : Message) (hasHandler : Bool) (options : CallOptions) (now : Int) :
    System :=
  if ¬ s.isOpen then { s with begun := s.begun + 1 }
  else
    let handler := if hasHandler then some s.begun else none
    let (id, pending) :=
      s.session.pending.create handler options.timeout now options.coroutineId
    if id = 0 then { s with begun := s.begun + 1 }
    else
      s.started ⟨id, deadlineOf options.timeout now⟩ pending
        (encodeMessage (message.request id options) s.session.encodeOptions)

/-- `send`, from the return of `send_frame`. -/
def finishSend (call : Nat) (sent : Bool) : System :=
  match s.sending.lookup call with
  | none => s
  | some sending =>
    let s := { s with sending := s.sending.filter fun entry => entry.1 ≠ call }
    if sending.encoded ∧ sent then { s with accepted := call :: s.accepted }
    else s.answer (s.session.pending.cancel sending.id "send failed")

def push (s : System) (message : Message) : System :=
  if ¬ s.isOpen then s
  else
    let frame := encodeMessage { message with kind := .push } s.session.encodeOptions
    { s with outgoing := s.outgoing ++ frame.toList }

def handleFrame (frame : DecodedFrame) : System :=
  if frame.header.kind = .response then
    s.answer (s.session.pending.complete (toResponse frame))
  else
    match s.session.server with
    | none => s
    | some handle =>
      let message := toMessage frame
      let response := handle message
      if message.kind = .push then s
      else
        let out := encodeResponse (response.answerTo message) s.session.encodeOptions
        if s.isOpen then { s with outgoing := s.outgoing ++ out.toList } else s

/-- The loop of `receive_bytes`, at most `limit` times. -/
def receiveLoop : Nat → System → System
  | 0, s => s
  | limit + 1, s =>
    match s.session.decoder.next with
    | (.ok frame, decoder) => receiveLoop limit ((s.withDecoder decoder).handleFrame frame)
    | (.error .needMore, _) => s
    | (.error _, decoder) => s.withDecoder decoder.clear

/-- Every frame takes bytes from the buffer. -/
def receiveBytes (data : Bytes) : System :=
  let decoder := s.session.decoder.append data
  receiveLoop (decoder.buffer.length + 1) (s.withDecoder decoder)

def pollTimeouts (now : Int) : System :=
  s.answer (s.session.pending.expire now)

/-- Nothing is done with the error. -/
def cancelPending (_error : String) : System := s

def close : System :=
  if ¬ s.isOpen then s
  else { s with isOpen := false }.cancelPending "transport closed"

def step : Event → System
  | .beginSend message hasHandler options now => s.beginSend message hasHandler options now
  | .finishSend call sent => s.finishSend call sent
  | .push message => s.push message
  | .receiveBytes data => s.receiveBytes data
  | .pollTimeouts now => s.pollTimeouts now
  | .setServer server => { s with session := { s.session with server } }
  | .close => s.close

end System

end ServerLib.Rpc

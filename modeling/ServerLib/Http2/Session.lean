import ServerLib.Http2.Frame
import ServerLib.Http2.Hpack
import ServerLib.Lib.Run
import ServerLib.Lib.Table

/-! The HTTP/2 session of `session.cpp`.  A session belongs to a connection, so the checks that
`conn_` is set are left out.  `handle_frame` calls the bridges, and the user may call back into the
session from there, so the state of the session includes the bridge that it is in, and a run
interleaves the frames, the calls of the user, and the returns of the bridges.  Everything that
crosses the border of the session is kept in a log. -/

namespace ServerLib.Http2

open Lib FrameCodec

/-- The settings of the peer.  `apply_peer_settings` checks two of them. -/
structure PeerSettings where
  headerTableSize : Nat := 4096
  enablePush : Bool := true
  maxConcurrentStreams : Nat := 0xffffffff
  initialWindowSize : Nat := 65535
  maxFrameSize : Nat := 16384
  maxHeaderListSize : Nat := 0xffffffff
  initialWindowSize_le : initialWindowSize ≤ 2147483647 := by decide
  maxFrameSize_ge : 16384 ≤ maxFrameSize := by decide

structure LocalSettings where
  headerTableSize : Nat := 4096
  enablePush : Bool := false
  maxConcurrentStreams : Nat := 128
  initialWindowSize : Nat := 65535
  maxFrameSize : Nat := 16384
  maxHeaderListSize : Nat := 65536

/-- The `local_settings_` of every session. -/
def localSettings : LocalSettings := {}

inductive StreamState
  | idle
  | open
  | halfClosedRemote
  | halfClosedLocal
  | reservedLocal
  | reservedRemote
  | closed
deriving DecidableEq

structure PendingWrite where
  data : List UInt8 := []
  offset : Nat := 0
  endStream : Bool := false
deriving DecidableEq

/-- A `StreamEntry`, with windows and counters as natural numbers. -/
structure StreamEntry where
  state : StreamState := .idle
  receivedBytes : Nat := 0
  headerBlock : List UInt8 := []
  headersEndStream : Bool := false
  waitingContinuation : Bool := false
  sendWindow : Nat := 65535
  recvWindow : Nat := 65535
  pendingWrite : PendingWrite := {}
  hasPendingWrite : Bool := false
  parentStreamId : Nat := 0
  weight : Nat := 16
  exclusive : Bool := false
  continuationCount : Nat := 0
  receivedData : Bool := false

def kMaxContinuationFrames : Nat := 16
def kMaxHeaderBlockSize : Nat := 262144

/-- The calls that the user of a session makes. -/
inductive Call
  | onPrefaceReceived
  | sendHeaders (streamId : Nat) (headers : List HpackHeaderField) (endStream : Bool)
  | sendData (streamId : Nat) (data : List UInt8) (endStream : Bool)
  | sendDataBuffer (streamId : Nat) (body : List UInt8) (endStream : Bool)
  | sendSimpleResponse (streamId status : Nat) (contentType body : List UInt8)
  | sendRstStream (streamId : Nat) (error : ErrorCode)
  | sendGoaway (error : ErrorCode)
  | closeGracefully
deriving DecidableEq

/-- What crosses the border of a session: the frames that it handles, the calls, the frames that it
writes, the header lists that it encodes, the blocks that it decodes, the calls of the bridges, and
the closing of the connection. -/
inductive Event
  | received (frame : Frame)
  | called (call : Call)
  | wrote (frame : Frame)
  | decoded (streamId : Nat) (block : List UInt8)
  | headersBridge (streamId : Nat) (rawHeaders : List UInt8) (endStream : Bool)
  | dataBridge (streamId : Nat) (data : List UInt8) (endStream : Bool)
  | goawayBridge (error : ErrorCode) (lastStreamId : Nat)
  | closed
deriving DecidableEq

/-- Where `handle_frame` is: outside, in one of the bridges, or never to be called again because it
has returned false. -/
inductive Phase
  | ready
  | inHeadersBridge (streamId : Nat) (endStream : Bool)
  | inDataBridge (streamId dataSize : Nat) (endStream : Bool)
  | stopped
deriving DecidableEq

structure Session where
  framesReceived : Nat
  seenNonSettingsFrame : Bool
  serverSettingsSent : Bool
  settingsAckReceived : Bool
  awaitingSettingsAck : Bool
  streams : AList fun _ : Nat => StreamEntry
  pendingWriteQueue : List Nat
  hpackDecoder : HpackDecoder
  hpackEncoder : HpackEncoder
  hasHeadersBridge : Bool
  hasDataBridge : Bool
  hasGoawayBridge : Bool
  peerSettings : PeerSettings
  connectionRecvWindow : Nat
  connectionSendWindow : Nat
  lastStreamId : Nat
  phase : Phase
  log : List Event

namespace Session

/-- The constructor, with the bridges that are set before the first frame. -/
def new (headersBridge dataBridge goawayBridge : Bool) : Session where
  framesReceived := 0
  seenNonSettingsFrame := false
  serverSettingsSent := false
  settingsAckReceived := false
  awaitingSettingsAck := false
  streams := ∅
  pendingWriteQueue := []
  hpackDecoder := HpackDecoder.new 4096
  hpackEncoder := HpackEncoder.new 4096
  hasHeadersBridge := headersBridge
  hasDataBridge := dataBridge
  hasGoawayBridge := goawayBridge
  peerSettings := {}
  connectionRecvWindow := localSettings.initialWindowSize
  connectionSendWindow := ({} : PeerSettings).initialWindowSize
  lastStreamId := 0
  phase := .ready
  log := []

variable (s : Session) (streamId : Nat)

def emit (e : Event) : Session := { s with log := s.log ++ [e] }

def sendFrame (f : Frame) : Session := s.emit (.wrote f)

def close : Session := s.emit .closed

/-- An assignment to the entry of a stream, which does nothing once the entry is gone. -/
def update (f : StreamEntry → StreamEntry) : Session :=
  { s with streams := modify s.streams streamId f }

def erase (s : Session) (streamId : Nat) : Session :=
  { s with streams := s.streams.erase streamId }

def stop : Session := { s with phase := .stopped }

def openStreamCount : Nat :=
  count s.streams fun stream => stream.state = .open ∨ stream.state = .halfClosedLocal ∨
    stream.state = .halfClosedRemote

variable (error : ErrorCode)

def closeWithGoaway : Session :=
  (s.sendFrame (makeGoaway error s.lastStreamId)).close.stop

/-- What happens to a stream after a frame with END_STREAM has been sent on it.  The source writes
it out in each place. -/
def endLocal : Session :=
  { s with streams := match s.streams.lookup streamId with
      | some stream =>
        if stream.state = .open then
          modify s.streams streamId ({ · with state := .halfClosedLocal })
        else if stream.state = .halfClosedRemote then s.streams.erase streamId
        else s.streams
      | none => s.streams }

/-- The entry that `get_or_create_stream` makes. -/
def newStream : StreamEntry :=
  { state := .open
    recvWindow := localSettings.initialWindowSize
    sendWindow := s.peerSettings.initialWindowSize }

def getOrCreateStream : Session :=
  match s.streams.lookup streamId with
  | some _ => s
  | none =>
    { s with
      streams := s.streams.insert streamId s.newStream
      lastStreamId := max s.lastStreamId streamId }

def appendSetting (id value : Nat) : List UInt8 :=
  [UInt8.ofNat ((id >>> 8) &&& 0xff), UInt8.ofNat (id &&& 0xff)] ++ fourBytes 0xff value

/-- `on_preface_received`, which sends the settings of the server once. -/
def onPrefaceReceived : Session :=
  if s.serverSettingsSent then s
  else
    let payload := appendSetting 0x1 localSettings.headerTableSize ++
      (if localSettings.enablePush then [] else appendSetting 0x2 0) ++
      appendSetting 0x3 localSettings.maxConcurrentStreams ++
      appendSetting 0x4 localSettings.initialWindowSize ++
      appendSetting 0x5 localSettings.maxFrameSize ++
      appendSetting 0x6 localSettings.maxHeaderListSize
    { s.sendFrame ⟨.settings, flagNone, 0, payload⟩ with
      serverSettingsSent := true, awaitingSettingsAck := true }

def sendHeaders (headers : List HpackHeaderField) (endStream : Bool) : Session :=
  if streamId = 0 then s
  else
    let encoded := s.hpackEncoder.encodeHeaders headers
    let flags := if endStream then flagEndHeaders ||| flagEndStream else flagEndHeaders
    let s := { s with hpackEncoder := encoded.2 }.sendFrame ⟨.headers, flags, streamId, encoded.1⟩
    if endStream then s.endLocal streamId else s

def makeData (payload : List UInt8) (endStream : Bool) : Frame :=
  ⟨.data, if endStream then flagEndStream else flagNone, streamId, payload⟩

/-- The size of the next DATA frame for `remaining` bytes. -/
def chunkSize (stream : StreamEntry) (remaining : Nat) : Nat :=
  min s.peerSettings.maxFrameSize
    (min remaining (min s.connectionSendWindow stream.sendWindow))

def sendChunk (chunk : List UInt8) (endStream : Bool) : Session :=
  let s := s.sendFrame (makeData streamId chunk endStream)
  { s with connectionSendWindow := s.connectionSendWindow - chunk.length }.update streamId
    fun stream => { stream with sendWindow := stream.sendWindow - chunk.length }

/-- The loop of `send_data` over the bytes that are left.  Each turn sends at least one byte, so the
number of bytes bounds the number of turns. -/
def sendLoop (streamId : Nat) (endStream : Bool) : Nat → Session → List UInt8 → Session
  | _, s, [] => if endStream then s.endLocal streamId else s
  | 0, s, _ :: _ => s
  | n + 1, s, b :: data =>
    match s.streams.lookup streamId with
    | none => s
    | some stream =>
      if min s.connectionSendWindow stream.sendWindow = 0 then
        { s with pendingWriteQueue := s.pendingWriteQueue ++ [streamId] }.update streamId
          ({ · with
            pendingWrite := { data := b :: data, offset := 0, endStream := endStream }
            hasPendingWrite := true })
      else
        let size := s.chunkSize stream (b :: data).length
        let s := s.sendChunk streamId ((b :: data).take size)
          (endStream && decide ((b :: data).length ≤ size))
        sendLoop streamId endStream n s ((b :: data).drop size)

def sendData (data : List UInt8) (endStream : Bool) : Session :=
  if streamId = 0 then s
  else
    match s.streams.lookup streamId with
    | none => s
    | some stream =>
      if stream.hasPendingWrite then
        s.update streamId fun stream => { stream with
          pendingWrite := { stream.pendingWrite with
            data := stream.pendingWrite.data ++ data
            endStream := stream.pendingWrite.endStream || endStream } }
      else if data.length = 0 then
        if endStream then (s.sendFrame (makeData streamId [] true)).endLocal streamId else s
      else sendLoop streamId endStream data.length s data

/-- `send_data` for a `ByteBuffer`, which writes a body that fits in one frame and in the windows
without a copy. -/
def sendDataBuffer (body : List UInt8) (endStream : Bool) : Session :=
  if body.length = 0 then s.sendData streamId [] endStream
  else if streamId = 0 then s
  else
    match s.streams.lookup streamId with
    | none => s.sendData streamId body endStream
    | some stream =>
      if stream.hasPendingWrite then s.sendData streamId body endStream
      else if body.length ≤ min s.connectionSendWindow stream.sendWindow ∧
          body.length ≤ s.peerSettings.maxFrameSize then
        let s := s.sendChunk streamId body endStream
        if endStream then s.endLocal streamId else s
      else s.sendData streamId body endStream

/-- `std::to_string`. -/
def decimal (n : Nat) : List UInt8 := (Nat.toDigits 10 n).map fun c => UInt8.ofNat c.toNat

/-- The headers of `send_simple_response`. -/
def simpleHeaders (status : Nat) (contentType body : List UInt8) : List HpackHeaderField :=
  [⟨ascii ":status", decimal status⟩] ++
    (if contentType.isEmpty then [] else [⟨ascii "content-type", contentType⟩]) ++
    (if body.isEmpty then [] else [⟨ascii "content-length", decimal body.length⟩])

def sendSimpleResponse (status : Nat) (contentType body : List UInt8) : Session :=
  if streamId = 0 then s
  else
    let s := s.sendHeaders streamId (simpleHeaders status contentType body) body.isEmpty
    if body.isEmpty then s else s.sendData streamId body true

def sendRstStream : Session :=
  if streamId = 0 then s else (s.sendFrame (makeRstStream streamId error)).erase streamId

def sendGoaway : Session :=
  let s := s.sendFrame (makeGoaway error s.lastStreamId)
  if s.hasGoawayBridge then s.emit (.goawayBridge error s.lastStreamId) else s

def closeGracefully : Session :=
  let s := s.sendFrame (makeGoaway .noError s.lastStreamId)
  { s with
    pendingWriteQueue := []
    streams := mapValues s.streams ({ · with hasPendingWrite := false }) }

def call (c : Call) : Session :=
  let s := s.emit (.called c)
  match c with
  | .onPrefaceReceived => s.onPrefaceReceived
  | .sendHeaders streamId headers endStream => s.sendHeaders streamId headers endStream
  | .sendData streamId data endStream => s.sendData streamId data endStream
  | .sendDataBuffer streamId body endStream => s.sendDataBuffer streamId body endStream
  | .sendSimpleResponse streamId status contentType body =>
    s.sendSimpleResponse streamId status contentType body
  | .sendRstStream streamId error => s.sendRstStream streamId error
  | .sendGoaway error => s.sendGoaway error
  | .closeGracefully => s.closeGracefully

/-- The inner loop of `flush_pending_writes`, with `n` bytes left: the session after it, and whether
all bytes have been sent. -/
def flushStream (streamId : Nat) : Nat → Session → Session × Bool
  | 0, s => (s, true)
  | n + 1, s =>
    match s.streams.lookup streamId with
    | none => (s, false)
    | some stream =>
      let pw := stream.pendingWrite
      let rest := pw.data.drop pw.offset
      if rest.length = 0 then (s, true)
      else if min s.connectionSendWindow stream.sendWindow = 0 then (s, false)
      else
        let size := s.chunkSize stream rest.length
        let s := s.sendChunk streamId (rest.take size)
          (pw.endStream && decide (rest.length ≤ size))
        flushStream streamId n (s.update streamId fun stream => { stream with
          pendingWrite := { stream.pendingWrite with
            offset := stream.pendingWrite.offset + size } })

def flushQueue : List Nat → Session → Session
  | [], s => { s with pendingWriteQueue := [] }
  | streamId :: queue, s =>
    match s.streams.lookup streamId with
    | none => flushQueue queue s
    | some stream =>
      if stream.hasPendingWrite then
        let pw := stream.pendingWrite
        let flushed := flushStream streamId (pw.data.length - pw.offset) s
        if flushed.2 then
          let s := flushed.1.update streamId ({ · with hasPendingWrite := false })
          flushQueue queue (if pw.endStream then s.endLocal streamId else s)
        else { flushed.1 with pendingWriteQueue := streamId :: queue }
      else flushQueue queue s

def flushPendingWrites : Session := flushQueue s.pendingWriteQueue s

def applySettings : List UInt8 → Session → Session
  | i :: i' :: a :: b :: c :: d :: payload, s =>
    let value := readU32 a b c d
    match (i.toNat <<< 8) ||| i'.toNat with
    | 0x1 => applySettings payload
        { s with
          peerSettings := { s.peerSettings with headerTableSize := value }
          hpackEncoder := s.hpackEncoder.setMaxTableSize value }
    | 0x2 => applySettings payload
        { s with peerSettings := { s.peerSettings with enablePush := value ≠ 0 } }
    | 0x3 => applySettings payload
        { s with peerSettings := { s.peerSettings with maxConcurrentStreams := value } }
    | 0x4 =>
      if h : value > 2147483647 then
        (s.sendFrame (makeGoaway .flowControlError s.lastStreamId)).close
      else applySettings payload
        { s with peerSettings := { s.peerSettings with
            initialWindowSize := value, initialWindowSize_le := Nat.not_lt.mp h } }
    | 0x5 =>
      if h : value < 16384 ∨ value > 16777215 then
        (s.sendFrame (makeGoaway .protocolError s.lastStreamId)).close
      else applySettings payload
        { s with peerSettings := { s.peerSettings with
            maxFrameSize := value, maxFrameSize_ge := Nat.not_lt.mp (not_or.mp h).1 } }
    | 0x6 => applySettings payload
        { s with peerSettings := { s.peerSettings with maxHeaderListSize := value } }
    | _ => applySettings payload s
  | _, s => s

variable (f : Frame)

def applyPeerSettings : Session :=
  if f.payload.length % 6 ≠ 0 then s else applySettings f.payload s

def handleSettingsAck : Session :=
  { s with awaitingSettingsAck := false, settingsAckReceived := true }

def handleFirst : Session :=
  if f.type ≠ .settings then s.closeWithGoaway .protocolError
  else if f.has flagAck ∧ f.length ≠ 0 then s.closeWithGoaway .frameSizeError
  else
    let s := if f.has flagAck then s.handleSettingsAck
      else (s.applyPeerSettings f).sendFrame makeSettingsAck
    { s with seenNonSettingsFrame := true }

def handleSettings : Session :=
  if f.streamId ≠ 0 then s.closeWithGoaway .protocolError
  else if f.has flagAck then
    if f.length ≠ 0 then s.closeWithGoaway .frameSizeError else s.handleSettingsAck
  else if f.length % 6 ≠ 0 then s.closeWithGoaway .frameSizeError
  else (s.applyPeerSettings f).sendFrame makeSettingsAck

def handlePing : Session :=
  if f.length ≠ 8 ∨ f.streamId ≠ 0 then s.closeWithGoaway .frameSizeError
  else if f.has flagAck then s
  else s.sendFrame (makePingAck f)

/-- An id that has no entry gets one, in state `idle`. -/
def addIdle : Session :=
  match s.streams.lookup streamId with
  | some _ => s
  | none => { s with streams := s.streams.insert streamId {} }

def handlePriority : Session :=
  match f.payload with
  | [a, b, c, d, w] =>
    if f.streamId = 0 then s.closeWithGoaway .protocolError
    else
      let rawDep := readU32 a b c d
      (s.addIdle f.streamId).update f.streamId ({ · with
        exclusive := rawDep &&& 0x80000000 ≠ 0
        parentStreamId := rawDep &&& 0x7fffffff
        weight := (w.toNat + 1) % 256 })
  | _ => s.closeWithGoaway .protocolError

/-- `validate_stream_state` for DATA, HEADERS, and CONTINUATION: the session, and whether the frame
may come. -/
def validateStreamState : Session × Bool :=
  match s.streams.lookup streamId with
  | none => (s, !decide (streamId ≤ s.lastStreamId ∧ streamId % 2 = 1))
  | some stream =>
    if stream.state = .halfClosedRemote ∨ stream.state = .closed then
      (s.sendRstStream streamId .streamClosed, false)
    else (s, true)

/-- `maybe_decode_hpack`, which puts the decoded headers in the place of the block that it
decodes. -/
def maybeDecodeHpack (stream : StreamEntry) : Session × Bool :=
  let decoded := s.hpackDecoder.decode stream.headerBlock
  let s := { s with hpackDecoder := decoded.2 }.emit (.decoded streamId stream.headerBlock)
  match decoded.1 with
  | none => (s, false)
  | some [] => (s, true)
  | some headers =>
    if (headers.map fun h => 32 + h.name.length + h.value.length).sum >
        localSettings.maxHeaderListSize then (s, false)
    else if stream.receivedData ∧ (headers.any fun h => h.name.head? == some 58) then (s, false)
    else
      let plain := headers.flatMap fun h => h.name ++ ascii ": " ++ h.value ++ ascii "\r\n"
      (s.update streamId ({ · with headerBlock := plain }), true)

def finishHeaders (endStream : Bool) : Session :=
  let s := s.update streamId fun stream => { stream with
    headerBlock := []
    waitingContinuation := false
    state := if endStream then .halfClosedRemote else stream.state }
  { s with phase := .ready }

def finalizeHeaderBlock (stream : StreamEntry) (endStream : Bool) : Session :=
  if s.hasHeadersBridge then
    { s.emit (.headersBridge streamId stream.headerBlock endStream) with
      phase := .inHeadersBridge streamId endStream }
  else s.finishHeaders streamId endStream

/-- The end of `handle_frame` for HEADERS and CONTINUATION with END_HEADERS. -/
def completeHeaders (stream : StreamEntry) (endStream : Bool) : Session :=
  let (s, ok) := s.maybeDecodeHpack streamId stream
  if ok then
    match s.streams.lookup streamId with
    | some stream => s.finalizeHeaderBlock streamId stream endStream
    | none => s
  else (s.sendGoaway .protocolError).close.stop

def acceptHeaders (stream : StreamEntry) : Session :=
  let stream := { stream with
    headerBlock := f.payload
    headersEndStream := f.has flagEndStream
    continuationCount := 0 }
  let s := s.update f.streamId fun _ => stream
  if stream.headerBlock.length > kMaxHeaderBlockSize then
    (s.sendGoaway .enhanceYourCalm).close.stop
  else if f.has flagEndHeaders then s.completeHeaders f.streamId stream (f.has flagEndStream)
  else s.update f.streamId ({ · with waitingContinuation := true })

def handleHeaders : Session :=
  if f.streamId = 0 then s.closeWithGoaway .protocolError
  else if f.streamId % 2 = 0 then s.closeWithGoaway .protocolError
  else if f.streamId ≤ s.lastStreamId ∧ s.streams.lookup f.streamId = none then
    s.closeWithGoaway .protocolError
  else
    let (s, ok) := s.validateStreamState f.streamId
    if !ok then s
    else if s.openStreamCount ≥ localSettings.maxConcurrentStreams ∧
        s.streams.lookup f.streamId = none then
      s.sendFrame (makeRstStream f.streamId .refusedStream)
    else
      let s := s.getOrCreateStream f.streamId
      match s.streams.lookup f.streamId with
      | none => s.closeWithGoaway .internalError
      | some stream =>
        if stream.waitingContinuation then s.closeWithGoaway .protocolError
        else s.acceptHeaders f stream

def acceptContinuation (stream : StreamEntry) : Session :=
  let stream := { stream with
    headerBlock := stream.headerBlock ++ f.payload
    continuationCount := stream.continuationCount + 1 }
  let s := s.update f.streamId fun _ => stream
  if stream.continuationCount > kMaxContinuationFrames then
    (s.sendGoaway .enhanceYourCalm).close.stop
  else if stream.headerBlock.length > kMaxHeaderBlockSize then
    (s.sendGoaway .enhanceYourCalm).close.stop
  else if f.has flagEndHeaders then s.completeHeaders f.streamId stream stream.headersEndStream
  else s

def handleContinuation : Session :=
  if f.streamId = 0 then s.closeWithGoaway .protocolError
  else
    let (s, ok) := s.validateStreamState f.streamId
    if !ok then s
    else
      match s.streams.lookup f.streamId with
      | none => s.closeWithGoaway .protocolError
      | some stream =>
        if !stream.waitingContinuation then s.closeWithGoaway .protocolError
        else s.acceptContinuation f stream

def sendWindowUpdate (increment : Nat) : Session :=
  if increment = 0 then s
  else s.sendFrame ⟨.windowUpdate, flagNone, streamId, fourBytes 0x7f increment⟩

def kWindowUpdateThreshold : Nat := 32768

def checkConnectionWindow (bytesConsumed : Nat) : Session :=
  if bytesConsumed = 0 then s
  else if s.connectionRecvWindow < localSettings.initialWindowSize / 2 ∨
      bytesConsumed ≥ kWindowUpdateThreshold then
    let increment := localSettings.initialWindowSize - s.connectionRecvWindow
    if increment > 0 then
      { s with
        connectionRecvWindow := localSettings.initialWindowSize }.sendWindowUpdate 0 increment
    else s
  else s

def checkStreamWindow (bytesConsumed : Nat) : Session :=
  if bytesConsumed = 0 then s
  else
    match s.streams.lookup streamId with
    | none => s
    | some stream =>
      if stream.recvWindow < localSettings.initialWindowSize / 2 ∨
          bytesConsumed ≥ kWindowUpdateThreshold then
        let increment := localSettings.initialWindowSize - stream.recvWindow
        if increment > 0 then
          (s.update streamId
            ({ · with recvWindow := localSettings.initialWindowSize })).sendWindowUpdate streamId
              increment
        else s
      else s

def finishData (dataSize : Nat) (endStream : Bool) : Session :=
  let s := (s.checkConnectionWindow dataSize).checkStreamWindow streamId dataSize
  let s := if endStream then s.update streamId ({ · with state := .halfClosedRemote }) else s
  { s with phase := .ready }

/-- `handle_frame` for DATA that `stream` takes. -/
def acceptData (stream : StreamEntry) : Session :=
  let dataSize := f.payload.length
  let s := s.update f.streamId fun stream => { stream with
    receivedBytes := (stream.receivedBytes + dataSize) % 2 ^ 64
    receivedData := true }
  if dataSize > s.connectionRecvWindow then s.closeWithGoaway .flowControlError
  else
    let s := { s with connectionRecvWindow := s.connectionRecvWindow - dataSize }
    if dataSize > stream.recvWindow then s.closeWithGoaway .flowControlError
    else
      let s := s.update f.streamId fun stream =>
        { stream with recvWindow := stream.recvWindow - dataSize }
      if s.hasDataBridge then
        { s.emit (.dataBridge f.streamId f.payload (f.has flagEndStream)) with
          phase := .inDataBridge f.streamId dataSize (f.has flagEndStream) }
      else s.finishData f.streamId dataSize (f.has flagEndStream)

def handleData : Session :=
  if f.streamId = 0 then s.closeWithGoaway .protocolError
  else
    let (s, ok) := s.validateStreamState f.streamId
    if !ok then s
    else
      match s.streams.lookup f.streamId with
      | none => s.closeWithGoaway .protocolError
      | some stream =>
        if stream.waitingContinuation then s.closeWithGoaway .protocolError
        else s.acceptData f stream

def windowIncrement (a b c d : UInt8) : Nat :=
  ((a.toNat &&& 0x7f) <<< 24) ||| (b.toNat <<< 16) ||| (c.toNat <<< 8) ||| d.toNat

/-- `handle_frame` for WINDOW_UPDATE.  The windows are 32-bit numbers, and only a sum that wraps
around is an error. -/
def handleWindowUpdate : Session :=
  match f.payload with
  | [a, b, c, d] =>
    let increment := windowIncrement a b c d
    if increment = 0 then
      if f.streamId = 0 then s.closeWithGoaway .protocolError
      else s.sendFrame (makeRstStream f.streamId .protocolError)
    else if f.streamId = 0 then
      let window := (s.connectionSendWindow + increment) % 2 ^ 32
      let s' := { s with connectionSendWindow := window }
      if window < s.connectionSendWindow then s'.closeWithGoaway .flowControlError
      else s'.flushPendingWrites
    else
      match s.streams.lookup f.streamId with
      | none => s
      | some stream =>
        let window := (stream.sendWindow + increment) % 2 ^ 32
        let s' := s.update f.streamId ({ · with sendWindow := window })
        if window < stream.sendWindow then s'.sendRstStream f.streamId .flowControlError
        else s'.flushPendingWrites
  | _ => s.closeWithGoaway .frameSizeError

def handleRstStream : Session :=
  if f.length ≠ 4 ∨ f.streamId = 0 then s.closeWithGoaway .protocolError
  else s.erase f.streamId

def handleFrame : Session :=
  if !s.seenNonSettingsFrame then s.handleFirst f
  else
    match f.type with
    | .settings => s.handleSettings f
    | .ping => s.handlePing f
    | .priority => s.handlePriority f
    | .headers => s.handleHeaders f
    | .data => s.handleData f
    | .continuation => s.handleContinuation f
    | .windowUpdate => s.handleWindowUpdate f
    | .rstStream => s.handleRstStream f
    | .goaway => s.close.stop
    | .pushPromise => s
    | .other _ => s

/-- What a run is made of: a frame is handled, the user makes a call, which may be from inside of a
bridge, or a bridge returns. -/
inductive Label
  | recv (frame : Frame)
  | call (call : Call)
  | ret
deriving DecidableEq

/-- One step.  Frames come only outside of the bridges, and none comes after `handle_frame` has
returned false. -/
def step (l : Label) : Session :=
  match l, s.phase with
  | .recv f, .ready =>
    { s.emit (.received f) with framesReceived := s.framesReceived + 1 }.handleFrame f
  | .recv _, _ => s
  | .call c, _ => s.call c
  | .ret, .inHeadersBridge streamId endStream => s.finishHeaders streamId endStream
  | .ret, .inDataBridge streamId dataSize endStream => s.finishData streamId dataSize endStream
  | .ret, _ => s

end Session

end ServerLib.Http2

import ServerLib.Http2.Keeping

/-! What a step does to the receiving side of a session: to the states of the streams, to the blocks
of headers that are open, and to what the bridges are given. -/

namespace ServerLib.Http2

open Lib List Option AList

/-- What the bridges are told: the stream, and whether the peer has ended it. -/
def Event.delivers : Event → Option (Nat × Bool)
  | .headersBridge streamId _ endStream => some (streamId, endStream)
  | .dataBridge streamId _ endStream => some (streamId, endStream)
  | _ => none

/-- The stream of the bridge that the session is in, and whether the peer has ended it. -/
def Phase.bridge : Phase → Option (Nat × Bool)
  | .inHeadersBridge streamId endStream => some (streamId, endStream)
  | .inDataBridge streamId _ endStream => some (streamId, endStream)
  | .ready | .stopped => none

namespace StreamEntry

def withHeaders (stream : StreamEntry) (f : Frame) : StreamEntry :=
  { stream with
    headerBlock := f.payload
    headersEndStream := f.has flagEndStream
    continuationCount := 0 }

def withContinuation (stream : StreamEntry) (f : Frame) : StreamEntry :=
  { stream with
    headerBlock := stream.headerBlock ++ f.payload
    continuationCount := stream.continuationCount + 1 }

end StreamEntry

namespace Session

/-- A block has been decoded, and `raw` is in its place. -/
def decodeBlock (s : Session) (streamId : Nat) (block raw : List UInt8) (decoder : HpackDecoder) :
    Session :=
  ({ s with hpackDecoder := decoder }.emit (.decoded streamId block)).update streamId
    ({ · with headerBlock := raw })

variable {s s' : Session}

theorem update_eq_self (h : ∀ stream, s.streams.lookup streamId = some stream → g stream = stream) :
    s.update streamId g = s := by
  rw [update, modify_eq_self h]

theorem maybeDecodeHpack_eq (hlookup : s.streams.lookup streamId = some stream) :
    ∃ raw decoder ok, s.maybeDecodeHpack streamId stream =
      (s.decodeBlock streamId stream.headerBlock raw decoder, ok) := by
  have hsame : ∀ s' : Session, s'.streams = s.streams →
      s'.update streamId ({ · with headerBlock := stream.headerBlock }) = s' := by
    intro s' hstreams
    refine update_eq_self fun stream' h => ?_
    rw [hstreams, hlookup] at h
    rw [← some.inj h]
  rw [maybeDecodeHpack]
  set decoded := s.hpackDecoder.decode stream.headerBlock
  have hplain := hsame ({ s with hpackDecoder := decoded.2 }.emit
    (.decoded streamId stream.headerBlock)) rfl
  split
  · exact ⟨stream.headerBlock, decoded.2, false, by rw [decodeBlock, hplain]⟩
  · exact ⟨stream.headerBlock, decoded.2, true, by rw [decodeBlock, hplain]⟩
  split
  · exact ⟨stream.headerBlock, decoded.2, false, by rw [decodeBlock, hplain]⟩
  split
  · exact ⟨stream.headerBlock, decoded.2, false, by rw [decodeBlock, hplain]⟩
  · exact ⟨_, decoded.2, true, rfl⟩

/-- What happens to a block that is complete. -/
inductive Completed (s : Session) (streamId : Nat) (block : List UInt8) (endStream : Bool) :
    Session → Prop
  | failed (raw : List UInt8) (decoder : HpackDecoder) :
      Completed s streamId block endStream
        ((s.decodeBlock streamId block raw decoder).sendGoaway .protocolError).close.stop
  | bridged (raw : List UInt8) (decoder : HpackDecoder) :
      Completed s streamId block endStream
        { (s.decodeBlock streamId block raw decoder).emit
            (.headersBridge streamId raw endStream) with
          phase := .inHeadersBridge streamId endStream }
  | finished (raw : List UInt8) (decoder : HpackDecoder) :
      Completed s streamId block endStream
        ((s.decodeBlock streamId block raw decoder).finishHeaders streamId endStream)

theorem completed_completeHeaders (hlookup : s.streams.lookup streamId = some stream)
    (endStream : Bool) :
    Completed s streamId stream.headerBlock endStream
      (s.completeHeaders streamId stream endStream) := by
  obtain ⟨raw, decoder, ok, hdecode⟩ := maybeDecodeHpack_eq hlookup
  have hafter : (s.decodeBlock streamId stream.headerBlock raw decoder).streams.lookup streamId =
      some { stream with headerBlock := raw } := by
    rw [decodeBlock, update, lookup_modify_self]
    show (s.streams.lookup streamId).map _ = _
    rw [hlookup]
    rfl
  rw [completeHeaders, hdecode]
  cases ok with
  | false => exact .failed raw decoder
  | true =>
    simp only [if_true, hafter]
    rw [finalizeHeaderBlock]
    split
    · exact .bridged raw decoder
    · exact .finished raw decoder

/-- What happens to a block that HEADERS or CONTINUATION has added to. -/
inductive BlockTaken (s : Session) (streamId : Nat) (block : List UInt8)
    (endHeaders endStream : Bool) : Session → Prop
  | tooLong :
      BlockTaken s streamId block endHeaders endStream (s.sendGoaway .enhanceYourCalm).close.stop
  | waits (hflag : endHeaders = false) :
      BlockTaken s streamId block endHeaders endStream
        (s.update streamId ({ · with waitingContinuation := true }))
  | completed (hflag : endHeaders = true) {s' : Session}
      (h : Completed s streamId block endStream s') :
      BlockTaken s streamId block endHeaders endStream s'

theorem lookup_update_const (hlookup : s.streams.lookup streamId = some stream)
    (stream' : StreamEntry) :
    (s.update streamId fun _ => stream').streams.lookup streamId = some stream' := by
  rw [update, lookup_modify_self, hlookup]
  rfl

theorem blockTaken_acceptHeaders (hlookup : s.streams.lookup f.streamId = some stream) :
    BlockTaken (s.update f.streamId fun _ => stream.withHeaders f) f.streamId f.payload
      (f.has flagEndHeaders) (f.has flagEndStream) (s.acceptHeaders f stream) := by
  have hstore := lookup_update_const hlookup (stream.withHeaders f)
  rw [acceptHeaders]
  split
  · exact .tooLong
  split_ifs with hflag
  · exact .completed hflag (completed_completeHeaders hstore _)
  · exact .waits (Bool.eq_false_iff.mpr hflag)

theorem blockTaken_acceptContinuation (hlookup : s.streams.lookup f.streamId = some stream)
    (hwaiting : stream.waitingContinuation) :
    BlockTaken (s.update f.streamId fun _ => stream.withContinuation f) f.streamId
      (stream.headerBlock ++ f.payload) (f.has flagEndHeaders) stream.headersEndStream
      (s.acceptContinuation f stream) := by
  have hstore := lookup_update_const hlookup (stream.withContinuation f)
  rw [acceptContinuation]
  split
  · exact .tooLong
  split
  · exact .tooLong
  split_ifs with hflag
  · exact .completed hflag (completed_completeHeaders hstore _)
  -- the entry has been waiting all along
  have hsame : (s.update f.streamId fun _ => stream.withContinuation f).update f.streamId
      ({ · with waitingContinuation := true }) =
      s.update f.streamId fun _ => stream.withContinuation f := by
    refine update_eq_self fun stream' h => ?_
    rw [hstore] at h
    rw [← some.inj h, StreamEntry.withContinuation, ← hwaiting]
  have hwaits : BlockTaken (s.update f.streamId fun _ => stream.withContinuation f) f.streamId
      (stream.headerBlock ++ f.payload) (f.has flagEndHeaders) stream.headersEndStream
      ((s.update f.streamId fun _ => stream.withContinuation f).update f.streamId
        ({ · with waitingContinuation := true })) :=
    BlockTaken.waits (Bool.eq_false_iff.mpr hflag)
  rw [hsame] at hwaits
  exact hwaits

/-- On one stream the counters and the windows for what is received may have changed, and
WINDOW_UPDATE frames may have been sent. -/
structure Counted (streamId : Nat) (s s' : Session) : Prop where
  phase : s'.phase = s.phase
  lastStreamId : s'.lastStreamId = s.lastStreamId
  streams : ∀ id, id ≠ streamId → s'.streams.lookup id = s.streams.lookup id
  stream : ∀ stream', s'.streams.lookup streamId = some stream' →
    ∃ stream, s.streams.lookup streamId = some stream ∧ stream'.state = stream.state ∧
      stream'.waitingContinuation = stream.waitingContinuation ∧
      stream'.headerBlock = stream.headerBlock
  log : ∃ events, s'.log = s.log ++ events ∧ ∀ e ∈ events, e.inert = true

theorem append_nil_inert (log : List Event) :
    ∃ events, log = log ++ events ∧ ∀ e ∈ events, e.inert :=
  ⟨[], (append_nil _).symm, nofun⟩

namespace Counted

theorem of_eq (hphase : s'.phase = s.phase) (hlast : s'.lastStreamId = s.lastStreamId)
    (hstreams : s'.streams = s.streams)
    (hlog : ∃ events, s'.log = s.log ++ events ∧ ∀ e ∈ events, e.inert) :
    Counted streamId s s' :=
  ⟨hphase, hlast, fun _ _ => by rw [hstreams], fun stream' h => by
    rw [hstreams] at h
    exact ⟨stream', h, rfl, rfl, rfl⟩, hlog⟩

theorem refl (s : Session) : Counted streamId s s := of_eq rfl rfl rfl (append_nil_inert _)

theorem trans (h : Counted streamId s s') (h' : Counted streamId s' s'') :
    Counted streamId s s'' where
  phase := h'.phase.trans h.phase
  lastStreamId := h'.lastStreamId.trans h.lastStreamId
  streams id hid := (h'.streams id hid).trans (h.streams id hid)
  stream stream'' hlookup'' := by
    obtain ⟨stream', hlookup', hstate', hwaiting', hblock'⟩ := h'.stream stream'' hlookup''
    obtain ⟨stream, hlookup, hstate, hwaiting, hblock⟩ := h.stream stream' hlookup'
    exact ⟨stream, hlookup, hstate'.trans hstate, hwaiting'.trans hwaiting, hblock'.trans hblock⟩
  log := append_events h.log h'.log

theorem update (s : Session) (hg : ∀ stream : StreamEntry, (g stream).state = stream.state ∧
      (g stream).waitingContinuation = stream.waitingContinuation ∧
      (g stream).headerBlock = stream.headerBlock) : Counted streamId s (s.update streamId g) := by
  refine ⟨rfl, rfl, fun _ hid => lookup_modify_of_ne _ hid g, fun stream' h => ?_,
    append_nil_inert _⟩
  rw [Session.update, lookup_modify_self] at h
  obtain ⟨stream, hlookup, rfl⟩ := map_eq_some_iff.mp h
  exact ⟨stream, hlookup, hg stream⟩

end Counted

theorem counted_sendWindowUpdate (s : Session) (streamId id increment : Nat) :
    Counted streamId s (s.sendWindowUpdate id increment) := by
  rw [sendWindowUpdate]
  split
  · exact .refl s
  · exact .of_eq rfl rfl rfl ⟨[_], rfl, forall_mem_singleton.mpr rfl⟩

theorem counted_checkConnectionWindow (s : Session) (streamId bytesConsumed : Nat) :
    Counted streamId s (s.checkConnectionWindow bytesConsumed) := by
  rw [checkConnectionWindow]
  split
  · exact .refl s
  split
  · dsimp only
    split
    · refine .trans ?_ (counted_sendWindowUpdate _ streamId _ _)
      exact .of_eq rfl rfl rfl (append_nil_inert _)
    · exact .refl s
  · exact .refl s

theorem counted_checkStreamWindow (s : Session) (streamId bytesConsumed : Nat) :
    Counted streamId s (s.checkStreamWindow streamId bytesConsumed) := by
  rw [checkStreamWindow]
  split
  · exact .refl s
  split
  · exact .refl s
  split
  · dsimp only
    split
    · refine .trans ?_ (counted_sendWindowUpdate _ streamId _ _)
      exact .update s fun _ => ⟨rfl, rfl, rfl⟩
    · exact .refl s
  · exact .refl s

/-- What happens to a DATA frame that a stream takes. -/
inductive DataTaken (s : Session) (f : Frame) : Session → Prop
  | overflow {s' : Session} (h : Counted f.streamId s s') :
      DataTaken s f (s'.closeWithGoaway .flowControlError)
  | bridged {s' : Session} (h : Counted f.streamId s s') :
      DataTaken s f { s'.emit (.dataBridge f.streamId f.payload (f.has flagEndStream)) with
        phase := .inDataBridge f.streamId f.payload.length (f.has flagEndStream) }
  | finished {s' : Session} (h : Counted f.streamId s s') :
      DataTaken s f (s'.finishData f.streamId f.payload.length (f.has flagEndStream))

theorem dataTaken_acceptData (s : Session) (f : Frame) (stream : StreamEntry) :
    DataTaken s f (s.acceptData f stream) := by
  rw [acceptData]
  dsimp only
  set g : StreamEntry → StreamEntry := fun stream => { stream with
    receivedBytes := (stream.receivedBytes + f.payload.length) % 2 ^ 64
    receivedData := true }
  have hcount : Counted f.streamId s (s.update f.streamId g) :=
    Counted.update s fun _ => ⟨rfl, rfl, rfl⟩
  generalize s.update f.streamId g = s₁ at hcount
  split
  · exact .overflow hcount
  have hconnection : Counted f.streamId s
      { s₁ with connectionRecvWindow := s₁.connectionRecvWindow - f.payload.length } :=
    hcount.trans (.of_eq rfl rfl rfl (append_nil_inert _))
  split
  · exact .overflow hconnection
  have hwindow : Counted f.streamId s (({ s₁ with
      connectionRecvWindow := s₁.connectionRecvWindow - f.payload.length } : Session).update
        f.streamId fun stream => { stream with
          recvWindow := stream.recvWindow - f.payload.length }) := by
    refine hconnection.trans (.update _ ?_)
    exact fun _ => ⟨rfl, rfl, rfl⟩
  split
  · exact .bridged hwindow
  · exact .finished hwindow

/-- The streams are the same, and `handle_frame` may have returned false. -/
structure Passive (s s' : Session) : Prop where
  phase : s'.phase = s.phase ∨ s'.phase = .stopped
  lastStreamId : s'.lastStreamId = s.lastStreamId
  streams : s'.streams = s.streams
  log : ∃ events, s'.log = s.log ++ events ∧ ∀ e ∈ events, e.inert = true

theorem Passive.trans (h : Passive s s') (h' : Passive s' s'') : Passive s s'' where
  phase := by
    rcases h'.phase with hphase | hphase
    · rw [hphase]
      exact h.phase
    · exact .inr hphase
  lastStreamId := h'.lastStreamId.trans h.lastStreamId
  streams := h'.streams.trans h.streams
  log := append_events h.log h'.log

theorem Passive.of_eq (hphase : s'.phase = s.phase ∨ s'.phase = .stopped)
    (hlast : s'.lastStreamId = s.lastStreamId := by rfl)
    (hstreams : s'.streams = s.streams := by rfl) (hlog : s'.log = s.log := by rfl) :
    Passive s s' :=
  ⟨hphase, hlast, hstreams, by rw [hlog]; exact append_nil_inert _⟩

theorem passive_emit (s : Session) (he : e.inert) : Passive s (s.emit e) :=
  ⟨.inl rfl, rfl, rfl, [e], rfl, forall_mem_singleton.mpr he⟩

theorem passive_closeStop (s : Session) : Passive s s.close.stop :=
  (passive_emit s rfl).trans (.of_eq (.inr rfl))

theorem passive_closeWithGoaway (s : Session) (error : ErrorCode) :
    Passive s (s.closeWithGoaway error) :=
  (passive_emit s rfl).trans (passive_closeStop _)

theorem passive_abort (s : Session) (error : ErrorCode) :
    Passive s (s.sendGoaway error).close.stop := by
  refine .trans ?_ (passive_closeStop _)
  rw [sendGoaway]
  split
  · exact (passive_emit s rfl).trans (passive_emit _ rfl)
  · exact passive_emit s rfl

/-- The entry of a stream is gone, and RST_STREAM may have been sent. -/
structure Removed (streamId : Nat) (s s' : Session) : Prop where
  phase : s'.phase = s.phase
  lastStreamId : s'.lastStreamId = s.lastStreamId
  absent : s'.streams.lookup streamId = none
  streams : ∀ id, id ≠ streamId → s'.streams.lookup id = s.streams.lookup id
  log : ∃ events, s'.log = s.log ++ events ∧
    ∀ e ∈ events, ∃ error, e = .wrote (makeRstStream streamId error)

theorem removed_erase (s : Session) (streamId : Nat) : Removed streamId s (s.erase streamId) :=
  ⟨rfl, rfl, lookup_erase _ _, fun _ hid => lookup_erase_ne hid, [],
    (append_nil _).symm, nofun⟩

theorem removed_sendRstStream (s : Session) (hid : streamId ≠ 0) (error : ErrorCode) :
    Removed streamId s (s.sendRstStream streamId error) := by
  rw [sendRstStream_eq s hid]
  exact ⟨rfl, rfl, lookup_erase _ _, fun _ hid => lookup_erase_ne hid, [_], rfl,
    forall_mem_singleton.mpr ⟨error, rfl⟩⟩

theorem getOrCreateStream_fields (s : Session) (streamId : Nat) :
    (s.getOrCreateStream streamId).log = s.log ∧
    (s.getOrCreateStream streamId).phase = s.phase := by
  rw [getOrCreateStream]
  split <;> exact ⟨rfl, rfl⟩

theorem lookup_getOrCreateStream_of_ne (s : Session) {id : Nat} (h : id ≠ streamId) :
    (s.getOrCreateStream streamId).streams.lookup id = s.streams.lookup id := by
  rw [getOrCreateStream]
  split
  · rfl
  · exact lookup_insert_ne h

/-- `Reception s f s'` says that on the receiving side `handle_frame` may take `s` to `s'` for the
frame `f`. -/
inductive Reception (s : Session) (f : Frame) (s' : Session) : Prop
  | passive (h : Passive s s')
  | priority (htype : f.type = .priority) (exclusive : Bool) (parentStreamId weight : Nat)
      (h : s' = (s.addIdle f.streamId).update f.streamId
        (·.prioritize exclusive parentStreamId weight))
  | removed (h : Removed f.streamId s s')
  | answered (error : ErrorCode) (h : s' = s.sendFrame (makeRstStream f.streamId error))
      (hcase : s.streams.lookup f.streamId = none ∧ s.lastStreamId < f.streamId ∨
        f.type = .windowUpdate ∧ f.increment = 0)
  | headers (htype : f.type = .headers) (stream : StreamEntry)
      (hlookup : s.streams.lookup f.streamId = some stream) (hstate : stream.receives)
      (hwaiting : stream.waitingContinuation = false)
      (h : BlockTaken (s.update f.streamId fun _ => stream.withHeaders f) f.streamId f.payload
        (f.has flagEndHeaders) (f.has flagEndStream) s')
  | opened (htype : f.type = .headers) (hlookup : s.streams.lookup f.streamId = none)
      (hlast : s.lastStreamId < f.streamId)
      (hcount : s.openStreamCount < localSettings.maxConcurrentStreams)
      (h : BlockTaken ((s.getOrCreateStream f.streamId).update f.streamId
        fun _ => s.newStream.withHeaders f) f.streamId f.payload (f.has flagEndHeaders)
        (f.has flagEndStream) s')
  | data (htype : f.type = .data) (stream : StreamEntry)
      (hlookup : s.streams.lookup f.streamId = some stream) (hstate : stream.receives)
      (hwaiting : stream.waitingContinuation = false) (h : DataTaken s f s')
  | continuation (htype : f.type = .continuation) (stream : StreamEntry)
      (hlookup : s.streams.lookup f.streamId = some stream) (hstate : stream.receives)
      (hwaiting : stream.waitingContinuation = true)
      (h : BlockTaken (s.update f.streamId fun _ => stream.withContinuation f) f.streamId
        (stream.headerBlock ++ f.payload) (f.has flagEndHeaders) stream.headersEndStream s')
  | window (htype : f.type = .windowUpdate) (h : Sends s s')

theorem Handled.reception (h : Handled s f s') : Reception s f s' := by
  cases h with
  | closed error => exact .passive (passive_closeWithGoaway s error)
  | goaway => exact .passive (passive_closeStop s)
  | ignored | settingsAck => exact .passive (.of_eq (.inl rfl))
  | settings =>
    have htuned := tuned_applyPeerSettings s f
    have happly : Passive s (s.applyPeerSettings f) :=
      ⟨.inl htuned.phase, htuned.lastStreamId, htuned.streams, htuned.log⟩
    have hack : Passive s ((s.applyPeerSettings f).sendFrame FrameCodec.makeSettingsAck) :=
      happly.trans (passive_emit _ rfl)
    exact .passive (hack.trans (.of_eq (.inl rfl)))
  | ping => exact .passive (passive_emit s rfl)
  | priority htype _ exclusive parentStreamId weight =>
    exact .priority htype exclusive parentStreamId weight rfl
  | reset _ _ hid => exact .removed (removed_sendRstStream s hid _)
  | refused _ hlookup hlast => exact .answered _ rfl (.inl ⟨hlookup, hlast⟩)
  | headers htype _ stream hlookup hstate hwaiting =>
    exact .headers htype stream hlookup hstate hwaiting (blockTaken_acceptHeaders hlookup)
  | newHeaders htype _ hlookup hlast hcount =>
    refine .opened htype hlookup hlast hcount (blockTaken_acceptHeaders ?_)
    rw [getOrCreateStream, hlookup]
    exact lookup_insert _
  | data htype _ stream hlookup hstate hwaiting =>
    exact .data htype stream hlookup hstate hwaiting (dataTaken_acceptData s f stream)
  | continuation htype _ stream hlookup hstate hwaiting =>
    exact .continuation htype stream hlookup hstate hwaiting
      (blockTaken_acceptContinuation hlookup hwaiting)
  | windowZero htype _ hincrement =>
    exact .answered _ rfl (.inr ⟨htype, hincrement⟩)
  | connectionWindow htype =>
    refine .window htype (.trans ?_ (sends_flushPendingWrites _))
    exact .of_keeps_nil .of_eq
  | connectionOverflow =>
    refine .passive (.trans ?_ (passive_closeWithGoaway _ _))
    exact .of_eq (.inl rfl)
  | streamWindow htype =>
    refine .window htype (.trans ?_ (sends_flushPendingWrites _))
    refine sends_update s f.streamId ?_
    exact fun _ => ⟨rfl, rfl, .inl rfl⟩
  | streamOverflow _ hid stream =>
    have h := removed_sendRstStream (s.update f.streamId ({ · with
      sendWindow := (stream.sendWindow + f.increment) % 2 ^ 32 })) hid .flowControlError
    exact .removed ⟨h.phase, h.lastStreamId, h.absent,
      fun id hne => (h.streams id hne).trans (lookup_modify_of_ne _ hne _), h.log⟩
  | rst => exact .removed (removed_erase s f.streamId)

/-- What a bridge that returns leaves. -/
structure Returned (streamId : Nat) (endStream : Bool) (s s' : Session) : Prop where
  phase : s'.phase = .ready
  lastStreamId : s'.lastStreamId = s.lastStreamId
  streams : ∀ id, id ≠ streamId → s'.streams.lookup id = s.streams.lookup id
  stream : ∀ stream', s'.streams.lookup streamId = some stream' →
    ∃ stream, s.streams.lookup streamId = some stream ∧
      stream'.state = (if endStream then .halfClosedRemote else stream.state) ∧
      (stream'.waitingContinuation = true →
        stream.waitingContinuation = true ∧ stream'.headerBlock = stream.headerBlock)
  log : ∃ events, s'.log = s.log ++ events ∧ ∀ e ∈ events, e.inert = true

theorem Returned.lookup_eq_none (h : Returned streamId endStream s s') {id : Nat}
    (hlookup : s.streams.lookup id = none) : s'.streams.lookup id = none := by
  by_cases hid : id = streamId
  · subst hid
    cases hlookup' : s'.streams.lookup id with
    | none => rfl
    | some stream' =>
      obtain ⟨stream, hstream, -⟩ := h.stream stream' hlookup'
      rw [hlookup] at hstream
      cases hstream
  · rw [h.streams id hid, hlookup]

theorem returned_finishHeaders (s : Session) (streamId : Nat) (endStream : Bool) :
    Returned streamId endStream s (s.finishHeaders streamId endStream) where
  phase := rfl
  lastStreamId := rfl
  streams id hid := lookup_modify_of_ne _ hid _
  stream stream' h := by
    rw [finishHeaders] at h
    dsimp only [update] at h
    rw [lookup_modify_self] at h
    obtain ⟨stream, hlookup, rfl⟩ := map_eq_some_iff.mp h
    exact ⟨stream, hlookup, rfl, nofun⟩
  log := ⟨[], (append_nil _).symm, nofun⟩

theorem waitingContinuation_finishHeaders
    (h : (s.finishHeaders streamId endStream).streams.lookup streamId = some stream') :
    stream'.waitingContinuation = false := by
  rw [finishHeaders] at h
  dsimp only [update] at h
  rw [lookup_modify_self] at h
  obtain ⟨stream, -, rfl⟩ := map_eq_some_iff.mp h
  rfl

theorem returned_finishData (s : Session) (streamId dataSize : Nat) (endStream : Bool) :
    Returned streamId endStream s (s.finishData streamId dataSize endStream) := by
  have hcounted := (counted_checkConnectionWindow s streamId dataSize).trans
    (counted_checkStreamWindow _ streamId dataSize)
  rw [finishData]
  cases endStream with
  | false =>
    refine ⟨rfl, hcounted.lastStreamId, hcounted.streams, fun stream' h => ?_, hcounted.log⟩
    obtain ⟨stream, hlookup, hstate, hwaiting, hblock⟩ := hcounted.stream stream' h
    exact ⟨stream, hlookup, hstate, fun h => ⟨hwaiting.symm.trans h, hblock⟩⟩
  | true =>
    refine ⟨rfl, hcounted.lastStreamId, fun id hid => ?_, fun stream' h => ?_, hcounted.log⟩
    · rw [← hcounted.streams id hid]
      exact lookup_modify_of_ne _ hid _
    · dsimp only [update, if_true] at h
      rw [if_pos rfl, lookup_modify_self] at h
      obtain ⟨stream₁, hlookup₁, rfl⟩ := map_eq_some_iff.mp h
      obtain ⟨stream, hlookup, -, hwaiting, hblock⟩ := hcounted.stream stream₁ hlookup₁
      exact ⟨stream, hlookup, rfl, fun h => ⟨hwaiting.symm.trans h, hblock⟩⟩

/-- `Moved s l s'` says that on the receiving side a step with the label `l` may take `s` to
`s'`. -/
inductive Moved (s : Session) (l : Label) (s' : Session) : Prop
  | idle (h : s' = s)
  | frame (f : Frame) (hlabel : l = .recv f) (hready : s.phase = .ready)
      (h : Reception (s.receive f) f s')
  | call (c : Call) (hlabel : l = .call c) (h : Sends s s')
  | headersReturn (streamId : Nat) (endStream : Bool)
      (hphase : s.phase = .inHeadersBridge streamId endStream)
      (h : s' = s.finishHeaders streamId endStream)
  | dataReturn (streamId dataSize : Nat) (endStream : Bool)
      (hphase : s.phase = .inDataBridge streamId dataSize endStream)
      (h : s' = s.finishData streamId dataSize endStream)

theorem step_recv (hready : s.phase = .ready) (f : Frame) :
    step s (.recv f) = (s.receive f).handleFrame f := by
  unfold step
  rw [hready]
  rfl

theorem step_recv_of_ne (hready : s.phase ≠ .ready) (f : Frame) : step s (.recv f) = s := by
  unfold step
  split
  · rename_i hphase
    exact absurd hphase hready
  · rfl
  · contradiction
  · contradiction
  · contradiction
  · rfl

theorem reception_step (hready : s.phase = .ready) (f : Frame) :
    Reception (s.receive f) f (step s (.recv f)) := by
  rw [step_recv hready]
  exact (handled_frame (s.receive f) f).reception

theorem moved (s : Session) (l : Label) : Moved s l (step s l) := by
  unfold step
  split
  · rename_i f hready
    exact .frame f rfl hready (handled_frame (s.receive f) f).reception
  · exact .idle rfl
  · exact .call _ rfl (sends_call s _)
  · rename_i streamId endStream hphase
    exact .headersReturn streamId endStream hphase rfl
  · rename_i streamId dataSize endStream hphase
    exact .dataReturn streamId dataSize endStream hphase rfl
  · exact .idle rfl

/-- Only the entry of one stream may have changed, and only for that stream a bridge is called. -/
structure Touches (streamId : Nat) (s s' : Session) : Prop where
  lastStreamId : s'.lastStreamId = s.lastStreamId
  streams : ∀ id, id ≠ streamId → s'.streams.lookup id = s.streams.lookup id
  phase : s'.phase = s.phase ∨ s'.phase = .ready ∨ s'.phase = .stopped ∨
    ∃ endStream, s'.phase.bridge = some (streamId, endStream)
  log : ∃ events, s'.log = s.log ++ events ∧ ∀ e ∈ events, e.inert = true ∨
    (∃ block, e = .decoded streamId block) ∨ ∃ endStream,
      e.delivers = some (streamId, endStream) ∧ s'.phase.bridge = some (streamId, endStream)

namespace Touches

theorem after (h : Touches streamId s' s'') (hphase : s'.phase = s.phase)
    (hlast : s'.lastStreamId = s.lastStreamId)
    (hstreams : ∀ id, id ≠ streamId → s'.streams.lookup id = s.streams.lookup id)
    (hlog : s'.log = s.log ++ events)
    (hevents : ∀ e ∈ events, e.inert ∨ ∃ block, e = .decoded streamId block) :
    Touches streamId s s'' where
  lastStreamId := h.lastStreamId.trans hlast
  streams id hid := (h.streams id hid).trans (hstreams id hid)
  phase := by
    rw [← hphase]
    exact h.phase
  log := by
    obtain ⟨events', hlog', hevents'⟩ := h.log
    refine ⟨events ++ events', by rw [hlog', hlog, append_assoc], fun e he => ?_⟩
    rcases mem_append.mp he with he | he
    · rcases hevents e he with he | he
      · exact .inl he
      · exact .inr (.inl he)
    · exact hevents' e he

theorem of_passive (h : Passive s s') : Touches streamId s s' where
  lastStreamId := h.lastStreamId
  streams _ _ := by rw [h.streams]
  phase := h.phase.imp_right fun hphase => .inr (.inl hphase)
  log := by
    obtain ⟨events, hlog, hinert⟩ := h.log
    exact ⟨events, hlog, fun e he => .inl (hinert e he)⟩

theorem of_returned (h : Returned streamId endStream s s') : Touches streamId s s' where
  lastStreamId := h.lastStreamId
  streams := h.streams
  phase := Or.inr (.inl h.phase)
  log := by
    obtain ⟨events, hlog, hinert⟩ := h.log
    exact ⟨events, hlog, fun e he => .inl (hinert e he)⟩

theorem enter (s : Session) {phase : Phase} (he : e.delivers = some (streamId, endStream))
    (hphase : phase.bridge = some (streamId, endStream)) :
    Touches streamId s { s.emit e with phase := phase } where
  lastStreamId := rfl
  streams _ _ := rfl
  phase := Or.inr (.inr (.inr ⟨endStream, hphase⟩))
  log := ⟨[e], rfl, forall_mem_singleton.mpr (.inr (.inr ⟨endStream, he, hphase⟩))⟩

theorem of_update (h : Touches streamId (s.update streamId g) s') : Touches streamId s s' :=
  h.after rfl rfl (fun _ hid => lookup_modify_of_ne _ hid g) (append_nil _).symm
    nofun

end Touches

theorem Completed.touches {block : List UInt8} (h : Completed s streamId block endStream s') :
    Touches streamId s s' := by
  have hdecode : ∀ raw decoder, Touches streamId (s.decodeBlock streamId block raw decoder) s' →
      Touches streamId s s' := by
    intro raw decoder h
    refine h.after rfl rfl (fun _ hid => lookup_modify_of_ne _ hid _) rfl ?_
    exact forall_mem_singleton.mpr (.inr ⟨block, rfl⟩)
  cases h with
  | failed raw decoder => exact hdecode raw decoder (.of_passive (passive_abort _ _))
  | bridged raw decoder => exact hdecode raw decoder (.enter _ rfl rfl)
  | finished raw decoder =>
    exact hdecode raw decoder (.of_returned (returned_finishHeaders _ _ _))

theorem BlockTaken.touches (h : BlockTaken s streamId block endHeaders endStream s') :
    Touches streamId s s' := by
  cases h with
  | tooLong => exact .of_passive (passive_abort _ _)
  | waits =>
    have hself : ∀ s : Session, Touches streamId s s := fun s =>
      Touches.of_passive (.of_eq (.inl rfl))
    exact .of_update (hself _)
  | completed _ h => exact h.touches

theorem touches_priority (s : Session) (streamId : Nat) (g : StreamEntry → StreamEntry) :
    Touches streamId s ((s.addIdle streamId).update streamId g) := by
  have hidle : ∀ id, id ≠ streamId →
      (s.addIdle streamId).streams.lookup id = s.streams.lookup id := by
    intro id hid
    rw [addIdle]
    split
    · rfl
    · exact lookup_insert_ne hid
  have hfields : (s.addIdle streamId).lastStreamId = s.lastStreamId ∧
      (s.addIdle streamId).phase = s.phase ∧ (s.addIdle streamId).log = s.log := by
    rw [addIdle]
    split <;> exact ⟨rfl, rfl, rfl⟩
  obtain ⟨hlast, hphase, hlog⟩ := hfields
  refine ⟨hlast, fun id hid => ?_, .inl hphase, [], ?_, by simp⟩
  · rw [← hidle id hid]
    exact lookup_modify_of_ne _ hid g
  · rw [append_nil]
    exact hlog

theorem lookup_priority {id : Nat} {parentStreamId weight : Nat}
    (h : ((s.addIdle streamId).update streamId
      (·.prioritize exclusive parentStreamId weight)).streams.lookup id = some stream') :
    (∃ stream, s.streams.lookup id = some stream ∧ stream'.state = stream.state ∧
      stream'.waitingContinuation = stream.waitingContinuation) ∨
    stream'.state = .idle ∧ stream'.waitingContinuation = false := by
  by_cases hid : id = streamId
  · subst hid
    rw [update, lookup_modify_self, addIdle] at h
    cases hlookup : s.streams.lookup id with
    | some stream =>
      rw [hlookup] at h
      rw [hlookup] at h
      cases h
      exact .inl ⟨stream, rfl, rfl, rfl⟩
    | none =>
      rw [hlookup] at h
      rw [lookup_insert] at h
      cases h
      exact .inr ⟨rfl, rfl⟩
  · rw [(touches_priority s streamId _).streams id hid] at h
    exact .inl ⟨stream', h, rfl, rfl⟩

theorem DataTaken.touches (h : DataTaken s f s') : Touches f.streamId s s' := by
  have hcount : ∀ {s₁}, Counted f.streamId s s₁ → Touches f.streamId s₁ s' →
      Touches f.streamId s s' := by
    intro s₁ hcounted h
    obtain ⟨events, hlog, hinert⟩ := hcounted.log
    exact h.after hcounted.phase hcounted.lastStreamId hcounted.streams hlog
      fun e he => .inl (hinert e he)
  cases h with
  | overflow hcounted => exact hcount hcounted (.of_passive (passive_closeWithGoaway _ _))
  | bridged hcounted => exact hcount hcounted (.enter _ rfl rfl)
  | finished hcounted => exact hcount hcounted (.of_returned (returned_finishData _ _ _ _))

end Session

end ServerLib.Http2

import ServerLib.Http2.Handling
import ServerLib.Http2.Sending

/-! What a step does to the sending side of a session.  Most of `handle_frame` only concerns what is
received: it is quiet for the windows, the pending writes, the peer's settings, and the encoder.
What is left is a short list of effects. -/

namespace ServerLib.Http2

open Lib List AList

/-- Frames that carry neither data nor headers. -/
def Frame.control (f : Frame) : Bool := f.type ≠ .data ∧ f.type ≠ .headers

/-- Events that say nothing about what is sent, what is asked of the session, and what it has
received. -/
def Event.quiet : Event → Bool
  | .wrote f => f.control
  | .received _ | .called _ => false
  | .decoded _ _ | .headersBridge _ _ _ | .dataBridge _ _ _ | .goawayBridge _ _ | .closed => true

/-- Events that, besides, are none of a stream's: no stream is reset and no block is decoded. -/
def Event.inert : Event → Bool
  | .wrote f => f.type ≠ .data ∧ f.type ≠ .headers ∧ f.type ≠ .rstStream
  | .goawayBridge _ _ | .closed => true
  | .received _ | .called _ | .decoded _ _ | .headersBridge _ _ _ | .dataBridge _ _ _ => false

theorem Event.quiet_of_inert {e : Event} (h : e.inert) : e.quiet := by
  cases e with
  | wrote f =>
    obtain ⟨hdata, hheaders, -⟩ := of_decide_eq_true h
    exact decide_eq_true ⟨hdata, hheaders⟩
  | goawayBridge | closed => rfl
  | _ => cases h

/-- The sending side of a stream is the same, and the peer may have ended it. -/
structure StreamEntry.Calm (stream stream' : StreamEntry) : Prop where
  sendWindow : stream'.sendWindow = stream.sendWindow
  pendingWrite : stream'.pendingWrite = stream.pendingWrite
  hasPendingWrite : stream'.hasPendingWrite = stream.hasPendingWrite
  state : stream'.state = stream.state ∨ stream'.state = .halfClosedRemote

theorem StreamEntry.Calm.refl (stream : StreamEntry) : stream.Calm stream :=
  ⟨rfl, rfl, rfl, .inl rfl⟩

theorem StreamEntry.Calm.trans {stream stream' stream'' : StreamEntry} (h : stream.Calm stream')
    (h' : stream'.Calm stream'') : stream.Calm stream'' where
  sendWindow := h'.sendWindow.trans h.sendWindow
  pendingWrite := h'.pendingWrite.trans h.pendingWrite
  hasPendingWrite := h'.hasPendingWrite.trans h.hasPendingWrite
  state := by
    rcases h'.state with hstate | hstate
    · rw [hstate]
      exact h.state
    · exact .inr hstate

namespace Session

/-- The session is the same on the sending side, and the log has grown by quiet events. -/
structure Quiet (s s' : Session) : Prop where
  encoder : s'.hpackEncoder = s.hpackEncoder
  peerSettings : s'.peerSettings = s.peerSettings
  connectionSendWindow : s'.connectionSendWindow = s.connectionSendWindow
  pendingWriteQueue : s'.pendingWriteQueue = s.pendingWriteQueue
  log : ∃ events, s'.log = s.log ++ events ∧ ∀ e ∈ events, e.quiet = true
  streams : ∀ id, Option.Rel StreamEntry.Calm (s.streams.lookup id) (s'.streams.lookup id)

theorem append_events {P : Event → Prop} {log log' log'' : List Event}
    (h : ∃ events, log' = log ++ events ∧ ∀ e ∈ events, P e)
    (h' : ∃ events, log'' = log' ++ events ∧ ∀ e ∈ events, P e) :
    ∃ events, log'' = log ++ events ∧ ∀ e ∈ events, P e := by
  obtain ⟨events, rfl, hall⟩ := h
  obtain ⟨events', rfl, hall'⟩ := h'
  exact ⟨events ++ events', append_assoc _ _ _, forall_mem_append.mpr ⟨hall, hall'⟩⟩

theorem optionRel_calm_refl :
    ∀ stream : Option StreamEntry, Option.Rel StreamEntry.Calm stream stream
  | none => Option.Rel.none
  | some stream => Option.Rel.some (StreamEntry.Calm.refl stream)

namespace Quiet

variable {s' s : Session}

theorem of_eq (encoder : s'.hpackEncoder = s.hpackEncoder := by rfl)
    (peerSettings : s'.peerSettings = s.peerSettings := by rfl)
    (connectionSendWindow : s'.connectionSendWindow = s.connectionSendWindow := by rfl)
    (pendingWriteQueue : s'.pendingWriteQueue = s.pendingWriteQueue := by rfl)
    (log : s'.log = s.log := by rfl) (streams : s'.streams = s.streams := by rfl) :
    Quiet s s' where
  encoder := encoder
  peerSettings := peerSettings
  connectionSendWindow := connectionSendWindow
  pendingWriteQueue := pendingWriteQueue
  log := ⟨[], by rw [log, append_nil], nofun⟩
  streams id := by
    rw [streams]
    exact optionRel_calm_refl _

theorem refl (s : Session) : Quiet s s := of_eq

theorem trans {s'' : Session} (h : Quiet s s') (h' : Quiet s' s'') : Quiet s s'' where
  encoder := h'.encoder.trans h.encoder
  peerSettings := h'.peerSettings.trans h.peerSettings
  connectionSendWindow := h'.connectionSendWindow.trans h.connectionSendWindow
  pendingWriteQueue := h'.pendingWriteQueue.trans h.pendingWriteQueue
  log := append_events h.log h'.log
  streams id := by
    have hrel := h.streams id
    have hrel' := h'.streams id
    generalize s.streams.lookup id = stream, s'.streams.lookup id = stream',
      s''.streams.lookup id = stream'' at hrel hrel' ⊢
    cases hrel with
    | none =>
      cases hrel' with
      | none => exact Option.Rel.none
    | some hcalm =>
      cases hrel' with
      | some hcalm' => exact Option.Rel.some (hcalm.trans hcalm')

theorem emit (s : Session) {e : Event} (he : e.quiet) : Quiet s (s.emit e) where
  encoder := rfl
  peerSettings := rfl
  connectionSendWindow := rfl
  pendingWriteQueue := rfl
  log := ⟨[e], rfl, fun e' he' => by rwa [mem_singleton.mp he']⟩
  streams _ := optionRel_calm_refl _

theorem update (s : Session) (streamId : Nat) {g : StreamEntry → StreamEntry}
    (hg : ∀ stream, s.streams.lookup streamId = some stream → stream.Calm (g stream)) :
    Quiet s (s.update streamId g) where
  encoder := rfl
  peerSettings := rfl
  connectionSendWindow := rfl
  pendingWriteQueue := rfl
  log := ⟨[], (append_nil _).symm, nofun⟩
  streams id := by
    rw [Session.update]
    by_cases h : id = streamId
    · subst h
      rw [lookup_modify_self]
      cases hlookup : s.streams.lookup id with
      | none => exact Option.Rel.none
      | some stream => exact Option.Rel.some (hg stream hlookup)
    · rw [lookup_modify_of_ne _ h]
      exact optionRel_calm_refl _

theorem lookup (h : Quiet s s') {id : Nat} {stream' : StreamEntry}
    (hlookup : s'.streams.lookup id = some stream') :
    ∃ stream, s.streams.lookup id = some stream ∧ stream.Calm stream' := by
  have hrel := h.streams id
  rw [hlookup] at hrel
  generalize s.streams.lookup id = stream at hrel ⊢
  cases hrel with
  | some hcalm => exact ⟨_, rfl, hcalm⟩

end Quiet

/-- The send window of a stream, where a stream without an entry has none. -/
def windowOf (s : Session) (streamId : Nat) : Nat :=
  ((s.streams.lookup streamId).map StreamEntry.sendWindow).getD 0

theorem windowOf_eq {s : Session} (h : s.streams.lookup streamId = some stream) :
    s.windowOf streamId = stream.sendWindow := by
  rw [windowOf, h]
  rfl

theorem windowOf_update_self (s : Session) (streamId : Nat) (g : StreamEntry → StreamEntry) :
    (s.update streamId g).windowOf streamId =
      ((s.streams.lookup streamId).map fun stream => (g stream).sendWindow).getD 0 := by
  rw [windowOf, update, lookup_modify_self, Option.map_map]
  rfl

theorem windowOf_update_of_ne (s : Session) {id : Nat} (h : id ≠ streamId)
    (g : StreamEntry → StreamEntry) : (s.update streamId g).windowOf id = s.windowOf id := by
  rw [windowOf, update, lookup_modify_of_ne _ h]
  rfl

theorem windowOf_erase_le (s : Session) (streamId id : Nat) :
    (s.erase streamId).windowOf id ≤ s.windowOf id := by
  by_cases h : id = streamId
  · subst h
    rw [windowOf, erase, lookup_erase]
    exact Nat.zero_le _
  · rw [windowOf, erase, lookup_erase_ne h]
    exact le_rfl

variable (s : Session) (f : Frame)

theorem quiet_closeStop : Quiet s s.close.stop :=
  (Quiet.emit s rfl).trans Quiet.of_eq

theorem quiet_closeWithGoaway (error : ErrorCode) : Quiet s (s.closeWithGoaway error) :=
  (Quiet.emit s rfl).trans (quiet_closeStop _)

theorem quiet_sendGoaway (error : ErrorCode) : Quiet s (s.sendGoaway error) := by
  rw [sendGoaway]
  split
  · exact (Quiet.emit s rfl).trans (Quiet.emit _ rfl)
  · exact .emit s rfl

variable (streamId : Nat)

theorem quiet_sendWindowUpdate (increment : Nat) :
    Quiet s (s.sendWindowUpdate streamId increment) := by
  rw [sendWindowUpdate]
  split
  · exact .refl s
  · exact .emit s rfl

theorem quiet_checkConnectionWindow (bytesConsumed : Nat) :
    Quiet s (s.checkConnectionWindow bytesConsumed) := by
  rw [checkConnectionWindow]
  split
  · exact .refl s
  split
  · dsimp only
    split
    · refine .trans ?_ (quiet_sendWindowUpdate _ _ _)
      exact .of_eq
    · exact .refl s
  · exact .refl s

theorem quiet_checkStreamWindow (bytesConsumed : Nat) :
    Quiet s (s.checkStreamWindow streamId bytesConsumed) := by
  rw [checkStreamWindow]
  split
  · exact .refl s
  split
  · exact .refl s
  split
  · dsimp only
    split
    · refine .trans ?_ (quiet_sendWindowUpdate _ _ _)
      exact .update s streamId fun _ _ => ⟨rfl, rfl, rfl, .inl rfl⟩
    · exact .refl s
  · exact .refl s

theorem quiet_finishData (dataSize : Nat) (endStream : Bool) :
    Quiet s (s.finishData streamId dataSize endStream) := by
  have hwindows := (quiet_checkConnectionWindow s dataSize).trans
    (quiet_checkStreamWindow _ streamId dataSize)
  refine hwindows.trans ?_
  rw [finishData]
  generalize (s.checkConnectionWindow dataSize).checkStreamWindow streamId dataSize = s'
  cases endStream with
  | true =>
    have hstate : Quiet s' (s'.update streamId ({ · with state := .halfClosedRemote })) :=
      Quiet.update s' streamId fun _ _ => ⟨rfl, rfl, rfl, .inr rfl⟩
    exact hstate.trans .of_eq
  | false => exact .of_eq

theorem quiet_finishHeaders (endStream : Bool) : Quiet s (s.finishHeaders streamId endStream) := by
  have hstream : Quiet s (s.update streamId fun stream => { stream with
      headerBlock := []
      waitingContinuation := false
      state := if endStream then .halfClosedRemote else stream.state }) := by
    refine .update s streamId fun _ _ => ⟨rfl, rfl, rfl, ?_⟩
    cases endStream with
    | true => exact .inr rfl
    | false => exact .inl rfl
  exact hstream.trans .of_eq

theorem quiet_maybeDecodeHpack (stream : StreamEntry) :
    Quiet s (s.maybeDecodeHpack streamId stream).1 := by
  have hdecoded : Quiet s ({ s with hpackDecoder :=
      (s.hpackDecoder.decode stream.headerBlock).2 }.emit
        (.decoded streamId stream.headerBlock)) := by
    refine .trans ?_ (.emit _ rfl)
    exact .of_eq
  rw [maybeDecodeHpack]
  split
  · exact hdecoded
  · exact hdecoded
  split
  · exact hdecoded
  split
  · exact hdecoded
  · exact hdecoded.trans (.update _ streamId fun _ _ => ⟨rfl, rfl, rfl, .inl rfl⟩)

theorem quiet_completeHeaders (stream : StreamEntry) (endStream : Bool) :
    Quiet s (s.completeHeaders streamId stream endStream) := by
  have hdecoded := quiet_maybeDecodeHpack s streamId stream
  rw [completeHeaders]
  dsimp only
  split
  · split
    · refine hdecoded.trans ?_
      rw [finalizeHeaderBlock]
      split
      · exact (Quiet.emit _ rfl).trans Quiet.of_eq
      · exact quiet_finishHeaders _ _ _
    · exact hdecoded
  · exact hdecoded.trans ((quiet_sendGoaway _ _).trans (quiet_closeStop _))

theorem quiet_acceptHeaders {stream : StreamEntry}
    (hlookup : s.streams.lookup f.streamId = some stream) : Quiet s (s.acceptHeaders f stream) := by
  have hstore : Quiet s (s.update f.streamId fun _ => { stream with
      headerBlock := f.payload
      headersEndStream := f.has flagEndStream
      continuationCount := 0 }) :=
    Quiet.update s f.streamId fun stream' h => by
      rw [hlookup] at h
      cases h
      exact ⟨rfl, rfl, rfl, .inl rfl⟩
  rw [acceptHeaders]
  refine hstore.trans ?_
  split
  · exact (quiet_sendGoaway _ _).trans (quiet_closeStop _)
  split
  · exact quiet_completeHeaders _ _ _ _
  · exact .update _ _ fun _ _ => ⟨rfl, rfl, rfl, .inl rfl⟩

theorem quiet_acceptContinuation {stream : StreamEntry}
    (hlookup : s.streams.lookup f.streamId = some stream) :
    Quiet s (s.acceptContinuation f stream) := by
  have hstore : Quiet s (s.update f.streamId fun _ => { stream with
      headerBlock := stream.headerBlock ++ f.payload
      continuationCount := stream.continuationCount + 1 }) :=
    Quiet.update s f.streamId fun stream' h => by
      rw [hlookup] at h
      cases h
      exact ⟨rfl, rfl, rfl, .inl rfl⟩
  rw [acceptContinuation]
  refine hstore.trans ?_
  split
  · exact (quiet_sendGoaway _ _).trans (quiet_closeStop _)
  split
  · exact (quiet_sendGoaway _ _).trans (quiet_closeStop _)
  split
  · exact quiet_completeHeaders _ _ _ _
  · exact .refl _

theorem quiet_acceptData (stream : StreamEntry) : Quiet s (s.acceptData f stream) := by
  have hcount : Quiet s (s.update f.streamId fun stream => { stream with
      receivedBytes := (stream.receivedBytes + f.payload.length) % 2 ^ 64
      receivedData := true }) := Quiet.update s f.streamId fun _ _ => ⟨rfl, rfl, rfl, .inl rfl⟩
  rw [acceptData]
  dsimp only
  refine hcount.trans ?_
  split
  · exact quiet_closeWithGoaway _ _
  split
  · refine .trans ?_ (quiet_closeWithGoaway _ _)
    exact .of_eq
  generalize s.update f.streamId _ = s'
  have hwindow : Quiet s' ({ s' with connectionRecvWindow :=
      s'.connectionRecvWindow - f.payload.length }.update f.streamId fun stream =>
        { stream with recvWindow := stream.recvWindow - f.payload.length }) := by
    refine .trans ?_ (.update _ f.streamId fun _ _ => ⟨rfl, rfl, rfl, .inl rfl⟩)
    exact .of_eq
  refine hwindow.trans ?_
  split
  · exact (Quiet.emit _ rfl).trans Quiet.of_eq
  · exact quiet_finishData _ _ _ _

/-- Only the settings and the encoder have changed, and the log has grown by inert events. -/
structure Tuned (s s' : Session) : Prop where
  phase : s'.phase = s.phase
  lastStreamId : s'.lastStreamId = s.lastStreamId
  connectionSendWindow : s'.connectionSendWindow = s.connectionSendWindow
  pendingWriteQueue : s'.pendingWriteQueue = s.pendingWriteQueue
  streams : s'.streams = s.streams
  log : ∃ events, s'.log = s.log ++ events ∧ ∀ e ∈ events, e.inert = true

theorem Tuned.quiet_log {s s' : Session} (h : Tuned s s') :
    ∃ events, s'.log = s.log ++ events ∧ ∀ e ∈ events, e.quiet := by
  obtain ⟨events, hlog, hinert⟩ := h.log
  exact ⟨events, hlog, fun e he => Event.quiet_of_inert (hinert e he)⟩

theorem tuned_applyPeerSettings : Tuned s (s.applyPeerSettings f) := by
  have hsame : ∀ s : Session, Tuned s s := fun s =>
    ⟨rfl, rfl, rfl, rfl, rfl, [], (append_nil _).symm, nofun⟩
  have hclose : ∀ (s : Session) error,
      Tuned s (s.sendFrame (FrameCodec.makeGoaway error s.lastStreamId)).close := by
    intro s error
    refine ⟨rfl, rfl, rfl, rfl, rfl, [.wrote _, .closed], append_assoc _ _ _, fun e he => ?_⟩
    rcases mem_cons.mp he with rfl | he
    · rfl
    · rw [mem_singleton.mp he]
      rfl
  have happly : ∀ payload (s : Session), Tuned s (applySettings payload s) := by
    intro payload s
    fun_induction applySettings payload s with
    | case4 | case6 => exact hclose _ _
    | case10 => exact hsame _
    | _ =>
      rename_i ih
      exact ⟨ih.phase, ih.lastStreamId, ih.connectionSendWindow, ih.pendingWriteQueue, ih.streams,
        ih.log⟩
  rw [applyPeerSettings]
  split
  · exact hsame s
  · exact happly _ _

/-- `Effect s f s'` says that on the sending side `handle_frame` may take `s` to `s'` for the frame
`f`. -/
inductive Effect (s : Session) (f : Frame) (s' : Session) : Prop
  | quiet (h : Quiet s s')
  | settings (happlies : s.Applies f) (h : Quiet (s.applyPeerSettings f) s')
  | opened (htype : f.type = .headers) (hlookup : s.streams.lookup f.streamId = none)
      (h : Quiet { s with streams := s.streams.insert f.streamId s.newStream } s')
  | idle (htype : f.type = .priority) (hlookup : s.streams.lookup f.streamId = none)
      (h : Quiet { s with streams := s.streams.insert f.streamId {} } s')
  | removed (h : Quiet (s.erase f.streamId) s')
      (hreset : f.type = .rstStream ∨ ∃ error, .wrote (makeRstStream f.streamId error) ∈ s'.log)
  | connectionWindow (htype : f.type = .windowUpdate) (hid : f.streamId = 0)
      (hwrap : ¬(s.connectionSendWindow + f.increment) % 2 ^ 32 < s.connectionSendWindow)
      (h : s' = { s with connectionSendWindow :=
        (s.connectionSendWindow + f.increment) % 2 ^ 32 }.flushPendingWrites)
  | connectionOverflow (htype : f.type = .windowUpdate) (hid : f.streamId = 0)
      (hwrap : (s.connectionSendWindow + f.increment) % 2 ^ 32 < s.connectionSendWindow)
      (h : Quiet { s with connectionSendWindow :=
        (s.connectionSendWindow + f.increment) % 2 ^ 32 } s')
  | streamWindow (htype : f.type = .windowUpdate) (hid : f.streamId ≠ 0) (stream : StreamEntry)
      (hlookup : s.streams.lookup f.streamId = some stream)
      (hwrap : ¬(stream.sendWindow + f.increment) % 2 ^ 32 < stream.sendWindow)
      (h : s' = (s.update f.streamId ({ · with
        sendWindow := (stream.sendWindow + f.increment) % 2 ^ 32 })).flushPendingWrites)

theorem sendRstStream_eq {streamId : Nat} (hid : streamId ≠ 0) (error : ErrorCode) :
    s.sendRstStream streamId error =
      (s.erase streamId).sendFrame (makeRstStream streamId error) := by
  rw [sendRstStream, if_neg hid]
  rfl

theorem quiet_erase_update (g : StreamEntry → StreamEntry) :
    Quiet (s.erase streamId) ((s.update streamId g).erase streamId) where
  encoder := rfl
  peerSettings := rfl
  connectionSendWindow := rfl
  pendingWriteQueue := rfl
  log := ⟨[], (append_nil _).symm, nofun⟩
  streams id := by
    by_cases h : id = streamId
    · subst h
      rw [erase, erase, lookup_erase, lookup_erase]
      exact Option.Rel.none
    · rw [erase, erase, lookup_erase_ne h, lookup_erase_ne h, update,
        lookup_modify_of_ne _ h]
      exact optionRel_calm_refl _

variable {s f} in
theorem Handled.effect {s' : Session} (h : Handled s f s') : Effect s f s' := by
  cases h with
  | closed error => exact .quiet (quiet_closeWithGoaway s error)
  | goaway => exact .quiet (quiet_closeStop s)
  | ignored => exact .quiet (.refl s)
  | settings happlies =>
    have hack : Quiet (s.applyPeerSettings f)
        ((s.applyPeerSettings f).sendFrame FrameCodec.makeSettingsAck) := Quiet.emit _ rfl
    exact .settings happlies (hack.trans .of_eq)
  | settingsAck => exact .quiet .of_eq
  | ping | refused | windowZero => exact .quiet (.emit s rfl)
  | priority htype hid exclusive parentStreamId weight =>
    rw [addIdle]
    cases hlookup : s.streams.lookup f.streamId with
    | some stream => exact .quiet (.update s _ fun _ _ => ⟨rfl, rfl, rfl, .inl rfl⟩)
    | none =>
      exact .idle htype hlookup (.update _ _ fun _ _ => ⟨rfl, rfl, rfl, .inl rfl⟩)
  | reset stream hlookup hid =>
    rw [sendRstStream_eq s hid]
    exact .removed (.emit _ rfl) (.inr ⟨_, mem_append.mpr (.inr mem_cons_self)⟩)
  | headers _ _ stream hlookup => exact .quiet (quiet_acceptHeaders s f hlookup)
  | newHeaders htype _ hlookup hlast =>
    refine .opened htype hlookup (.trans ?_ (quiet_acceptHeaders _ f ?_))
    · rw [getOrCreateStream, hlookup]
      exact .of_eq
    · rw [getOrCreateStream, hlookup]
      exact lookup_insert _
  | data _ _ stream => exact .quiet (quiet_acceptData s f stream)
  | continuation _ _ stream hlookup => exact .quiet (quiet_acceptContinuation s f hlookup)
  | connectionWindow htype hid hwrap => exact .connectionWindow htype hid hwrap rfl
  | connectionOverflow htype hid hwrap =>
    exact .connectionOverflow htype hid hwrap (quiet_closeWithGoaway _ _)
  | streamWindow htype hid stream hlookup hwrap =>
    exact .streamWindow htype hid stream hlookup hwrap rfl
  | streamOverflow _ hid stream =>
    rw [sendRstStream_eq _ hid]
    exact .removed ((quiet_erase_update s f.streamId _).trans (.emit _ rfl))
      (.inr ⟨_, mem_append.mpr (.inr mem_cons_self)⟩)
  | rst htype => exact .removed (.refl _) (.inl htype)

/-- `Submitted s streamId data endStream s'` says that `send_data` may take `s` to `s'`. -/
inductive Submitted (s : Session) (streamId : Nat) (data : List UInt8) (endStream : Bool) :
    Session → Prop
  | absent (h : streamId = 0 ∨ s.streams.lookup streamId = none) :
      Submitted s streamId data endStream s
  | appended (hid : streamId ≠ 0) (stream : StreamEntry)
      (hlookup : s.streams.lookup streamId = some stream)
      (hpending : stream.hasPendingWrite = true) :
      Submitted s streamId data endStream (s.update streamId fun stream => { stream with
        pendingWrite := { stream.pendingWrite with
          data := stream.pendingWrite.data ++ data
          endStream := stream.pendingWrite.endStream || endStream } })
  | empty (hid : streamId ≠ 0) (stream : StreamEntry)
      (hlookup : s.streams.lookup streamId = some stream)
      (hpending : stream.hasPendingWrite = false) (hdata : data = []) (hend : endStream = false) :
      Submitted s streamId data endStream s
  | ended (hid : streamId ≠ 0) (stream : StreamEntry)
      (hlookup : s.streams.lookup streamId = some stream)
      (hpending : stream.hasPendingWrite = false) (hdata : data = []) (hend : endStream = true) :
      Submitted s streamId data endStream
        ((s.sendFrame (makeData streamId [] true)).endLocal streamId)
  | whole (hid : streamId ≠ 0) (stream : StreamEntry)
      (hlookup : s.streams.lookup streamId = some stream)
      (hpending : stream.hasPendingWrite = false) (hdata : data ≠ [])
      (hfits : data.length ≤ min s.connectionSendWindow stream.sendWindow) :
      Submitted s streamId data endStream ((s.sendBytes streamId data endStream).endIf streamId
        endStream)
  | part (hid : streamId ≠ 0) (stream : StreamEntry)
      (hlookup : s.streams.lookup streamId = some stream)
      (hpending : stream.hasPendingWrite = false)
      (hfits : min s.connectionSendWindow stream.sendWindow < data.length) :
      Submitted s streamId data endStream
        ((s.sendBytes streamId (data.take (min s.connectionSendWindow stream.sendWindow))
          false).enqueue streamId (data.drop (min s.connectionSendWindow stream.sendWindow))
            endStream)

theorem submitted_sendData (data : List UInt8) (endStream : Bool) :
    Submitted s streamId data endStream (s.sendData streamId data endStream) := by
  by_cases hid : streamId = 0
  · rw [sendData, if_pos hid]
    exact .absent (.inl hid)
  cases hlookup : s.streams.lookup streamId with
  | none =>
    rw [sendData, if_neg hid, hlookup]
    exact .absent (.inr hlookup)
  | some stream =>
    cases hpending : stream.hasPendingWrite with
    | true =>
      rw [sendData, if_neg hid, hlookup]
      simp only [hpending, if_true]
      exact .appended hid stream hlookup hpending
    | false =>
      by_cases hdata : data = []
      · rw [sendData, if_neg hid, hlookup]
        simp only [hpending, hdata, length_nil, if_true, Bool.false_eq_true, if_false]
        cases endStream with
        | true => exact .ended hid stream hlookup hpending rfl rfl
        | false => exact .empty hid stream hlookup hpending rfl rfl
      · rw [sendData_eq endStream hid hlookup hpending hdata]
        split_ifs with hfits
        · exact .whole hid stream hlookup hpending hdata hfits
        · exact .part hid stream hlookup hpending (Nat.not_le.mp hfits)

theorem quiet_onPrefaceReceived : Quiet s s.onPrefaceReceived := by
  rw [onPrefaceReceived]
  split
  · exact .refl s
  · have hsettings : ∀ payload, Quiet s (s.sendFrame ⟨.settings, flagNone, 0, payload⟩) :=
      fun _ => .emit s rfl
    exact (hsettings _).trans .of_eq

/-- The rule for calls: what relates the sessions before and after each of the functions that a call
is made of relates those before and after the call. -/
theorem call_rel {R : Session → Session → Prop} (hrefl : ∀ s, R s s)
    (htrans : ∀ s s' s'', R s s' → R s' s'' → R s s'')
    (hcalled : ∀ (s : Session) c, R s (s.emit (.called c)))
    (hpreface : ∀ s : Session, R s s.onPrefaceReceived)
    (hheaders : ∀ (s : Session) streamId headers endStream,
      R s (s.sendHeaders streamId headers endStream))
    (hdata : ∀ (s : Session) streamId data endStream, R s (s.sendData streamId data endStream))
    (hreset : ∀ (s : Session) streamId error, R s (s.sendRstStream streamId error))
    (hgoaway : ∀ (s : Session) error, R s (s.sendGoaway error))
    (hclose : ∀ s : Session, R s s.closeGracefully) (c : Call) : R s (s.call c) := by
  refine htrans _ _ _ (hcalled s c) ?_
  unfold call
  generalize s.emit (.called c) = s
  cases c with
  | onPrefaceReceived => exact hpreface s
  | sendHeaders => exact hheaders s _ _ _
  | sendData => exact hdata s _ _ _
  | sendDataBuffer streamId body endStream =>
    dsimp only
    rw [sendDataBuffer_eq_sendData]
    exact hdata s _ _ _
  | sendSimpleResponse streamId status contentType body =>
    dsimp only
    rw [sendSimpleResponse]
    split
    · exact hrefl s
    split
    · exact hheaders s _ _ _
    · exact htrans _ _ _ (hheaders s _ _ _) (hdata _ _ _ _)
  | sendRstStream => exact hreset s _ _
  | sendGoaway error => exact hgoaway s error
  | closeGracefully => exact hclose s

theorem call_rel_of_quiet {R : Session → Session → Prop}
    (htrans : ∀ s s' s'', R s s' → R s' s'' → R s s'') (hquiet : ∀ s s', Quiet s s' → R s s')
    (hcalled : ∀ (s : Session) c, R s (s.emit (.called c)))
    (hheaders : ∀ (s : Session) streamId headers endStream,
      R s (s.sendHeaders streamId headers endStream))
    (hdata : ∀ (s : Session) streamId data endStream, R s (s.sendData streamId data endStream))
    (hreset : ∀ (s : Session) streamId error, R s (s.sendRstStream streamId error))
    (hclose : ∀ s : Session, R s s.closeGracefully) (c : Call) : R s (s.call c) :=
  call_rel s (fun s => hquiet _ _ (.refl s)) htrans hcalled
    (fun s => hquiet _ _ (quiet_onPrefaceReceived s)) hheaders hdata hreset
    (fun s error => hquiet _ _ (quiet_sendGoaway s error)) hclose c

/-- What relates the sessions before and after each thing that is done in sending: no window grows,
and a frame carries no data or data within the windows. -/
structure SendRule (R : Session → Session → Prop) : Prop where
  trans : ∀ {s s' s''}, R s s' → R s' s'' → R s s''
  quiet : ∀ {s s'}, Quiet s s' → R s s'
  still : ∀ {s s'}, s'.hpackEncoder = s.hpackEncoder → s'.peerSettings = s.peerSettings →
    s'.connectionSendWindow = s.connectionSendWindow → s'.log = s.log →
    (∀ id, s'.windowOf id ≤ s.windowOf id) → R s s'
  frame : ∀ s f, f.type ≠ .headers → (f.type = .data → f.payload = []) → R s (s.sendFrame f)
  bytes : ∀ {s streamId stream bytes}, s.streams.lookup streamId = some stream →
    ∀ endStream, bytes.length ≤ min s.connectionSendWindow stream.sendWindow →
      R s (s.sendBytes streamId bytes endStream)

namespace SendRule

variable {R : Session → Session → Prop} (h : SendRule R)
include h

theorem update {g : StreamEntry → StreamEntry}
    (hg : ∀ stream, (g stream).sendWindow = stream.sendWindow) : R s (s.update streamId g) := by
  refine h.still rfl rfl rfl rfl fun id => ?_
  by_cases hid : id = streamId
  · subst hid
    rw [windowOf_update_self, windowOf]
    simp only [hg]
    exact le_rfl
  · rw [windowOf_update_of_ne s hid]

theorem endIf (endStream : Bool) : R s (s.endIf streamId endStream) := by
  have hrefl : R s s := h.quiet (.refl s)
  rw [Session.endIf]
  split
  · rw [endLocal]
    split
    · split
      · exact h.update s streamId fun _ => rfl
      split
      · exact h.still rfl rfl rfl rfl (windowOf_erase_le s streamId)
      · exact hrefl
    · exact hrefl
  · exact hrefl

theorem queue (queue : List Nat) : R s { s with pendingWriteQueue := queue } :=
  h.still rfl rfl rfl rfl fun _ => le_rfl

theorem flushPendingWrites : R s s.flushPendingWrites := by
  refine flushQueue_rel (R := R) (fun _ _ _ => h.trans) h.queue ?_ ?_ _ s
  · intro s streamId stream hlookup _ hfits
    refine h.trans ?_ (h.endIf _ streamId _)
    refine h.trans ?_ (h.update _ streamId fun _ => rfl)
    refine h.trans ?_ (h.update _ streamId fun _ => rfl)
    exact h.bytes hlookup _ hfits
  · intro s streamId stream hlookup _ hfits
    refine h.trans ?_ (h.update _ streamId fun _ => rfl)
    exact h.bytes hlookup _ (length_take_le _ _)

theorem sendData (data : List UInt8) (endStream : Bool) :
    R s (s.sendData streamId data endStream) := by
  have hsubmitted := submitted_sendData s streamId data endStream
  generalize s.sendData streamId data endStream = s' at hsubmitted
  cases hsubmitted with
  | absent | empty => exact h.quiet (.refl s)
  | appended => exact h.update s streamId fun _ => rfl
  | ended =>
    exact h.trans (h.frame s (makeData streamId [] true) nofun fun _ => rfl) (h.endIf _ _ true)
  | whole _ stream hlookup _ _ hfits =>
    exact h.trans (h.bytes hlookup _ hfits) (h.endIf _ _ _)
  | part _ stream hlookup =>
    refine h.trans ?_ (h.update _ streamId fun _ => rfl)
    refine h.trans ?_ (h.queue _ _)
    exact h.bytes hlookup _ (length_take_le _ _)

theorem sendRstStream (error : ErrorCode) : R s (s.sendRstStream streamId error) := by
  rw [Session.sendRstStream]
  split
  · exact h.quiet (.refl s)
  · refine h.trans (h.frame s (makeRstStream streamId error) nofun nofun) ?_
    exact h.still rfl rfl rfl rfl (windowOf_erase_le _ streamId)

theorem closeGracefully : R s s.closeGracefully := by
  refine h.trans (h.frame s (FrameCodec.makeGoaway .noError s.lastStreamId) nofun nofun) ?_
  refine h.still rfl rfl rfl rfl fun id => ?_
  rw [Session.closeGracefully, windowOf]
  rw [lookup_mapValues, Option.map_map]
  exact le_rfl

theorem call (hcalled : ∀ (s : Session) c, R s (s.emit (.called c)))
    (hheaders : ∀ (s : Session) encoder f, f.type = .headers →
      R s ({ s with hpackEncoder := encoder }.sendFrame f)) (c : Call) : R s (s.call c) := by
  refine call_rel_of_quiet (R := R) s (fun _ _ _ => h.trans) (fun _ _ => h.quiet) hcalled ?_
    h.sendData h.sendRstStream h.closeGracefully c
  intro s streamId headers endStream
  rw [sendHeaders]
  split
  · exact h.quiet (.refl s)
  · exact h.trans (hheaders s _ _ rfl) (h.endIf _ streamId endStream)

end SendRule

def receive (s : Session) (f : Frame) : Session :=
  { s.emit (.received f) with framesReceived := s.framesReceived + 1 }

/-- `Stepped s l s'` says that on the sending side a step with the label `l` may take `s` to
`s'`. -/
inductive Stepped (s : Session) (l : Label) (s' : Session) : Prop
  | idle (h : s' = s)
  | frame (f : Frame) (hlabel : l = .recv f) (hready : s.phase = .ready)
      (h : Effect (s.receive f) f s')
  | call (c : Call) (hlabel : l = .call c) (h : s' = s.call c)
  | ret (hlabel : l = .ret) (h : Quiet s s')

theorem stepped (l : Label) : Stepped s l (step s l) := by
  unfold step
  split
  · rename_i f hready
    exact .frame f rfl hready (handled_frame (s.receive f) f).effect
  · exact .idle rfl
  · exact .call _ rfl rfl
  · exact .ret rfl (quiet_finishHeaders s _ _)
  · exact .ret rfl (quiet_finishData s _ _ _)
  · exact .idle rfl

end Session

end ServerLib.Http2

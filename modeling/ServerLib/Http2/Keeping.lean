import ServerLib.Http2.Effect

/-! What the sending side leaves of the receiving side.  Calls and `flush_pending_writes` add no
stream and do not touch the headers that are being received.  They remove the streams that are ended
on both sides or reset. -/

namespace ServerLib.Http2

open Lib List Option

namespace Event

def sendsEnd : Event → Option Nat
  | .wrote f =>
    if (f.type = .headers ∨ f.type = .data) ∧ f.has flagEndStream then some f.streamId else none
  | _ => none

def sendsReset : Event → Option Nat
  | .wrote f => if f.type = .rstStream then some f.streamId else none
  | _ => none

def sending : Event → Bool
  | .wrote _ | .called _ | .goawayBridge _ _ => true
  | .received _ | .decoded _ _ | .headersBridge _ _ _ | .dataBridge _ _ _ | .closed => false

end Event

theorem Event.sends_of_inert {e : Event} (he : e.inert) :
    e.sendsEnd = none ∧ e.sendsReset = none := by
  cases e with
  | wrote f =>
    have htype : f.type ≠ .data ∧ f.type ≠ .headers ∧ f.type ≠ .rstStream := of_decide_eq_true he
    simp [Event.sendsEnd, Event.sendsReset, htype]
  | _ => exact ⟨rfl, rfl⟩

theorem Event.sendsEnd_eq_some {f : Frame} {id : Nat} (h : (Event.wrote f).sendsEnd = some id) :
    f.streamId = id ∧ f.has flagEndStream := by
  rw [Event.sendsEnd] at h
  split at h
  · rename_i hend
    exact ⟨some.inj h, hend.2⟩
  · cases h

/-- The receiving side of a stream is the same, and the user may have ended it. -/
structure StreamEntry.Kept (stream stream' : StreamEntry) : Prop where
  headerBlock : stream'.headerBlock = stream.headerBlock
  waitingContinuation : stream'.waitingContinuation = stream.waitingContinuation
  state : stream'.state = stream.state ∨ stream.state = .open ∧ stream'.state = .halfClosedLocal

theorem StreamEntry.Kept.refl (stream : StreamEntry) : stream.Kept stream := ⟨rfl, rfl, .inl rfl⟩

theorem StreamEntry.Kept.trans {stream stream' stream'' : StreamEntry} (h : stream.Kept stream')
    (h' : stream'.Kept stream'') : stream.Kept stream'' where
  headerBlock := h'.headerBlock.trans h.headerBlock
  waitingContinuation := h'.waitingContinuation.trans h.waitingContinuation
  state := by
    rcases h.state with hstate | ⟨hopen, hstate⟩
    · rw [← hstate]
      exact h'.state
    · rcases h'.state with hstate' | ⟨hopen', -⟩
      · exact .inr ⟨hopen, hstate'.trans hstate⟩
      · rw [hstate] at hopen'
        cases hopen'

namespace Session

/-- Nothing has been received, no stream has been added, and the log has grown by `events`. -/
structure Keeps (events : List Event) (s s' : Session) : Prop where
  phase : s'.phase = s.phase
  lastStreamId : s'.lastStreamId = s.lastStreamId
  streams : ∀ id stream', s'.streams.lookup id = some stream' →
    ∃ stream, s.streams.lookup id = some stream ∧ stream.Kept stream'
  log : s'.log = s.log ++ events
  sending : ∀ e ∈ events, e.sending = true

namespace Keeps

variable {s s' s'' : Session}

theorem of_eq (phase : s'.phase = s.phase := by rfl)
    (lastStreamId : s'.lastStreamId = s.lastStreamId := by rfl)
    (streams : s'.streams = s.streams := by rfl) (log : s'.log = s.log := by rfl) :
    Keeps [] s s' where
  phase := phase
  lastStreamId := lastStreamId
  streams id stream' h := ⟨stream', by rw [← streams, h], StreamEntry.Kept.refl stream'⟩
  log := by rw [log, append_nil]
  sending _ he := absurd he not_mem_nil

theorem trans (h : Keeps events s s') (h' : Keeps events' s' s'') :
    Keeps (events ++ events') s s'' where
  phase := h'.phase.trans h.phase
  lastStreamId := h'.lastStreamId.trans h.lastStreamId
  streams id stream'' hlookup := by
    obtain ⟨stream', hlookup', hkept'⟩ := h'.streams id stream'' hlookup
    obtain ⟨stream, hlookup, hkept⟩ := h.streams id stream' hlookup'
    exact ⟨stream, hlookup, hkept.trans hkept'⟩
  log := by rw [h'.log, h.log, append_assoc]
  sending e he := (mem_append.mp he).elim (h.sending e) (h'.sending e)

theorem trans_nil (h : Keeps events s s') (h' : Keeps [] s' s'') : Keeps events s s'' := by
  have htrans := h.trans h'
  rwa [append_nil] at htrans

theorem lookup_eq_none (h : Keeps events s s') {id : Nat} (hlookup : s.streams.lookup id = none) :
    s'.streams.lookup id = none := by
  cases hlookup' : s'.streams.lookup id with
  | none => rfl
  | some stream' =>
    obtain ⟨stream, hstream, -⟩ := h.streams id stream' hlookup'
    rw [hlookup] at hstream
    cases hstream

end Keeps

variable (s : Session) (streamId : Nat)

theorem keeps_emit {e : Event} (he : e.sending) : Keeps [e] s (s.emit e) where
  phase := rfl
  lastStreamId := rfl
  streams _ stream' h := ⟨stream', h, StreamEntry.Kept.refl stream'⟩
  log := rfl
  sending := forall_mem_singleton.mpr he

theorem keeps_update {g : StreamEntry → StreamEntry}
    (hg : ∀ stream : StreamEntry, stream.Kept (g stream)) : Keeps [] s (s.update streamId g) where
  phase := rfl
  lastStreamId := rfl
  streams id stream' h := by
    by_cases hid : id = streamId
    · subst hid
      rw [update, lookup_modify_self] at h
      obtain ⟨stream, hlookup, rfl⟩ := map_eq_some_iff.mp h
      exact ⟨stream, hlookup, hg stream⟩
    · rw [update, lookup_modify_of_ne _ hid] at h
      exact ⟨stream', h, StreamEntry.Kept.refl stream'⟩
  log := (append_nil _).symm
  sending _ he := absurd he not_mem_nil

theorem keeps_erase : Keeps [] s (s.erase streamId) where
  phase := rfl
  lastStreamId := rfl
  streams id stream' h := by
    by_cases hid : id = streamId
    · subst hid
      rw [erase, AList.lookup_erase] at h
      cases h
    · rw [erase, AList.lookup_erase_ne hid] at h
      exact ⟨stream', h, StreamEntry.Kept.refl stream'⟩
  log := (append_nil _).symm
  sending _ he := absurd he not_mem_nil

theorem keeps_endIf (endStream : Bool) : Keeps [] s (s.endIf streamId endStream) := by
  rw [endIf]
  split
  · rw [endLocal]
    cases hlookup : s.streams.lookup streamId with
    | none => exact .of_eq
    | some stream =>
      dsimp only
      split
      · rename_i hopen
        refine ⟨rfl, rfl, fun id stream' h => ?_, (append_nil _).symm, by simp⟩
        by_cases hid : id = streamId
        · subst hid
          rw [lookup_modify_self, hlookup] at h
          cases h
          exact ⟨stream, hlookup, rfl, rfl, .inr ⟨hopen, rfl⟩⟩
        · rw [lookup_modify_of_ne _ hid] at h
          exact ⟨stream', h, StreamEntry.Kept.refl stream'⟩
      split
      · exact keeps_erase s streamId
      · exact .of_eq
  · exact .of_eq

theorem keeps_sendBytes (bytes : List UInt8) (endStream : Bool) :
    Keeps
      ((dataFrames s.peerSettings.maxFrameSize streamId endStream bytes.length bytes).map .wrote)
      s (s.sendBytes streamId bytes endStream) where
  phase := rfl
  lastStreamId := rfl
  streams := by
    refine (keeps_update s streamId ?_).streams
    exact fun _ => ⟨rfl, rfl, .inl rfl⟩
  log := rfl
  sending e he := by
    obtain ⟨f, -, rfl⟩ := mem_map.mp he
    rfl

/-- The peer has ended the stream, if there is an entry for it. -/
def RemoteEnded (s : Session) (id : Nat) : Prop :=
  ∀ stream, s.streams.lookup id = some stream → stream.state = .halfClosedRemote

theorem Keeps.remoteEnded {s s' : Session} (h : Keeps events s s') {id : Nat}
    (hs : RemoteEnded s id) : RemoteEnded s' id := by
  intro stream' hlookup'
  obtain ⟨stream, hlookup, hkept⟩ := h.streams id stream' hlookup'
  rcases hkept.state with hstate | ⟨hopen, -⟩
  · exact hstate.trans (hs stream hlookup)
  · rw [hs stream hlookup] at hopen
    cases hopen

theorem lookup_endIf_eq_none {s : Session} {id : Nat} (h : RemoteEnded s id) :
    (s.endIf id true).streams.lookup id = none := by
  show (s.endLocal id).streams.lookup id = none
  rw [endLocal]
  cases hlookup : s.streams.lookup id with
  | none => exact hlookup
  | some stream =>
    have hstate := h stream hlookup
    simp only [hstate, reduceCtorEq, if_false, if_true]
    exact AList.lookup_erase _ _

/-- A frame that ends a stream that the peer has ended, or that resets it, removes its entry. -/
structure Leaves (s s' : Session) (e : Event) : Prop where
  ended : ∀ id, e.sendsEnd = some id → RemoteEnded s id → s'.streams.lookup id = none
  reset : ∀ id, e.sendsReset = some id → s'.streams.lookup id = none

/-- What the session sends leaves the receiving side as it is, but for the streams that it ends. -/
def Sends (s s' : Session) : Prop := ∃ events, Keeps events s s' ∧ ∀ e ∈ events, Leaves s s' e

namespace Sends

variable {s s' s'' : Session}

theorem of_keeps (h : Keeps events s s')
    (hevents : ∀ e ∈ events, e.sendsEnd = none ∧ e.sendsReset = none) : Sends s s' := by
  refine ⟨events, h, fun e he => ⟨fun id hend => ?_, fun id hreset => ?_⟩⟩
  · rw [(hevents e he).1] at hend
    cases hend
  · rw [(hevents e he).2] at hreset
    cases hreset

theorem of_keeps_nil (h : Keeps [] s s') : Sends s s' :=
  of_keeps h nofun

theorem refl (s : Session) : Sends s s := of_keeps_nil .of_eq

theorem trans (h : Sends s s') (h' : Sends s' s'') : Sends s s'' := by
  obtain ⟨events, hkeeps, hleaves⟩ := h
  obtain ⟨events', hkeeps', hleaves'⟩ := h'
  refine ⟨events ++ events', hkeeps.trans hkeeps', fun e he => ?_⟩
  rcases mem_append.mp he with he | he
  · exact ⟨fun id hend hs => hkeeps'.lookup_eq_none ((hleaves e he).ended id hend hs),
      fun id hreset => hkeeps'.lookup_eq_none ((hleaves e he).reset id hreset)⟩
  · exact ⟨fun id hend hs => (hleaves' e he).ended id hend (hkeeps.remoteEnded hs),
      (hleaves' e he).reset⟩

theorem of_endIf (h : Keeps events s s') {streamId : Nat} {endStream : Bool}
    (hevents : ∀ e ∈ events, e.sendsReset = none ∧
      ∀ id, e.sendsEnd = some id → id = streamId ∧ endStream) :
    Sends s (s'.endIf streamId endStream) := by
  refine ⟨events, h.trans_nil (keeps_endIf s' streamId endStream), fun e he =>
    ⟨fun id hend hs => ?_, fun id hreset => ?_⟩⟩
  · obtain ⟨rfl, rfl⟩ := (hevents e he).2 id hend
    exact lookup_endIf_eq_none (h.remoteEnded hs)
  · rw [(hevents e he).1] at hreset
    cases hreset

theorem keeps (h : Sends s s') : ∃ events, Keeps events s s' := by
  obtain ⟨events, hkeeps, -⟩ := h
  exact ⟨events, hkeeps⟩

end Sends

theorem sendsEnd_dataFrames {maxFrameSize n streamId : Nat} {endStream : Bool} {bytes : List UInt8}
    {e : Event} (he : e ∈ (dataFrames maxFrameSize streamId endStream n bytes).map Event.wrote) :
    e.sendsReset = none ∧ ∀ id, e.sendsEnd = some id → id = streamId ∧ endStream := by
  obtain ⟨f, hf, rfl⟩ := mem_map.mp he
  obtain ⟨htype, hid, -⟩ := mem_dataFrames streamId endStream hf
  refine ⟨by simp [Event.sendsReset, htype], fun id hend => ?_⟩
  obtain ⟨hsame, hflag⟩ := Event.sendsEnd_eq_some hend
  refine ⟨hsame.symm.trans hid, ?_⟩
  cases endStream with
  | true => rfl
  | false =>
    rw [has_of_mem_dataFrames streamId hf] at hflag
    cases hflag

theorem sends_sendBytes (bytes : List UInt8) : Sends s (s.sendBytes streamId bytes false) := by
  refine .of_keeps (keeps_sendBytes s streamId bytes false) fun e he => ?_
  obtain ⟨hreset, hend⟩ := sendsEnd_dataFrames he
  refine ⟨eq_none_iff_forall_ne_some.mpr fun id h => ?_, hreset⟩
  exact Bool.false_ne_true (hend id h).2

theorem sends_emit {e : Event} (hsending : e.sending)
    (he : e.sendsEnd = none ∧ e.sendsReset = none) : Sends s (s.emit e) :=
  Sends.of_keeps (keeps_emit s hsending) (forall_mem_singleton.mpr he)

theorem sends_update {g : StreamEntry → StreamEntry}
    (hg : ∀ stream : StreamEntry, stream.Kept (g stream)) : Sends s (s.update streamId g) :=
  Sends.of_keeps_nil (keeps_update s streamId hg)

theorem sends_enqueue (data : List UInt8) (endStream : Bool) :
    Sends s (s.enqueue streamId data endStream) := by
  refine .trans ?_ (sends_update _ streamId fun _ => ⟨rfl, rfl, .inl rfl⟩)
  exact .of_keeps_nil .of_eq

theorem sends_flushPendingWrites : Sends s s.flushPendingWrites := by
  refine flushQueue_rel (R := Sends) (fun _ _ _ => .trans) ?_ ?_ ?_ _ s
  · exact fun s queue => .of_keeps_nil .of_eq
  · intro s streamId stream _ _ _
    have hbytes := keeps_sendBytes s streamId stream.pendingWrite.rest stream.pendingWrite.endStream
    refine .of_endIf (hbytes.trans_nil ?_) fun e he => sendsEnd_dataFrames he
    refine .trans_nil ?_ (keeps_update _ streamId fun _ => ⟨rfl, rfl, .inl rfl⟩)
    exact keeps_update _ streamId fun _ => ⟨rfl, rfl, .inl rfl⟩
  · intro s streamId stream _ _ _
    refine .trans ?_ (sends_update _ streamId fun _ => ⟨rfl, rfl, .inl rfl⟩)
    exact sends_sendBytes s streamId _

theorem sends_sendData (data : List UInt8) (endStream : Bool) :
    Sends s (s.sendData streamId data endStream) := by
  have h := submitted_sendData s streamId data endStream
  generalize s.sendData streamId data endStream = s' at h
  cases h with
  | absent | empty => exact .refl s
  | appended => exact .of_keeps_nil (keeps_update s streamId fun _ => ⟨rfl, rfl, .inl rfl⟩)
  | ended =>
    have hframe : Keeps [.wrote (makeData streamId [] true)] s
        (s.sendFrame (makeData streamId [] true)) := keeps_emit s rfl
    have hend : (Event.wrote (makeData streamId [] true)).sendsReset = none ∧
        ∀ id, (Event.wrote (makeData streamId [] true)).sendsEnd = some id → id = streamId ∧
          true :=
      ⟨rfl, fun id hend => ⟨(Event.sendsEnd_eq_some hend).1.symm, rfl⟩⟩
    exact .of_endIf hframe (forall_mem_singleton.mpr hend)
  | whole =>
    exact .of_endIf (keeps_sendBytes s streamId _ _) fun e he => sendsEnd_dataFrames he
  | part =>
    exact (sends_sendBytes s streamId _).trans (sends_enqueue _ streamId _ _)

theorem sends_sendHeaders (headers : List HpackHeaderField) (endStream : Bool) :
    Sends s (s.sendHeaders streamId headers endStream) := by
  rw [sendHeaders]
  split
  · exact .refl s
  set encoded := s.hpackEncoder.encodeHeaders headers
  set f : Frame := ⟨.headers, if endStream then flagEndHeaders ||| flagEndStream else
    flagEndHeaders, streamId, encoded.1⟩ with hf
  have hencoded : Sends s { s with hpackEncoder := encoded.2 } :=
    Sends.of_keeps_nil .of_eq
  have hframe : ∀ s : Session, Sends s ((s.sendFrame f).endIf streamId endStream) := by
    refine fun s => .of_endIf (keeps_emit s rfl) (forall_mem_singleton.mpr
      ⟨rfl, fun id hend => ?_⟩)
    obtain ⟨hid, hflag⟩ := Event.sendsEnd_eq_some hend
    refine ⟨hid.symm, ?_⟩
    cases endStream with
    | true => rfl
    | false => exact absurd hflag (show ¬(flagEndHeaders &&& flagEndStream != 0) by decide)
  exact hencoded.trans (hframe _)

theorem sends_sendRstStream (error : ErrorCode) : Sends s (s.sendRstStream streamId error) := by
  rw [sendRstStream]
  split
  · exact .refl s
  have hframe : Keeps [.wrote (makeRstStream streamId error)] s
      (s.sendFrame (makeRstStream streamId error)) := keeps_emit s rfl
  refine ⟨_, hframe.trans_nil (keeps_erase _ streamId), forall_mem_singleton.mpr ?_⟩
  refine ⟨fun id hend => ?_, fun id hreset => ?_⟩
  · cases hend
  · rw [← some.inj hreset]
    exact AList.lookup_erase _ _

theorem sends_sendGoaway (error : ErrorCode) : Sends s (s.sendGoaway error) := by
  have hframe : Sends s (s.sendFrame (FrameCodec.makeGoaway error s.lastStreamId)) :=
    sends_emit s rfl ⟨rfl, rfl⟩
  rw [sendGoaway]
  split
  · exact hframe.trans (sends_emit _ rfl ⟨rfl, rfl⟩)
  · exact hframe

theorem sends_onPrefaceReceived : Sends s s.onPrefaceReceived := by
  rw [onPrefaceReceived]
  split
  · exact .refl s
  · have hframe : ∀ payload, Sends s (s.sendFrame ⟨.settings, flagNone, 0, payload⟩) := fun _ =>
      sends_emit s rfl ⟨rfl, rfl⟩
    exact (hframe _).trans (.of_keeps_nil .of_eq)

theorem sends_closeGracefully : Sends s s.closeGracefully := by
  have hframe : Sends s (s.sendFrame (FrameCodec.makeGoaway .noError s.lastStreamId)) :=
    sends_emit s rfl ⟨rfl, rfl⟩
  refine hframe.trans (.of_keeps_nil ⟨rfl, rfl, fun id stream' h => ?_,
    (append_nil _).symm, nofun⟩)
  rw [closeGracefully] at h
  rw [lookup_mapValues] at h
  obtain ⟨stream, hlookup, rfl⟩ := map_eq_some_iff.mp h
  exact ⟨stream, hlookup, rfl, rfl, .inl rfl⟩

theorem sends_call (c : Call) : Sends s (s.call c) := by
  refine call_rel (R := Sends) s Sends.refl (fun _ _ _ => .trans) ?_ sends_onPrefaceReceived
    sends_sendHeaders sends_sendData sends_sendRstStream sends_sendGoaway sends_closeGracefully c
  exact fun s c => sends_emit s rfl ⟨rfl, rfl⟩

end Session

end ServerLib.Http2

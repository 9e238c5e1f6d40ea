import ServerLib.Http2.Session

/-! What `handle_frame` can do, as one list of cases.  The proofs about sessions go through this
list and not through the branches of the handlers. -/

namespace ServerLib.Http2

open Lib

def Frame.increment (f : Frame) : Nat :=
  match f.payload with
  | [a, b, c, d] => Session.windowIncrement a b c d
  | _ => 0

namespace StreamEntry

def receives (stream : StreamEntry) : Prop :=
  ¬(stream.state = .halfClosedRemote ∨ stream.state = .closed)

/-- The fields that PRIORITY sets. -/
def prioritize (stream : StreamEntry) (exclusive : Bool) (parentStreamId weight : Nat) :
    StreamEntry :=
  { stream with exclusive := exclusive, parentStreamId := parentStreamId, weight := weight }

end StreamEntry

namespace Session

/-- The frame is SETTINGS of the peer, no acknowledgement, and not on a stream.  The first frame is
not asked for its stream. -/
def Applies (s : Session) (f : Frame) : Prop :=
  f.type = .settings ∧ f.has flagAck = false ∧ (s.seenNonSettingsFrame → f.streamId = 0)

instance (s : Session) (f : Frame) : Decidable (s.Applies f) :=
  inferInstanceAs (Decidable (_ ∧ _ ∧ (_ → _)))

/-- `Handled s f s'` says that `handle_frame` may take `s` to `s'` for the frame `f`. -/
inductive Handled (s : Session) (f : Frame) : Session → Prop
  | closed (error : ErrorCode) : Handled s f (s.closeWithGoaway error)
  | goaway : Handled s f s.close.stop
  | ignored : Handled s f s
  | settings (happlies : s.Applies f) :
      Handled s f { (s.applyPeerSettings f).sendFrame FrameCodec.makeSettingsAck with
        seenNonSettingsFrame := true }
  | settingsAck (htype : f.type = .settings) :
      Handled s f { s.handleSettingsAck with seenNonSettingsFrame := true }
  | ping (htype : f.type = .ping) : Handled s f (s.sendFrame (FrameCodec.makePingAck f))
  | priority (htype : f.type = .priority) (hid : f.streamId ≠ 0) (exclusive : Bool)
      (parentStreamId weight : Nat) :
      Handled s f ((s.addIdle f.streamId).update f.streamId
        (·.prioritize exclusive parentStreamId weight))
  | reset (stream : StreamEntry) (hlookup : s.streams.lookup f.streamId = some stream)
      (hid : f.streamId ≠ 0) : Handled s f (s.sendRstStream f.streamId .streamClosed)
  | refused (htype : f.type = .headers) (hlookup : s.streams.lookup f.streamId = none)
      (hlast : s.lastStreamId < f.streamId) :
      Handled s f (s.sendFrame (makeRstStream f.streamId .refusedStream))
  | headers (htype : f.type = .headers) (hodd : f.streamId % 2 = 1) (stream : StreamEntry)
      (hlookup : s.streams.lookup f.streamId = some stream) (hstate : stream.receives)
      (hwaiting : stream.waitingContinuation = false) : Handled s f (s.acceptHeaders f stream)
  | newHeaders (htype : f.type = .headers) (hodd : f.streamId % 2 = 1)
      (hlookup : s.streams.lookup f.streamId = none) (hlast : s.lastStreamId < f.streamId)
      (hcount : s.openStreamCount < localSettings.maxConcurrentStreams) :
      Handled s f ((s.getOrCreateStream f.streamId).acceptHeaders f s.newStream)
  | data (htype : f.type = .data) (hid : f.streamId ≠ 0) (stream : StreamEntry)
      (hlookup : s.streams.lookup f.streamId = some stream) (hstate : stream.receives)
      (hwaiting : stream.waitingContinuation = false) : Handled s f (s.acceptData f stream)
  | continuation (htype : f.type = .continuation) (hid : f.streamId ≠ 0) (stream : StreamEntry)
      (hlookup : s.streams.lookup f.streamId = some stream) (hstate : stream.receives)
      (hwaiting : stream.waitingContinuation = true) : Handled s f (s.acceptContinuation f stream)
  | windowZero (htype : f.type = .windowUpdate) (hid : f.streamId ≠ 0)
      (hincrement : f.increment = 0) :
      Handled s f (s.sendFrame (makeRstStream f.streamId .protocolError))
  | connectionWindow (htype : f.type = .windowUpdate) (hid : f.streamId = 0)
      (hwrap : ¬(s.connectionSendWindow + f.increment) % 2 ^ 32 < s.connectionSendWindow) :
      Handled s f { s with
        connectionSendWindow := (s.connectionSendWindow + f.increment) % 2 ^ 32 }.flushPendingWrites
  | connectionOverflow (htype : f.type = .windowUpdate) (hid : f.streamId = 0)
      (hwrap : (s.connectionSendWindow + f.increment) % 2 ^ 32 < s.connectionSendWindow) :
      Handled s f ({ s with
        connectionSendWindow := (s.connectionSendWindow + f.increment) % 2 ^ 32 }.closeWithGoaway
          .flowControlError)
  | streamWindow (htype : f.type = .windowUpdate) (hid : f.streamId ≠ 0) (stream : StreamEntry)
      (hlookup : s.streams.lookup f.streamId = some stream)
      (hwrap : ¬(stream.sendWindow + f.increment) % 2 ^ 32 < stream.sendWindow) :
      Handled s f (s.update f.streamId
        ({ · with sendWindow := (stream.sendWindow + f.increment) % 2 ^ 32 })).flushPendingWrites
  | streamOverflow (htype : f.type = .windowUpdate) (hid : f.streamId ≠ 0) (stream : StreamEntry)
      (hlookup : s.streams.lookup f.streamId = some stream)
      (hwrap : (stream.sendWindow + f.increment) % 2 ^ 32 < stream.sendWindow) :
      Handled s f ((s.update f.streamId
        ({ · with sendWindow := (stream.sendWindow + f.increment) % 2 ^ 32 })).sendRstStream
          f.streamId .flowControlError)
  | rst (htype : f.type = .rstStream) (hid : f.streamId ≠ 0) (hlength : f.length = 4) :
      Handled s f (s.erase f.streamId)

variable (s : Session) (f : Frame)

theorem handled_first (hfirst : s.seenNonSettingsFrame = false) :
    Handled s f (s.handleFirst f) := by
  rw [handleFirst]
  split
  · exact .closed _
  rename_i htype
  rw [ne_eq, not_not] at htype
  split
  · exact .closed _
  · split_ifs with hack
    · exact .settingsAck htype
    · exact .settings ⟨htype, by simpa using hack, by simp [hfirst]⟩

theorem handled_settings (hseen : s.seenNonSettingsFrame) (htype : f.type = .settings) :
    Handled s f (s.handleSettings f) := by
  have happlied : ∀ payload (s : Session), s.seenNonSettingsFrame →
      (applySettings payload s).seenNonSettingsFrame := by
    intro payload s hs
    fun_induction applySettings payload s <;> first | assumption | (rename_i ih; exact ih hs)
  rw [handleSettings]
  split_ifs with hid hack hempty hlength
  · exact .closed _
  · exact .closed _
  · have h := Handled.settingsAck (s := s) htype
    rw [← hseen] at h
    exact h
  · exact .closed _
  have h := Handled.settings (s := s) (f := f) ⟨htype, by simpa using hack, fun _ => not_not.mp hid⟩
  have happly : (s.applyPeerSettings f).seenNonSettingsFrame := by
    rw [applyPeerSettings]
    split
    · exact hseen
    · exact happlied _ _ hseen
  rw [← happly] at h
  exact h

theorem handled_ping (htype : f.type = .ping) : Handled s f (s.handlePing f) := by
  rw [handlePing]
  split
  · exact .closed _
  split
  · exact .ignored
  · exact .ping htype

theorem handled_priority (htype : f.type = .priority) : Handled s f (s.handlePriority f) := by
  rw [handlePriority]
  split
  · split_ifs with hid
    · exact .closed _
    · exact .priority htype hid _ _ _
  · exact .closed _

theorem validateStreamState_cases :
    (∃ stream, s.streams.lookup f.streamId = some stream ∧ stream.receives ∧
      s.validateStreamState f.streamId = (s, true)) ∨
    (∃ stream, s.streams.lookup f.streamId = some stream ∧
      s.validateStreamState f.streamId = (s.sendRstStream f.streamId .streamClosed, false)) ∨
    s.streams.lookup f.streamId = none ∧ ∃ ok, s.validateStreamState f.streamId = (s, ok) := by
  rw [validateStreamState]
  cases hlookup : s.streams.lookup f.streamId with
  | none => exact .inr (.inr ⟨rfl, _, rfl⟩)
  | some stream =>
    dsimp only
    split_ifs with hstate
    · exact .inr (.inl ⟨stream, rfl, rfl⟩)
    · exact .inl ⟨stream, rfl, hstate, rfl⟩

theorem handled_headers (htype : f.type = .headers) : Handled s f (s.handleHeaders f) := by
  rw [handleHeaders]
  split
  · exact .closed _
  rename_i hid
  split
  · exact .closed _
  rename_i heven
  have hodd : f.streamId % 2 = 1 := by omega
  split_ifs with hold
  · exact .closed _
  rcases validateStreamState_cases s f with ⟨stream, hlookup, hstate, hvalid⟩ |
    ⟨stream, hlookup, hvalid⟩ | ⟨hlookup, ok, hvalid⟩
  · rw [hvalid]
    simp only [hlookup, getOrCreateStream, Bool.not_true, Bool.false_eq_true, if_false,
      reduceCtorEq, and_false]
    split_ifs with hwaiting
    · exact .closed _
    · exact .headers htype hodd stream hlookup hstate (by simpa using hwaiting)
  · rw [hvalid]
    exact .reset stream hlookup hid
  · rw [hvalid]
    have hlast : s.lastStreamId < f.streamId := by
      by_contra h
      exact hold ⟨Nat.not_lt.mp h, hlookup⟩
    cases ok with
    | false => exact .ignored
    | true =>
      simp only [hlookup, and_true, Bool.not_true, Bool.false_eq_true, if_false]
      split_ifs with hcount
      · exact .refused htype hlookup hlast
      · have hnew := Handled.newHeaders htype hodd hlookup hlast (Nat.not_le.mp hcount)
        simp only [getOrCreateStream, hlookup, AList.lookup_insert] at hnew ⊢
        exact hnew

theorem handled_data (htype : f.type = .data) : Handled s f (s.handleData f) := by
  rw [handleData]
  split_ifs with hid
  · exact .closed _
  rcases validateStreamState_cases s f with ⟨stream, hlookup, hstate, hvalid⟩ |
    ⟨stream, hlookup, hvalid⟩ | ⟨hlookup, ok, hvalid⟩
  · rw [hvalid]
    simp only [hlookup, Bool.not_true, Bool.false_eq_true, if_false]
    split_ifs with hwaiting
    · exact .closed _
    · exact .data htype hid stream hlookup hstate (by simpa using hwaiting)
  · rw [hvalid]
    exact .reset stream hlookup hid
  · rw [hvalid]
    cases ok with
    | false => exact .ignored
    | true =>
      simp only [hlookup]
      exact .closed _

theorem handled_continuation (htype : f.type = .continuation) :
    Handled s f (s.handleContinuation f) := by
  rw [handleContinuation]
  split_ifs with hid
  · exact .closed _
  rcases validateStreamState_cases s f with ⟨stream, hlookup, hstate, hvalid⟩ |
    ⟨stream, hlookup, hvalid⟩ | ⟨hlookup, ok, hvalid⟩
  · rw [hvalid]
    simp only [hlookup, Bool.not_true, Bool.false_eq_true, if_false]
    split_ifs with hwaiting
    · exact .closed _
    · exact .continuation htype hid stream hlookup hstate (by simpa using hwaiting)
  · rw [hvalid]
    exact .reset stream hlookup hid
  · rw [hvalid]
    cases ok with
    | false => exact .ignored
    | true =>
      simp only [hlookup]
      exact .closed _

theorem handled_windowUpdate (htype : f.type = .windowUpdate) :
    Handled s f (s.handleWindowUpdate f) := by
  rw [handleWindowUpdate]
  split
  · rename_i a b c d hpayload
    have hincrement : windowIncrement a b c d = f.increment := by
      rw [Frame.increment, hpayload]
    rw [hincrement]
    dsimp only
    split
    · rename_i hzero
      split_ifs with hid
      · exact .closed _
      · exact .windowZero htype hid hzero
    split
    · rename_i hid
      split_ifs with hwrap
      · exact .connectionOverflow htype hid hwrap
      · exact .connectionWindow htype hid hwrap
    rename_i hid
    split
    · exact .ignored
    · rename_i stream hlookup
      split_ifs with hwrap
      · exact .streamOverflow htype hid stream hlookup hwrap
      · exact .streamWindow htype hid stream hlookup hwrap
  · exact .closed _

theorem handled_rstStream (htype : f.type = .rstStream) : Handled s f (s.handleRstStream f) := by
  rw [handleRstStream]
  split_ifs with h
  · exact .closed _
  · exact .rst htype (by omega) (by omega)

theorem handled_frame : Handled s f (s.handleFrame f) := by
  rw [handleFrame]
  split_ifs with hseen
  · exact handled_first s f (by simpa using hseen)
  split
  · exact handled_settings s f (by simpa using hseen) (by assumption)
  · exact handled_ping s f (by assumption)
  · exact handled_priority s f (by assumption)
  · exact handled_headers s f (by assumption)
  · exact handled_data s f (by assumption)
  · exact handled_continuation s f (by assumption)
  · exact handled_windowUpdate s f (by assumption)
  · exact handled_rstStream s f (by assumption)
  · exact .goaway
  · exact .ignored
  · exact .ignored

end Session

end ServerLib.Http2

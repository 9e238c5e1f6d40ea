import ServerLib.Http2.Reception

/-! Blocks of headers.  While a block is open, only CONTINUATION on its stream may come, since all
blocks share one HPACK table.  The session keeps the open block with its stream, and most frames on
other streams are taken all the same.  Those that are not are listed in `Rejects`. -/

namespace ServerLib.Http2

open Lib List Option

namespace Event

def headersFrame : Event → Option Frame
  | .received f => if f.type = .headers then some f else none
  | _ => none

def decodedBlock : Event → Option (Nat × List UInt8)
  | .decoded streamId block => some (streamId, block)
  | _ => none

end Event

section

variable (log : List Event)

def headersFrames : List Frame := log.filterMap Event.headersFrame

def decodedBlocks : List (Nat × List UInt8) := log.filterMap Event.decodedBlock

/-- The block begins with the payload of the HEADERS frame. -/
def Begins (f : Frame) (block : Nat × List UInt8) : Prop :=
  f.streamId = block.1 ∧ f.payload <+: block.2

/-- The blocks that are decoded belong to HEADERS frames in the order in which these have come. -/
def DecodedInOrder : Prop :=
  ∃ frames, frames.Sublist (headersFrames log) ∧ List.Forall₂ Begins frames (decodedBlocks log)

theorem headersFrames_append (events : List Event) :
    headersFrames (log ++ events) = headersFrames log ++ headersFrames events :=
  filterMap_append

theorem decodedBlocks_append (events : List Event) :
    decodedBlocks (log ++ events) = decodedBlocks log ++ decodedBlocks events :=
  filterMap_append

/-- A block that is not complete belongs to a HEADERS frame after all of those. -/
def BlockPending (streamId : Nat) (block : List UInt8) (log : List Event) : Prop :=
  ∃ frames f, (frames ++ [f]).Sublist (headersFrames log) ∧
    List.Forall₂ Begins frames (decodedBlocks log) ∧ Begins f (streamId, block)

theorem decodedBlocks_append_none (h : ∀ e ∈ events, e.decodedBlock = none) :
    decodedBlocks (log ++ events) = decodedBlocks log := by
  rw [decodedBlocks_append, decodedBlocks, decodedBlocks, filterMap_eq_nil_iff.mpr h,
    append_nil]

theorem sublist_headersFrames (events : List Event) :
    (headersFrames log).Sublist (headersFrames (log ++ events)) := by
  rw [headersFrames_append]
  exact sublist_append_left _ _

variable {log}

/-- The log has grown, and no block has been decoded. -/
def Undecoded (log log' : List Event) : Prop :=
  ∃ events, log' = log ++ events ∧ ∀ e ∈ events, e.decodedBlock = none

theorem Undecoded.single (he : e.decodedBlock = none) : Undecoded log (log ++ [e]) :=
  ⟨[e], rfl, forall_mem_singleton.mpr he⟩

theorem DecodedInOrder.append (h : DecodedInOrder log) (hlog : Undecoded log log') :
    DecodedInOrder log' := by
  obtain ⟨frames, hsublist, hbegins⟩ := h
  obtain ⟨events, rfl, hevents⟩ := hlog
  refine ⟨frames, hsublist.trans (sublist_headersFrames log events), ?_⟩
  rwa [decodedBlocks_append_none log hevents]

theorem DecodedInOrder.sublist (h : DecodedInOrder log) :
    ((decodedBlocks log).map (·.1)).Sublist ((headersFrames log).map (·.streamId)) := by
  obtain ⟨frames, hsublist, hbegins⟩ := h
  have hids : (decodedBlocks log).map (·.1) = frames.map (·.streamId) := by
    generalize decodedBlocks log = blocks at hbegins
    clear hsublist
    induction hbegins with
    | nil => rfl
    | cons hf _ ih => rw [map_cons, map_cons, hf.1, ih]
  rw [hids]
  exact hsublist.map _

theorem BlockPending.append (h : BlockPending streamId block log) (hlog : Undecoded log log') :
    BlockPending streamId block log' := by
  obtain ⟨frames, f, hsublist, hbegins, hf⟩ := h
  obtain ⟨events, rfl, hevents⟩ := hlog
  refine ⟨frames, f, hsublist.trans (sublist_headersFrames log events), ?_, hf⟩
  rwa [decodedBlocks_append_none log hevents]

theorem BlockPending.extend (h : BlockPending streamId block log) (more : List UInt8) :
    BlockPending streamId (block ++ more) log := by
  obtain ⟨frames, f, hsublist, hbegins, hid, hprefix⟩ := h
  exact ⟨frames, f, hsublist, hbegins, hid, hprefix.trans (prefix_append block more)⟩

theorem DecodedInOrder.begin (h : DecodedInOrder log) (htype : f.type = .headers) :
    BlockPending f.streamId f.payload (log ++ [.received f]) := by
  obtain ⟨frames, hsublist, hbegins⟩ := h
  have hheaders : headersFrames [.received f] = [f] := by
    simp [headersFrames, Event.headersFrame, htype]
  refine ⟨frames, f, ?_, ?_, rfl, prefix_rfl⟩
  · rw [headersFrames_append, hheaders]
    exact hsublist.append (List.Sublist.refl [f])
  · rwa [decodedBlocks_append_none log (forall_mem_singleton.mpr rfl)]

theorem BlockPending.decode (h : BlockPending streamId block log) :
    DecodedInOrder (log ++ [.decoded streamId block]) := by
  obtain ⟨frames, f, hsublist, hbegins, hf⟩ := h
  refine ⟨frames ++ [f], hsublist.trans (sublist_headersFrames log _), ?_⟩
  rw [decodedBlocks_append]
  exact rel_append hbegins (List.Forall₂.cons hf List.Forall₂.nil)

end

theorem Undecoded.of_inert (h : ∃ events, log' = log ++ events ∧ ∀ e ∈ events, e.inert) :
    Undecoded log log' := by
  obtain ⟨events, hlog, hinert⟩ := h
  refine ⟨events, hlog, fun e he => ?_⟩
  cases e with
  | decoded => cases hinert _ he
  | _ => rfl

namespace Session

/-- The frames that end the connection with a protocol error. -/
def Rejects (s : Session) (f : Frame) : Bool :=
  if !s.seenNonSettingsFrame then f.type ≠ .settings
  else
    match f.type, s.streams.lookup f.streamId with
    | .settings, _ => f.streamId ≠ 0
    | .priority, _ => f.length ≠ 5 ∨ f.streamId = 0
    | .headers, none => f.streamId % 2 = 0 ∨ f.streamId ≤ s.lastStreamId
    | .headers, some stream => f.streamId % 2 = 0 ∨
        stream.state ≠ .halfClosedRemote ∧ stream.state ≠ .closed ∧ stream.waitingContinuation
    | .data, none => f.streamId = 0 ∨ ¬(f.streamId ≤ s.lastStreamId ∧ f.streamId % 2 = 1)
    | .data, some stream => f.streamId = 0 ∨
        stream.state ≠ .halfClosedRemote ∧ stream.state ≠ .closed ∧ stream.waitingContinuation
    | .continuation, none => f.streamId = 0 ∨ ¬(f.streamId ≤ s.lastStreamId ∧ f.streamId % 2 = 1)
    | .continuation, some stream => f.streamId = 0 ∨
        stream.state ≠ .halfClosedRemote ∧ stream.state ≠ .closed ∧ ¬stream.waitingContinuation
    | .windowUpdate, _ => f.streamId = 0 ∧ f.length = 4 ∧ f.increment = 0
    | .rstStream, _ => f.length ≠ 4 ∨ f.streamId = 0
    | _, _ => false

section Rejects

variable {s : Session} {f : Frame}

section Unused

variable (hlookup : s.streams.lookup f.streamId = none)
include hlookup

theorem validateStreamState_of_unused
    (hunused : ¬(f.streamId ≤ s.lastStreamId ∧ f.streamId % 2 = 1)) :
    s.validateStreamState f.streamId = (s, true) := by
  simp only [validateStreamState, hlookup, decide_eq_false hunused, Bool.not_false]

theorem handleHeaders_of_unused (h : f.streamId % 2 = 0 ∨ f.streamId ≤ s.lastStreamId) :
    s.handleHeaders f = s.closeWithGoaway .protocolError := by
  rw [handleHeaders]
  split
  · rfl
  split
  · rfl
  · rename_i heven
    exact if_pos ⟨h.resolve_left heven, hlookup⟩

theorem handleData_of_unused
    (h : f.streamId = 0 ∨ ¬(f.streamId ≤ s.lastStreamId ∧ f.streamId % 2 = 1)) :
    s.handleData f = s.closeWithGoaway .protocolError := by
  rw [handleData]
  split_ifs with hid
  · rfl
  · rw [validateStreamState_of_unused hlookup (h.resolve_left hid)]
    simp [hlookup]

theorem handleContinuation_of_unused
    (h : f.streamId = 0 ∨ ¬(f.streamId ≤ s.lastStreamId ∧ f.streamId % 2 = 1)) :
    s.handleContinuation f = s.closeWithGoaway .protocolError := by
  rw [handleContinuation]
  split_ifs with hid
  · rfl
  · rw [validateStreamState_of_unused hlookup (h.resolve_left hid)]
    simp [hlookup]

end Unused

section Used

variable (hlookup : s.streams.lookup f.streamId = some stream)
include hlookup

theorem validateStreamState_eq (hremote : stream.state ≠ .halfClosedRemote)
    (hclosed : stream.state ≠ .closed) : s.validateStreamState f.streamId = (s, true) := by
  simp [validateStreamState, hlookup, hremote, hclosed]

theorem handleHeaders_of_waiting (h : f.streamId % 2 = 0 ∨
      stream.state ≠ .halfClosedRemote ∧ stream.state ≠ .closed ∧ stream.waitingContinuation) :
    s.handleHeaders f = s.closeWithGoaway .protocolError := by
  rw [handleHeaders]
  split
  · rfl
  split
  · rfl
  · rename_i heven
    obtain ⟨hremote, hclosed, hwaiting⟩ := h.resolve_left heven
    rw [validateStreamState_eq hlookup hremote hclosed]
    simp [hlookup, getOrCreateStream, hwaiting]

theorem handleData_of_waiting (h : f.streamId = 0 ∨
      stream.state ≠ .halfClosedRemote ∧ stream.state ≠ .closed ∧ stream.waitingContinuation) :
    s.handleData f = s.closeWithGoaway .protocolError := by
  rw [handleData]
  split_ifs with hid
  · rfl
  · obtain ⟨hremote, hclosed, hwaiting⟩ := h.resolve_left hid
    rw [validateStreamState_eq hlookup hremote hclosed]
    simp [hlookup, hwaiting]

theorem handleContinuation_of_closed (h : f.streamId = 0 ∨
      stream.state ≠ .halfClosedRemote ∧ stream.state ≠ .closed ∧ ¬stream.waitingContinuation) :
    s.handleContinuation f = s.closeWithGoaway .protocolError := by
  rw [handleContinuation]
  split_ifs with hid
  · rfl
  · obtain ⟨hremote, hclosed, hwaiting⟩ := h.resolve_left hid
    rw [validateStreamState_eq hlookup hremote hclosed]
    simp [hlookup, hwaiting]

end Used

theorem handlePriority_of_rejects (h : f.length ≠ 5 ∨ f.streamId = 0) :
    s.handlePriority f = s.closeWithGoaway .protocolError := by
  rw [handlePriority]
  split
  · rename_i hpayload
    have hlength : f.length = 5 := by
      rw [Frame.length, hpayload]
      rfl
    exact if_pos (h.resolve_left (not_not.mpr hlength))
  · rfl

theorem handleWindowUpdate_of_rejects (h : f.streamId = 0 ∧ f.length = 4 ∧ f.increment = 0) :
    s.handleWindowUpdate f = s.closeWithGoaway .protocolError := by
  obtain ⟨hid, hlength, hzero⟩ := h
  rw [handleWindowUpdate]
  split
  · rename_i a b c d hpayload
    have hincrement : windowIncrement a b c d = 0 := by
      rw [Frame.increment, hpayload] at hzero
      exact hzero
    simp [hincrement, hid]
  · rename_i hpayload
    obtain ⟨a, b, c, d, hfour⟩ := length_eq_four.mp hlength
    exact absurd hfour (hpayload a b c d)

end Rejects

theorem handleFrame_of_rejects (h : Rejects s f) :
    s.handleFrame f = s.closeWithGoaway .protocolError := by
  rw [Rejects] at h
  rw [handleFrame]
  split at h
  · rename_i hseen
    rw [if_pos hseen, handleFirst, if_pos (of_decide_eq_true h)]
  rename_i hseen
  rw [if_neg hseen]
  generalize f.type = type, hlookup : s.streams.lookup f.streamId = found at h
  split at h
  · exact if_pos (of_decide_eq_true h)
  · exact handlePriority_of_rejects (of_decide_eq_true h)
  · exact handleHeaders_of_unused hlookup (of_decide_eq_true h)
  · exact handleHeaders_of_waiting hlookup (of_decide_eq_true h)
  · exact handleData_of_unused hlookup (of_decide_eq_true h)
  · exact handleData_of_waiting hlookup (of_decide_eq_true h)
  · exact handleContinuation_of_unused hlookup (of_decide_eq_true h)
  · exact handleContinuation_of_closed hlookup (of_decide_eq_true h)
  · exact handleWindowUpdate_of_rejects (of_decide_eq_true h)
  · exact if_pos (of_decide_eq_true h)
  · cases h

/-- The stream on which a block of headers is open after a step, if it was `block` before: HEADERS
that are accepted open a block, and CONTINUATION on its stream may close it. -/
def openBlock (s : Session) (block : Option Nat) : Label → Option Nat
  | .recv f =>
    if s.phase ≠ .ready then block
    else if f.type = .headers ∧ f.has flagEndHeaders = false ∧
        (step s (.recv f)).streams.lookup f.streamId ≠ none ∧ (step s (.recv f)).phase ≠ .stopped
    then some f.streamId
    else if f.type = .continuation ∧ block = some f.streamId ∧ f.has flagEndHeaders = true then none
    else block
  | _ => block

variable (t : Session × Option Nat) (l : Label)

def track : Session × Option Nat :=
  (step t.1 l, openBlock t.1 t.2 l)

/-- The frame is other than CONTINUATION on the stream of the block that is open. -/
def Intrudes (f : Frame) : Prop :=
  t.1.phase = .ready ∧ t.2 ≠ none ∧ ¬(f.type = .continuation ∧ t.2 = some f.streamId)

instance (t : Session × Option Nat) (f : Frame) : Decidable (Intrudes t f) :=
  inferInstanceAs (Decidable (_ ∧ _ ∧ _))

/-- Everything is as the session knows it: the blocks have been decoded in order, and a stream that
waits for CONTINUATION is the one of the block that is open. -/
structure Ordered (t : Session × Option Nat) : Prop where
  decoded : DecodedInOrder t.1.log
  waiting : ∀ id stream, t.1.streams.lookup id = some stream → stream.waitingContinuation = true →
    t.1.phase = .stopped ∨ (∃ endStream, t.1.phase = .inHeadersBridge id endStream) ∨
      t.2 = some id ∧ BlockPending id stream.headerBlock t.1.log

theorem Ordered.of_stopped (hdecoded : DecodedInOrder s.log) (hphase : s.phase = .stopped) :
    Ordered (s, block) :=
  ⟨hdecoded, fun _ _ _ _ => .inl hphase⟩

theorem Ordered.of_not_waiting (hdecoded : DecodedInOrder s.log)
    (h : ∀ id stream, s.streams.lookup id = some stream → stream.waitingContinuation = false) :
    Ordered (s, block) := by
  refine ⟨hdecoded, fun id stream hlookup hwaiting => ?_⟩
  rw [h id stream hlookup] at hwaiting
  cases hwaiting

theorem Keeps.ordered (h : Keeps events s s') (hs : Ordered (s, block)) : Ordered (s', block) := by
  have hnone : Undecoded s.log s'.log := by
    refine ⟨events, h.log, fun e he => ?_⟩
    cases e with
    | decoded => cases h.sending _ he
    | _ => rfl
  constructor
  · exact hs.decoded.append hnone
  · intro id stream' hlookup' hwaiting'
    obtain ⟨stream, hlookup, hkept⟩ := h.streams id stream' hlookup'
    have hwaits := hs.waiting id stream hlookup (by rw [← hkept.waitingContinuation, hwaiting'])
    rw [h.phase, hkept.headerBlock]
    exact hwaits.imp_right (.imp_right (And.imp_right fun hpending => hpending.append hnone))

theorem Returned.ordered (h : Returned streamId endStream s s')
    (hphase : s.phase.bridge = some (streamId, endStream))
    (hself : (∃ endStream', s.phase = .inHeadersBridge streamId endStream') →
      ∀ stream', s'.streams.lookup streamId = some stream' → stream'.waitingContinuation = false)
    (hs : Ordered (s, block)) : Ordered (s', block) := by
  have hnone := Undecoded.of_inert h.log
  -- what was known of a stream that waits and that is not in the bridge is still known
  have hkeep : ∀ id stream, s.streams.lookup id = some stream → stream.waitingContinuation →
      (¬∃ endStream', s.phase = .inHeadersBridge id endStream') →
      block = some id ∧ BlockPending id stream.headerBlock s'.log := by
    intro id stream hlookup hwaiting hout
    rcases hs.waiting id stream hlookup hwaiting with hstopped | hbridge | ⟨hblock, hpending⟩
    · have hstopped' : s.phase = .stopped := hstopped
      rw [hstopped'] at hphase
      cases hphase
    · exact absurd hbridge hout
    · exact ⟨hblock, hpending.append hnone⟩
  constructor
  · exact hs.decoded.append hnone
  · intro id stream' hlookup' hwaiting'
    refine .inr (.inr ?_)
    by_cases hid : id = streamId
    · subst hid
      obtain ⟨stream, hlookup, -, hsame⟩ := h.stream stream' hlookup'
      obtain ⟨hwaiting, hblock⟩ := hsame hwaiting'
      rw [hblock]
      refine hkeep id stream hlookup hwaiting fun hbridge => ?_
      rw [hself hbridge stream' hlookup'] at hwaiting'
      cases hwaiting'
    · have hlookup : s.streams.lookup id = some stream' := by rw [← h.streams id hid, hlookup']
      refine hkeep id stream' hlookup hwaiting' ?_
      rintro ⟨endStream', hbridge⟩
      rw [hbridge] at hphase
      exact hid (Prod.mk.inj (some.inj hphase)).1

theorem BlockTaken.ordered (h : BlockTaken s streamId bytes endHeaders endStream s')
    (hlookup : s.streams.lookup streamId = some stream) (hbytes : stream.headerBlock = bytes)
    (hdecoded : DecodedInOrder s.log) (hpending : BlockPending streamId bytes s.log)
    (hothers : ∀ id stream, id ≠ streamId → s.streams.lookup id = some stream →
      stream.waitingContinuation = false)
    (hblock : endHeaders = false → s'.streams.lookup streamId ≠ none →
      s'.phase = s.phase → block = some streamId) : Ordered (s', block) := by
  have hnot : ∀ {update : StreamEntry → StreamEntry} {id stream'}, id ≠ streamId →
      (s.update streamId update).streams.lookup id = some stream' →
      stream'.waitingContinuation = false := by
    intro update id stream' hid hlookup'
    rw [Session.update, lookup_modify_of_ne _ hid] at hlookup'
    exact hothers id stream' hid hlookup'
  cases h with
  | tooLong =>
    refine .of_stopped (hdecoded.append ?_) rfl
    exact .of_inert (passive_abort s .enhanceYourCalm).log
  | waits hflag =>
    have hself :
        (s.update streamId ({ · with waitingContinuation := true })).streams.lookup streamId =
          some { stream with waitingContinuation := true } := by
      rw [update, lookup_modify_self, hlookup]
      rfl
    refine ⟨hdecoded, fun id stream' hlookup' hwaiting' => .inr (.inr ?_)⟩
    by_cases hid : id = streamId
    · subst hid
      cases hself.symm.trans hlookup'
      refine ⟨hblock hflag (by rw [hself]; exact some_ne_none _) rfl, ?_⟩
      rw [hbytes]
      exact hpending
    · rw [hnot hid hlookup'] at hwaiting'
      cases hwaiting'
  | completed hflag h =>
    have hdecode := hpending.decode
    cases h with
    | failed raw decoder =>
      refine .of_stopped (hdecode.append ?_) rfl
      exact .of_inert (passive_abort (s.decodeBlock streamId bytes raw decoder) .protocolError).log
    | bridged raw decoder =>
      refine ⟨hdecode.append (.single rfl), fun id stream' hlookup' hwaiting' => ?_⟩
      · by_cases hid : id = streamId
        · subst hid
          exact .inr (.inl ⟨endStream, rfl⟩)
        · rw [hnot hid hlookup'] at hwaiting'
          cases hwaiting'
    | finished raw decoder =>
      refine .of_not_waiting hdecode fun id stream' hlookup' => ?_
      by_cases hid : id = streamId
      · subst hid
        exact waitingContinuation_finishHeaders hlookup'
      · rw [(returned_finishHeaders _ streamId endStream).streams id hid] at hlookup'
        exact hnot hid hlookup'

theorem DataTaken.log (h : DataTaken s f s') : Undecoded s.log s'.log := by
  cases h with
  | overflow h => exact .of_inert (append_events h.log (passive_closeWithGoaway _ _).log)
  | bridged h => exact append_events (Undecoded.of_inert h.log) (Undecoded.single rfl)
  | finished h => exact .of_inert (append_events h.log (returned_finishData _ _ _ _).log)

theorem DataTaken.lookup (h : DataTaken s f s') {id : Nat}
    (hlookup' : s'.streams.lookup id = some stream') :
    ∃ stream, s.streams.lookup id = some stream ∧
      (stream'.waitingContinuation → stream.waitingContinuation) := by
  have hcounted : ∀ {s₁ : Session} {stream₁ : StreamEntry}, Counted f.streamId s s₁ →
      s₁.streams.lookup id = some stream₁ → ∃ stream, s.streams.lookup id = some stream ∧
        (stream₁.waitingContinuation → stream.waitingContinuation) := by
    intro s₁ stream₁ h hlookup₁
    by_cases hid : id = f.streamId
    · subst hid
      obtain ⟨stream, hlookup, -, hwaiting, -⟩ := h.stream stream₁ hlookup₁
      exact ⟨stream, hlookup, hwaiting.symm.trans⟩
    · rw [h.streams id hid] at hlookup₁
      exact ⟨stream₁, hlookup₁, fun hwaiting => hwaiting⟩
  cases h with
  | overflow h | bridged h => exact hcounted h hlookup'
  | @finished s₁ h =>
    have hreturned := returned_finishData s₁ f.streamId f.payload.length (f.has flagEndStream)
    by_cases hid : id = f.streamId
    · subst hid
      obtain ⟨stream₁, hlookup₁, -, hsame⟩ := hreturned.stream stream' hlookup'
      obtain ⟨stream, hlookup, hwaiting⟩ := hcounted h hlookup₁
      exact ⟨stream, hlookup, fun hwaiting' => hwaiting (hsame hwaiting').1⟩
    · rw [hreturned.streams id hid] at hlookup'
      exact hcounted h hlookup'

theorem handleFrame_continuation (s : Session) (htype : f.type = .continuation) :
    Passive s (s.handleFrame f) ∧ (s.handleFrame f).phase = .stopped ∨
    Removed f.streamId s (s.handleFrame f) ∨
    s.streams.lookup f.streamId = none ∧ s.handleFrame f = s ∨
    ∃ stream, s.streams.lookup f.streamId = some stream ∧
      stream.waitingContinuation ∧
      BlockTaken (s.update f.streamId fun _ => stream.withContinuation f) f.streamId
        (stream.headerBlock ++ f.payload) (f.has flagEndHeaders) stream.headersEndStream
        (s.handleFrame f) := by
  have hclosed : Passive s (s.closeWithGoaway .protocolError) ∧
      (s.closeWithGoaway .protocolError).phase = .stopped :=
    ⟨passive_closeWithGoaway s _, rfl⟩
  rw [handleFrame]
  split
  · rw [handleFirst, if_pos (by rw [htype]; decide)]
    exact .inl hclosed
  rw [htype]
  rw [handleContinuation]
  split_ifs with hid
  · exact .inl hclosed
  rcases validateStreamState_cases s f with ⟨stream, hlookup, hstate, hvalid⟩ |
    ⟨stream, hlookup, hvalid⟩ | ⟨hlookup, ok, hvalid⟩
  · rw [hvalid]
    simp only [hlookup, Bool.not_true, Bool.false_eq_true, if_false]
    split_ifs with hwaiting
    · exact .inl hclosed
    · have hwaiting' : stream.waitingContinuation := by simpa using hwaiting
      exact .inr (.inr (.inr ⟨stream, rfl, hwaiting',
        blockTaken_acceptContinuation hlookup hwaiting'⟩))
  · rw [hvalid]
    exact .inr (.inl (removed_sendRstStream s hid _))
  · rw [hvalid]
    cases ok with
    | false => exact .inr (.inr (.inl ⟨hlookup, rfl⟩))
    | true =>
      simp only [hlookup]
      exact .inl hclosed

/-- While a block is open, all frames that intrude are among those of `Rejects`. -/
def Exclusive : Label → Prop
  | .recv f => Intrudes t f → Rejects t.1 f = true
  | _ => True

instance (t : Session × Option Nat) : (l : Label) → Decidable (Exclusive t l)
  | .recv _ => inferInstanceAs (Decidable (_ → _))
  | .call _ => isTrue trivial
  | .ret => isTrue trivial

section Frames

variable {s : Session} {f : Frame}

theorem DecodedInOrder.receive (h : DecodedInOrder s.log) (f : Frame) :
    DecodedInOrder (s.receive f).log :=
  h.append (.single rfl)

theorem Removed.ordered (h : Removed f.streamId s s') (hdecoded : DecodedInOrder s.log)
    (hothers : ∀ id stream, id ≠ f.streamId → s.streams.lookup id = some stream →
      stream.waitingContinuation = false) : Ordered (s', block) := by
  obtain ⟨events, hlog, hrst⟩ := h.log
  refine .of_not_waiting (hdecoded.append ⟨_, hlog, fun e he => ?_⟩) fun id stream hlookup => ?_
  · obtain ⟨error, rfl⟩ := hrst e he
    rfl
  · by_cases hid : id = f.streamId
    · rw [hid, h.absent] at hlookup
      cases hlookup
    · rw [h.streams id hid] at hlookup
      exact hothers id stream hid hlookup

theorem ordered_recv (hready : s.phase = .ready) (hdecoded : DecodedInOrder s.log)
    (hnot : ∀ id stream, s.streams.lookup id = some stream → stream.waitingContinuation = false) :
    Ordered (step s (.recv f), openBlock s none (.recv f)) := by
  have hreceived := DecodedInOrder.receive hdecoded f
  -- HEADERS whose block is not complete open it
  have hopen : f.type = .headers → f.has flagEndHeaders = false →
      (step s (.recv f)).streams.lookup f.streamId ≠ none → (step s (.recv f)).phase = .ready →
      openBlock s none (.recv f) = some f.streamId := by
    intro htype hflag hlive hphase
    rw [openBlock, if_neg (not_not.mpr hready)]
    exact if_pos ⟨htype, hflag, hlive, by rw [hphase]; exact nofun⟩
  have hreception := reception_step hready f
  cases hreception with
  | passive h =>
    refine .of_not_waiting (hreceived.append (.of_inert h.log)) fun id stream hlookup => ?_
    rw [h.streams] at hlookup
    exact hnot id stream hlookup
  | priority htype exclusive parentStreamId weight h =>
    rw [h]
    refine .of_not_waiting ?_ fun id stream' hlookup' => ?_
    · have hlog : ((s.receive f).addIdle f.streamId).log = (s.receive f).log := by
        rw [addIdle]
        split <;> rfl
      show DecodedInOrder ((s.receive f).addIdle f.streamId).log
      rwa [hlog]
    · rcases lookup_priority hlookup' with ⟨stream, hlookup, -, hwaiting⟩ | ⟨-, hwaiting⟩
      · rw [hwaiting]
        exact hnot id stream hlookup
      · exact hwaiting
  | removed h => exact h.ordered hreceived fun id stream _ => hnot id stream
  | answered error h =>
    rw [h]
    exact .of_not_waiting (hreceived.append (.single rfl)) hnot
  | headers htype stream hlookup _ hwaiting h =>
    refine h.ordered (lookup_update_const hlookup _) rfl hreceived (hdecoded.begin htype)
      (fun id stream hid hlookup' => ?_) fun hflag hlive hphase =>
        hopen htype hflag hlive (hphase.trans hready)
    rw [update, lookup_modify_of_ne _ hid] at hlookup'
    exact hnot id stream hlookup'
  | opened htype hlookup _ _ h =>
    obtain ⟨hlog, hphase⟩ := getOrCreateStream_fields (s.receive f) f.streamId
    have hnew : ((s.receive f).getOrCreateStream f.streamId).streams.lookup f.streamId =
        some (s.receive f).newStream := by
      rw [getOrCreateStream, hlookup]
      exact AList.lookup_insert _
    refine h.ordered (lookup_update_const hnew _) rfl ?_ ?_ (fun id stream hid hlookup' => ?_)
      fun hflag hlive hsame => hopen htype hflag hlive ((hsame.trans hphase).trans hready)
    · show DecodedInOrder ((s.receive f).getOrCreateStream f.streamId).log
      rwa [hlog]
    · show BlockPending f.streamId f.payload ((s.receive f).getOrCreateStream f.streamId).log
      rw [hlog]
      exact hdecoded.begin htype
    · rw [update, lookup_modify_of_ne _ hid, lookup_getOrCreateStream_of_ne _ hid] at hlookup'
      exact hnot id stream hlookup'
  | data _ stream hlookup _ hwaiting h =>
    refine .of_not_waiting (hreceived.append h.log) fun id stream' hlookup' => ?_
    obtain ⟨stream, hlookup, hwaiting⟩ := h.lookup hlookup'
    refine Bool.eq_false_iff.mpr fun hwaiting' => ?_
    have hwaits := hwaiting hwaiting'
    rw [hnot id stream hlookup] at hwaits
    cases hwaits
  | continuation _ stream hlookup _ hwaiting h =>
    have hnot' := hnot f.streamId stream hlookup
    rw [hwaiting] at hnot'
    cases hnot'
  | window _ h =>
    obtain ⟨events, hkeeps⟩ := h.keeps
    exact hkeeps.ordered (Ordered.of_not_waiting hreceived hnot)

theorem Ordered.waits (h : Ordered (s, block)) (hready : s.phase = .ready) {id : Nat}
    (hlookup : s.streams.lookup id = some stream) (hwaiting : stream.waitingContinuation) :
    block = some id ∧ BlockPending id stream.headerBlock s.log := by
  rcases h.waiting id stream hlookup hwaiting with hstopped | ⟨endStream, hbridge⟩ | hopen
  · exact absurd (hready.symm.trans hstopped) nofun
  · exact absurd (hready.symm.trans hbridge) nofun
  · exact hopen

theorem ordered_continuation (hready : s.phase = .ready) (htype : f.type = .continuation)
    (h : Ordered (s, some f.streamId)) :
    Ordered (step s (.recv f), openBlock s (some f.streamId) (.recv f)) := by
  have hreceived := DecodedInOrder.receive h.decoded f
  have hothers : ∀ id stream, id ≠ f.streamId → s.streams.lookup id = some stream →
      stream.waitingContinuation = false := by
    intro id stream hid hlookup
    refine Bool.eq_false_iff.mpr fun hwaiting => hid ?_
    exact (some.inj (h.waits hready hlookup hwaiting).1).symm
  have hstill : f.has flagEndHeaders = false →
      openBlock s (some f.streamId) (.recv f) = some f.streamId := by
    intro hflag
    simp [openBlock, hready, htype, hflag]
  rw [step_recv hready]
  rcases handleFrame_continuation (s.receive f) htype with
    ⟨hpassive, hstopped⟩ | hremoved | ⟨hlookup, hsame⟩ | ⟨stream, hlookup, hwaiting, htaken⟩
  · exact .of_stopped (hreceived.append (.of_inert hpassive.log)) hstopped
  · exact hremoved.ordered hreceived hothers
  · rw [hsame]
    refine .of_not_waiting hreceived fun id stream hlookup' => ?_
    by_cases hid : id = f.streamId
    · rw [hid, hlookup] at hlookup'
      cases hlookup'
    · exact hothers id stream hid hlookup'
  · have hpending := (h.waits hready hlookup hwaiting).2
    refine htaken.ordered (lookup_update_const hlookup _) rfl hreceived ?_
      (fun id stream hid hlookup' => ?_) fun hflag _ _ => hstill hflag
    · exact (hpending.append (.single rfl)).extend f.payload
    · rw [update, lookup_modify_of_ne _ hid] at hlookup'
      exact hothers id stream hid hlookup'

end Frames

theorem step_of_rejects (hready : s.phase = .ready) (h : Rejects s f) :
    (step s (.recv f)).phase = .stopped ∧
    (step s (.recv f)).log = s.log ++ [.received f,
      .wrote (FrameCodec.makeGoaway .protocolError s.lastStreamId), .closed] := by
  have hrejects : Rejects (s.receive f) f := h
  rw [step_recv hready, handleFrame_of_rejects hrejects]
  refine ⟨rfl, ?_⟩
  show ((s.log ++ [_]) ++ [_]) ++ [_] = _
  simp only [append_assoc, cons_append, nil_append]
  rfl

theorem ordered_step (ht : Ordered t) (hexclusive : Exclusive t l) : Ordered (track t l) := by
  obtain ⟨s, block⟩ := t
  cases l with
  | call c =>
    obtain ⟨events, hkeeps⟩ := (sends_call s c).keeps
    exact hkeeps.ordered ht
  | ret =>
    show Ordered (step s .ret, block)
    unfold step
    split
    · contradiction
    · contradiction
    · contradiction
    · rename_i streamId endStream _ hphase
      refine (returned_finishHeaders s streamId endStream).ordered (by rw [hphase]; rfl) ?_ ht
      exact fun _ stream' => waitingContinuation_finishHeaders
    · rename_i streamId dataSize endStream _ hphase
      refine (returned_finishData s streamId dataSize endStream).ordered (by rw [hphase]; rfl) ?_ ht
      rintro ⟨endStream', hbridge⟩
      rw [hphase] at hbridge
      cases hbridge
    · exact ht
  | recv f =>
    by_cases hready : s.phase = .ready
    · by_cases hintrudes : Intrudes (s, block) f
      · obtain ⟨hstopped, hlog⟩ := step_of_rejects hready (hexclusive hintrudes)
        refine .of_stopped (ht.decoded.append ⟨_, hlog, ?_⟩) hstopped
        simp [Event.decodedBlock]
      · cases block with
        | none =>
          refine ordered_recv hready ht.decoded fun id stream hlookup => ?_
          refine Bool.eq_false_iff.mpr fun hwaiting => ?_
          cases (ht.waits hready hlookup hwaiting).1
        | some streamId =>
          have hnext : f.type = .continuation ∧ some streamId = some f.streamId := by
            by_contra hnext
            exact hintrudes ⟨hready, nofun, hnext⟩
          obtain ⟨htype, hid⟩ := hnext
          cases hid
          exact ordered_continuation hready htype ht
    · show Ordered (step s (.recv f), openBlock s block (.recv f))
      rw [step_recv_of_ne hready, openBlock, if_pos hready]
      exact ht

def EndsConnection : Label → Prop
  | .recv f => Intrudes t f → (step t.1 (.recv f)).phase = .stopped ∧
      (step t.1 (.recv f)).log = t.1.log ++ [.received f,
        .wrote (FrameCodec.makeGoaway .protocolError t.1.lastStreamId), .closed]
  | _ => True

instance (t : Session × Option Nat) : (l : Label) → Decidable (EndsConnection t l)
  | .recv _ => inferInstanceAs (Decidable (_ → _))
  | .call _ => isTrue trivial
  | .ret => isTrue trivial

theorem endsConnection_of_exclusive (h : Exclusive t l) : EndsConnection t l := by
  cases l with
  | recv f => exact fun hintrudes => step_of_rejects hintrudes.1 (h hintrudes)
  | call c | ret => trivial

/-- In a run in which the only frames that come between HEADERS without END_HEADERS and the end of
the block are those of `Rejects`, each of these ends the connection, and the blocks are decoded in
the order in which their HEADERS have come. -/
theorem blocks_decoded_in_order (headersBridge dataBridge goawayBridge : Bool) (ls : List Label)
    (h : Along track Exclusive (new headersBridge dataBridge goawayBridge, none) ls) :
    Along track EndsConnection (new headersBridge dataBridge goawayBridge, none) ls ∧
    DecodedInOrder (run track (new headersBridge dataBridge goawayBridge, none) ls).1.log := by
  refine ⟨h.mono endsConnection_of_exclusive, ?_⟩
  have hnew : Ordered (new headersBridge dataBridge goawayBridge, none) :=
    Ordered.of_not_waiting ⟨[], List.Sublist.refl [], List.Forall₂.nil⟩
      nofun
  exact (run_invariant ordered_step hnew h).decoded

/-- A block in two frames, one more block, and DATA in the middle of a third one. -/
theorem blocks_decoded_in_order_two :
    let ls : List Label := [.recv ⟨.settings, flagNone, 0, []⟩,
      .recv ⟨.headers, flagNone, 1, [130]⟩, .recv ⟨.continuation, flagEndHeaders, 1, [132]⟩, .ret,
      .recv ⟨.headers, flagEndHeaders, 3, [130]⟩, .ret,
      .recv ⟨.headers, flagNone, 5, [130]⟩, .recv ⟨.data, flagNone, 5, [1]⟩]
    decodedBlocks (run track (new true true true, none) ls).1.log = [(1, [130, 132]), (3, [130])] ∧
    Along track EndsConnection (new true true true, none) ls ∧
    DecodedInOrder (run track (new true true true, none) ls).1.log := by
  intro ls
  exact ⟨by decide +kernel, blocks_decoded_in_order true true true ls (by decide +kernel)⟩

/-- HEADERS on another stream are taken while a block is open, and their block is decoded first. -/
theorem block_decoded_before_open_one :
    let ls : List Label := [.recv ⟨.settings, flagNone, 0, []⟩,
      .recv ⟨.headers, flagNone, 1, [130]⟩, .recv ⟨.headers, flagEndHeaders, 3, [130]⟩, .ret,
      .recv ⟨.continuation, flagEndHeaders, 1, [132]⟩]
    ¬Along track EndsConnection (new true true true, none) ls ∧
    (headersFrames (run track (new true true true, none) ls).1.log).map (·.streamId) = [1, 3] ∧
    (decodedBlocks (run track (new true true true, none) ls).1.log).map (·.1) = [3, 1] ∧
    ¬DecodedInOrder (run track (new true true true, none) ls).1.log := by
  intro ls
  have hframes : (headersFrames (run track (new true true true, none) ls).1.log).map (·.streamId) =
      [1, 3] := by decide +kernel
  have hblocks : (decodedBlocks (run track (new true true true, none) ls).1.log).map (·.1) =
      [3, 1] := by decide +kernel
  refine ⟨by decide +kernel, hframes, hblocks, fun h => ?_⟩
  have hsublist := h.sublist
  rw [hframes, hblocks] at hsublist
  revert hsublist
  decide

end Session

end ServerLib.Http2

import ServerLib.Http2.Reception

/-! Streams are not used again.  A stream that is closed is known by its absence from `streams_` and
by `last_stream_id_`.  PRIORITY makes entries without regard to `last_stream_id_`, and a
WINDOW_UPDATE frame without an increment resets a stream and leaves its entry.  As long as neither
happens, what is closed stays closed. -/

namespace ServerLib.Http2

open Lib List Option

def Event.rst : Event → Option Nat
  | .received f => if f.type = .rstStream then some f.streamId else none
  | .wrote f => if f.type = .rstStream then some f.streamId else none
  | _ => none

theorem Event.of_inert {e : Event} (he : e.inert) : e.rst = none ∧ e.delivers = none := by
  cases e with
  | wrote f =>
    obtain ⟨-, -, htype⟩ := of_decide_eq_true he
    exact ⟨if_neg htype, rfl⟩
  | goawayBridge | closed => exact ⟨rfl, rfl⟩
  | _ => cases he

theorem Event.of_sending {e : Event} (he : e.sending) :
    e.rst = e.sendsReset ∧ e.delivers = none := by
  cases e with
  | wrote | called | goawayBridge => exact ⟨rfl, rfl⟩
  | _ => cases he

theorem Event.rst_of_delivers {e : Event} (he : e.delivers = some delivery) : e.rst = none := by
  cases e with
  | headersBridge | dataBridge => rfl
  | _ => cases he

namespace Session

/-- PRIORITY comes only for streams that have an entry, and a WINDOW_UPDATE frame for a stream that
has one carries an increment. -/
def Tidy (s : Session) : Label → Prop
  | .recv f =>
    (f.type = .priority → s.streams.lookup f.streamId ≠ none) ∧
    (f.type = .windowUpdate → s.streams.lookup f.streamId ≠ none → f.increment ≠ 0)
  | _ => True

instance (s : Session) : (l : Label) → Decidable (Tidy s l)
  | .recv _ => inferInstanceAs (Decidable (_ ∧ _))
  | .call _ => isTrue trivial
  | .ret => isTrue trivial

/-- Streams are added by HEADERS, in the order of their ids. -/
structure Advances (s : Session) (l : Label) (s' : Session) : Prop where
  lastStreamId : s.lastStreamId ≤ s'.lastStreamId
  stopped : s.phase = .stopped → s'.phase = .stopped
  added : ∀ id, s'.streams.lookup id ≠ none → s.streams.lookup id = none →
    s.phase = .ready ∧ s.lastStreamId < id ∧ id ≤ s'.lastStreamId ∧
      ∃ f, l = .recv f ∧ f.type = .headers ∧ f.streamId = id

variable {s' s : Session}

theorem Advances.of_not_added (hlast : s.lastStreamId ≤ s'.lastStreamId)
    (hstopped : s.phase = .stopped → s'.phase = .stopped)
    (h : ∀ id, s.streams.lookup id = none → s'.streams.lookup id = none) : Advances s l s' :=
  ⟨hlast, hstopped, fun id hlive hgone => absurd (h id hgone) hlive⟩

theorem Sends.advances (h : Sends s s') (l : Label) : Advances s l s' := by
  obtain ⟨events, hkeeps⟩ := h.keeps
  refine .of_not_added hkeeps.lastStreamId.ge (fun hstopped => ?_) fun id hgone =>
    hkeeps.lookup_eq_none hgone
  rw [hkeeps.phase, hstopped]

theorem Returned.advances (h : Returned streamId endStream s s') (hphase : s.phase ≠ .stopped)
    (l : Label) : Advances s l s' := by
  exact .of_not_added h.lastStreamId.ge (fun hstopped => absurd hstopped hphase)
    fun _ hgone => h.lookup_eq_none hgone

theorem Touches.advances (h : Touches streamId s s') (hlive : s.streams.lookup streamId ≠ none)
    (hready : s.phase = .ready) (l : Label) : Advances s l s' := by
  refine .of_not_added h.lastStreamId.ge (fun hstopped => ?_) fun id hgone => ?_
  · rw [hready] at hstopped
    cases hstopped
  · have hne : id ≠ streamId := by
      rintro rfl
      exact hlive hgone
    rw [h.streams id hne, hgone]

theorem getOrCreateStream_lastStreamId (hlookup : s.streams.lookup streamId = none)
    (hlast : s.lastStreamId < streamId) :
    (s.getOrCreateStream streamId).lastStreamId = streamId := by
  rw [getOrCreateStream, hlookup]
  exact Nat.max_eq_right hlast.le

theorem Reception.advances (h : Reception s f s') (hready : s.phase = .ready)
    (htidy : Tidy s (.recv f)) : Advances s (.recv f) s' := by
  have hnot : s.phase = .stopped → s'.phase = .stopped := fun hstopped => by
    rw [hready] at hstopped
    cases hstopped
  cases h with
  | passive h =>
    exact .of_not_added h.lastStreamId.ge hnot fun id hgone => by rw [h.streams, hgone]
  | priority htype exclusive parentStreamId weight h =>
    rw [h]
    exact (touches_priority s f.streamId _).advances (htidy.1 htype) hready _
  | removed h =>
    refine .of_not_added h.lastStreamId.ge hnot fun id hgone => ?_
    by_cases hid : id = f.streamId
    · rw [hid, h.absent]
    · rw [h.streams id hid, hgone]
  | answered error h =>
    rw [h]
    exact .of_not_added le_rfl (by rwa [h] at hnot) fun _ hgone => hgone
  | headers _ stream hlookup _ _ h | continuation _ stream hlookup _ _ h =>
    refine (Touches.of_update h.touches).advances ?_ hready _
    rw [hlookup]
    exact some_ne_none stream
  | opened htype hlookup hlast _ h =>
    have htouches := Touches.of_update h.touches
    have hnew := htouches.lastStreamId.trans (getOrCreateStream_lastStreamId hlookup hlast)
    refine ⟨by rw [hnew]; exact hlast.le, hnot, fun id hlive hgone => ?_⟩
    by_cases hid : id = f.streamId
    · subst hid
      exact ⟨hready, hlast, hnew.ge, f, rfl, htype, rfl⟩
    · rw [htouches.streams id hid, lookup_getOrCreateStream_of_ne _ hid] at hlive
      exact absurd hgone hlive
  | data _ stream hlookup _ _ h =>
    refine h.touches.advances ?_ hready _
    rw [hlookup]
    exact some_ne_none stream
  | window _ h => exact h.advances _

theorem advances_step (s : Session) (l : Label) (htidy : Tidy s l) : Advances s l (step s l) := by
  cases moved s l with
  | idle h =>
    rw [h]
    exact .of_not_added le_rfl id fun _ hgone => hgone
  | call c _ h => exact h.advances l
  | headersReturn streamId endStream hphase h =>
    rw [h]
    exact (returned_finishHeaders s streamId endStream).advances (by rw [hphase]; exact nofun) l
  | dataReturn streamId dataSize endStream hphase h =>
    rw [h]
    exact (returned_finishData s streamId dataSize endStream).advances
      (by rw [hphase]; exact nofun) l
  | frame f hlabel hready h =>
    subst hlabel
    have hadvances := h.advances hready htidy
    exact ⟨hadvances.lastStreamId, hadvances.stopped, hadvances.added⟩

/-- The streams that have an entry are not above `last_stream_id_`. -/
def Bounded (s : Session) : Prop := ∀ id, s.streams.lookup id ≠ none → id ≤ s.lastStreamId

theorem Advances.bounded (h : Advances s l s') (hs : Bounded s) : Bounded s' := by
  intro id hlive
  by_cases hgone : s.streams.lookup id = none
  · obtain ⟨-, -, hlast, -⟩ := h.added id hlive hgone
    exact hlast
  · exact (hs id hgone).trans h.lastStreamId

/-- The stream has had its turn: it is gone, or the peer has ended it. -/
def Past (s : Session) (id : Nat) : Prop := id ≤ s.lastStreamId ∧ RemoteEnded s id

/-- Nothing will be delivered for the stream any more. -/
def Dead (s : Session) (id : Nat) : Prop :=
  s.phase = .stopped ∨ Past s id ∨ id ≤ s.lastStreamId ∧ s.phase.bridge = some (id, true)

/-- A step leaves a stream dead that is dead, and makes one dead that is closed. -/
structure Shuts (id : Nat) (events : List Event) (s s' : Session) : Prop where
  log : s'.log = s.log ++ events
  dead : Dead s id → Dead s' id ∧ ∀ e ∈ events, ∀ endStream, e.delivers ≠ some (id, endStream)
  reset : id ≤ s.lastStreamId → ∀ e ∈ events, e.rst = some id → Dead s' id
  ended : ∀ e ∈ events, e.delivers = some (id, true) → Dead s' id

theorem Shuts.of_quiet {id : Nat} (hlog : s'.log = s.log ++ events)
    (hnone : ∀ e ∈ events, e.delivers = none) (hdead : Dead s id → Dead s' id)
    (hreset : id ≤ s.lastStreamId → ∀ e ∈ events, e.rst = some id → Dead s' id) :
    Shuts id events s s' := by
  refine ⟨hlog, fun hs => ⟨hdead hs, fun e he endStream hdelivers => ?_⟩, hreset,
    fun e he hdelivers => ?_⟩
  all_goals
    rw [hnone e he] at hdelivers
    cases hdelivers

theorem Shuts.of_inert {id : Nat}
    (hlog : ∃ events, s'.log = s.log ++ events ∧ ∀ e ∈ events, e.inert)
    (hdead : Dead s id → Dead s' id) : ∃ events, Shuts id events s s' := by
  obtain ⟨events, hlog, hinert⟩ := hlog
  have hnone := fun e he => Event.of_inert (hinert e he)
  refine ⟨events, .of_quiet hlog (fun e he => (hnone e he).2) hdead fun _ e he hrst => ?_⟩
  rw [(hnone e he).1] at hrst
  cases hrst

theorem RemoteEnded.of_lookup {id : Nat} (h : RemoteEnded s id)
    (hlookup : s'.streams.lookup id = s.streams.lookup id) : RemoteEnded s' id := by
  intro stream hstream
  rw [hlookup] at hstream
  exact h stream hstream

theorem RemoteEnded.of_absent {id : Nat} (h : s.streams.lookup id = none) : RemoteEnded s id := by
  intro stream hstream
  rw [h] at hstream
  cases hstream

theorem Sends.shuts (h : Sends s s') (id : Nat) : ∃ events, Shuts id events s s' := by
  obtain ⟨events, hkeeps, hleaves⟩ := h
  have hsending := fun e he => Event.of_sending (hkeeps.sending e he)
  refine ⟨events, .of_quiet hkeeps.log (fun e he => (hsending e he).2) (fun hs => ?_)
    fun hlast e he hrst => ?_⟩
  · rw [Dead, Past, hkeeps.phase, hkeeps.lastStreamId]
    refine hs.imp_right (.imp_left fun hpast => ?_)
    exact ⟨hpast.1, hkeeps.remoteEnded hpast.2⟩
  · rw [(hsending e he).1] at hrst
    refine .inr (.inl ⟨?_, RemoteEnded.of_absent ((hleaves e he).reset id hrst)⟩)
    rwa [hkeeps.lastStreamId]

theorem Returned.shuts (h : Returned streamId endStream s s')
    (hphase : s.phase.bridge = some (streamId, endStream)) (id : Nat) :
    ∃ events, Shuts id events s s' := by
  refine Shuts.of_inert h.log fun hs => .inr (.inl ?_)
  have hended : id = streamId → endStream → RemoteEnded s' id := by
    rintro rfl rfl stream' hlookup'
    obtain ⟨stream, -, hstate, -⟩ := h.stream stream' hlookup'
    exact hstate
  rcases hs with hstopped | ⟨hlast, hremote⟩ | ⟨hlast, hbridge⟩
  · rw [hstopped] at hphase
    cases hphase
  · refine ⟨by rwa [h.lastStreamId], ?_⟩
    by_cases hid : id = streamId
    · cases endStream with
      | true => exact hended hid rfl
      | false =>
        subst hid
        intro stream' hlookup'
        obtain ⟨stream, hlookup, hstate, -⟩ := h.stream stream' hlookup'
        exact hstate.trans (hremote stream hlookup)
    · exact hremote.of_lookup (h.streams id hid)
  · obtain ⟨rfl, rfl⟩ := Prod.mk.inj (some.inj (hphase.symm.trans hbridge))
    exact ⟨by rwa [h.lastStreamId], hended rfl rfl⟩

theorem Touches.shuts (h : Touches streamId s s') (hready : s.phase = .ready)
    (hlast : streamId ≤ s.lastStreamId) {id : Nat} (hpast : id = streamId → ¬Past s id) :
    ∃ events, Shuts id events s s' := by
  obtain ⟨events, hlog, hevents⟩ := h.log
  have hdelivers : ∀ e ∈ events, ∀ id' endStream, e.delivers = some (id', endStream) →
      id' = streamId ∧ s'.phase.bridge = some (streamId, endStream) := by
    intro e he id' endStream hdelivers
    rcases hevents e he with hinert | ⟨block, rfl⟩ | ⟨endStream', hdelivers', hbridge⟩
    · rw [(Event.of_inert hinert).2] at hdelivers
      cases hdelivers
    · cases hdelivers
    · obtain ⟨rfl, rfl⟩ := Prod.mk.inj (some.inj (hdelivers'.symm.trans hdelivers))
      exact ⟨rfl, hbridge⟩
  refine ⟨events, hlog, fun hs => ?_, fun _ e he hrst => ?_, fun e he hend => ?_⟩
  · have hs' : Past s id := by
      rcases hs with hstopped | hs | ⟨-, hbridge⟩
      · rw [hready] at hstopped
        cases hstopped
      · exact hs
      · rw [hready] at hbridge
        cases hbridge
    have hne : id ≠ streamId := fun hid => hpast hid hs'
    refine ⟨.inr (.inl ⟨by rw [h.lastStreamId]; exact hs'.1,
      hs'.2.of_lookup (h.streams id hne)⟩), fun e he endStream hdeliver => ?_⟩
    exact hne (hdelivers e he id endStream hdeliver).1
  · rcases hevents e he with hinert | ⟨block, rfl⟩ | ⟨endStream, hdeliver, -⟩
    · rw [(Event.of_inert hinert).1] at hrst
      cases hrst
    · cases hrst
    · rw [Event.rst_of_delivers hdeliver] at hrst
      cases hrst
  · obtain ⟨rfl, hbridge⟩ := hdelivers e he id true hend
    exact .inr (.inr ⟨by rwa [h.lastStreamId], hbridge⟩)

theorem Removed.shuts (h : Removed streamId s s') (id : Nat) : ∃ events, Shuts id events s s' := by
  obtain ⟨events, hlog, hrst⟩ := h.log
  refine ⟨events, .of_quiet hlog (fun e he => ?_) (fun hs => ?_) fun hlast e he hid => ?_⟩
  · obtain ⟨error, rfl⟩ := hrst e he
    rfl
  · rw [Dead, Past, h.phase, h.lastStreamId]
    refine hs.imp_right (.imp_left fun hpast => ⟨hpast.1, ?_⟩)
    by_cases hid : id = streamId
    · rw [hid]
      exact .of_absent h.absent
    · exact hpast.2.of_lookup (h.streams id hid)
  · obtain ⟨error, rfl⟩ := hrst e he
    obtain rfl : streamId = id := some.inj hid
    exact .inr (.inl ⟨by rwa [h.lastStreamId], RemoteEnded.of_absent h.absent⟩)

theorem StreamEntry.receives_not_past {id : Nat} (hlookup : s.streams.lookup id = some stream)
    (hstate : stream.receives) : ¬Past s id :=
  fun hpast => hstate (.inl (hpast.2 stream hlookup))

theorem Reception.shuts (h : Reception s f s') (hready : s.phase = .ready)
    (htidy : Tidy s (.recv f)) (hbounded : Bounded s) (id : Nat) :
    ∃ events, Shuts id events s s' := by
  have hlive : ∀ {stream}, s.streams.lookup f.streamId = some stream →
      f.streamId ≤ s.lastStreamId := by
    intro stream hlookup
    refine hbounded f.streamId ?_
    rw [hlookup]
    exact some_ne_none stream
  have hnot : ∀ {stream}, s.streams.lookup f.streamId = some stream → stream.receives →
      id = f.streamId → ¬Past s id := by
    rintro stream hlookup hstate rfl
    exact StreamEntry.receives_not_past hlookup hstate
  cases h with
  | passive h =>
    refine Shuts.of_inert h.log fun hs => ?_
    rcases h.phase with hphase | hphase
    · rw [Dead, Past, hphase, h.lastStreamId]
      refine hs.imp_right (.imp_left fun hpast => ⟨hpast.1, hpast.2.of_lookup ?_⟩)
      rw [h.streams]
    · exact .inl hphase
  | priority htype exclusive parentStreamId weight h =>
    obtain ⟨stream, hlookup⟩ := ne_none_iff_exists'.mp (htidy.1 htype)
    rw [addIdle, hlookup] at h
    rw [h]
    refine (sends_update s f.streamId ?_).shuts id
    exact fun _ => ⟨rfl, rfl, .inl rfl⟩
  | removed h | window _ h => exact h.shuts id
  | answered error h hcase =>
    rw [h]
    refine ⟨[.wrote (makeRstStream f.streamId error)], .of_quiet rfl
      (forall_mem_singleton.mpr rfl) (fun hs => hs) fun hlast => forall_mem_singleton.mpr ?_⟩
    intro hrst
    refine .inr (.inl ⟨hlast, ?_⟩)
    obtain rfl : f.streamId = id := some.inj hrst
    rcases hcase with ⟨-, hnew⟩ | ⟨htype, hzero⟩
    · exact absurd hlast (Nat.not_le.mpr hnew)
    · refine .of_absent (s := s) ?_
      by_contra hentry
      exact htidy.2 htype hentry hzero
  | headers _ stream hlookup hstate _ h | continuation _ stream hlookup hstate _ h =>
    exact (Touches.of_update h.touches).shuts hready (hlive hlookup) (hnot hlookup hstate)
  | opened htype hlookup hlast _ h =>
    obtain ⟨hlog, hphase⟩ := getOrCreateStream_fields s f.streamId
    have hnew := getOrCreateStream_lastStreamId hlookup hlast
    have hopen : id = f.streamId → ¬Past (s.getOrCreateStream f.streamId) id := by
      rintro rfl hpast
      have hstate := hpast.2 s.newStream (by
        rw [getOrCreateStream, hlookup]
        exact AList.lookup_insert _)
      cases hstate
    obtain ⟨events, hshuts⟩ :=
      (Touches.of_update h.touches).shuts (hphase.trans hready) hnew.ge hopen
    refine ⟨events, by rw [hshuts.log, hlog], fun hs => hshuts.dead ?_, fun hle =>
      hshuts.reset (by rw [hnew]; exact hle.trans hlast.le), hshuts.ended⟩
    rw [Dead, hphase]
    rcases hs with hstopped | ⟨hle, hremote⟩ | ⟨-, hbridge⟩
    · exact .inl hstopped
    · refine .inr (.inl ⟨by rw [hnew]; exact hle.trans hlast.le, hremote.of_lookup ?_⟩)
      exact lookup_getOrCreateStream_of_ne s (Nat.ne_of_lt (Nat.lt_of_le_of_lt hle hlast))
    · rw [hready] at hbridge
      cases hbridge
  | data _ stream hlookup hstate _ h =>
    exact h.touches.shuts hready (hlive hlookup) (hnot hlookup hstate)

theorem handleFrame_rstStream (s : Session) (htype : f.type = .rstStream) :
    (s.handleFrame f).phase = .stopped ∨ (s.handleFrame f).streams.lookup f.streamId = none := by
  rw [handleFrame]
  split
  · rw [handleFirst, if_pos (by rw [htype]; decide)]
    exact .inl rfl
  rw [htype]
  show (s.handleRstStream f).phase = .stopped ∨
    (s.handleRstStream f).streams.lookup f.streamId = none
  rw [handleRstStream]
  split
  · exact .inl rfl
  · exact .inr (AList.lookup_erase _ _)

theorem shuts_step (s : Session) (l : Label) (htidy : Tidy s l) (hbounded : Bounded s) (id : Nat) :
    ∃ events, Shuts id events s (step s l) := by
  cases moved s l with
  | idle h =>
    rw [h]
    exact Shuts.of_inert (append_nil_inert _) fun hs => hs
  | call c _ h => exact h.shuts id
  | headersReturn streamId endStream hphase h =>
    rw [h]
    exact (returned_finishHeaders s streamId endStream).shuts (by rw [hphase]; rfl) id
  | dataReturn streamId dataSize endStream hphase h =>
    rw [h]
    exact (returned_finishData s streamId dataSize endStream).shuts (by rw [hphase]; rfl) id
  | frame f hlabel hready h =>
    subst hlabel
    have hadvances := h.advances hready htidy
    obtain ⟨events, hshuts⟩ := h.shuts hready htidy hbounded id
    refine ⟨.received f :: events, ?_, fun hs => ?_, fun hlast e he hrst => ?_, fun e he hend => ?_⟩
    · rw [hshuts.log]
      exact append_assoc _ _ _
    · obtain ⟨hdead, hdelivers⟩ := hshuts.dead hs
      refine ⟨hdead, forall_mem_cons.mpr ⟨fun _ hdeliver => ?_, hdelivers⟩⟩
      cases hdeliver
    · rcases mem_cons.mp he with rfl | he
      · rw [Event.rst] at hrst
        split at hrst
        · rename_i htype
          obtain rfl : f.streamId = id := some.inj hrst
          have hlast' : f.streamId ≤ (step s (.recv f)).lastStreamId :=
            Nat.le_trans hlast hadvances.lastStreamId
          rw [step_recv hready] at hlast' ⊢
          rcases handleFrame_rstStream (s.receive f) htype with hstopped | hgone
          · exact .inl hstopped
          · exact .inr (.inl ⟨hlast', RemoteEnded.of_absent hgone⟩)
        · cases hrst
      · exact hshuts.reset hlast e he hrst
    · rcases mem_cons.mp he with rfl | he
      · cases hend
      · exact hshuts.ended e he hend

theorem Shuts.trans {id : Nat} (h : Shuts id events s s') (h' : Shuts id events' s' s'')
    (hlast : s.lastStreamId ≤ s'.lastStreamId) : Shuts id (events ++ events') s s'' := by
  refine ⟨by rw [h'.log, h.log, append_assoc], fun hs => ?_, fun hle e he hrst => ?_,
    fun e he hend => ?_⟩
  · obtain ⟨hdead, hdelivers⟩ := h.dead hs
    obtain ⟨hdead', hdelivers'⟩ := h'.dead hdead
    exact ⟨hdead', fun e he => (mem_append.mp he).elim (hdelivers e) (hdelivers' e)⟩
  · rcases mem_append.mp he with he | he
    · exact (h'.dead (h.reset hle e he hrst)).1
    · exact h'.reset (hle.trans hlast) e he hrst
  · rcases mem_append.mp he with he | he
    · exact (h'.dead (h.ended e he hend)).1
    · exact h'.ended e he hend

theorem shuts_run (htidy : Along step Tidy s ls) (hbounded : Bounded s) (id : Nat) :
    ∃ events, Shuts id events s (run step s ls) := by
  induction ls generalizing s with
  | nil => exact Shuts.of_inert (append_nil_inert _) fun hs => hs
  | cons l ls ih =>
    have hadvances := advances_step s l htidy.1
    obtain ⟨events, hshuts⟩ := shuts_step s l htidy.1 hbounded id
    obtain ⟨events', hshuts'⟩ := ih htidy.2 (hadvances.bounded hbounded)
    exact ⟨events ++ events', hshuts.trans hshuts' hadvances.lastStreamId⟩

theorem bounded_run (htidy : Along step Tidy s ls) (hbounded : Bounded s) :
    Bounded (run step s ls) :=
  run_invariant (fun s l hs htidy => (advances_step s l htidy).bounded hs) hbounded htidy

/-- The stream on which HEADERS are accepted: it has an entry then, and the session goes on. -/
def acceptedHeaders (s : Session) : Label → Option Nat
  | .recv f =>
    if s.phase = .ready ∧ f.type = .headers ∧
        (step s (.recv f)).streams.lookup f.streamId ≠ none ∧ (step s (.recv f)).phase ≠ .stopped
    then some f.streamId else none
  | _ => none

def accepted : Session → List Label → List Nat
  | _, [] => []
  | s, l :: ls => (acceptedHeaders s l).toList ++ accepted (step s l) ls

/-- The ids `ids` have been accepted so far. -/
structure Seen (s : Session) (ids : List Nat) : Prop where
  le : ∀ id ∈ ids, id ≤ s.lastStreamId
  mem : s.phase ≠ .stopped → ∀ id, s.streams.lookup id ≠ none → id ∈ ids

theorem acceptedHeaders_eq_some {id : Nat} (h : acceptedHeaders s l = some id) :
    s.phase = .ready ∧ (step s l).streams.lookup id ≠ none := by
  cases l with
  | recv f =>
    rw [acceptedHeaders] at h
    split at h
    · rename_i haccepted
      rw [← some.inj h]
      exact ⟨haccepted.1, haccepted.2.2.1⟩
    · cases h
  | call | ret => cases h

theorem Seen.lt (hs : Seen s ids) (htidy : Tidy s l) {id : Nat}
    (h : acceptedHeaders s l = some id) (hnew : id ∉ ids) : s.lastStreamId < id := by
  obtain ⟨hready, hlive⟩ := acceptedHeaders_eq_some h
  have hgone : s.streams.lookup id = none := by
    by_contra hentry
    exact hnew (hs.mem (by rw [hready]; exact nofun) id hentry)
  obtain ⟨-, hlast, -⟩ := (advances_step s l htidy).added id hlive hgone
  exact hlast

theorem Seen.step (hs : Seen s ids) (htidy : Tidy s l) (hbounded : Bounded s) :
    Seen (step s l) (ids ++ (acceptedHeaders s l).toList) := by
  have hadvances := advances_step s l htidy
  constructor
  · intro id hid
    rcases mem_append.mp hid with hid | hid
    · exact (hs.le id hid).trans hadvances.lastStreamId
    · obtain ⟨-, hlive⟩ := acceptedHeaders_eq_some (mem_toList.mp hid)
      exact hadvances.bounded hbounded id hlive
  · intro hphase id hlive
    by_cases hentry : s.streams.lookup id = none
    · obtain ⟨hready, -, -, f, rfl, htype, rfl⟩ := hadvances.added id hlive hentry
      refine mem_append_right _ (mem_toList.mpr ?_)
      exact if_pos ⟨hready, htype, hlive, hphase⟩
    · refine mem_append_left _ (hs.mem (fun hstopped => ?_) id hentry)
      exact hphase (hadvances.stopped hstopped)

theorem accepted_lt (htidy : Along Session.step Tidy s ls) (hbounded : Bounded s) (hs : Seen s ids)
    {id : Nat} (haccepted : accepted s ls = xs ++ id :: ys) (hnew : id ∉ ids ++ xs) :
    ∀ x ∈ ids ++ xs, x < id := by
  induction ls generalizing s ids xs with
  | nil =>
    exact absurd haccepted.symm (append_ne_nil_of_right_ne_nil xs (cons_ne_nil id ys))
  | cons l ls ih =>
    have hbounded' := (advances_step s l htidy.1).bounded hbounded
    have hseen := hs.step htidy.1 hbounded
    rw [accepted] at haccepted
    cases hfirst : acceptedHeaders s l with
    | none =>
      rw [hfirst] at haccepted hseen
      rw [toList_none, append_nil] at hseen
      exact ih htidy.2 hbounded' hseen haccepted hnew
    | some first =>
      rw [hfirst] at haccepted hseen
      cases xs with
      | nil =>
        obtain ⟨rfl, -⟩ := cons.inj haccepted
        rw [append_nil] at hnew ⊢
        exact fun x hx => Nat.lt_of_le_of_lt (hs.le x hx) (hs.lt htidy.1 hfirst hnew)
      | cons x xs =>
        obtain ⟨rfl, hrest⟩ := cons.inj haccepted
        have hsplit : ids ++ first :: xs = ids ++ [first] ++ xs := by simp
        rw [hsplit] at hnew ⊢
        exact ih htidy.2 hbounded' hseen hrest hnew

/-- The stream has been closed: RST_STREAM has come or gone since `s`, or the peer's END_STREAM has
been delivered and END_STREAM has been sent. -/
def Closed (id : Nat) (s s' : Session) : Prop :=
  (∃ e ∈ s'.log.drop s.log.length, e.rst = some id) ∨
  (∃ e ∈ s'.log, e.delivers = some (id, true)) ∧ ∃ e ∈ s'.log, e.sendsEnd = some id

instance (id : Nat) (s s' : Session) : Decidable (Closed id s s') :=
  inferInstanceAs (Decidable (_ ∨ _ ∧ _))

/-- As long as PRIORITY comes only for streams that have an entry and no WINDOW_UPDATE frame for
such a stream lacks an increment, nothing is delivered for a stream that has been opened and closed,
and the ids on which HEADERS are accepted for the first time increase. -/
theorem closed_streams_stay_closed (headersBridge dataBridge goawayBridge : Bool)
    (ls₁ ls₂ ls₃ : List Label)
    (htidy : Along step Tidy (new headersBridge dataBridge goawayBridge) (ls₁ ++ ls₂ ++ ls₃)) :
    let s₁ := run step (new headersBridge dataBridge goawayBridge) ls₁
    let s₂ := run step s₁ ls₂
    let s₃ := run step s₂ ls₃
    (∀ id, s₁.streams.lookup id ≠ none → Closed id s₁ s₂ →
      ∀ e ∈ s₃.log.drop s₂.log.length, ∀ endStream, e.delivers ≠ some (id, endStream)) ∧
    ∀ xs id ys, accepted (new headersBridge dataBridge goawayBridge) (ls₁ ++ ls₂ ++ ls₃) =
      xs ++ id :: ys → id ∉ xs → ∀ x ∈ xs, x < id := by
  intro s₁ s₂ s₃
  have hnew : Bounded (new headersBridge dataBridge goawayBridge) :=
    fun id hlive => absurd rfl hlive
  obtain ⟨htidy₁₂, htidy₃⟩ := (along_append step _ _ _ _).mp htidy
  obtain ⟨htidy₁, htidy₂⟩ := (along_append step _ _ _ _).mp htidy₁₂
  rw [run_append] at htidy₃
  have hbounded₁ := bounded_run htidy₁ hnew
  have hbounded₂ := bounded_run htidy₂ hbounded₁
  constructor
  · intro id hopen hclosed
    obtain ⟨events, hshuts⟩ := shuts_run htidy₂ hbounded₁ id
    have hdead : Dead s₂ id := by
      rcases hclosed with ⟨e, he, hrst⟩ | ⟨⟨e, he, hend⟩, -⟩
      · rw [hshuts.log, drop_left] at he
        exact hshuts.reset (hbounded₁ id hopen) e he hrst
      · obtain ⟨events', hshuts'⟩ := shuts_run htidy₁₂ hnew id
        rw [run_append] at hshuts'
        refine hshuts'.ended e ?_ hend
        have hlog : s₂.log = [] ++ events' := hshuts'.log
        rwa [hlog, nil_append] at he
    obtain ⟨events₃, hshuts₃⟩ := shuts_run htidy₃ hbounded₂ id
    intro e he
    rw [hshuts₃.log, drop_left] at he
    exact (hshuts₃.dead hdead).2 e he
  · intro xs id ys haccepted hfirst
    have hseen : Seen (new headersBridge dataBridge goawayBridge) [] :=
      ⟨nofun, fun _ id hlive => absurd rfl hlive⟩
    exact accepted_lt htidy hnew hseen haccepted hfirst

/-- A stream that is reset by the user, with PRIORITY for it before, and one that is ended on both
sides. -/
theorem closed_streams_stay_closed_reset :
    let ls₁ : List Label := [.recv ⟨.settings, flagNone, 0, []⟩,
      .recv ⟨.headers, flagEndHeaders, 1, []⟩, .ret,
      .recv ⟨.priority, flagNone, 1, [0, 0, 0, 0, 7]⟩]
    let ls₂ : List Label := [.call (.sendRstStream 1 .cancel)]
    let ls₃ : List Label := [.recv ⟨.data, flagEndStream, 1, [1]⟩,
      .recv ⟨.headers, flagEndHeaders ||| flagEndStream, 5, []⟩, .ret,
      .call (.sendHeaders 5 [] true), .recv ⟨.headers, flagEndHeaders, 1, []⟩]
    let s₁ := run step (new true true true) ls₁
    let s₂ := run step s₁ ls₂
    let s₃ := run step s₂ ls₃
    s₁.streams.lookup 1 ≠ none ∧ Closed 1 s₁ s₂ ∧
    (∀ id, s₁.streams.lookup id ≠ none → Closed id s₁ s₂ →
      ∀ e ∈ s₃.log.drop s₂.log.length, ∀ endStream, e.delivers ≠ some (id, endStream)) ∧
    ∀ xs id ys, accepted (new true true true) (ls₁ ++ ls₂ ++ ls₃) =
      xs ++ id :: ys → id ∉ xs → ∀ x ∈ xs, x < id := by
  intro ls₁ ls₂ ls₃ s₁ s₂ s₃
  exact ⟨by decide +kernel, by decide +kernel,
    closed_streams_stay_closed true true true ls₁ ls₂ ls₃ (by decide +kernel)⟩

/-- After PRIORITY for a stream that has been ended on both sides, HEADERS are delivered for it
again. -/
theorem closed_stream_delivered_again :
    let s₁ := run step (new true true true)
      [.recv ⟨.settings, flagNone, 0, []⟩,
        .recv ⟨.headers, flagEndHeaders ||| flagEndStream, 1, []⟩, .ret]
    let s₂ := run step s₁ [.call (.sendHeaders 1 [] true)]
    let s₃ := run step s₂ [.recv ⟨.priority, flagNone, 1, [0, 0, 0, 0, 7]⟩,
      .recv ⟨.headers, flagEndHeaders ||| flagEndStream, 1, []⟩]
    s₁.streams.lookup 1 ≠ none ∧ Closed 1 s₁ s₂ ∧
    ∃ e ∈ s₃.log.drop s₂.log.length, e.delivers = some (1, true) := by
  decide +kernel

end Session

end ServerLib.Http2

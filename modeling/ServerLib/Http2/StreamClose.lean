import Mathlib.Data.List.Dedup
import ServerLib.Http2.Reception

/-! The end of a stream.  `endLocal` removes the entry of a stream that the peer has ended, but the
state that the peer's END_STREAM sets after a bridge overwrites the state that the user's END_STREAM
has set before.  So an answer has to come after the bridge for the end of its request has
returned. -/

namespace ServerLib.Http2

open Lib List

namespace Event

def receivesEnd : Event → Option Nat
  | .received f =>
    if (f.type = .headers ∨ f.type = .data) ∧ f.has flagEndStream then some f.streamId else none
  | _ => none

def request : Event → Option Nat
  | .received f => if f.type = .headers ∨ f.type = .data then some f.streamId else none
  | _ => none

end Event

variable (log : List Event)

def endsReceived : List Nat := log.filterMap Event.receivesEnd

def endsSent : List Nat := log.filterMap Event.sendsEnd

def requests : List Nat := log.filterMap Event.request

/-- The streams of these that have not been ended on both sides. -/
def unanswered : List Nat :=
  (requests log).dedup.filter fun id => ¬(id ∈ endsReceived log ∧ id ∈ endsSent log)

theorem mem_endsReceived_append {id : Nat} {log : List Event} (h : id ∈ endsReceived log)
    (events : List Event) : id ∈ endsReceived (log ++ events) := by
  rw [endsReceived, filterMap_append]
  exact mem_append_left _ h

theorem mem_requests_append {id : Nat} {log : List Event} (h : id ∈ requests log)
    (events : List Event) : id ∈ requests (log ++ events) := by
  rw [requests, filterMap_append]
  exact mem_append_left _ h

theorem endsSent_append (events : List Event) :
    endsSent (log ++ events) = endsSent log ++ endsSent events := by
  rw [endsSent, endsSent, endsSent, filterMap_append]

theorem endsSent_eq_nil {events : List Event} (h : ∀ e ∈ events, e.sendsEnd = none) :
    endsSent events = [] := filterMap_eq_nil_iff.mpr h

namespace Session

/-- A stream on which END_STREAM has been sent has been ended by the peer too, and is gone. -/
def EndsClose (s : Session) : Prop :=
  ∀ id ∈ endsSent s.log, id ∈ endsReceived s.log ∧ s.streams.lookup id = none

theorem EndsClose.of_silent (hs : EndsClose s) {events : List Event}
    (hlog : s'.log = s.log ++ events) (hevents : ∀ e ∈ events, e.sendsEnd = none)
    (hgone : ∀ id ∈ endsSent s.log, s.streams.lookup id = none → s'.streams.lookup id = none) :
    EndsClose s' := by
  intro id hsent
  rw [hlog, endsSent_append, endsSent_eq_nil hevents, append_nil] at hsent
  obtain ⟨hreceived, hlookup⟩ := hs id hsent
  rw [hlog]
  exact ⟨mem_endsReceived_append hreceived events, hgone id hsent hlookup⟩

theorem EndsClose.receive (hs : EndsClose s) (f : Frame) : EndsClose (s.receive f) :=
  hs.of_silent rfl (forall_mem_singleton.mpr rfl) fun _ _ hlookup => hlookup

theorem Sends.endsClose (h : Sends s s') (hs : EndsClose s)
    (hanswers : ∀ id ∈ endsSent (s'.log.drop s.log.length),
      id ∈ endsReceived s.log ∧ RemoteEnded s id) : EndsClose s' := by
  obtain ⟨events, hkeeps, hleaves⟩ := h
  rw [hkeeps.log, drop_left] at hanswers
  intro id hsent
  rw [hkeeps.log, endsSent_append] at hsent
  rw [hkeeps.log]
  rcases mem_append.mp hsent with hsent | hsent
  · obtain ⟨hreceived, hlookup⟩ := hs id hsent
    exact ⟨mem_endsReceived_append hreceived events, hkeeps.lookup_eq_none hlookup⟩
  · obtain ⟨hreceived, hended⟩ := hanswers id hsent
    obtain ⟨e, he, hend⟩ := mem_filterMap.mp hsent
    exact ⟨mem_endsReceived_append hreceived events, (hleaves e he).ended id hend hended⟩

theorem Returned.endsClose (h : Returned streamId endStream s s') (hs : EndsClose s) :
    EndsClose s' := by
  obtain ⟨events, hlog, hinert⟩ := h.log
  exact hs.of_silent hlog (fun e he => (Event.sends_of_inert (hinert e he)).1)
    fun _ _ hlookup => h.lookup_eq_none hlookup

theorem Touches.endsClose {streamId : Nat} (h : Touches streamId s s') (hs : EndsClose s)
    (hsent : streamId ∉ endsSent s.log) : EndsClose s' := by
  obtain ⟨events, hlog, hevents⟩ := h.log
  refine hs.of_silent hlog (fun e he => ?_) fun id hid hlookup => ?_
  · rcases hevents e he with hinert | ⟨block, rfl⟩ | ⟨endStream, hdelivers, -⟩
    · exact (Event.sends_of_inert hinert).1
    · rfl
    · cases e with
      | wrote => cases hdelivers
      | _ => rfl
  · have hne : id ≠ streamId := by
      rintro rfl
      exact hsent hid
    rw [h.streams id hne, hlookup]

/-- END_STREAM is sent only on streams that the peer has ended, after the bridges for that have
returned, and neither HEADERS nor PRIORITY make an entry for a stream that has been ended on both
sides. -/
def Answers (s : Session) (l : Label) : Prop :=
  (∀ id ∈ endsSent ((step s l).log.drop s.log.length), id ∈ endsReceived s.log ∧ RemoteEnded s id) ∧
  match l with
  | .recv f => f.type = .headers ∨ f.type = .priority → s.streams.lookup f.streamId = none →
      ¬(f.streamId ∈ endsReceived s.log ∧ f.streamId ∈ endsSent s.log)
  | _ => True

instance (s : Session) (id : Nat) : Decidable (RemoteEnded s id) :=
  match h : s.streams.lookup id with
  | none => isTrue fun _ hlookup => by rw [h] at hlookup; cases hlookup
  | some stream => decidable_of_iff (stream.state = .halfClosedRemote)
      ⟨fun hstate _ hlookup => by rwa [← Option.some.inj (h.symm.trans hlookup)],
        fun hended => hended stream h⟩

instance (s : Session) : (l : Label) → Decidable (Answers s l)
  | .recv _ => inferInstanceAs (Decidable (_ ∧ (_ → _ → ¬_)))
  | .call _ => inferInstanceAs (Decidable (_ ∧ True))
  | .ret => inferInstanceAs (Decidable (_ ∧ True))

theorem endsClose_step (s : Session) (l : Label) (hs : EndsClose s) (hanswers : Answers s l) :
    EndsClose (step s l) := by
  obtain ⟨hends, hentries⟩ := hanswers
  cases moved s l with
  | idle h =>
    rw [h]
    exact hs
  | call c _ h => exact h.endsClose hs hends
  | headersReturn streamId endStream _ h =>
    rw [h]
    exact (returned_finishHeaders s streamId endStream).endsClose hs
  | dataReturn streamId dataSize endStream _ h =>
    rw [h]
    exact (returned_finishData s streamId dataSize endStream).endsClose hs
  | frame f hlabel _ h =>
    subst hlabel
    have hreceived := hs.receive f
    -- END_STREAM has not been sent on a stream that has an entry
    have hlive : ∀ stream, s.streams.lookup f.streamId = some stream →
        f.streamId ∉ endsSent (s.receive f).log := by
      intro stream hlookup hsent
      have hgone : s.streams.lookup f.streamId = none := (hreceived f.streamId hsent).2
      rw [hlookup] at hgone
      cases hgone
    have hsent : endsSent (s.receive f).log = endsSent s.log := by
      rw [receive]
      show endsSent (s.log ++ [.received f]) = _
      rw [endsSent_append, endsSent_eq_nil (forall_mem_singleton.mpr rfl), append_nil]
    have hnew : f.type = .headers ∨ f.type = .priority → s.streams.lookup f.streamId = none →
        f.streamId ∉ endsSent (s.receive f).log := by
      intro htype hlookup hmem
      rw [hsent] at hmem
      exact hentries htype hlookup ⟨(hs f.streamId hmem).1, hmem⟩
    cases h with
    | passive h =>
      obtain ⟨events, hlog, hinert⟩ := h.log
      refine hreceived.of_silent hlog (fun e he => (Event.sends_of_inert (hinert e he)).1) ?_
      intro id _ hlookup
      rw [h.streams, hlookup]
    | priority htype exclusive parentStreamId weight h =>
      rw [h]
      refine (touches_priority _ _ _).endsClose hreceived ?_
      cases hlookup : s.streams.lookup f.streamId with
      | some stream => exact hlive stream hlookup
      | none => exact hnew (.inr htype) hlookup
    | removed h =>
      obtain ⟨events, hlog, hreset⟩ := h.log
      refine hreceived.of_silent hlog (fun e he => ?_) fun id _ hlookup => ?_
      · obtain ⟨error, rfl⟩ := hreset e he
        rfl
      · by_cases hid : id = f.streamId
        · rw [hid]
          exact h.absent
        · rw [h.streams id hid, hlookup]
    | answered error h =>
      rw [h]
      exact hreceived.of_silent rfl (forall_mem_singleton.mpr rfl) fun _ _ hlookup => hlookup
    | headers _ stream hlookup _ _ h | continuation _ stream hlookup _ _ h =>
      exact (Touches.of_update h.touches).endsClose hreceived (hlive stream hlookup)
    | opened htype hlookup _ _ h =>
      have hsent' := hnew (.inl htype) hlookup
      have hlog := (getOrCreateStream_fields (s.receive f) f.streamId).1
      refine (Touches.of_update h.touches).endsClose ?_ (by rwa [hlog])
      refine hreceived.of_silent (by rw [hlog, append_nil])
        (fun _ he => absurd he not_mem_nil) fun id hid hgone => ?_
      rw [lookup_getOrCreateStream_of_ne _ (ne_of_mem_of_not_mem hid hsent'), hgone]
    | data _ stream hlookup _ _ h => exact h.touches.endsClose hreceived (hlive stream hlookup)
    | window _ h =>
      refine h.endsClose hreceived fun id hid => ?_
      have hsub : endsSent ((step s (.recv f)).log.drop (s.receive f).log.length) ⊆
          endsSent ((step s (.recv f)).log.drop s.log.length) := by
        have hlength : (s.receive f).log.length = s.log.length + 1 := length_append
        rw [hlength, ← drop_drop]
        exact ((drop_sublist 1 _).filterMap _).subset
      obtain ⟨hend, hremote⟩ := hends id (hsub hid)
      exact ⟨mem_endsReceived_append hend _, hremote⟩

end Session

/-- The stream is not idle, or a block of headers is open on it. -/
def StreamEntry.InUse (stream : StreamEntry) : Prop :=
  stream.state ≠ .idle ∨ stream.waitingContinuation = true

namespace Session

/-- A stream in use, or that a bridge is called for, has got HEADERS or DATA. -/
structure Requested (s : Session) : Prop where
  stream : ∀ id stream, s.streams.lookup id = some stream → stream.InUse → id ∈ requests s.log
  bridge : ∀ id endStream, s.phase.bridge = some (id, endStream) → id ∈ requests s.log

namespace Requested

variable {s s' : Session}

theorem of_append (hlog : s'.log = s.log ++ events)
    (hstream : ∀ id stream', s'.streams.lookup id = some stream' → stream'.InUse →
      id ∈ requests s.log)
    (hbridge : ∀ id endStream, s'.phase.bridge = some (id, endStream) → id ∈ requests s.log) :
    Requested s' := by
  constructor
  · intro id stream' hlookup hused
    rw [hlog]
    exact mem_requests_append (hstream id stream' hlookup hused) events
  · intro id endStream hphase
    rw [hlog]
    exact mem_requests_append (hbridge id endStream hphase) events

theorem of_keeps (hs : Requested s) (h : Keeps events s s') : Requested s' := by
  refine of_append h.log (fun id stream' hlookup' hused => ?_) fun id endStream hphase => ?_
  · obtain ⟨stream, hlookup, hkept⟩ := h.streams id stream' hlookup'
    refine hs.stream id stream hlookup ?_
    refine hused.imp (fun hne hidle => ?_) fun hwaiting => ?_
    · rcases hkept.state with hsame | ⟨hopen, -⟩
      · exact hne (hsame.trans hidle)
      · rw [hidle] at hopen
        cases hopen
    · rw [← hkept.waitingContinuation, hwaiting]
  · rw [h.phase] at hphase
    exact hs.bridge id endStream hphase

theorem of_touches (hs : Requested s) (h : Touches streamId s s')
    (hstream : ∀ stream', s'.streams.lookup streamId = some stream' → stream'.InUse →
      streamId ∈ requests s.log)
    (hbridge : ∀ endStream, s'.phase.bridge = some (streamId, endStream) →
      streamId ∈ requests s.log) : Requested s' := by
  obtain ⟨events, hlog, -⟩ := h.log
  refine of_append hlog (fun id stream' hlookup' hused => ?_) fun id endStream hphase' => ?_
  · by_cases hid : id = streamId
    · subst hid
      exact hstream stream' hlookup' hused
    · rw [h.streams id hid] at hlookup'
      exact hs.stream id stream' hlookup' hused
  · rcases h.phase with hphase | hphase | hphase | ⟨endStream', hphase⟩
    · rw [hphase] at hphase'
      exact hs.bridge id endStream hphase'
    · rw [hphase] at hphase'
      cases hphase'
    · rw [hphase] at hphase'
      cases hphase'
    · have hbridge' := hphase.symm.trans hphase'
      obtain ⟨rfl, -⟩ := Prod.mk.inj (Option.some.inj hbridge')
      exact hbridge endStream' hphase

theorem of_requested (hs : Requested s) (h : Touches streamId s s')
    (hrequest : streamId ∈ requests s.log) : Requested s' :=
  hs.of_touches h (fun _ _ _ => hrequest) fun _ _ => hrequest

end Requested

theorem Requested.of_phase (hs : Requested s) (hlog : s'.log = s.log ++ events)
    (hphase : s'.phase = s.phase ∨ s'.phase = .stopped)
    (hstream : ∀ id stream', s'.streams.lookup id = some stream' → stream'.InUse →
      ∃ stream, s.streams.lookup id = some stream ∧ stream.InUse) : Requested s' := by
  refine of_append hlog (fun id stream' hlookup' hused => ?_) fun id endStream hbridge => ?_
  · obtain ⟨stream, hlookup, hused'⟩ := hstream id stream' hlookup' hused
    exact hs.stream id stream hlookup hused'
  · rcases hphase with hphase | hphase
    · rw [hphase] at hbridge
      exact hs.bridge id endStream hbridge
    · rw [hphase] at hbridge
      cases hbridge

theorem Requested.priority {s : Session} (hs : Requested s) (streamId : Nat) (exclusive : Bool)
    (parentStreamId weight : Nat) :
    Requested ((s.addIdle streamId).update streamId
      (·.prioritize exclusive parentStreamId weight)) := by
  refine hs.of_touches (touches_priority s streamId _) (fun stream' hlookup' hused => ?_)
    fun endStream hphase => ?_
  · rcases lookup_priority hlookup' with ⟨stream, hlookup, hstate, hwaiting⟩ | ⟨hidle, hwaiting⟩
    · refine hs.stream streamId stream hlookup ?_
      rwa [StreamEntry.InUse, ← hstate, ← hwaiting]
    · rcases hused with hne | hwaiting'
      · exact absurd hidle hne
      · rw [hwaiting] at hwaiting'
        cases hwaiting'
  · refine hs.bridge streamId endStream ?_
    rw [← hphase, addIdle]
    split
    · rfl
    · rfl

theorem requested_step (s : Session) (l : Label) (hs : Requested s) : Requested (step s l) := by
  cases moved s l with
  | idle h =>
    rw [h]
    exact hs
  | call c _ h =>
    obtain ⟨events, hkeeps⟩ := h.keeps
    exact hs.of_keeps hkeeps
  | headersReturn streamId endStream hphase h =>
    rw [h]
    exact hs.of_requested (.of_returned (returned_finishHeaders s streamId endStream))
      (hs.bridge streamId endStream (by rw [hphase]; rfl))
  | dataReturn streamId dataSize endStream hphase h =>
    rw [h]
    exact hs.of_requested (.of_returned (returned_finishData s streamId dataSize endStream))
      (hs.bridge streamId endStream (by rw [hphase]; rfl))
  | frame f hlabel hready h =>
    have hreceived : Requested (s.receive f) :=
      Requested.of_append rfl hs.stream hs.bridge
    have hrequest : f.type = .headers ∨ f.type = .data →
        f.streamId ∈ requests (s.receive f).log := by
      intro htype
      refine mem_filterMap.mpr ⟨.received f, mem_append_right _ mem_cons_self, ?_⟩
      exact if_pos htype
    cases h with
    | passive h =>
      obtain ⟨events, hlog, -⟩ := h.log
      refine hreceived.of_phase hlog h.phase fun id stream' hlookup' hused => ?_
      exact ⟨stream', by rw [← h.streams, hlookup'], hused⟩
    | priority htype exclusive parentStreamId weight h =>
      rw [h]
      exact hreceived.priority f.streamId exclusive parentStreamId weight
    | removed h =>
      obtain ⟨events, hlog, -⟩ := h.log
      refine hreceived.of_phase hlog (.inl h.phase) fun id stream' hlookup' hused => ?_
      by_cases hid : id = f.streamId
      · rw [hid, h.absent] at hlookup'
        cases hlookup'
      · exact ⟨stream', by rw [← h.streams id hid, hlookup'], hused⟩
    | answered error h =>
      rw [h]
      exact hreceived.of_phase rfl (.inl rfl) fun _ stream' hlookup' hused =>
        ⟨stream', hlookup', hused⟩
    | headers htype stream _ _ _ h =>
      exact hreceived.of_requested (.of_update h.touches) (hrequest (.inl htype))
    | opened htype hlookup _ _ h =>
      obtain ⟨hlog, hphase⟩ := getOrCreateStream_fields (s.receive f) f.streamId
      have hopened : Requested ((s.receive f).getOrCreateStream f.streamId) := by
        refine .of_append (s := s.receive f) (by rw [hlog, append_nil])
          (fun id stream' hlookup' hused => ?_) fun id endStream hbridge => ?_
        · by_cases hid : id = f.streamId
          · rw [hid]
            exact hrequest (.inl htype)
          · rw [lookup_getOrCreateStream_of_ne _ hid] at hlookup'
            exact hreceived.stream id stream' hlookup' hused
        · rw [hphase] at hbridge
          exact hreceived.bridge id endStream hbridge
      refine hopened.of_requested (.of_update h.touches) ?_
      rw [hlog]
      exact hrequest (.inl htype)
    | data htype stream _ _ _ h =>
      exact hreceived.of_requested h.touches (hrequest (.inr htype))
    | continuation _ stream hlookup _ hwaiting h =>
      exact hreceived.of_requested (.of_update h.touches)
        (hreceived.stream f.streamId stream hlookup (.inr hwaiting))
    | window _ h =>
      obtain ⟨events, hkeeps⟩ := h.keeps
      exact hreceived.of_keeps hkeeps

theorem openStreamCount_le (hclose : EndsClose s) (hrequested : Requested s) :
    s.openStreamCount ≤ (unanswered s.log).length := by
  refine count_le_length fun id stream hlookup hstate => ?_
  have hused : stream.InUse := by
    refine .inl fun hidle => ?_
    rw [hidle] at hstate
    cases hstate
  refine mem_filter.mpr ⟨mem_dedup.mpr (hrequested.stream id stream hlookup hused), ?_⟩
  refine decide_eq_true fun hended => ?_
  have hgone := (hclose id hended.2).2
  rw [hlookup] at hgone
  cases hgone

/-- As long as a stream is answered only after the peer has ended it and the bridge for that has
returned, a stream that has been ended on both sides is gone, and no more streams are counted than
have not been ended on both sides. -/
theorem ended_streams_gone (headersBridge dataBridge goawayBridge : Bool) (ls : List Label)
    (hanswers : Along step Answers (new headersBridge dataBridge goawayBridge) ls) :
    let s := run step (new headersBridge dataBridge goawayBridge) ls
    (∀ id, id ∈ endsReceived s.log → id ∈ endsSent s.log → s.streams.lookup id = none) ∧
    s.openStreamCount ≤ (unanswered s.log).length := by
  intro s
  have hclose : EndsClose s := run_invariant endsClose_step (fun _ h => by cases h) hanswers
  have hrequested : Requested s := by
    refine run_invariant (fun s l hs _ => requested_step s l hs) ?_ hanswers
    exact ⟨nofun, nofun⟩
  exact ⟨fun id _ hsent => (hclose id hsent).2, openStreamCount_le hclose hrequested⟩

/-- Two requests, the second with a body, that are answered after their bridges have returned. -/
theorem ended_streams_gone_two :
    let s := run step (new true true true)
      [.recv ⟨.settings, flagNone, 0, []⟩,
        .recv ⟨.headers, flagEndHeaders ||| flagEndStream, 1, []⟩, .ret,
        .call (.sendSimpleResponse 1 200 [] [1, 2]),
        .recv ⟨.headers, flagEndHeaders, 3, []⟩, .ret, .recv ⟨.data, flagEndStream, 3, [7]⟩, .ret,
        .call (.sendHeaders 3 [] true)]
    (∀ id, id ∈ endsReceived s.log → id ∈ endsSent s.log → s.streams.lookup id = none) ∧
    s.openStreamCount ≤ (unanswered s.log).length :=
  ended_streams_gone true true true _ (by decide +kernel)

/-- A request that is answered from inside of its bridge stays. -/
theorem ended_stream_counted :
    let s := run step (new true true true)
      [.recv ⟨.settings, flagNone, 0, []⟩,
        .recv ⟨.headers, flagEndHeaders ||| flagEndStream, 1, []⟩,
        .call (.sendHeaders 1 [] true), .ret]
    1 ∈ endsReceived s.log ∧ 1 ∈ endsSent s.log ∧ s.streams.lookup 1 ≠ none ∧
      s.openStreamCount = 1 := by
  decide +kernel

end Session

end ServerLib.Http2

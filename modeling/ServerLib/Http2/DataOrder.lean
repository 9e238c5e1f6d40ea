import ServerLib.Http2.Effect

/-! The data of a stream.  Bytes leave through the loop of `send_data`, through its path without a
copy, or through `flush_pending_writes`, and in each case they leave once, in the order in which
they were submitted, with END_STREAM on the last frame. -/

namespace ServerLib.Http2

open Lib StreamEntry PendingWrite List

variable (id : Nat) (log : List Event)

/-- What a call submits on a stream: the bytes, and whether the stream ends with them. -/
def Call.submits : Call → Option (List UInt8 × Bool)
  | .sendData streamId data endStream => if streamId = id then some (data, endStream) else none
  | .sendDataBuffer streamId body endStream =>
    if streamId = id then some (body, endStream) else none
  | .sendSimpleResponse streamId _ _ body =>
    if streamId = id ∧ body.isEmpty = false then some (body, true) else none
  | _ => none

def Call.endsWithHeaders : Call → Bool
  | .sendHeaders streamId _ endStream => streamId = id ∧ endStream
  | .sendSimpleResponse streamId _ _ body => streamId = id ∧ body.isEmpty
  | _ => false

namespace Event

variable (id : Nat)

/-- A DATA frame that is sent on a stream. -/
def dataFrame : Event → Option Frame
  | .wrote f => if f.type = .data ∧ f.streamId = id then some f else none
  | _ => none

def submitted : Event → List UInt8
  | .called c => ((c.submits id).map Prod.fst).getD []
  | _ => []

def asked : Event → Bool
  | .called c => (c.submits id).any Prod.snd
  | _ => false

/-- A stream is reset from either side, or the session is closed gracefully. -/
def resets : Event → Bool
  | .received f => f.type = .rstStream ∧ f.streamId = id
  | .wrote f => f.type = .rstStream ∧ f.streamId = id
  | .called c => c = .closeGracefully
  | _ => false

end Event

/-- The DATA frames that have been sent on a stream, the bytes that have been submitted on it, and
whether its end has been asked for. -/
structure Account where
  frames : List Frame
  submitted : List UInt8
  asked : Bool

def Account.send (a : Account) (frames : List Frame) : Account :=
  { a with frames := a.frames ++ frames }

/-- More bytes have been submitted, and the end may have been asked for. -/
def Account.submit (a : Account) (data : List UInt8) (endStream : Bool) : Account :=
  { a with submitted := a.submitted ++ data, asked := endStream }

theorem Account.send_nil (a : Account) : a.send [] = a := by
  simp [Account.send]

theorem Account.submit_nil (a : Account) : a.submit [] a.asked = a := by
  simp [Account.submit]

def account : Account where
  frames := log.filterMap (Event.dataFrame id)
  submitted := log.flatMap (Event.submitted id)
  asked := log.any (Event.asked id)

/-- An event that is none of the stream's. -/
def Event.Foreign (e : Event) : Prop :=
  e.dataFrame id = none ∧ e.submitted id = [] ∧ e.asked id = false

theorem account_append_foreign {id : Nat} (h : ∀ e ∈ events, e.Foreign id) :
    account id (log ++ events) = account id log := by
  have hframes : events.filterMap (Event.dataFrame id) = [] :=
    filterMap_eq_nil_iff.mpr fun e he => (h e he).1
  have hsubmitted : events.flatMap (Event.submitted id) = [] :=
    flatMap_eq_nil_iff.mpr fun e he => (h e he).2.1
  have hasked : events.any (Event.asked id) = false :=
    any_eq_false.mpr fun e he => by rw [(h e he).2.2]; exact Bool.false_ne_true
  simp only [account, filterMap_append, flatMap_append, any_append, hframes,
    hsubmitted, hasked, append_nil, Bool.or_false]

theorem account_append_frames {id : Nat} (h : ∀ f ∈ frames, f.type = .data ∧ f.streamId = id) :
    account id (log ++ frames.map .wrote) = (account id log).send frames := by
  have hframes : (frames.map Event.wrote).filterMap (Event.dataFrame id) = frames := by
    rw [filterMap_map]
    have hsome : ∀ f ∈ frames, (Event.dataFrame id ∘ Event.wrote) f = some f := by
      intro f hf
      simp [Event.dataFrame, h f hf]
    rw [filterMap_congr hsome, filterMap_some]
  have hsubmitted : (frames.map Event.wrote).flatMap (Event.submitted id) = [] := by
    rw [flatMap_map]
    exact flatMap_eq_nil_iff.mpr fun _ _ => rfl
  have hasked : (frames.map Event.wrote).any (Event.asked id) = false := by
    rw [any_map]
    exact any_eq_false.mpr fun _ _ => Bool.false_ne_true
  simp only [account, Account.send, filterMap_append, flatMap_append, any_append,
    hframes, hsubmitted, hasked, append_nil, Bool.or_false]

theorem Event.foreign_of_quiet {e : Event} (h : e.quiet) (id : Nat) : e.Foreign id := by
  cases e with
  | wrote f =>
    have htype : f.type ≠ .data ∧ f.type ≠ .headers := by simpa [Event.quiet, Frame.control] using h
    exact ⟨by simp [Event.dataFrame, htype.1], rfl, rfl⟩
  | called => contradiction
  | _ => exact ⟨rfl, rfl, rfl⟩

/-- If the stream has ended, then exactly the last frame carries END_STREAM, and otherwise none
does. -/
def EndFlags (frames : List Frame) : Bool → Prop
  | true => ∃ init last, frames = init ++ [last] ∧ last.has flagEndStream = true ∧
      ∀ f ∈ init, f.has flagEndStream = false
  | false => ∀ f ∈ frames, f.has flagEndStream = false

theorem EndFlags.append {frames more : List Frame} (h : EndFlags frames false) {ended : Bool}
    (hmore : ∃ init last, more = init ++ [last] ∧ last.has flagEndStream = ended ∧
      ∀ f ∈ init, f.has flagEndStream = false) : EndFlags (frames ++ more) ended := by
  obtain ⟨init, last, rfl, hlast, hinit⟩ := hmore
  have hall := forall_mem_append.mpr ⟨h, hinit⟩
  rw [← append_assoc]
  cases ended with
  | true => exact ⟨frames ++ init, last, rfl, hlast, hall⟩
  | false => exact forall_mem_append.mpr ⟨hall, forall_mem_singleton.mpr hlast⟩

def waiting (pending : Option PendingWrite) : List UInt8 := (pending.map rest).getD []

/-- What has been sent and what waits is what has been submitted, and END_STREAM has been sent if it
has been asked for and nothing waits. -/
structure InOrder (pending : Option PendingWrite) (a : Account) : Prop where
  bytes : a.frames.flatMap Frame.payload ++ waiting pending = a.submitted
  write : ∀ pw, pending = some pw → pw.rest ≠ [] ∧ pw.endStream = a.asked
  flags : EndFlags a.frames (a.asked && pending.isNone)

namespace InOrder

variable {data : List UInt8} {endStream : Bool}

/-- Frames go out with all that waits, and with all that is submitted now. -/
theorem whole (h : InOrder pending a) (hopen : (a.asked && pending.isNone) = false)
    (hframes : frames.flatMap Frame.payload = waiting pending ++ data)
    (hlast : ∃ init last, frames = init ++ [last] ∧ last.has flagEndStream = endStream ∧
      ∀ f ∈ init, f.has flagEndStream = false) :
    InOrder none ((a.submit data endStream).send frames) where
  bytes := by
    show (a.frames ++ frames).flatMap Frame.payload ++ [] = a.submitted ++ data
    rw [append_nil, flatMap_append, hframes, ← append_assoc, h.bytes]
  write := nofun
  flags := by
    rw [Option.isNone_none, Bool.and_true]
    exact EndFlags.append (hopen ▸ h.flags) hlast

/-- Frames go out, if any, and some bytes wait. -/
theorem part (h : InOrder pending a) (hopen : (a.asked && pending.isNone) = false)
    (hrest : pw.rest ≠ []) (hend : pw.endStream = endStream)
    (hframes : frames.flatMap Frame.payload ++ pw.rest = waiting pending ++ data)
    (hnone : ∀ f ∈ frames, f.has flagEndStream = false) :
    InOrder (some pw) ((a.submit data endStream).send frames) where
  bytes := by
    show (a.frames ++ frames).flatMap Frame.payload ++ pw.rest = a.submitted ++ data
    rw [flatMap_append, append_assoc, hframes, ← append_assoc, h.bytes]
  write := by
    rintro pw' h'
    cases h'
    exact ⟨hrest, hend⟩
  flags := by
    have hflags : EndFlags a.frames false := hopen ▸ h.flags
    rw [Option.isNone_some, Bool.and_false]
    exact forall_mem_append.mpr ⟨hflags, hnone⟩

end InOrder

def StreamEntry.pending (stream : StreamEntry) : Option PendingWrite :=
  if stream.hasPendingWrite then some stream.pendingWrite else none

namespace Session

def pendingOn (s : Session) (id : Nat) : Option PendingWrite :=
  (s.streams.lookup id).bind pending

def DataInOrder (id : Nat) (s : Session) : Prop := InOrder (s.pendingOn id) (account id s.log)

/-- Nothing has happened to the data of a stream. -/
structure Apart (id : Nat) (s s' : Session) : Prop where
  pending : s'.pendingOn id = s.pendingOn id
  account : account id s'.log = account id s.log

variable {id} {s' s : Session}

theorem Apart.trans {s'' : Session} (h : Apart id s s') (h' : Apart id s' s'') : Apart id s s'' :=
  ⟨h'.pending.trans h.pending, h'.account.trans h.account⟩

theorem Apart.dataInOrder (h : Apart id s s') (hs : DataInOrder id s) : DataInOrder id s' := by
  rw [DataInOrder, h.pending, h.account]
  exact hs

theorem Apart.of_lookup (hlookup : s'.streams.lookup id = s.streams.lookup id)
    (hlog : s'.log = s.log) : Apart id s s' :=
  ⟨by rw [pendingOn, hlookup, pendingOn], by rw [hlog]⟩

theorem apart_emit (s : Session) (he : e.Foreign id) : Apart id s (s.emit e) :=
  ⟨rfl, account_append_foreign s.log fun e' he' => by rwa [mem_singleton.mp he']⟩

theorem pendingOn_eq (h : s.streams.lookup id = some stream) : s.pendingOn id = stream.pending := by
  rw [pendingOn, h]
  rfl

theorem Quiet.apart (h : Quiet s s') (id : Nat) : Apart id s s' := by
  constructor
  · cases hlookup' : s'.streams.lookup id with
    | some stream' =>
      obtain ⟨stream, hlookup, hcalm⟩ := h.lookup hlookup'
      rw [pendingOn_eq hlookup', pendingOn_eq hlookup, pending, pending,
        hcalm.hasPendingWrite, hcalm.pendingWrite]
    | none =>
      have hrel := h.streams id
      rw [hlookup'] at hrel
      rw [pendingOn, pendingOn, hlookup']
      generalize s.streams.lookup id = stream at hrel
      cases hrel with
      | none => rfl
  · obtain ⟨events, hlog, hquiet⟩ := h.log
    rw [hlog]
    exact account_append_foreign s.log fun e he => Event.foreign_of_quiet (hquiet e he) id

theorem apart_update (s : Session) (streamId : Nat)
    (hg : ∀ stream, (g stream).pending = stream.pending) : Apart id s (s.update streamId g) := by
  refine ⟨?_, rfl⟩
  by_cases h : id = streamId
  · subst h
    rw [pendingOn, update, lookup_modify_self, pendingOn]
    cases s.streams.lookup id with
    | none => rfl
    | some stream => exact hg stream
  · rw [pendingOn, update, lookup_modify_of_ne _ h, pendingOn]

theorem apart_insert (hlookup : s.streams.lookup streamId = none)
    (hstream : stream.pending = none) :
    Apart id s { s with streams := s.streams.insert streamId stream } := by
  refine ⟨?_, rfl⟩
  by_cases h : id = streamId
  · subst h
    rw [pendingOn, AList.lookup_insert, pendingOn, hlookup]
    exact hstream
  · rw [pendingOn, AList.lookup_insert_ne h, pendingOn]

theorem apart_applyPeerSettings (s : Session) (f : Frame) (id : Nat) :
    Apart id s (s.applyPeerSettings f) := by
  have htuned := tuned_applyPeerSettings s f
  obtain ⟨events, hlog, hquiet⟩ := htuned.quiet_log
  constructor
  · rw [pendingOn, htuned.streams, pendingOn]
  · rw [hlog]
    exact account_append_foreign s.log fun e he => Event.foreign_of_quiet (hquiet e he) id

section OtherStream

variable {id streamId : Nat} (s : Session) (hne : id ≠ streamId)
include hne

theorem apart_sendBytes (bytes : List UInt8) (endStream : Bool) :
    Apart id s (s.sendBytes streamId bytes endStream) := by
  constructor
  · rw [pendingOn, sendBytes, lookup_modify_of_ne _ hne, pendingOn]
  · refine account_append_foreign s.log fun e he => ?_
    obtain ⟨f, hf, rfl⟩ := mem_map.mp he
    obtain ⟨-, hid, -⟩ := mem_dataFrames streamId endStream hf
    exact ⟨if_neg fun h => hne (h.2.symm.trans hid), rfl, rfl⟩

theorem apart_endIf (endStream : Bool) : Apart id s (s.endIf streamId endStream) :=
  Apart.of_lookup (lookup_endIf_of_ne s hne endStream) (log_endIf s endStream streamId)

theorem apart_update_of_ne (g : StreamEntry → StreamEntry) : Apart id s (s.update streamId g) :=
  Apart.of_lookup (lookup_modify_of_ne _ hne g) rfl

theorem apart_erase : Apart id s (s.erase streamId) :=
  Apart.of_lookup (AList.lookup_erase_ne hne) rfl

theorem apart_flushWhole (pw : PendingWrite) : Apart id s (s.flushWhole streamId pw) := by
  rw [flushWhole]
  refine .trans ?_ (apart_endIf _ hne _)
  refine .trans ?_ (apart_update_of_ne _ hne _)
  refine .trans ?_ (apart_update_of_ne _ hne _)
  exact apart_sendBytes s hne _ _

theorem apart_flushPart (pw : PendingWrite) (size : Nat) :
    Apart id s (s.flushPart streamId pw size) :=
  (apart_sendBytes s hne _ _).trans (apart_update_of_ne _ hne _)

theorem apart_sendData (data : List UInt8) (endStream : Bool) :
    Apart id s (s.sendData streamId data endStream) := by
  have h := submitted_sendData s streamId data endStream
  generalize s.sendData streamId data endStream = s' at h
  cases h with
  | absent | empty => exact .of_lookup rfl rfl
  | appended => exact apart_update_of_ne s hne _
  | ended =>
    have hframe : Apart id s (s.sendFrame (makeData streamId [] true)) :=
      apart_emit s ⟨if_neg fun h => hne h.2.symm, rfl, rfl⟩
    exact hframe.trans (apart_endIf _ hne true)
  | whole => exact (apart_sendBytes s hne _ _).trans (apart_endIf _ hne _)
  | part =>
    refine .trans ?_ (apart_update_of_ne _ hne _)
    exact (apart_sendBytes s hne _ _).trans (.of_lookup rfl rfl)

end OtherStream

theorem apart_sendHeaders (s : Session) {streamId : Nat} {endStream : Bool}
    (h : id ≠ streamId ∨ endStream = false) (headers : List HpackHeaderField) :
    Apart id s (s.sendHeaders streamId headers endStream) := by
  rw [sendHeaders]
  split
  · exact .of_lookup rfl rfl
  have hblock : Apart id s ({ s with
      hpackEncoder := (s.hpackEncoder.encodeHeaders headers).2 }.sendFrame
        ⟨.headers, if endStream then flagEndHeaders ||| flagEndStream else flagEndHeaders,
          streamId, (s.hpackEncoder.encodeHeaders headers).1⟩) := by
    refine .trans ?_ (apart_emit _ ⟨rfl, rfl, rfl⟩)
    exact .of_lookup rfl rfl
  refine hblock.trans ?_
  rcases h with hne | rfl
  · exact apart_endIf _ hne endStream
  · exact .of_lookup rfl rfl

theorem account_sendBytes (s : Session) (id : Nat) (bytes : List UInt8) (endStream : Bool) :
    account id (s.sendBytes id bytes endStream).log = (account id s.log).send
      (dataFrames s.peerSettings.maxFrameSize id endStream bytes.length bytes) := by
  refine account_append_frames s.log fun f hf => ?_
  obtain ⟨htype, hid, -⟩ := mem_dataFrames id endStream hf
  exact ⟨htype, hid⟩

theorem pendingOn_sendBytes (s : Session) (id : Nat) (bytes : List UInt8) (endStream : Bool) :
    (s.sendBytes id bytes endStream).pendingOn id = s.pendingOn id := by
  refine (apart_update s id ?_).pending
  exact fun _ => rfl

theorem pendingOn_endIf (h : s.pendingOn id = none) (endStream : Bool) :
    (s.endIf id endStream).pendingOn id = none := by
  cases hlookup' : (s.endIf id endStream).streams.lookup id with
  | none => rw [pendingOn, hlookup', Option.bind_none]
  | some stream' =>
    obtain ⟨stream, state, hlookup, rfl⟩ := lookup_endIf_self hlookup'
    rw [pendingOn_eq hlookup] at h
    rw [pendingOn_eq hlookup']
    exact h

section OnStream

variable {id : Nat}

theorem dataInOrder_flushWhole (hlookup : s.streams.lookup id = some stream)
    (hpending : stream.hasPendingWrite) (hs : DataInOrder id s) :
    DataInOrder id (s.flushWhole id stream.pendingWrite) := by
  have hwrite : s.pendingOn id = some stream.pendingWrite := by
    rw [pendingOn_eq hlookup, pending, if_pos hpending]
  have hnone : (s.flushWhole id stream.pendingWrite).pendingOn id = none := by
    cases hlookup' : (s.flushWhole id stream.pendingWrite).streams.lookup id with
    | none => rw [pendingOn, hlookup', Option.bind_none]
    | some stream' =>
      rw [pendingOn_eq hlookup', pending, hasPendingWrite_flushWhole hlookup']
      rfl
  rw [DataInOrder, hwrite] at hs
  have hmax := s.peerSettings.maxFrameSize_pos
  rw [DataInOrder, hnone, flushWhole, log_endIf]
  show InOrder none (account id (s.sendBytes id _ _).log)
  obtain ⟨hne, hend⟩ := hs.write _ rfl
  rw [account_sendBytes, ← Account.submit_nil (account id s.log), ← hend]
  refine hs.whole (Bool.and_false _) ?_ (dataFrames_eq_append id _ hmax le_rfl hne)
  rw [flatMap_payload_dataFrames id _ hmax le_rfl]
  exact (append_nil _).symm

theorem dataInOrder_flushPart (hlookup : s.streams.lookup id = some stream)
    (hpending : stream.hasPendingWrite) (hsize : size < stream.pendingWrite.rest.length)
    (hs : DataInOrder id s) : DataInOrder id (s.flushPart id stream.pendingWrite size) := by
  have hwrite : s.pendingOn id = some stream.pendingWrite := by
    rw [pendingOn_eq hlookup, pending, if_pos hpending]
  have hrest : (s.flushPart id stream.pendingWrite size).pendingOn id =
      some { stream.pendingWrite with offset := stream.pendingWrite.offset + size } := by
    rw [pendingOn_eq (lookup_flushPart hlookup size), pending, if_pos hpending]
  rw [DataInOrder, hwrite] at hs
  rw [DataInOrder, hrest]
  show InOrder _ (account id (s.sendBytes id _ _).log)
  have hdrop : ({ stream.pendingWrite with
      offset := stream.pendingWrite.offset + size } : PendingWrite).rest =
        stream.pendingWrite.rest.drop size := by
    rw [rest, rest, drop_drop]
  rw [account_sendBytes, ← Account.submit_nil (account id s.log)]
  refine hs.part (Bool.and_false _) ?_ (hs.write _ rfl).2 ?_ fun f hf =>
    has_of_mem_dataFrames id hf
  · rw [hdrop]
    exact ne_nil_of_length_pos (by rw [length_drop]; omega)
  · rw [hdrop, flatMap_payload_dataFrames id _ s.peerSettings.maxFrameSize_pos le_rfl,
      take_append_drop]
    exact (append_nil _).symm

theorem dataInOrder_sendData {a : Account} {data : List UInt8} {endStream : Bool} (hid : id ≠ 0)
    (hlive : s.streams.lookup id ≠ none) (hasked : a.asked = false)
    (hs : InOrder (s.pendingOn id) a) (hlog : account id s.log = a.submit data endStream) :
    DataInOrder id (s.sendData id data endStream) := by
  have h := submitted_sendData s id data endStream
  have hnone : ∀ {stream}, s.streams.lookup id = some stream → stream.hasPendingWrite = false →
      s.pendingOn id = none := by
    intro stream hlookup hpending
    rw [pendingOn_eq hlookup, pending, hpending]
    rfl
  have hmax := s.peerSettings.maxFrameSize_pos
  generalize s.sendData id data endStream = s' at h
  cases h with
  | absent h => exact absurd h (not_or.mpr ⟨hid, hlive⟩)
  | appended _ stream hlookup hpending =>
    rw [pendingOn_eq hlookup, pending, if_pos hpending] at hs
    have hwrite : (s.update id fun stream => { stream with
        pendingWrite := { stream.pendingWrite with
          data := stream.pendingWrite.data ++ data
          endStream := stream.pendingWrite.endStream || endStream } }).pendingOn id = some
        { stream.pendingWrite with
          data := stream.pendingWrite.data ++ data
          endStream := stream.pendingWrite.endStream || endStream } := by
      rw [pendingOn, update, lookup_modify_self, hlookup]
      exact if_pos hpending
    rw [DataInOrder, hwrite]
    show InOrder _ (account id s.log)
    rw [hlog]
    obtain ⟨hne, hend⟩ := hs.write _ rfl
    have hoffset : stream.pendingWrite.offset ≤ stream.pendingWrite.data.length := by
      have := length_pos_iff.mpr hne
      rw [rest, length_drop] at this
      omega
    rw [← Account.send_nil (a.submit data endStream)]
    refine hs.part (Bool.and_false _) ?_ (by rw [hend, hasked, Bool.false_or]) ?_ (forall_mem_nil _)
    · rw [rest, drop_append_of_le_length hoffset]
      exact append_ne_nil_of_left_ne_nil hne data
    · rw [rest, drop_append_of_le_length hoffset]
      rfl
  | empty _ stream hlookup hpending hdata hend =>
    rw [hnone hlookup hpending] at hs
    rw [DataInOrder, hnone hlookup hpending, hlog, hdata, hend, ← hasked, Account.submit_nil]
    exact hs
  | ended _ stream hlookup hpending hdata hend =>
    rw [hnone hlookup hpending] at hs
    have hsingle : ∀ f ∈ [makeData id [] true], f.type = .data ∧ f.streamId = id :=
      forall_mem_singleton.mpr ⟨rfl, rfl⟩
    have hframe : account id (s.sendFrame (makeData id [] true)).log =
        (account id s.log).send [makeData id [] true] := account_append_frames s.log hsingle
    have hend' : ((s.sendFrame (makeData id [] true)).endLocal id).pendingOn id = none :=
      pendingOn_endIf (hnone hlookup hpending) true
    rw [DataInOrder, hend']
    show InOrder none (account id (s.sendFrame (makeData id [] true)).log)
    rw [hframe, hlog, hdata, hend]
    exact hs.whole (by simp [hasked]) rfl ⟨[], _, rfl, has_makeData id true [], by simp⟩
  | whole _ stream hlookup hpending hdata =>
    rw [hnone hlookup hpending] at hs
    rw [DataInOrder,
      pendingOn_endIf ((pendingOn_sendBytes s id _ _).trans (hnone hlookup hpending)), log_endIf,
      account_sendBytes, hlog]
    exact hs.whole (by simp [hasked]) (flatMap_payload_dataFrames id _ hmax le_rfl)
      (dataFrames_eq_append id _ hmax le_rfl hdata)
  | part _ stream hlookup hpending hfits =>
    rw [hnone hlookup hpending] at hs
    generalize min s.connectionSendWindow stream.sendWindow = size at hfits
    have hwrite : ((s.sendBytes id (data.take size) false).enqueue id (data.drop size)
        endStream).pendingOn id =
          some { data := data.drop size, offset := 0, endStream := endStream } := by
      rw [pendingOn, enqueue, update, lookup_modify_self, sendBytes, lookup_modify_self, hlookup]
      rfl
    rw [DataInOrder, hwrite]
    show InOrder _ (account id (s.sendBytes id _ _).log)
    rw [account_sendBytes, hlog]
    refine hs.part (by simp [hasked]) ?_ rfl ?_ fun f hf => has_of_mem_dataFrames id hf
    · exact ne_nil_of_length_pos (by simpa [rest] using hfits)
    · rw [flatMap_payload_dataFrames id _ hmax le_rfl]
      exact take_append_drop _ _

end OnStream

theorem dataInOrder_flushPendingWrites (s : Session) {id : Nat} (hs : DataInOrder id s) :
    DataInOrder id s.flushPendingWrites := by
  refine flushQueue_rel (R := fun s s' => DataInOrder id s → DataInOrder id s')
    (fun _ _ _ h h' hs => h' (h hs)) ?_ ?_ ?_ _ s hs
  · intro s queue hs
    exact hs
  · intro s streamId stream hlookup hpending _ hs
    by_cases h : id = streamId
    · subst h
      exact dataInOrder_flushWhole hlookup hpending hs
    · exact (apart_flushWhole s h _).dataInOrder hs
  · intro s streamId stream hlookup hpending hfits hs
    by_cases h : id = streamId
    · subst h
      exact dataInOrder_flushPart hlookup hpending hfits hs
    · exact (apart_flushPart s h _ _).dataInOrder hs

/-- The log has grown, by no DATA frame that is longer than `size`. -/
def Grown (size : Nat) (s s' : Session) : Prop :=
  ∃ events, s'.log = s.log ++ events ∧
    ∀ f, .wrote f ∈ events → f.type = .data → f.length ≤ size

namespace Grown

theorem of_log_eq (h : s'.log = s.log) : Grown size s s' :=
  ⟨[], by rw [h, append_nil], nofun⟩

theorem trans (h : Grown size s s') (h' : Grown size s' s'') : Grown size s s'' := by
  obtain ⟨events, hlog, hsize⟩ := h
  obtain ⟨events', hlog', hsize'⟩ := h'
  refine ⟨events ++ events', by rw [hlog', hlog, append_assoc], fun f hf => ?_⟩
  exact (mem_append.mp hf).elim (hsize f) (hsize' f)

theorem of_quiet (h : ∃ events, s'.log = s.log ++ events ∧ ∀ e ∈ events, e.quiet) :
    Grown size s s' := by
  obtain ⟨events, hlog, hquiet⟩ := h
  refine ⟨events, hlog, fun f hf htype => ?_⟩
  have hcontrol : f.type ≠ .data ∧ f.type ≠ .headers := by
    simpa [Event.quiet, Frame.control] using hquiet _ hf
  exact absurd htype hcontrol.1

theorem mem (h : Grown size s s') {e : Event} (he : e ∈ s.log) : e ∈ s'.log := by
  obtain ⟨events, hlog, -⟩ := h
  rw [hlog]
  exact mem_append_left _ he

end Grown

/-- Whatever the session sends, it keeps to the peer's `max_frame_size`. -/
structure Framed (s s' : Session) : Prop where
  peerSettings : s'.peerSettings = s.peerSettings
  grown : Grown s.peerSettings.maxFrameSize s s'

namespace Framed

theorem of_eq (hsettings : s'.peerSettings = s.peerSettings := by rfl)
    (hlog : s'.log = s.log := by rfl) : Framed s s' :=
  ⟨hsettings, .of_log_eq hlog⟩

theorem trans (h : Framed s s') (h' : Framed s' s'') : Framed s s'' := by
  refine ⟨h'.peerSettings.trans h.peerSettings, h.grown.trans ?_⟩
  rw [← h.peerSettings]
  exact h'.grown

end Framed

theorem Quiet.framed (h : Quiet s s') : Framed s s' :=
  ⟨h.peerSettings, .of_quiet h.log⟩

section

variable (s : Session)

theorem framed_emit (he : ∀ f, e = .wrote f → f.type = .data → f.length = 0) :
    Framed s (s.emit e) := by
  refine ⟨rfl, [e], rfl, fun f hf htype => ?_⟩
  rw [he f (mem_singleton.mp hf).symm htype]
  exact Nat.zero_le _

theorem sendRule_framed : SendRule Framed where
  trans := Framed.trans
  quiet := Quiet.framed
  still _ hsettings _ hlog _ := .of_eq hsettings hlog
  frame s f _ hf := by
    refine framed_emit s fun f' hf' htype => ?_
    obtain rfl := Event.wrote.inj hf'
    rw [Frame.length, hf htype]
    rfl
  bytes {s streamId stream bytes} _ endStream _ := by
    refine ⟨rfl, _, rfl, fun f hf _ => ?_⟩
    obtain ⟨f', hf', hwrote⟩ := mem_map.mp hf
    obtain rfl := Event.wrote.inj hwrote
    exact (mem_dataFrames streamId endStream hf').2.2

theorem framed_call (c : Call) : Framed s (s.call c) := by
  refine sendRule_framed.call s ?_ ?_ c
  · exact fun s _ => framed_emit s nofun
  · intro s encoder f hf
    have hencoder : Framed s { s with hpackEncoder := encoder } := .of_eq
    refine hencoder.trans (framed_emit _ fun f' hf' htype => ?_)
    rw [← Event.wrote.inj hf', hf] at htype
    cases htype

theorem grown_step (l : Label) : Grown s.peerSettings.maxFrameSize s (step s l) := by
  cases stepped s l with
  | idle h =>
    rw [h]
    exact .of_log_eq rfl
  | call c _ h =>
    rw [h]
    exact (framed_call s c).grown
  | ret _ h => exact h.framed.grown
  | frame f _ _ h =>
    have hreceive : Grown s.peerSettings.maxFrameSize s (s.receive f) :=
      ⟨[.received f], rfl, fun f hf => by cases mem_singleton.mp hf⟩
    refine hreceive.trans ?_
    cases h with
    | quiet h | opened _ _ h | idle _ _ h | removed h | connectionOverflow _ _ _ h =>
      exact .of_quiet h.log
    | settings _ h =>
      exact (Grown.of_quiet (tuned_applyPeerSettings _ f).quiet_log).trans (Grown.of_quiet h.log)
    | connectionWindow _ _ _ h | streamWindow _ _ _ _ _ h =>
      rw [h]
      exact (sendRule_framed.flushPendingWrites _).grown

end

/-- The user submits data only on a stream that has an entry and has not been asked to end, and does
not end the stream with headers. -/
def Submits (id : Nat) (s : Session) : Label → Prop
  | .call c =>
    (c.submits id ≠ none → s.streams.lookup id ≠ none ∧ (account id s.log).asked = false) ∧
    c.endsWithHeaders id = false
  | _ => True

instance (id : Nat) (s : Session) : (l : Label) → Decidable (Submits id s l)
  | .call _ => inferInstanceAs (Decidable (_ ∧ _))
  | .recv _ => isTrue trivial
  | .ret => isTrue trivial

theorem account_called {log : List Event} {data : List UInt8} {endStream : Bool}
    (hsubmits : c.submits id = some (data, endStream)) (hasked : (account id log).asked = false) :
    account id (log ++ [.called c]) = (account id log).submit data endStream := by
  have hbefore : log.any (Event.asked id) = false := hasked
  simp [account, Account.submit, hbefore, Event.dataFrame, Event.submitted, Event.asked, hsubmits]

theorem apart_called (s : Session) (h : c.submits id = none) : Apart id s (s.emit (.called c)) := by
  refine apart_emit s ⟨rfl, ?_, ?_⟩
  · rw [Event.submitted, h]
    rfl
  · rw [Event.asked, h]
    rfl

theorem dataInOrder_call (hid : id ≠ 0) (hsubmits : Submits id s (.call c))
    (hreset : ∀ e ∈ (s.call c).log, e.resets id = false) (hs : DataInOrder id s) :
    DataInOrder id (s.call c) := by
  obtain ⟨hdata, hend⟩ := hsubmits
  have hother : c.submits id = none → Apart id (s.emit (.called c)) (s.call c) →
      DataInOrder id (s.call c) := fun hnone h =>
    ((apart_called s hnone).trans h).dataInOrder hs
  have hown : ∀ {data endStream}, c.submits id = some (data, endStream) →
      ∀ s', Apart id (s.emit (.called c)) s' → s'.streams = s.streams →
      DataInOrder id (s'.sendData id data endStream) := by
    intro data endStream hsome s' hapart hstreams
    obtain ⟨hlive, hasked⟩ := hdata (by rw [hsome]; exact Option.some_ne_none _)
    refine dataInOrder_sendData hid (by rwa [hstreams]) hasked ?_ ?_
    · rw [hapart.pending]
      exact hs
    · rw [hapart.account]
      exact account_called hsome hasked
  cases c with
  | onPrefaceReceived => exact hother rfl ((quiet_onPrefaceReceived _).apart id)
  | sendHeaders streamId headers endStream =>
    refine hother rfl (apart_sendHeaders _ ?_ headers)
    by_cases h : id = streamId
    · right
      simpa [Call.endsWithHeaders, h.symm] using hend
    · exact .inl h
  | sendData streamId data endStream =>
    by_cases h : streamId = id
    · subst h
      exact hown (if_pos rfl) _ (.of_lookup rfl rfl) rfl
    · exact hother (if_neg h) (apart_sendData _ (Ne.symm h) _ _)
  | sendDataBuffer streamId body endStream =>
    unfold call at hother ⊢
    dsimp only at hother ⊢
    rw [sendDataBuffer_eq_sendData] at hother ⊢
    by_cases h : streamId = id
    · subst h
      exact hown (if_pos rfl) _ (.of_lookup rfl rfl) rfl
    · exact hother (if_neg h) (apart_sendData _ (Ne.symm h) _ _)
  | sendSimpleResponse streamId status contentType body =>
    unfold call at hother ⊢
    dsimp only at hother ⊢
    rw [sendSimpleResponse] at hother ⊢
    by_cases h : streamId = id
    · subst h
      have hbody : body.isEmpty = false := by simpa [Call.endsWithHeaders] using hend
      rw [if_neg hid]
      simp only [hbody, Bool.false_eq_true, if_false]
      refine hown (if_pos ⟨rfl, hbody⟩) _ (apart_sendHeaders _ (.inr rfl) _) ?_
      rw [sendHeaders, if_neg hid]
      rfl
    · refine hother (if_neg fun hsubmits => h hsubmits.1) ?_
      split
      · exact .of_lookup rfl rfl
      split
      · exact apart_sendHeaders _ (.inl (Ne.symm h)) _
      · refine .trans ?_ (apart_sendData _ (Ne.symm h) _ _)
        exact apart_sendHeaders _ (.inl (Ne.symm h)) _
  | sendRstStream streamId error =>
    refine hother rfl ?_
    unfold call at hreset ⊢
    dsimp only at hreset ⊢
    rw [sendRstStream] at hreset ⊢
    split_ifs with hzero
    · exact .of_lookup rfl rfl
    rw [if_neg hzero] at hreset
    by_cases h : streamId = id
    · have hrst := hreset (.wrote (makeRstStream streamId error)) (mem_append_right _
        mem_cons_self)
      simp [Event.resets, makeRstStream, h] at hrst
    · have hframe : Quiet (s.emit (.called (.sendRstStream streamId error)))
          ((s.emit (.called (.sendRstStream streamId error))).sendFrame
            (makeRstStream streamId error)) := Quiet.emit _ rfl
      exact (hframe.apart id).trans (apart_erase _ (Ne.symm h))
  | sendGoaway error => exact hother rfl ((quiet_sendGoaway _ error).apart id)
  | closeGracefully =>
    have hclose := hreset (.called .closeGracefully) (mem_append_left _
      (mem_append_right _ mem_cons_self))
    simp [Event.resets] at hclose

theorem dataInOrder_step (hid : id ≠ 0) (s : Session) (l : Label)
    (hs : (∀ e ∈ s.log, e.resets id = false) → DataInOrder id s) (hsubmits : Submits id s l)
    (hreset : ∀ e ∈ (step s l).log, e.resets id = false) : DataInOrder id (step s l) := by
  have hbefore := hs fun e he => hreset e ((grown_step s l).mem he)
  cases stepped s l with
  | idle h =>
    rw [h]
    exact hbefore
  | call c hlabel h =>
    subst hlabel
    rw [h] at hreset ⊢
    exact dataInOrder_call hid hsubmits hreset hbefore
  | ret _ h => exact (h.apart id).dataInOrder hbefore
  | frame f hlabel _ h =>
    have hreceive : Apart id s (s.receive f) :=
      ⟨rfl, account_append_foreign s.log (forall_mem_singleton.mpr ⟨rfl, rfl, rfl⟩)⟩
    have hreceived := hreceive.dataInOrder hbefore
    cases h with
    | quiet h => exact (h.apart id).dataInOrder hreceived
    | settings _ h =>
      exact ((apart_applyPeerSettings _ f id).trans (h.apart id)).dataInOrder hreceived
    | opened _ hlookup h | idle _ hlookup h =>
      exact ((apart_insert hlookup rfl).trans (h.apart id)).dataInOrder hreceived
    | removed h hremoved =>
      by_cases hne : id = f.streamId
      · -- the entry goes with a RST_STREAM frame from one of the sides
        rcases hremoved with htype | ⟨error, hwrote⟩
        · obtain ⟨events, hlog, -⟩ := h.log
          have hmem : .received f ∈ (step s l).log := by
            rw [hlog]
            exact mem_append_left _ (mem_append_right _ mem_cons_self)
          have := hreset _ hmem
          simp [Event.resets, htype, hne] at this
        · have := hreset _ hwrote
          simp [Event.resets, makeRstStream, hne] at this
      · exact ((apart_erase _ hne).trans (h.apart id)).dataInOrder hreceived
    | connectionWindow _ _ _ h =>
      rw [h]
      refine dataInOrder_flushPendingWrites _ (Apart.dataInOrder ?_ hreceived)
      exact .of_lookup rfl rfl
    | connectionOverflow _ _ _ h =>
      refine (h.apart id).dataInOrder (Apart.dataInOrder ?_ hreceived)
      exact .of_lookup rfl rfl
    | streamWindow _ _ stream hlookup _ h =>
      rw [h]
      refine dataInOrder_flushPendingWrites _ (Apart.dataInOrder ?_ hreceived)
      refine apart_update _ _ ?_
      exact fun _ => rfl

theorem dataInOrder_new (headersBridge dataBridge goawayBridge : Bool) (id : Nat) :
    DataInOrder id (new headersBridge dataBridge goawayBridge) :=
  ⟨rfl, nofun, nofun⟩

/-- The DATA frames that a step sends are no longer than the peer's `max_frame_size`. -/
def KeepsFrameSize (s : Session) (l : Label) : Prop :=
  ∀ f, .wrote f ∈ (step s l).log.drop s.log.length → f.type = .data →
    f.length ≤ s.peerSettings.maxFrameSize

theorem keepsFrameSize (s : Session) (l : Label) : KeepsFrameSize s l := by
  obtain ⟨events, hlog, hsize⟩ := grown_step s l
  intro f hf
  rw [hlog, drop_left] at hf
  exact hsize f hf

/-- As long as a stream is not reset and the session is not closed gracefully, the DATA frames of
the stream and its pending bytes carry the bytes that have been submitted on it, the frames keep to
`max_frame_size`, and exactly the last frame carries END_STREAM once the end has been asked for and
nothing is pending. -/
theorem data_sent_in_order (headersBridge dataBridge goawayBridge : Bool) (ls : List Label)
    {id : Nat} (hid : id ≠ 0)
    (hsubmits : Along step (Submits id) (new headersBridge dataBridge goawayBridge) ls)
    (hreset : ∀ e ∈ (run step (new headersBridge dataBridge goawayBridge) ls).log,
      e.resets id = false) :
    let s := run step (new headersBridge dataBridge goawayBridge) ls
    (account id s.log).frames.flatMap Frame.payload ++ waiting (s.pendingOn id) =
      (account id s.log).submitted ∧
    EndFlags (account id s.log).frames ((account id s.log).asked && (s.pendingOn id).isNone) ∧
    Along step KeepsFrameSize (new headersBridge dataBridge goawayBridge) ls := by
  intro s
  have hs : DataInOrder id s := run_invariant (dataInOrder_step hid)
    (fun _ => dataInOrder_new headersBridge dataBridge goawayBridge id) hsubmits hreset
  exact ⟨hs.bytes, hs.flags, along_of_forall step keepsFrameSize _ ls⟩

/-- A window that closes in the middle of the data, more data behind it, and two increments. -/
theorem data_sent_in_order_split :
    let ls : List Label := [.recv ⟨.settings, flagNone, 0, appendSetting 4 3⟩,
      .recv ⟨.headers, flagEndHeaders ||| flagEndStream, 1, []⟩, .ret,
      .call (.sendData 1 [1, 2, 3, 4, 5] false), .call (.sendDataBuffer 1 [6, 7] true),
      .recv ⟨.windowUpdate, flagNone, 1, [0, 0, 0, 1]⟩,
      .recv ⟨.windowUpdate, flagNone, 1, [0, 0, 0, 9]⟩]
    let s := run step (new true true true) ls
    (account 1 s.log).frames.flatMap Frame.payload ++ waiting (s.pendingOn 1) =
      (account 1 s.log).submitted ∧
    EndFlags (account 1 s.log).frames ((account 1 s.log).asked && (s.pendingOn 1).isNone) ∧
    Along step KeepsFrameSize (new true true true) ls :=
  data_sent_in_order true true true _ (by decide) (by decide +kernel) (by decide +kernel)

/-- Data that is submitted after the end of the stream follows the frame with END_STREAM. -/
theorem data_sent_after_end :
    let s := run step (new true true true)
      [.recv ⟨.settings, flagNone, 0, []⟩, .recv ⟨.headers, flagEndHeaders, 1, []⟩, .ret,
        .call (.sendData 1 [1] true), .call (.sendData 1 [2] false)]
    (account 1 s.log).asked = true ∧ s.pendingOn 1 = none ∧
      ¬EndFlags (account 1 s.log).frames true := by
  intro s
  have hframes : (account 1 s.log).frames = [makeData 1 [1] true, makeData 1 [2] false] := by
    decide +kernel
  refine ⟨by decide +kernel, by decide +kernel, ?_⟩
  rw [hframes]
  rintro ⟨init, last, h, hlast, -⟩
  have hdata : makeData 1 [2] false = last := by
    simpa using congrArg getLast? h
  rw [← hdata, has_makeData] at hlast
  cases hlast

end Session

end ServerLib.Http2

import ServerLib.Http2.Session

/-! What the loops that send data do.  `send_data` and `flush_pending_writes` send as many bytes as
both windows allow, in frames of at most the peer's `max_frame_size`, and put END_STREAM on the last
frame of the last byte. -/

namespace ServerLib.Http2

open Lib

theorem PeerSettings.maxFrameSize_pos (p : PeerSettings) : 0 < p.maxFrameSize :=
  Nat.lt_of_lt_of_le (by decide) p.maxFrameSize_ge

namespace Session

/-- The DATA frames for `bytes`, where the last one carries END_STREAM if `endStream` holds.  The
first argument bounds their number. -/
def dataFrames (maxFrameSize streamId : Nat) (endStream : Bool) : Nat → List UInt8 → List Frame
  | 0, _ => []
  | _, [] => []
  | n + 1, b :: bytes =>
    makeData streamId ((b :: bytes).take maxFrameSize)
        (endStream && decide ((b :: bytes).length ≤ maxFrameSize)) ::
      dataFrames maxFrameSize streamId endStream n ((b :: bytes).drop maxFrameSize)

variable (s : Session)

def sendBytes (streamId : Nat) (bytes : List UInt8) (endStream : Bool) : Session :=
  { s with
    log := s.log ++ (dataFrames s.peerSettings.maxFrameSize streamId endStream bytes.length
      bytes).map .wrote
    connectionSendWindow := s.connectionSendWindow - bytes.length
    streams := modify s.streams streamId fun stream =>
      { stream with sendWindow := stream.sendWindow - bytes.length } }

theorem sendBytes_nil (streamId : Nat) (endStream : Bool) :
    s.sendBytes streamId [] endStream = s := by
  simp [sendBytes, dataFrames, modify_id]

variable {bytes : List UInt8}

theorem dataFrames_congr (streamId : Nat) (endStream : Bool) (hmax : 0 < maxFrameSize)
    (hn : bytes.length ≤ n) (hn' : bytes.length ≤ n') :
    dataFrames maxFrameSize streamId endStream n bytes =
      dataFrames maxFrameSize streamId endStream n' bytes := by
  induction n generalizing n' bytes with
  | zero =>
    rw [List.length_eq_zero_iff.mp (Nat.le_zero.mp hn)]
    cases n' <;> rfl
  | succ n ih =>
    cases bytes with
    | nil => cases n' <;> rfl
    | cons b bytes =>
      cases n' with
      | zero => simp at hn'
      | succ n' =>
        rw [dataFrames, dataFrames]
        congr 1
        simp only [List.length_cons] at hn hn'
        exact ih (by simp; omega) (by simp; omega)

section Frames

variable (streamId : Nat) (endStream : Bool)

theorem flatMap_payload_dataFrames (hmax : 0 < maxFrameSize) (hn : bytes.length ≤ n) :
    (dataFrames maxFrameSize streamId endStream n bytes).flatMap Frame.payload = bytes := by
  induction n generalizing bytes with
  | zero =>
    rw [List.length_eq_zero_iff.mp (Nat.le_zero.mp hn)]
    rfl
  | succ n ih =>
    cases bytes with
    | nil => rfl
    | cons b bytes =>
      rw [List.length_cons] at hn
      rw [dataFrames, List.flatMap_cons, ih (by simp; omega)]
      exact List.take_append_drop _ _

theorem eq_of_mem_dataFrames (h : f ∈ dataFrames maxFrameSize streamId endStream n bytes) :
    ∃ (chunk : List UInt8) (last : Bool),
      f = makeData streamId (chunk.take maxFrameSize) (endStream && last) := by
  induction n generalizing bytes with
  | zero => cases h
  | succ n ih =>
    cases bytes with
    | nil => cases h
    | cons b bytes => exact (List.mem_cons.mp h).elim (fun h => ⟨_, _, h⟩) ih

theorem mem_dataFrames (h : f ∈ dataFrames maxFrameSize streamId endStream n bytes) :
    f.type = .data ∧ f.streamId = streamId ∧ f.length ≤ maxFrameSize := by
  obtain ⟨bytes, last, rfl⟩ := eq_of_mem_dataFrames streamId endStream h
  exact ⟨rfl, rfl, List.length_take_le _ _⟩

theorem has_makeData (payload : List UInt8) :
    (makeData streamId payload endStream).has flagEndStream = endStream := by
  show ((if endStream then flagEndStream else flagNone) &&& flagEndStream != 0) = endStream
  cases endStream <;> decide

theorem has_of_mem_dataFrames (h : f ∈ dataFrames maxFrameSize streamId false n bytes) :
    f.has flagEndStream = false := by
  obtain ⟨bytes, last, rfl⟩ := eq_of_mem_dataFrames streamId false h
  exact has_makeData streamId false _

theorem dataFrames_eq_append (hmax : 0 < maxFrameSize) (hn : bytes.length ≤ n) (hne : bytes ≠ []) :
    ∃ init last, dataFrames maxFrameSize streamId endStream n bytes = init ++ [last] ∧
      last.has flagEndStream = endStream ∧ ∀ f ∈ init, f.has flagEndStream = false := by
  induction n generalizing bytes with
  | zero => exact absurd (List.length_eq_zero_iff.mp (Nat.le_zero.mp hn)) hne
  | succ n ih =>
    cases bytes with
    | nil => contradiction
    | cons b bytes =>
      rw [dataFrames]
      by_cases hlast : (b :: bytes).length ≤ maxFrameSize
      · rw [List.drop_of_length_le hlast, decide_eq_true hlast, Bool.and_true]
        refine ⟨[], makeData streamId ((b :: bytes).take maxFrameSize) endStream, ?_,
          has_makeData _ _ _, by simp⟩
        cases n <;> rfl
      · rw [List.length_cons] at hn hlast
        obtain ⟨init, last, hframes, hend, hinit⟩ := @ih ((b :: bytes).drop maxFrameSize)
          (by simp; omega) (by simp; omega)
        refine ⟨makeData streamId _ _ :: init, last, by rw [hframes]; rfl, hend, ?_⟩
        refine List.forall_mem_cons.mpr ⟨?_, hinit⟩
        rw [has_makeData, decide_eq_false (by rw [List.length_cons]; exact hlast), Bool.and_false]

end Frames

theorem sendBytes_sendChunk (streamId : Nat) (endStream : Bool) (hne : bytes ≠ []) :
    (s.sendChunk streamId (bytes.take s.peerSettings.maxFrameSize)
        (endStream && decide (bytes.length ≤ s.peerSettings.maxFrameSize))).sendBytes streamId
      (bytes.drop s.peerSettings.maxFrameSize) endStream =
        s.sendBytes streamId bytes endStream := by
  cases bytes with
  | nil => contradiction
  | cons b bytes =>
    have hsum : ((b :: bytes).take s.peerSettings.maxFrameSize).length +
        ((b :: bytes).drop s.peerSettings.maxFrameSize).length = (b :: bytes).length := by
      rw [← List.length_append, List.take_append_drop]
    have hmax := s.peerSettings.maxFrameSize_pos
    have hframes := dataFrames_congr streamId endStream hmax
      (Nat.le_refl ((b :: bytes).drop s.peerSettings.maxFrameSize).length)
      (show _ ≤ bytes.length by simp; omega)
    simp only [sendBytes, sendChunk, update, sendFrame, emit, modify_modify, Nat.sub_sub, hsum]
    rw [List.length_cons, dataFrames, hframes]
    simp

theorem sendBytes_chunk (streamId : Nat) (endStream : Bool) (hne : bytes ≠ [])
    (hsize : size = min s.peerSettings.maxFrameSize bytes.length) :
    (s.sendChunk streamId (bytes.take size) (endStream && decide (bytes.length ≤ size))).sendBytes
      streamId (bytes.drop size) endStream = s.sendBytes streamId bytes endStream := by
  have htake : bytes.take size = bytes.take s.peerSettings.maxFrameSize := by
    rw [hsize, ← List.take_eq_take_min]
  have hdrop : bytes.drop size = bytes.drop s.peerSettings.maxFrameSize := by
    rw [hsize, ← List.drop_eq_drop_min]
  have hflag : bytes.length ≤ size ↔ bytes.length ≤ s.peerSettings.maxFrameSize := by omega
  rw [htake, hdrop, decide_eq_decide.mpr hflag]
  exact sendBytes_sendChunk s streamId endStream hne

theorem sendBytes_part (streamId : Nat) (endStream : Bool) (hw : w ≠ 0) (hlt : w < bytes.length)
    (hsize : size = min s.peerSettings.maxFrameSize w) :
    (s.sendChunk streamId (bytes.take size) (endStream && decide (bytes.length ≤ size))).sendBytes
      streamId ((bytes.take w).drop size) false = s.sendBytes streamId (bytes.take w) false := by
  have hbytes : (bytes.take w).length = w := by
    rw [List.length_take]
    omega
  have hflag : (endStream && decide (bytes.length ≤ size)) =
      (false && decide ((bytes.take w).length ≤ size)) := by
    rw [Bool.false_and, decide_eq_false (by omega), Bool.and_false]
  have hfirst : bytes.take size = (bytes.take w).take size := by
    rw [List.take_take, Nat.min_eq_left (by omega)]
  rw [hflag, hfirst]
  exact sendBytes_chunk s streamId false (List.ne_nil_of_length_pos (by omega)) (by omega)

/-- The bytes that the windows do not allow wait for the windows to open. -/
def enqueue (streamId : Nat) (data : List UInt8) (endStream : Bool) : Session :=
  { s with pendingWriteQueue := s.pendingWriteQueue ++ [streamId] }.update streamId
    ({ · with
      pendingWrite := { data := data, offset := 0, endStream := endStream }
      hasPendingWrite := true })

theorem lookup_sendChunk (h : s.streams.lookup streamId = some stream) (chunk : List UInt8)
    (endStream : Bool) :
    (s.sendChunk streamId chunk endStream).streams.lookup streamId =
      some { stream with sendWindow := stream.sendWindow - chunk.length } := by
  simp [sendChunk, update, sendFrame, emit, h]

def endIf (streamId : Nat) (endStream : Bool) : Session :=
  if endStream then s.endLocal streamId else s

variable (endStream : Bool)

@[simp] theorem log_endIf (streamId : Nat) :
    (s.endIf streamId endStream).log = s.log := by
  rw [endIf]
  split <;> rfl

@[simp] theorem connectionSendWindow_endIf (streamId : Nat) :
    (s.endIf streamId endStream).connectionSendWindow = s.connectionSendWindow := by
  rw [endIf]
  split <;> rfl

theorem lookup_endIf_of_ne {id : Nat} (h : id ≠ streamId) (endStream : Bool) :
    (s.endIf streamId endStream).streams.lookup id = s.streams.lookup id := by
  rw [endIf]
  split
  · rw [endLocal]
    split
    · split
      · exact lookup_modify_of_ne _ h _
      split
      · exact AList.lookup_erase_ne h
      · rfl
    · rfl
  · rfl

theorem lookup_endIf_self {s : Session} {endStream : Bool}
    (h : (s.endIf streamId endStream).streams.lookup streamId = some stream') :
    ∃ stream state, s.streams.lookup streamId = some stream ∧
      stream' = { stream with state := state } := by
  rw [endIf] at h
  split at h
  · rw [endLocal] at h
    split at h
    · rename_i stream hlookup
      split at h
      · rw [lookup_modify_self, hlookup] at h
        exact ⟨stream, .halfClosedLocal, hlookup, (Option.some.inj h).symm⟩
      split at h
      · rw [AList.lookup_erase] at h
        contradiction
      · exact ⟨stream', _, h, rfl⟩
    · exact ⟨stream', _, h, rfl⟩
  · exact ⟨stream', _, h, rfl⟩

/-- The loop of `send_data` sends what the windows allow and queues the rest. -/
theorem sendLoop_eq {s : Session} (hstream : s.streams.lookup streamId = some stream)
    {data : List UInt8} (hn : data.length ≤ n) :
    sendLoop streamId endStream n s data =
      if data.length ≤ min s.connectionSendWindow stream.sendWindow then
        (s.sendBytes streamId data endStream).endIf streamId endStream
      else
        (s.sendBytes streamId (data.take (min s.connectionSendWindow stream.sendWindow))
          false).enqueue streamId (data.drop (min s.connectionSendWindow stream.sendWindow))
            endStream := by
  induction n generalizing s stream data with
  | zero =>
    rw [List.length_eq_zero_iff.mp (Nat.le_zero.mp hn), sendLoop, sendBytes_nil]
    simp [endIf]
  | succ n ih =>
    cases data with
    | nil =>
      rw [sendLoop, sendBytes_nil]
      simp [endIf]
    | cons b data =>
      rw [sendLoop, hstream]
      dsimp only
      split
      · rename_i hzero
        rw [if_neg (by simp [hzero]), hzero, List.take_zero, List.drop_zero, sendBytes_nil]
        rfl
      · rename_i hpos
        have hmax := s.peerSettings.maxFrameSize_pos
        set w := min s.connectionSendWindow stream.sendWindow with hw
        set size := s.chunkSize stream (b :: data).length with hsize
        rw [chunkSize, ← hw] at hsize
        have htake : ((b :: data).take size).length = size := by
          rw [List.length_take]
          omega
        set chunk := (b :: data).take size with hchunk
        set last := endStream && decide ((b :: data).length ≤ size) with hlast
        have hwindow : min (s.sendChunk streamId chunk last).connectionSendWindow
            { stream with sendWindow := stream.sendWindow - chunk.length }.sendWindow =
              w - size := by
          show min (s.connectionSendWindow - chunk.length) (stream.sendWindow - chunk.length) = _
          rw [htake]
          omega
        have hrest := @ih _ _ (lookup_sendChunk s hstream chunk last) ((b :: data).drop size)
          (by rw [List.length_drop]; omega)
        rw [hwindow] at hrest
        rw [hrest]
        by_cases hfit : (b :: data).length ≤ w
        · rw [if_pos hfit, if_pos (by rw [List.length_drop]; omega), hchunk, hlast,
            sendBytes_chunk s streamId endStream (List.cons_ne_nil b data) (by omega)]
        · rw [if_neg hfit, if_neg (by rw [List.length_drop]; omega), List.drop_drop,
            Nat.add_sub_cancel' (by omega), List.take_drop, Nat.add_sub_cancel' (by omega), hchunk,
            hlast, sendBytes_part s streamId endStream hpos (by omega) (by omega)]

def advance (streamId size : Nat) : Session :=
  s.update streamId fun stream => { stream with
    pendingWrite := { stream.pendingWrite with offset := stream.pendingWrite.offset + size } }

theorem advance_zero (streamId : Nat) : s.advance streamId 0 = s := by
  simp [advance, update, modify_id]

theorem advance_advance (streamId size size' : Nat) :
    (s.advance streamId size).advance streamId size' = s.advance streamId (size + size') := by
  simp [advance, update, modify_modify, Nat.add_assoc]

theorem sendBytes_advance (streamId size : Nat) (bytes : List UInt8) :
    (s.advance streamId size).sendBytes streamId bytes endStream =
      (s.sendBytes streamId bytes endStream).advance streamId size := by
  simp [advance, update, sendBytes, modify_modify]

end Session

def PendingWrite.rest (pw : PendingWrite) : List UInt8 := pw.data.drop pw.offset

namespace Session

variable {s : Session}

/-- The inner loop of `flush_pending_writes` sends what the windows allow. -/
theorem flushStream_eq (hstream : s.streams.lookup streamId = some stream)
    (hn : stream.pendingWrite.rest.length ≤ n) :
    flushStream streamId n s =
      if stream.pendingWrite.rest.length ≤ min s.connectionSendWindow stream.sendWindow then
        ((s.sendBytes streamId stream.pendingWrite.rest stream.pendingWrite.endStream).advance
          streamId stream.pendingWrite.rest.length, true)
      else
        ((s.sendBytes streamId (stream.pendingWrite.rest.take
          (min s.connectionSendWindow stream.sendWindow)) false).advance streamId
            (min s.connectionSendWindow stream.sendWindow), false) := by
  induction n generalizing s stream with
  | zero =>
    rw [List.length_eq_zero_iff.mp (Nat.le_zero.mp hn), flushStream, sendBytes_nil]
    simp [advance_zero]
  | succ n ih =>
    rw [flushStream, hstream]
    dsimp only
    rw [show stream.pendingWrite.data.drop stream.pendingWrite.offset = stream.pendingWrite.rest
      from rfl]
    split
    · rename_i hzero
      rw [List.length_eq_zero_iff.mp hzero, sendBytes_nil]
      simp [advance_zero]
    split
    · rename_i hne hzero
      rw [if_neg (by omega), hzero, List.take_zero, sendBytes_nil, advance_zero]
    rename_i hne hpos
    have hmax := s.peerSettings.maxFrameSize_pos
    set w := min s.connectionSendWindow stream.sendWindow with hw
    set rest := stream.pendingWrite.rest with hrest
    set size := s.chunkSize stream rest.length with hsize
    rw [chunkSize, ← hw] at hsize
    set chunk := rest.take size with hchunk
    set last := stream.pendingWrite.endStream && decide (rest.length ≤ size) with hlast
    have htake : chunk.length = size := by
      rw [hchunk, List.length_take]
      omega
    have hlookup : ((s.sendChunk streamId chunk last).advance streamId size).streams.lookup
        streamId = some { stream with
          sendWindow := stream.sendWindow - size
          pendingWrite := { stream.pendingWrite with
            offset := stream.pendingWrite.offset + size } } := by
      simp [advance, update, lookup_sendChunk s hstream, htake]
    have hdrop : (stream.pendingWrite.data.drop (stream.pendingWrite.offset + size)) =
        rest.drop size := by
      rw [hrest, PendingWrite.rest, List.drop_drop]
    have hnext := ih hlookup (by
      rw [PendingWrite.rest, hdrop, List.length_drop]
      omega)
    have hwindow : min ((s.sendChunk streamId chunk last).advance streamId
        size).connectionSendWindow (stream.sendWindow - size) = w - size := by
      show min (s.connectionSendWindow - chunk.length) (stream.sendWindow - size) = _
      rw [htake]
      omega
    simp only [PendingWrite.rest, hdrop, hwindow, sendBytes_advance, advance_advance] at hnext
    rw [show (s.sendChunk streamId chunk last).update streamId _ =
      (s.sendChunk streamId chunk last).advance streamId size from rfl, hnext]
    by_cases hfit : rest.length ≤ w
    · rw [if_pos hfit, if_pos (by rw [List.length_drop]; omega), hchunk, hlast,
        sendBytes_chunk s streamId stream.pendingWrite.endStream
          (List.ne_nil_of_length_pos (by omega)) (by omega), List.length_drop,
        Nat.add_sub_cancel' (by omega)]
    · rw [if_neg hfit, if_neg (by rw [List.length_drop]; omega), List.take_drop,
        Nat.add_sub_cancel' (by omega), hchunk, hlast,
        sendBytes_part s streamId _ hpos (by omega) (by omega)]

def flushWhole (s : Session) (streamId : Nat) (pw : PendingWrite) : Session :=
  (((s.sendBytes streamId pw.rest pw.endStream).advance streamId pw.rest.length).update streamId
    ({ · with hasPendingWrite := false })).endIf streamId pw.endStream

def flushPart (s : Session) (streamId : Nat) (pw : PendingWrite) (size : Nat) : Session :=
  (s.sendBytes streamId (pw.rest.take size) false).advance streamId size

theorem lookup_flushWhole_of_ne (s : Session) {id : Nat} (h : id ≠ streamId) (pw : PendingWrite) :
    (s.flushWhole streamId pw).streams.lookup id = s.streams.lookup id := by
  rw [flushWhole, lookup_endIf_of_ne _ h]
  simp [update, advance, sendBytes, h]

theorem lookup_flushPart_of_ne (s : Session) {id : Nat} (h : id ≠ streamId) (pw : PendingWrite)
    (size : Nat) : (s.flushPart streamId pw size).streams.lookup id = s.streams.lookup id := by
  simp [flushPart, update, advance, sendBytes, h]

theorem hasPendingWrite_flushWhole {pw : PendingWrite} {stream' : StreamEntry}
    (h : (s.flushWhole streamId pw).streams.lookup streamId = some stream') :
    stream'.hasPendingWrite = false := by
  obtain ⟨stream, state, hlookup, rfl⟩ := lookup_endIf_self h
  simp only [update, lookup_modify_self] at hlookup
  obtain ⟨_, -, rfl⟩ := Option.map_eq_some_iff.mp hlookup
  rfl

theorem lookup_flushPart (hlookup : s.streams.lookup streamId = some stream) (size : Nat) :
    (s.flushPart streamId stream.pendingWrite size).streams.lookup streamId = some { stream with
      sendWindow := stream.sendWindow - (stream.pendingWrite.rest.take size).length
      pendingWrite :=
        { stream.pendingWrite with offset := stream.pendingWrite.offset + size } } := by
  simp [flushPart, update, advance, sendBytes, hlookup]

theorem flushQueue_cons (queue : List Nat) (hstream : s.streams.lookup streamId = some stream)
    (hpending : stream.hasPendingWrite) :
    flushQueue (streamId :: queue) s =
      if stream.pendingWrite.rest.length ≤ min s.connectionSendWindow stream.sendWindow then
        flushQueue queue (s.flushWhole streamId stream.pendingWrite)
      else
        { s.flushPart streamId stream.pendingWrite
            (min s.connectionSendWindow stream.sendWindow) with
          pendingWriteQueue := streamId :: queue } := by
  rw [flushQueue, hstream]
  simp only [hpending, if_true]
  rw [flushStream_eq hstream (by rw [PendingWrite.rest, List.length_drop])]
  split
  · rfl
  · rfl

theorem flushQueue_cons_idle (queue : List Nat)
    (h : ∀ stream, s.streams.lookup streamId = some stream → stream.hasPendingWrite = false) :
    flushQueue (streamId :: queue) s = flushQueue queue s := by
  rw [flushQueue]
  cases hstream : s.streams.lookup streamId with
  | none => rfl
  | some stream => simp [h stream hstream]

/-- The rule for `flush_pending_writes`: what relates the sessions before and after each turn of its
loop relates those before and after all of it. -/
theorem flushQueue_rel {R : Session → Session → Prop}
    (htrans : ∀ s s' s'', R s s' → R s' s'' → R s s'')
    (hqueue : ∀ s queue, R s { s with pendingWriteQueue := queue })
    (hwhole : ∀ (s : Session) streamId stream, s.streams.lookup streamId = some stream →
      stream.hasPendingWrite →
      stream.pendingWrite.rest.length ≤ min s.connectionSendWindow stream.sendWindow →
      R s (s.flushWhole streamId stream.pendingWrite))
    (hpart : ∀ (s : Session) streamId stream, s.streams.lookup streamId = some stream →
      stream.hasPendingWrite →
      min s.connectionSendWindow stream.sendWindow < stream.pendingWrite.rest.length →
      R s (s.flushPart streamId stream.pendingWrite (min s.connectionSendWindow stream.sendWindow)))
    (queue : List Nat) (s : Session) : R s (flushQueue queue s) := by
  induction queue generalizing s with
  | nil => exact hqueue s []
  | cons streamId queue ih =>
    by_cases hidle : ∃ stream, s.streams.lookup streamId = some stream ∧
        stream.hasPendingWrite
    · obtain ⟨stream, hlookup, hpending⟩ := hidle
      rw [flushQueue_cons queue hlookup hpending]
      split_ifs with hfits
      · exact htrans _ _ _ (hwhole s streamId stream hlookup hpending hfits) (ih _)
      · exact htrans _ _ _ (hpart s streamId stream hlookup hpending (Nat.not_le.mp hfits))
          (hqueue _ _)
    · rw [flushQueue_cons_idle queue]
      · exact ih s
      · intro stream hlookup
        cases hpending : stream.hasPendingWrite with
        | true => exact absurd ⟨stream, hlookup, hpending⟩ hidle
        | false => rfl

theorem sendData_eq {data : List UInt8} (endStream : Bool) (hid : streamId ≠ 0)
    (hstream : s.streams.lookup streamId = some stream)
    (hpending : stream.hasPendingWrite = false) (hdata : data ≠ []) :
    s.sendData streamId data endStream =
      if data.length ≤ min s.connectionSendWindow stream.sendWindow then
        (s.sendBytes streamId data endStream).endIf streamId endStream
      else
        (s.sendBytes streamId (data.take (min s.connectionSendWindow stream.sendWindow))
          false).enqueue streamId (data.drop (min s.connectionSendWindow stream.sendWindow))
            endStream := by
  have hlen : data.length ≠ 0 := by simpa using hdata
  rw [sendData, if_neg hid, hstream]
  simp only [hpending, hlen, if_false, Bool.false_eq_true]
  exact sendLoop_eq endStream hstream le_rfl

theorem sendBytes_single (s : Session) (streamId : Nat) (endStream : Bool) (hne : bytes ≠ [])
    (hlen : bytes.length ≤ s.peerSettings.maxFrameSize) :
    s.sendBytes streamId bytes endStream = s.sendChunk streamId bytes endStream := by
  have hchunk := sendBytes_sendChunk s streamId endStream hne
  rw [List.take_of_length_le hlen, List.drop_of_length_le hlen, sendBytes_nil, decide_eq_true hlen,
    Bool.and_true] at hchunk
  exact hchunk.symm

theorem sendDataBuffer_eq_sendData (s : Session) (streamId : Nat) (body : List UInt8)
    (endStream : Bool) :
    s.sendDataBuffer streamId body endStream = s.sendData streamId body endStream := by
  rw [sendDataBuffer]
  split
  · rename_i hzero
    rw [List.length_eq_zero_iff.mp hzero]
  rename_i hne
  split
  · rename_i hid
    rw [sendData, if_pos hid]
  rename_i hid
  split
  · rfl
  rename_i stream hstream
  split
  · rfl
  rename_i hpending
  split
  · rename_i hfit
    have hdata : body ≠ [] := by
      rintro rfl
      exact hne rfl
    rw [sendData_eq endStream hid hstream (by simpa using hpending) hdata, if_pos hfit.1,
      sendBytes_single s streamId endStream hdata hfit.2]
    rfl
  · rfl

end Session

end ServerLib.Http2

import ServerLib.Http2.FlowControl
import ServerLib.Lib.Backlog

/-! The queue of pending writes.  `flush_pending_writes` serves the queue out of the window of the
connection and those of the streams, and stops at the first stream that it cannot serve whole. -/

namespace ServerLib.Http2

open Lib Option

/-- The bytes that wait on a stream, and the window of the stream. -/
def StreamEntry.job (stream : StreamEntry) : Option Job :=
  if stream.hasPendingWrite then some ⟨stream.pendingWrite.rest.length, stream.sendWindow⟩ else none

theorem StreamEntry.job_eq_some {stream : StreamEntry} {job : Job} :
    stream.job = some job ↔ stream.hasPendingWrite ∧
      job = ⟨stream.pendingWrite.rest.length, stream.sendWindow⟩ := by
  rw [StreamEntry.job]
  split_ifs with h
  · simp [h, eq_comm]
  · simp [h]

namespace Session

/-- The pending writes of a session as jobs. -/
def backlog (s : Session) : Backlog Nat where
  jobs id := (s.streams.lookup id).bind StreamEntry.job
  budget := s.connectionSendWindow

variable {s s' : Session}

theorem jobs_backlog {id : Nat} {job : Job} (h : s.backlog.jobs id = some job) :
    ∃ stream, s.streams.lookup id = some stream ∧ stream.hasPendingWrite ∧
      job = ⟨stream.pendingWrite.rest.length, stream.sendWindow⟩ := by
  obtain ⟨stream, hlookup, hjob⟩ := bind_eq_some_iff.mp h
  obtain ⟨hpending, hjob⟩ := StreamEntry.job_eq_some.mp hjob
  exact ⟨stream, hlookup, hpending, hjob⟩

theorem backlog_jobs {id : Nat} (hlookup : s.streams.lookup id = some stream)
    (hpending : stream.hasPendingWrite) :
    s.backlog.jobs id = some ⟨stream.pendingWrite.rest.length, stream.sendWindow⟩ := by
  show (s.streams.lookup id).bind _ = _
  rw [hlookup]
  exact StreamEntry.job_eq_some.mpr ⟨hpending, rfl⟩

section Flush

variable {stream : StreamEntry}

theorem backlog_flushWhole :
    (s.flushWhole streamId stream.pendingWrite).backlog =
      s.backlog.finish streamId ⟨stream.pendingWrite.rest.length, stream.sendWindow⟩ := by
  apply Backlog.ext
  · intro id
    by_cases hid : id = streamId
    · subst hid
      rw [Backlog.jobs_finish_self]
      by_contra hjob
      obtain ⟨job, hjob⟩ := ne_none_iff_exists'.mp hjob
      obtain ⟨stream', hlookup', hpending', -⟩ := jobs_backlog hjob
      rw [hasPendingWrite_flushWhole hlookup'] at hpending'
      contradiction
    · rw [Backlog.jobs_finish_of_ne _ hid]
      show ((s.flushWhole streamId _).streams.lookup id).bind _ = _
      rw [lookup_flushWhole_of_ne s hid]
      rfl
  · exact connectionSendWindow_endIf _ _ _

theorem backlog_flushPart (hlookup : s.streams.lookup streamId = some stream)
    (hpending : stream.hasPendingWrite)
    (hfits : min s.connectionSendWindow stream.sendWindow < stream.pendingWrite.rest.length) :
    (s.flushPart streamId stream.pendingWrite
      (min s.connectionSendWindow stream.sendWindow)).backlog =
        s.backlog.advance streamId ⟨stream.pendingWrite.rest.length, stream.sendWindow⟩ := by
  have hsize :
      (stream.pendingWrite.rest.take (min s.connectionSendWindow stream.sendWindow)).length =
        min s.connectionSendWindow stream.sendWindow := by
    rw [List.length_take]
    omega
  apply Backlog.ext
  · intro id
    by_cases hid : id = streamId
    · subst hid
      have hentry := lookup_flushPart hlookup (min s.connectionSendWindow stream.sendWindow)
      rw [hsize] at hentry
      rw [backlog_jobs hentry hpending, Backlog.jobs_advance_self]
      simp only [PendingWrite.rest, ← List.drop_drop, List.length_drop]
      rfl
    · rw [Backlog.jobs_advance_of_ne _ hid]
      show ((s.flushPart streamId _ _).streams.lookup id).bind _ = _
      rw [lookup_flushPart_of_ne s hid]
      rfl
  · show s.connectionSendWindow - _ = s.connectionSendWindow - _
    rw [hsize]
    rfl

end Flush

theorem backlog_flushQueue (queue : List Nat) (s : Session) :
    (flushQueue queue s).backlog = (Backlog.serve queue s.backlog).1 ∧
    (flushQueue queue s).pendingWriteQueue = (Backlog.serve queue s.backlog).2 := by
  induction queue generalizing s with
  | nil => exact ⟨rfl, rfl⟩
  | cons streamId queue ih =>
    rw [Backlog.serve]
    cases hjob : s.backlog.jobs streamId with
    | none =>
      rw [flushQueue_cons_idle queue]
      · exact ih s
      · intro stream hlookup
        by_contra hpending
        rw [backlog_jobs hlookup (by simpa using hpending)] at hjob
        contradiction
    | some job =>
      obtain ⟨stream, hlookup, hpending, rfl⟩ := jobs_backlog hjob
      rw [flushQueue_cons queue hlookup hpending]
      dsimp only
      rw [show s.backlog.available ⟨stream.pendingWrite.rest.length, stream.sendWindow⟩ =
        min s.connectionSendWindow stream.sendWindow from rfl]
      split_ifs with hfits
      · rw [← backlog_flushWhole]
        exact ih _
      · exact ⟨backlog_flushPart hlookup hpending (Nat.not_le.mp hfits), rfl⟩

/-- Every pending write is in the queue, and one of its windows is used up. -/
structure Waits (s : Session) : Prop where
  queued : s.backlog.Queued s.pendingWriteQueue
  blocked : s.backlog.Blocked

/-- What waits in `s'` has waited in `s`, and no window has grown. -/
structure Recedes (s s' : Session) : Prop where
  connection : s'.connectionSendWindow ≤ s.connectionSendWindow
  queue : s'.pendingWriteQueue = s.pendingWriteQueue
  streams : ∀ id stream', s'.streams.lookup id = some stream' → stream'.hasPendingWrite = true →
    ∃ stream, s.streams.lookup id = some stream ∧ stream.hasPendingWrite = true ∧
      stream'.sendWindow ≤ stream.sendWindow

theorem Recedes.of_streams (hconnection : s'.connectionSendWindow ≤ s.connectionSendWindow)
    (hqueue : s'.pendingWriteQueue = s.pendingWriteQueue) (hstreams : s'.streams = s.streams) :
    Recedes s s' := by
  refine ⟨hconnection, hqueue, fun id stream hlookup hpending => ?_⟩
  rw [hstreams] at hlookup
  exact ⟨stream, hlookup, hpending, le_rfl⟩

theorem Recedes.trans (h : Recedes s s') (h' : Recedes s' s'') : Recedes s s'' := by
  refine ⟨h'.connection.trans h.connection, h'.queue.trans h.queue, ?_⟩
  intro id stream'' hlookup'' hpending''
  obtain ⟨stream', hlookup', hpending', hle'⟩ := h'.streams id stream'' hlookup'' hpending''
  obtain ⟨stream, hlookup, hpending, hle⟩ := h.streams id stream' hlookup' hpending'
  exact ⟨stream, hlookup, hpending, hle'.trans hle⟩

theorem Recedes.waits (h : Recedes s s') (hs : Waits s) : Waits s' := by
  constructor
  · intro id job hjob
    obtain ⟨stream', hlookup', hpending', -⟩ := jobs_backlog hjob
    obtain ⟨stream, hlookup, hpending, -⟩ := h.streams id stream' hlookup' hpending'
    rw [h.queue]
    exact hs.queued id _ (backlog_jobs hlookup hpending)
  · intro id job hjob
    obtain ⟨stream', hlookup', hpending', rfl⟩ := jobs_backlog hjob
    obtain ⟨stream, hlookup, hpending, hle⟩ := h.streams id stream' hlookup' hpending'
    rcases hs.blocked id _ (backlog_jobs hlookup hpending) with hzero | hzero
    · left
      exact Nat.le_zero.mp (hzero ▸ h.connection)
    · right
      exact Nat.le_zero.mp (hzero ▸ hle)

theorem Waits.congr (hs : Waits s) (hconnection : s'.connectionSendWindow = s.connectionSendWindow)
    (hqueue : s'.pendingWriteQueue = s.pendingWriteQueue) (hstreams : s'.streams = s.streams) :
    Waits s' :=
  (Recedes.of_streams hconnection.le hqueue hstreams).waits hs

theorem Quiet.recedes (h : Quiet s s') : Recedes s s' := by
  refine ⟨h.connectionSendWindow.le, h.pendingWriteQueue, ?_⟩
  intro id stream' hlookup' hpending'
  obtain ⟨stream, hlookup, hcalm⟩ := h.lookup hlookup'
  rw [hcalm.hasPendingWrite] at hpending'
  exact ⟨stream, hlookup, hpending', hcalm.sendWindow.le⟩

section

variable (s : Session) (streamId : Nat)

theorem recedes_update (hpending : ∀ stream, (g stream).hasPendingWrite → stream.hasPendingWrite)
    (hwindow : ∀ stream, (g stream).sendWindow ≤ stream.sendWindow) :
    Recedes s (s.update streamId g) := by
  refine ⟨le_rfl, rfl, fun id stream' hlookup' hpending' => ?_⟩
  rw [update] at hlookup'
  by_cases h : id = streamId
  · subst h
    rw [lookup_modify_self] at hlookup'
    obtain ⟨stream, hlookup, rfl⟩ := map_eq_some_iff.mp hlookup'
    exact ⟨stream, hlookup, hpending stream hpending', hwindow stream⟩
  · rw [lookup_modify_of_ne _ h] at hlookup'
    exact ⟨stream', hlookup', hpending', le_rfl⟩

theorem recedes_erase : Recedes s (s.erase streamId) := by
  refine ⟨le_rfl, rfl, fun id stream' hlookup' hpending' => ?_⟩
  rw [erase] at hlookup'
  by_cases h : id = streamId
  · subst h
    rw [AList.lookup_erase] at hlookup'
    contradiction
  · rw [AList.lookup_erase_ne h] at hlookup'
    exact ⟨stream', hlookup', hpending', le_rfl⟩

theorem recedes_insert (hpending : stream.hasPendingWrite = false) :
    Recedes s { s with streams := s.streams.insert streamId stream } := by
  refine ⟨le_rfl, rfl, fun id stream' hlookup' hpending' => ?_⟩
  by_cases h : id = streamId
  · subst h
    rw [AList.lookup_insert] at hlookup'
    rw [← some.inj hlookup', hpending] at hpending'
    contradiction
  · rw [AList.lookup_insert_ne h] at hlookup'
    exact ⟨stream', hlookup', hpending', le_rfl⟩

theorem recedes_endIf (endStream : Bool) : Recedes s (s.endIf streamId endStream) := by
  refine ⟨(connectionSendWindow_endIf s endStream streamId).le, ?_, ?_⟩
  · rw [endIf]
    split <;> rfl
  · intro id stream' hlookup' hpending'
    by_cases h : id = streamId
    · subst h
      obtain ⟨stream, state, hlookup, rfl⟩ := lookup_endIf_self hlookup'
      exact ⟨stream, hlookup, hpending', le_rfl⟩
    · rw [lookup_endIf_of_ne s h] at hlookup'
      exact ⟨stream', hlookup', hpending', le_rfl⟩

theorem recedes_sendBytes (bytes : List UInt8) (endStream : Bool) :
    Recedes s (s.sendBytes streamId bytes endStream) := by
  have hwindows : Recedes s (s.update streamId fun stream =>
      { stream with sendWindow := stream.sendWindow - bytes.length }) :=
    recedes_update s streamId (fun _ h => h) fun _ => Nat.sub_le _ _
  exact hwindows.trans (.of_streams (Nat.sub_le _ _) rfl rfl)

end

theorem Waits.enqueue (hs : Waits s) (hlookup : s.streams.lookup streamId = some stream)
    (hzero : s.connectionSendWindow = 0 ∨ stream.sendWindow = 0) (data : List UInt8)
    (endStream : Bool) : Waits (s.enqueue streamId data endStream) := by
  have hself : (s.enqueue streamId data endStream).streams.lookup streamId = some { stream with
      pendingWrite := { data := data, offset := 0, endStream := endStream }
      hasPendingWrite := true } := by
    simp [Session.enqueue, update, hlookup]
  have hother : ∀ id, id ≠ streamId → (s.enqueue streamId data endStream).backlog.jobs id =
      s.backlog.jobs id := by
    intro id hid
    simp [backlog, Session.enqueue, update, hid]
  constructor
  · intro id job hjob
    show id ∈ s.pendingWriteQueue ++ [streamId]
    by_cases hid : id = streamId
    · simp [hid]
    · rw [hother id hid] at hjob
      exact List.mem_append.mpr (.inl (hs.queued id job hjob))
  · intro id job hjob
    by_cases hid : id = streamId
    · subst hid
      obtain ⟨stream', hlookup', -, rfl⟩ := jobs_backlog hjob
      rw [hself] at hlookup'
      rw [← some.inj hlookup']
      exact hzero
    · rw [hother id hid] at hjob
      exact hs.blocked id job hjob

theorem waits_sendData (s : Session) (streamId : Nat) (data : List UInt8) (endStream : Bool)
    (hs : Waits s) : Waits (s.sendData streamId data endStream) := by
  generalize hs' : s.sendData streamId data endStream = s'
  have h := submitted_sendData s streamId data endStream
  rw [hs'] at h
  cases h with
  | absent | empty => exact hs
  | appended =>
    refine Recedes.waits (recedes_update s streamId ?_ ?_) hs
    · exact fun _ h => h
    · exact fun _ => le_rfl
  | ended =>
    refine (recedes_endIf _ streamId true).waits ?_
    exact hs.congr rfl rfl rfl
  | whole =>
    exact ((recedes_sendBytes s streamId data endStream).trans (recedes_endIf _ _ _)).waits hs
  | part _ stream hlookup _ hfits =>
    set bytes := data.take (min s.connectionSendWindow stream.sendWindow) with hbytes
    have hlength : bytes.length = min s.connectionSendWindow stream.sendWindow := by
      rw [hbytes, List.length_take]
      omega
    have hafter : (s.sendBytes streamId bytes false).streams.lookup streamId =
        some { stream with sendWindow := stream.sendWindow - bytes.length } := by
      simp [sendBytes, hlookup]
    refine ((recedes_sendBytes s streamId bytes false).waits hs).enqueue hafter ?_ _ _
    show s.connectionSendWindow - bytes.length = 0 ∨ stream.sendWindow - bytes.length = 0
    omega

theorem waits_sendHeaders (s : Session) (streamId : Nat) (headers : List HpackHeaderField)
    (endStream : Bool) (hs : Waits s) : Waits (s.sendHeaders streamId headers endStream) := by
  rw [sendHeaders]
  split
  · exact hs
  · refine (recedes_endIf _ streamId endStream).waits ?_
    exact hs.congr rfl rfl rfl

theorem waits_sendRstStream (s : Session) (streamId : Nat) (error : ErrorCode) (hs : Waits s) :
    Waits (s.sendRstStream streamId error) := by
  rw [sendRstStream]
  split
  · exact hs
  · refine (recedes_erase _ streamId).waits ?_
    exact hs.congr rfl rfl rfl

theorem waits_closeGracefully (s : Session) : Waits s.closeGracefully := by
  have hnone : ∀ id, s.closeGracefully.backlog.jobs id = none := by
    intro id
    by_contra hjob
    obtain ⟨job, hjob⟩ := ne_none_iff_exists'.mp hjob
    obtain ⟨stream', hlookup', hpending', -⟩ := jobs_backlog hjob
    rw [closeGracefully] at hlookup'
    rw [lookup_mapValues] at hlookup'
    obtain ⟨stream, -, rfl⟩ := map_eq_some_iff.mp hlookup'
    contradiction
  constructor
  all_goals
    intro id job hjob
    rw [hnone id] at hjob
    contradiction

theorem waits_call (s : Session) (c : Call) (hs : Waits s) : Waits (s.call c) :=
  call_rel_of_quiet (R := fun s s' => Waits s → Waits s') s (fun _ _ _ h h' hs => h' (h hs))
    (fun _ _ h => h.recedes.waits)
    (fun _ _ hs => hs.congr rfl rfl rfl) waits_sendHeaders
    waits_sendData waits_sendRstStream (fun s _ => waits_closeGracefully s) c hs

/-- The session with the window that a WINDOW_UPDATE frame widens. -/
def widen (s : Session) (f : Frame) : Session :=
  if f.streamId = 0 then
    { s with connectionSendWindow := (s.connectionSendWindow + f.increment) % 2 ^ 32 }
  else
    s.update f.streamId ({ · with
      sendWindow := (s.windowOf f.streamId + f.increment) % 2 ^ 32 })

/-- No WINDOW_UPDATE frame makes `flush_pending_writes` stop at a stream whose own window is used up
while another stream that waits has a window. -/
def Fair (s : Session) : Label → Prop
  | .recv f => f.type = .windowUpdate →
    Backlog.heldBack s.pendingWriteQueue (s.widen f).backlog = false
  | _ => True

instance (s : Session) : (l : Label) → Decidable (Fair s l)
  | .recv f => inferInstanceAs (Decidable (f.type = .windowUpdate → _ = false))
  | .call _ => isTrue trivial
  | .ret => isTrue trivial

theorem waits_flushPendingWrites (hqueued : s.backlog.Queued s.pendingWriteQueue)
    (hfair : Backlog.heldBack s.pendingWriteQueue s.backlog = false) :
    Waits s.flushPendingWrites := by
  obtain ⟨hbacklog, hqueue⟩ := backlog_flushQueue s.pendingWriteQueue s
  constructor
  · rw [flushPendingWrites, hbacklog, hqueue]
    exact hqueued.serve
  · rw [flushPendingWrites, hbacklog]
    exact (Backlog.blocked_serve_iff hqueued).mpr hfair

theorem queued_update_window (hs : s.backlog.Queued s.pendingWriteQueue) (streamId window : Nat) :
    (s.update streamId ({ · with sendWindow := window })).backlog.Queued s.pendingWriteQueue := by
  intro id job hjob
  obtain ⟨stream', hlookup', hpending', -⟩ := jobs_backlog hjob
  rw [update] at hlookup'
  by_cases hid : id = streamId
  · subst hid
    rw [lookup_modify_self] at hlookup'
    obtain ⟨stream, hlookup, rfl⟩ := map_eq_some_iff.mp hlookup'
    exact hs id _ (backlog_jobs hlookup hpending')
  · rw [lookup_modify_of_ne _ hid] at hlookup'
    exact hs id _ (backlog_jobs hlookup' hpending')

theorem waits_step (s : Session) (l : Label) (hs : Waits s) (hfair : Fair s l) :
    Waits (step s l) := by
  cases stepped s l with
  | idle h =>
    rw [h]
    exact hs
  | call c _ h =>
    rw [h]
    exact waits_call s c hs
  | ret _ h => exact h.recedes.waits hs
  | frame f hlabel _ h =>
    subst hlabel
    have hreceived : Waits (s.receive f) := hs.congr rfl rfl rfl
    cases h with
    | quiet h => exact h.recedes.waits hreceived
    | settings _ h =>
      have htuned := tuned_applyPeerSettings (s.receive f) f
      refine h.recedes.waits (Recedes.waits ?_ hreceived)
      exact .of_streams htuned.connectionSendWindow.le htuned.pendingWriteQueue htuned.streams
    | opened _ _ h | idle _ _ h => exact ((recedes_insert _ _ rfl).trans h.recedes).waits hreceived
    | removed h => exact ((recedes_erase _ _).trans h.recedes).waits hreceived
    | connectionWindow htype hid _ h =>
      have hfair := hfair htype
      rw [widen, if_pos hid] at hfair
      rw [h]
      exact waits_flushPendingWrites hreceived.queued hfair
    | connectionOverflow _ _ hwrap h =>
      refine h.recedes.waits (Recedes.waits ?_ hreceived)
      exact .of_streams hwrap.le rfl rfl
    | streamWindow htype hid stream hlookup _ h =>
      have hfair := hfair htype
      have hwindow : s.windowOf f.streamId = stream.sendWindow := windowOf_eq hlookup
      rw [widen, if_neg hid, hwindow] at hfair
      rw [h]
      exact waits_flushPendingWrites (queued_update_window hreceived.queued _ _) hfair

theorem waits_new (headersBridge dataBridge goawayBridge : Bool) :
    Waits (new headersBridge dataBridge goawayBridge) := by
  constructor
  all_goals
    intro id job hjob
    contradiction

/-- No stream waits with unsent bytes while its window and that of the connection are open, as long
as flushing never holds a stream back behind one whose own window is used up. -/
theorem nothing_held_back (headersBridge dataBridge goawayBridge : Bool) (ls : List Label)
    (hfair : Along step Fair (new headersBridge dataBridge goawayBridge) ls) :
    let s := run step (new headersBridge dataBridge goawayBridge) ls
    ∀ id stream, s.streams.lookup id = some stream → stream.hasPendingWrite = true →
      stream.pendingWrite.rest ≠ [] → ¬(0 < s.connectionSendWindow ∧ 0 < stream.sendWindow) := by
  intro s id stream hlookup hpending _ ⟨hconnection, hstream⟩
  have hs : Waits s :=
    run_invariant waits_step (waits_new headersBridge dataBridge goawayBridge) hfair
  rcases hs.blocked id _ (backlog_jobs hlookup hpending) with hzero | hzero
  · exact absurd hzero (Nat.pos_iff_ne_zero.mp hconnection)
  · exact absurd hzero (Nat.pos_iff_ne_zero.mp hstream)

/-- Two streams wait, and the windows open for the one that waits first. -/
theorem nothing_held_back_in_order :
    let s := run step (new true true true)
      [.recv ⟨.settings, flagNone, 0, appendSetting 4 0⟩, .recv ⟨.headers, flagEndHeaders, 1, []⟩,
        .ret, .recv ⟨.headers, flagEndHeaders, 3, []⟩, .ret, .call (.sendData 1 [1, 2] true),
        .call (.sendData 3 [3] true), .recv ⟨.windowUpdate, flagNone, 1, [0, 0, 0, 2]⟩]
    ∀ id stream, s.streams.lookup id = some stream → stream.hasPendingWrite = true →
      stream.pendingWrite.rest ≠ [] → ¬(0 < s.connectionSendWindow ∧ 0 < stream.sendWindow) :=
  nothing_held_back true true true _ (by decide +kernel)

/-- The windows open for the stream that waits second, and its byte stays where it is. -/
theorem second_stream_held_back :
    let s := run step (new true true true)
      [.recv ⟨.settings, flagNone, 0, appendSetting 4 0⟩, .recv ⟨.headers, flagEndHeaders, 1, []⟩,
        .ret, .recv ⟨.headers, flagEndHeaders, 3, []⟩, .ret, .call (.sendData 1 [1] true),
        .call (.sendData 3 [2] true), .recv ⟨.windowUpdate, flagNone, 3, [0, 0, 0, 5]⟩]
    ∃ stream, s.streams.lookup 3 = some stream ∧ stream.hasPendingWrite = true ∧
      stream.pendingWrite.rest ≠ [] ∧ 0 < s.connectionSendWindow ∧ 0 < stream.sendWindow := by
  exact ⟨_, rfl, by decide +kernel⟩

end Session

end ServerLib.Http2

import ServerLib.Http2.Effect

/-! Flow control.  What a session has sent and what it may still send never exceed what the peer has
granted, as long as the grants are not taken back: the windows of open streams are not rebased when
SETTINGS change the initial window. -/

namespace ServerLib.Http2

open Lib List

namespace Event

/-- The bytes of data that are sent on a stream. -/
def dataOn (streamId : Nat) : Event → Nat
  | .wrote f => if f.type = .data ∧ f.streamId = streamId then f.length else 0
  | _ => 0

def dataSize : Event → Nat
  | .wrote f => if f.type = .data then f.length else 0
  | _ => 0

/-- What a WINDOW_UPDATE frame grants to a stream, or to the connection, which is stream 0. -/
def increment (streamId : Nat) : Event → Nat
  | .received f => if f.type = .windowUpdate ∧ f.streamId = streamId then f.increment else 0
  | _ => 0

end Event

def sentOn (streamId : Nat) (log : List Event) : Nat := weight (Event.dataOn streamId) log

variable (log : List Event)

def sentTotal : Nat := weight Event.dataSize log

def increments (streamId : Nat) (log : List Event) : Nat := weight (Event.increment streamId) log

theorem Event.quiet_weightless {e : Event} (h : e.quiet = true) (streamId : Nat) :
    e.dataOn streamId = 0 ∧ e.dataSize = 0 ∧ e.increment streamId = 0 := by
  cases e with
  | wrote f =>
    have htype : f.type ≠ .data ∧ f.type ≠ .headers := by simpa [Event.quiet, Frame.control] using h
    simp [Event.dataOn, Event.dataSize, Event.increment, htype.1]
  | received => contradiction
  | _ => exact ⟨rfl, rfl, rfl⟩

theorem sent_append_quiet {events : List Event} (h : ∀ e ∈ events, e.quiet = true)
    (streamId : Nat) :
    sentOn streamId (log ++ events) = sentOn streamId log ∧
    sentTotal (log ++ events) = sentTotal log ∧
    increments streamId (log ++ events) = increments streamId log := by
  refine ⟨?_, ?_, ?_⟩
  · exact weight_append_weightless log fun e he => (Event.quiet_weightless (h e he) streamId).1
  · exact weight_append_weightless log fun e he => (Event.quiet_weightless (h e he) streamId).2.1
  · exact weight_append_weightless log fun e he => (Event.quiet_weightless (h e he) streamId).2.2

theorem sent_append_frames {frames : List Frame}
    (h : ∀ f ∈ frames, f.type = .data ∧ f.streamId = streamId) (id : Nat) :
    sentOn id (log ++ frames.map .wrote) = sentOn id log +
      (if streamId = id then (frames.flatMap Frame.payload).length else 0) ∧
    sentTotal (log ++ frames.map .wrote) =
      sentTotal log + (frames.flatMap Frame.payload).length ∧
    increments id (log ++ frames.map .wrote) = increments id log := by
  have hon : weight (Event.dataOn id) (frames.map .wrote) =
      if streamId = id then (frames.flatMap Frame.payload).length else 0 := by
    induction frames with
    | nil => simp
    | cons f frames ih =>
      obtain ⟨⟨htype, hid⟩, hframes⟩ := forall_mem_cons.mp h
      rw [map_cons, weight_cons, ih hframes, flatMap_cons, length_append]
      simp only [Event.dataOn, htype, hid, true_and]
      split <;> rfl
  have htotal : weight Event.dataSize (frames.map .wrote) =
      (frames.flatMap Frame.payload).length := by
    clear hon
    induction frames with
    | nil => rfl
    | cons f frames ih =>
      obtain ⟨⟨htype, -⟩, hframes⟩ := forall_mem_cons.mp h
      rw [map_cons, weight_cons, ih hframes, flatMap_cons, length_append]
      simp only [Event.dataSize, htype, if_true]
      rfl
  refine ⟨?_, ?_, ?_⟩
  · rw [sentOn, weight_append, hon]
    rfl
  · rw [sentTotal, weight_append, htotal]
    rfl
  · refine weight_append_weightless log fun e he => ?_
    obtain ⟨f, -, rfl⟩ := mem_map.mp he
    rfl

namespace Session

variable {streamId : Nat} {s s' : Session}

/-- What is sent comes out of the windows, and nothing is granted. -/
structure Spends (s s' : Session) : Prop where
  peerSettings : s'.peerSettings = s.peerSettings
  connection : s'.connectionSendWindow + sentTotal s'.log ≤ s.connectionSendWindow + sentTotal s.log
  connection_le : s'.connectionSendWindow ≤ s.connectionSendWindow
  stream : ∀ id, s'.windowOf id + sentOn id s'.log ≤ s.windowOf id + sentOn id s.log
  stream_le : ∀ id, s'.windowOf id ≤ s.windowOf id
  increments : ∀ id, increments id s'.log = increments id s.log

namespace Spends

theorem of_windowOf_le (hsettings : s'.peerSettings = s.peerSettings)
    (hconnection : s'.connectionSendWindow = s.connectionSendWindow) (hlog : s'.log = s.log)
    (hstream : ∀ id, s'.windowOf id ≤ s.windowOf id) : Spends s s' where
  peerSettings := hsettings
  connection := by rw [hconnection, hlog]
  connection_le := hconnection.le
  stream id := by
    rw [hlog]
    exact Nat.add_le_add_right (hstream id) _
  stream_le := hstream
  increments _ := by rw [hlog]

theorem trans (h : Spends s s') (h' : Spends s' s'') : Spends s s'' where
  peerSettings := h'.peerSettings.trans h.peerSettings
  connection := h'.connection.trans h.connection
  connection_le := h'.connection_le.trans h.connection_le
  stream id := (h'.stream id).trans (h.stream id)
  stream_le id := (h'.stream_le id).trans (h.stream_le id)
  increments id := (h'.increments id).trans (h.increments id)

end Spends

theorem Quiet.spends (h : Quiet s s') : Spends s s' := by
  obtain ⟨events, hlog, hquiet⟩ := h.log
  have hsent := fun id => sent_append_quiet s.log hquiet id
  have hwindow : ∀ id, s'.windowOf id = s.windowOf id := by
    intro id
    cases hlookup : s'.streams.lookup id with
    | some stream' =>
      obtain ⟨stream, hstream, hcalm⟩ := h.lookup hlookup
      rw [windowOf_eq hlookup, windowOf_eq hstream, hcalm.sendWindow]
    | none =>
      have hrel := h.streams id
      rw [windowOf, windowOf, hlookup]
      rw [hlookup] at hrel
      generalize s.streams.lookup id = stream at hrel
      cases hrel with
      | none => rfl
  rw [← hlog] at hsent
  refine ⟨h.peerSettings, ?_, h.connectionSendWindow.le, fun id => ?_, fun id => (hwindow id).le,
    fun id => (hsent id).2.2⟩
  · rw [h.connectionSendWindow, (hsent 0).2.1]
  · rw [hwindow, (hsent id).1]

theorem spends_emit (s : Session) (htotal : e.dataSize = 0)
    (h : ∀ id, e.dataOn id = 0 ∧ e.increment id = 0) : Spends s (s.emit e) := by
  have hweight : ∀ {w : Event → Nat}, w e = 0 → weight w (s.log ++ [e]) = weight w s.log :=
    fun he => weight_append_weightless s.log fun e' he' => by rwa [mem_singleton.mp he']
  refine ⟨rfl, ?_, le_rfl, fun id => ?_, fun _ => le_rfl, fun id => ?_⟩
  · rw [emit, sentTotal, hweight htotal]
    exact le_rfl
  · rw [emit, sentOn, hweight (h id).1]
    exact le_rfl
  · rw [emit, Http2.increments, hweight (h id).2]
    rfl

theorem sent_sendBytes (s : Session) (streamId : Nat) (bytes : List UInt8) (endStream : Bool)
    (id : Nat) :
    sentOn id (s.sendBytes streamId bytes endStream).log =
      sentOn id s.log + (if streamId = id then bytes.length else 0) ∧
    sentTotal (s.sendBytes streamId bytes endStream).log = sentTotal s.log + bytes.length ∧
    increments id (s.sendBytes streamId bytes endStream).log = increments id s.log := by
  have hbytes := flatMap_payload_dataFrames streamId endStream s.peerSettings.maxFrameSize_pos
    (Nat.le_refl bytes.length)
  have hframes : ∀ f ∈ dataFrames s.peerSettings.maxFrameSize streamId endStream bytes.length bytes,
      f.type = .data ∧ f.streamId = streamId := by
    intro f hf
    obtain ⟨htype, hid, -⟩ := mem_dataFrames streamId endStream hf
    exact ⟨htype, hid⟩
  have hsent := sent_append_frames s.log hframes id
  rw [hbytes] at hsent
  exact hsent

theorem spends_sendBytes (hlookup : s.streams.lookup streamId = some stream) (endStream : Bool)
    (hfits : bytes.length ≤ min s.connectionSendWindow stream.sendWindow) :
    Spends s (s.sendBytes streamId bytes endStream) := by
  have hsent := sent_sendBytes s streamId bytes endStream
  have hconnection : (s.sendBytes streamId bytes endStream).connectionSendWindow =
      s.connectionSendWindow - bytes.length := rfl
  have hwindow : ∀ id, (s.sendBytes streamId bytes endStream).windowOf id =
      if streamId = id then stream.sendWindow - bytes.length else s.windowOf id := by
    intro id
    show (s.update streamId _).windowOf id = _
    split_ifs with h
    · subst h
      rw [windowOf_update_self, hlookup]
      rfl
    · exact windowOf_update_of_ne s (Ne.symm h) _
  have hstream : ∀ id, streamId = id → s.windowOf id = stream.sendWindow := by
    rintro id rfl
    exact windowOf_eq hlookup
  refine ⟨rfl, ?_, ?_, fun id => ?_, fun id => ?_, fun id => (hsent id).2.2⟩
  · rw [hconnection, (hsent 0).2.1]
    omega
  · rw [hconnection]
    exact Nat.sub_le _ _
  · have := hstream id
    rw [hwindow, (hsent id).1]
    split <;> omega
  · have := hstream id
    rw [hwindow]
    split <;> omega

theorem sendRule_spends : SendRule Spends where
  trans := Spends.trans
  quiet := Quiet.spends
  still _ := Spends.of_windowOf_le
  frame s f _ hf := by
    have hsize : (Event.wrote f).dataSize = 0 := by
      rw [Event.dataSize]
      split_ifs with htype
      · rw [Frame.length, hf htype]
        rfl
      · rfl
    refine spends_emit s hsize fun id => ⟨?_, rfl⟩
    rw [Event.dataOn]
    split_ifs with htype
    · rw [Frame.length, hf htype.1]
      rfl
    · rfl
  bytes := spends_sendBytes

theorem spends_call (s : Session) (c : Call) : Spends s (s.call c) := by
  refine sendRule_spends.call s ?_ ?_ c
  · exact fun s _ => spends_emit s rfl fun _ => ⟨rfl, rfl⟩
  · intro s encoder f hf
    have hencoder : Spends s { s with hpackEncoder := encoder } :=
      .of_windowOf_le rfl rfl rfl fun _ => le_rfl
    refine hencoder.trans (spends_emit _ ?_ fun id => ⟨?_, rfl⟩)
    · simp [Event.dataSize, hf]
    · simp [Event.dataOn, hf]

def maxWindow : Nat := 2 ^ 31 - 1

/-- What has been sent and what may still be sent are within what has been granted. -/
structure WithinWindows (s : Session) : Prop where
  connection : s.connectionSendWindow + sentTotal s.log ≤ 65535 + increments 0 s.log
  stream : ∀ id, s.windowOf id + sentOn id s.log ≤
    s.peerSettings.initialWindowSize + increments id s.log
  connection_le : s.connectionSendWindow ≤ maxWindow
  stream_le : ∀ id, s.windowOf id ≤ maxWindow

theorem Spends.withinWindows (h : Spends s s') (hs : WithinWindows s) : WithinWindows s' where
  connection := by
    rw [h.increments]
    exact h.connection.trans hs.connection
  stream id := by
    rw [h.increments, h.peerSettings]
    exact (h.stream id).trans (hs.stream id)
  connection_le := h.connection_le.trans hs.connection_le
  stream_le id := (h.stream_le id).trans (hs.stream_le id)

/-- The initial window after the settings of a payload, up to one that is not valid. -/
def announced : List UInt8 → Nat → Nat
  | i :: i' :: a :: b :: c :: d :: payload, window =>
    let value := readU32 a b c d
    match (i.toNat <<< 8) ||| i'.toNat with
    | 0x4 => if value > 2147483647 then window else announced payload value
    | 0x5 => if value < 16384 ∨ value > 16777215 then window else announced payload window
    | _ => announced payload window
  | _, window => window

def announcedWindow (f : Frame) (window : Nat) : Nat :=
  if f.length % 6 ≠ 0 then window else announced f.payload window

theorem initialWindowSize_applyPeerSettings (s : Session) (f : Frame) :
    (s.applyPeerSettings f).peerSettings.initialWindowSize =
      announcedWindow f s.peerSettings.initialWindowSize := by
  have happly : ∀ payload (s : Session), (applySettings payload s).peerSettings.initialWindowSize =
      announced payload s.peerSettings.initialWindowSize := by
    intro payload s
    fun_induction applySettings payload s with
    | case4 _ _ _ _ _ _ _ _ _ hid hinvalid | case6 _ _ _ _ _ _ _ _ _ hid hinvalid =>
      simp only [announced, hid]
      exact (if_pos hinvalid).symm
    | case5 _ _ _ _ _ _ _ _ _ hid hvalid ih | case7 _ _ _ _ _ _ _ _ _ hid hvalid ih =>
      simp only [announced, hid]
      exact ih.trans (if_neg hvalid).symm
    | _ => simp_all [announced]
  rw [Session.applyPeerSettings, announcedWindow, Frame.length]
  split_ifs
  · rfl
  · exact happly _ _

/-- The grants of the peer.  A WINDOW_UPDATE frame keeps the window within its bound.  SETTINGS
leave every stream what it has sent and may still send.  An entry is made only for an id whose
increments cover what has been sent on it, together with the difference between 65535 and the
initial window if PRIORITY makes it. -/
def Granted (s : Session) : Label → Prop
  | .recv f =>
    (f.type = .windowUpdate → f.streamId = 0 →
      s.connectionSendWindow + f.increment ≤ maxWindow) ∧
    (f.type = .windowUpdate → f.streamId ≠ 0 → s.windowOf f.streamId + f.increment ≤ maxWindow) ∧
    (s.phase = .ready → s.Applies f → ∀ id, s.windowOf id + sentOn id s.log ≤
      announcedWindow f s.peerSettings.initialWindowSize + increments id s.log) ∧
    (f.type = .headers → s.streams.lookup f.streamId = none →
      sentOn f.streamId s.log ≤ increments f.streamId s.log) ∧
    (f.type = .priority → s.streams.lookup f.streamId = none →
      65535 + sentOn f.streamId s.log ≤
        s.peerSettings.initialWindowSize + increments f.streamId s.log)
  | _ => True

def dataStreams (log : List Event) : List Nat :=
  log.filterMap fun
    | .wrote f => if f.type = .data then some f.streamId else none
    | _ => none

theorem sentOn_eq_zero {id : Nat} {log : List Event} (h : id ∉ dataStreams log) :
    sentOn id log = 0 := by
  refine weight_append_weightless [] fun e he => ?_
  cases e with
  | wrote f =>
    rw [Event.dataOn, if_neg]
    rintro ⟨htype, rfl⟩
    exact h (mem_filterMap.mpr ⟨.wrote f, he, by simp [htype]⟩)
  | _ => rfl

/-- Only the streams that have an entry or that data has been sent on matter for SETTINGS. -/
instance (s : Session) (initialWindowSize : Nat) : Decidable (∀ id, s.windowOf id +
    sentOn id s.log ≤ initialWindowSize + increments id s.log) :=
  decidable_of_iff (∀ id ∈ s.streams.keys ++ dataStreams s.log,
      s.windowOf id + sentOn id s.log ≤ initialWindowSize + increments id s.log) <| by
    refine ⟨fun h id => ?_, fun h id _ => h id⟩
    by_cases hid : id ∈ s.streams.keys ++ dataStreams s.log
    · exact h id hid
    · obtain ⟨hkeys, hdata⟩ := not_or.mp (mt mem_append.mpr hid)
      rw [windowOf, AList.lookup_eq_none.mpr hkeys, sentOn_eq_zero hdata]
      exact Nat.zero_le _

instance (s : Session) : (l : Label) → Decidable (Granted s l)
  | .recv _ => inferInstanceAs (Decidable (_ ∧ _ ∧ _ ∧ _ ∧ _))
  | .call _ => isTrue trivial
  | .ret => isTrue trivial

theorem sent_receive (s : Session) (f : Frame) (id : Nat) :
    sentOn id (s.receive f).log = sentOn id s.log ∧
    sentTotal (s.receive f).log = sentTotal s.log ∧
    increments id (s.receive f).log = increments id s.log + Event.increment id (.received f) := by
  refine ⟨?_, ?_, ?_⟩
  · exact weight_append_weightless s.log fun e he => by rw [mem_singleton.mp he]; rfl
  · exact weight_append_weightless s.log fun e he => by rw [mem_singleton.mp he]; rfl
  · show weight _ (s.log ++ [.received f]) = _
    rw [weight_append, weight_cons, weight_nil]
    rfl

theorem WithinWindows.receive (hs : WithinWindows s) (f : Frame) : WithinWindows (s.receive f) := by
  have hsent := sent_receive s f
  refine ⟨?_, fun id => ?_, hs.connection_le, hs.stream_le⟩
  · have := hs.connection
    rw [(hsent 0).2.1, (hsent 0).2.2]
    show s.connectionSendWindow + _ ≤ _
    omega
  · have := hs.stream id
    rw [(hsent id).1, (hsent id).2.2]
    show s.windowOf id + _ ≤ s.peerSettings.initialWindowSize + _
    omega

theorem WithinWindows.of_stream (hs : WithinWindows s)
    (hsettings : s'.peerSettings = s.peerSettings)
    (hconnection : s'.connectionSendWindow = s.connectionSendWindow) (hlog : s'.log = s.log)
    (hother : ∀ id, id ≠ streamId → s'.windowOf id = s.windowOf id)
    (hstream : s'.windowOf streamId + sentOn streamId s.log ≤
      s.peerSettings.initialWindowSize + increments streamId s.log)
    (hmax : s'.windowOf streamId ≤ maxWindow) : WithinWindows s' := by
  refine ⟨?_, fun id => ?_, ?_, fun id => ?_⟩
  · rw [hconnection, hlog]
    exact hs.connection
  · rw [hsettings, hlog]
    by_cases h : id = streamId
    · subst h
      exact hstream
    · rw [hother id h]
      exact hs.stream id
  · rw [hconnection]
    exact hs.connection_le
  · by_cases h : id = streamId
    · subst h
      exact hmax
    · rw [hother id h]
      exact hs.stream_le id

theorem windowOf_insert_self (s : Session) (streamId : Nat) (stream : StreamEntry) :
    { s with streams := s.streams.insert streamId stream }.windowOf streamId =
      stream.sendWindow := by
  rw [windowOf, AList.lookup_insert]
  rfl

theorem windowOf_insert_of_ne (s : Session) {id : Nat} (h : id ≠ streamId) (stream : StreamEntry) :
    { s with streams := s.streams.insert streamId stream }.windowOf id = s.windowOf id := by
  rw [windowOf, AList.lookup_insert_ne h]
  rfl

theorem WithinWindows.applyPeerSettings (hs : WithinWindows s) (f : Frame)
    (hstream : ∀ id, s.windowOf id + sentOn id s.log ≤
      (s.applyPeerSettings f).peerSettings.initialWindowSize + increments id s.log) :
    WithinWindows (s.applyPeerSettings f) := by
  have htuned := tuned_applyPeerSettings s f
  obtain ⟨events, hlog, hquiet⟩ := htuned.quiet_log
  have hsent := fun id => sent_append_quiet s.log hquiet id
  rw [← hlog] at hsent
  have hwindow : ∀ id, (s.applyPeerSettings f).windowOf id = s.windowOf id := fun id => by
    rw [windowOf, htuned.streams, windowOf]
  refine ⟨?_, fun id => ?_, ?_, fun id => ?_⟩
  · rw [htuned.connectionSendWindow, (hsent 0).2.1, (hsent 0).2.2]
    exact hs.connection
  · rw [hwindow, (hsent id).1, (hsent id).2.2]
    exact hstream id
  · rw [htuned.connectionSendWindow]
    exact hs.connection_le
  · rw [hwindow]
    exact hs.stream_le id

theorem WithinWindows.of_connection (hs : WithinWindows s)
    (hconnection : window + sentTotal s.log ≤ 65535 + increments 0 s.log)
    (hmax : window ≤ maxWindow) : WithinWindows { s with connectionSendWindow := window } :=
  ⟨hconnection, hs.stream, hmax, hs.stream_le⟩

theorem increment_received (htype : f.type = .windowUpdate) :
    Event.increment f.streamId (.received f) = f.increment := by
  simp [Event.increment, htype]

theorem withinWindows_step (s : Session) (l : Label) (hs : WithinWindows s)
    (hgranted : Granted s l) : WithinWindows (step s l) := by
  cases stepped s l with
  | idle h =>
    rw [h]
    exact hs
  | call c _ h =>
    rw [h]
    exact (spends_call s c).withinWindows hs
  | ret _ h => exact h.spends.withinWindows hs
  | frame f hlabel hready h =>
    subst hlabel
    obtain ⟨hconnection, hstream, hsettings, hheaders, hpriority⟩ := hgranted
    have hreceived := hs.receive f
    have hsent := sent_receive s f
    cases h with
    | quiet h => exact h.spends.withinWindows hreceived
    | settings happlies h =>
      refine h.spends.withinWindows (hreceived.applyPeerSettings f fun id => ?_)
      have := hsettings hready happlies id
      rw [initialWindowSize_applyPeerSettings, (hsent id).1, (hsent id).2.2]
      show s.windowOf id + _ ≤ announcedWindow f s.peerSettings.initialWindowSize + _
      omega
    | opened htype hlookup h =>
      refine h.spends.withinWindows (hreceived.of_stream rfl rfl rfl
        (fun id hid => windowOf_insert_of_ne _ hid _) ?_ ?_)
      · have := hheaders htype hlookup
        rw [windowOf_insert_self, (hsent _).1, (hsent _).2.2]
        show s.peerSettings.initialWindowSize + _ ≤ s.peerSettings.initialWindowSize + _
        omega
      · rw [windowOf_insert_self]
        exact s.peerSettings.initialWindowSize_le
    | idle htype hlookup h =>
      refine h.spends.withinWindows (hreceived.of_stream rfl rfl rfl
        (fun id hid => windowOf_insert_of_ne _ hid _) ?_ ?_)
      · have := hpriority htype hlookup
        rw [windowOf_insert_self, (hsent _).1, (hsent _).2.2]
        show 65535 + _ ≤ s.peerSettings.initialWindowSize + _
        omega
      · rw [windowOf_insert_self]
        exact Nat.le_of_ble_eq_true rfl
    | removed h =>
      refine h.spends.withinWindows (Spends.withinWindows ?_ hreceived)
      exact .of_windowOf_le rfl rfl rfl (windowOf_erase_le _ _)
    | connectionWindow htype hid _ h =>
      rw [h]
      have hgrant := increment_received htype
      have hle := Nat.mod_le (s.connectionSendWindow + f.increment) (2 ^ 32)
      have := hconnection htype hid
      refine (sendRule_spends.flushPendingWrites _).withinWindows (hreceived.of_connection ?_ ?_)
      · have := hs.connection
        rw [hid] at hgrant
        rw [(hsent 0).2.1, (hsent 0).2.2, hgrant]
        show (s.connectionSendWindow + f.increment) % 2 ^ 32 + _ ≤ _
        omega
      · exact hle.trans this
    | connectionOverflow _ _ hwrap h =>
      refine h.spends.withinWindows (hreceived.of_connection ?_ ?_)
      · exact Nat.le_trans (Nat.add_le_add_right hwrap.le _) hreceived.connection
      · exact hwrap.le.trans hs.connection_le
    | streamWindow htype hid stream hlookup _ h =>
      rw [h]
      have hgrant := increment_received htype
      have hle := Nat.mod_le (stream.sendWindow + f.increment) (2 ^ 32)
      have hmax := hstream htype hid
      have hwindow : s.windowOf f.streamId = stream.sendWindow := windowOf_eq hlookup
      rw [hwindow] at hmax
      refine (sendRule_spends.flushPendingWrites _).withinWindows (hreceived.of_stream rfl rfl rfl
        (fun id hne => windowOf_update_of_ne _ hne _) ?_ ?_)
      · have hbefore := hs.stream f.streamId
        rw [hwindow] at hbefore
        rw [windowOf_update_self, hlookup, (hsent _).1, (hsent _).2.2, hgrant]
        show (stream.sendWindow + f.increment) % 2 ^ 32 + _ ≤ s.peerSettings.initialWindowSize + _
        omega
      · rw [windowOf_update_self, hlookup]
        exact hle.trans hmax

theorem withinWindows_new (headersBridge dataBridge goawayBridge : Bool) :
    WithinWindows (new headersBridge dataBridge goawayBridge) :=
  ⟨le_rfl, fun _ => Nat.zero_le _, show 65535 ≤ maxWindow by decide, fun _ => Nat.zero_le _⟩

/-- As long as the peer takes no grant back, what is sent on each stream stays within the initial
window and the increments of the stream, what is sent on all streams within those of the
connection, and no window exceeds its bound. -/
theorem sent_within_windows (headersBridge dataBridge goawayBridge : Bool) (ls : List Label)
    (hgranted : Along step Granted (new headersBridge dataBridge goawayBridge) ls) :
    let s := run step (new headersBridge dataBridge goawayBridge) ls
    (∀ id, sentOn id s.log ≤ s.peerSettings.initialWindowSize + increments id s.log) ∧
    sentTotal s.log ≤ 65535 + increments 0 s.log ∧
    s.connectionSendWindow ≤ 2 ^ 31 - 1 ∧
    ∀ id stream, s.streams.lookup id = some stream → stream.sendWindow ≤ 2 ^ 31 - 1 := by
  intro s
  have hs : WithinWindows s := run_invariant withinWindows_step
    (withinWindows_new headersBridge dataBridge goawayBridge) hgranted
  refine ⟨fun id => ?_, ?_, hs.connection_le, fun id stream hlookup => ?_⟩
  · exact Nat.le_trans (Nat.le_add_left _ _) (hs.stream id)
  · exact Nat.le_trans (Nat.le_add_left _ _) hs.connection
  · rw [← windowOf_eq hlookup]
    exact hs.stream_le id

/-- Data before and after the peer raises the initial window and grants increments. -/
theorem sent_within_windows_raised :
    let s := run step (new true true true)
      [.recv ⟨.settings, flagNone, 0, []⟩, .recv ⟨.headers, flagEndHeaders, 1, []⟩, .ret,
        .call (.sendData 1 [1, 2, 3] false), .recv ⟨.settings, flagNone, 0, appendSetting 4 70000⟩,
        .recv ⟨.windowUpdate, flagNone, 1, [0, 0, 0, 10]⟩,
        .recv ⟨.windowUpdate, flagNone, 0, [0, 0, 0, 10]⟩, .call (.sendData 1 [4] true)]
    (∀ id, sentOn id s.log ≤ s.peerSettings.initialWindowSize + increments id s.log) ∧
    sentTotal s.log ≤ 65535 + increments 0 s.log ∧
    s.connectionSendWindow ≤ 2 ^ 31 - 1 ∧
    ∀ id stream, s.streams.lookup id = some stream → stream.sendWindow ≤ 2 ^ 31 - 1 :=
  sent_within_windows true true true _ (by decide +kernel)

/-- A byte is sent on a stream after the initial window has been lowered to nothing, and an
increment takes the window of the connection beyond its bound. -/
theorem sent_beyond_lowered_window :
    (let s := run step (new true true true)
      [.recv ⟨.settings, flagNone, 0, []⟩, .recv ⟨.headers, flagEndHeaders, 1, []⟩, .ret,
        .recv ⟨.settings, flagNone, 0, appendSetting 4 0⟩, .call (.sendData 1 [1] false)]
    ¬sentOn 1 s.log ≤ s.peerSettings.initialWindowSize + increments 1 s.log) ∧
    ¬(run step (new true true true)
      [.recv ⟨.settings, flagNone, 0, []⟩,
        .recv ⟨.windowUpdate, flagNone, 0, [0x7f, 0xff, 0xff, 0xff]⟩]).connectionSendWindow ≤
        2 ^ 31 - 1 := by
  decide +kernel

end Session

end ServerLib.Http2

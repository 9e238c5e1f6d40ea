import ServerLib.Mqtt.Forwarding

/-! The messages that a client sends with QoS 2.  Each of them is forwarded once in every use of its
packet id, whatever the client sends again.  What it is answered when it sends a message again is
another matter. -/

namespace ServerLib.Mqtt

open Lib Option

/-- What happened with a packet id since its last PUBREL: what the handler accepted, and what was
written to subscribers after it had accepted that. -/
structure Use where
  accepted : List MqttPublishPacket := []
  delivered : List Event := []
  current : Bool := false

/-- The packet is one of QoS 2 with the packet id. -/
def MqttPublishPacket.uses (pkt : MqttPublishPacket) (pid : UInt16) : Bool :=
  pkt.qos = .exactlyOnce ∧ pkt.packetId = some pid

namespace Use

def next (sid : Nat) (pid : UInt16) (u : Use) : Event → Use
  | .accepted sid' pkt =>
    if sid' = sid ∧ pkt.uses pid then { u with accepted := u.accepted ++ [pkt], current := true }
    else { u with current := false }
  | .delivered sub bytes =>
    if u.current then { u with delivered := u.delivered ++ [.delivered sub bytes] } else u
  | .released sid' pid' => if sid' = sid ∧ pid' = pid then {} else u
  | _ => u

/-- One message at most was accepted, and it was written exactly once on account of every
subscription of those that are due. -/
structure ForwardedOnce (due : MqttPublishPacket → List MqttSubscription) (u : Use) : Prop where
  once : u.accepted.length ≤ 1
  delivered : u.delivered.filterMap Event.recipient = u.accepted.flatMap due
  carries : ∀ e ∈ u.delivered, ∃ pkt ∈ u.accepted, e.Carries pkt

end Use

def useOf (sid : Nat) (pid : UInt16) (log : List Event) : Use := log.foldl (Use.next sid pid) {}

section Use

variable (sid : Nat) (pid : UInt16) (log : List Event)

theorem useOf_concat (e : Event) :
    useOf sid pid (log ++ [e]) = (useOf sid pid log).next sid pid e := by
  simp [useOf]

theorem useOf_append_of_carries (h : ∀ e ∈ events, e.Carries pkt) :
    useOf sid pid (log ++ events) = { useOf sid pid log with
      delivered := (useOf sid pid log).delivered ++
        if (useOf sid pid log).current then events else [] } := by
  induction events generalizing log with
  | nil => simp
  | cons e events ih =>
    obtain ⟨⟨sub, pub, level, rfl, _⟩, hrest⟩ := List.forall_mem_cons.mp h
    rw [List.append_cons, ih _ hrest, useOf_concat, Use.next]
    split_ifs <;> simp [*]

theorem useOf_forward (pkt : MqttPublishPacket) (h : ∀ e ∈ events, e.Carries pkt) :
    useOf sid pid (log ++ .accepted sid pkt :: events) =
      if pkt.uses pid then
        { accepted := (useOf sid pid log).accepted ++ [pkt]
          delivered := (useOf sid pid log).delivered ++ events
          current := true }
      else { useOf sid pid log with current := false } := by
  rw [List.append_cons, useOf_append_of_carries _ _ _ h, useOf_concat, Use.next]
  by_cases huses : pkt.uses pid = true <;> simp [huses]

end Use

theorem resolveTopic_some (h : resolveTopic s pkt = some p) :
    ∃ topicAliases topic, p = ({ s with topicAliases }, { pkt with topic }) := by
  rw [resolveTopic] at h
  split at h
  · split at h
    · cases h
    split at h
    · cases h
    split at h
    · obtain ⟨topic, _, rfl⟩ := map_eq_some_iff.mp h
      exact ⟨s.topicAliases, topic, rfl⟩
    · rw [← some.inj h]
      exact ⟨_, pkt.topic, rfl⟩
  · rw [← some.inj h]
    exact ⟨s.topicAliases, pkt.topic, rfl⟩

theorem admitPublish_cases (s : MqttSession) (data : Bytes) (flags : UInt8) :
    ∃ topicAliases result, admitPublish s data flags = ({ s with topicAliases }, result) ∧
      (result = .error .malformedPacket ∨ result = .error .topicAliasInvalid ∨
        ∃ pkt topic, decodePublish data flags s.protocolLevel = some pkt ∧
          ¬(pkt.qos ≠ .atMostOnce ∧ pkt.packetId.getD 0 = 0) ∧
          result = .ok { pkt with topic }) := by
  rw [admitPublish]
  cases decodePublish data flags s.protocolLevel with
  | none => exact ⟨s.topicAliases, _, rfl, .inl rfl⟩
  | some pkt =>
    dsimp only
    cases hp : resolveTopic s pkt with
    | none => exact ⟨s.topicAliases, _, rfl, .inr (.inl rfl)⟩
    | some p =>
      obtain ⟨topicAliases, topic, rfl⟩ := resolveTopic_some hp
      dsimp only
      split
      · exact ⟨topicAliases, _, rfl, .inr (.inl rfl)⟩
      split_ifs with hid
      · exact ⟨topicAliases, _, rfl, .inl rfl⟩
      · exact ⟨topicAliases, _, rfl, .inr (.inr ⟨pkt, topic, rfl, hid, rfl⟩)⟩

theorem qos_ne_reserved (h : decodePublish data flags level = some pkt) : pkt.qos ≠ .reserved := by
  rw [decodePublish] at h
  by_cases hqos : QoS.ofBits (flags >>> 1 &&& 0x03).toNat = .reserved
  · simp only [hqos, if_true, bind_eq_bind, bind_none] at h
    cases h
  · simp only [hqos, if_false, bind_eq_bind, pure_def, bind_eq_some_iff] at h
    obtain ⟨_, _, _, _, _, _, hpkt⟩ := h
    rw [← some.inj hpkt]
    exact hqos

theorem admitPublish_ok (h : (admitPublish s data flags).2 = .ok pkt) :
    (∃ pkt' topic, decodePublish data flags s.protocolLevel = some pkt' ∧
        pkt = { pkt' with topic }) ∧
      pkt.qos ≠ .reserved ∧
      (pkt.qos ≠ .atMostOnce → pkt.packetId = some (pkt.packetId.getD 0)) := by
  obtain ⟨_, result, hadmits, hcases⟩ := admitPublish_cases s data flags
  rw [hadmits] at h
  subst h
  obtain hbad | hbad | ⟨pkt', topic, hdecode, hid, hpkt⟩ := hcases
  · cases hbad
  · cases hbad
  cases hpkt
  refine ⟨⟨pkt', topic, hdecode, rfl⟩, fun hqos => qos_ne_reserved hdecode hqos, fun hqos => ?_⟩
  cases hpid : pkt'.packetId with
  | none => exact absurd ⟨hqos, by rw [hpid]; rfl⟩ hid
  | some pid => rfl

namespace Broker

theorem handlePublish_cases (handler : MqttHandler) (b : Broker) (sid : Nat) (s : MqttSession)
    (data : Bytes) (flags : UInt8) :
    (b.handlePublish handler sid s data flags).1 =
        b.modifySession sid (fun _ => (admitPublish s data flags).1) ∨
      ∃ pkt, (admitPublish s data flags).2 = .ok pkt ∧
        (pkt.qos = .exactlyOnce →
          pkt.packetId.getD 0 ∉ (admitPublish s data flags).1.inflightPacketIds) ∧
        b.handlePublish handler sid s data flags =
          (b.modifySession sid fun _ => (admitPublish s data flags).1).acceptPublish sid
            (admitPublish s data flags).1 pkt := by
  rw [handlePublish]
  generalize admitPublish s data flags = admitted
  obtain ⟨s', result⟩ := admitted
  cases result with
  | error reason => exact .inl rfl
  | ok pkt =>
    dsimp only
    split
    · exact .inl rfl
    split
    · exact .inl rfl
    rename_i hfree
    split
    · exact .inl rfl
    · refine .inr ⟨pkt, rfl, fun hqos hmem => hfree ⟨hqos, ?_⟩, rfl⟩
      exact decide_eq_true hmem

theorem handlePublish_snd (handler : MqttHandler) (b : Broker) (sid : Nat)
    (hok : (admitPublish s data flags).2 = .ok pkt) (hqos : pkt.qos = .exactlyOnce) :
    (b.handlePublish handler sid s data flags).2 =
      if s.inflightCount ≥ s.receiveMaximum.toNat then
        protocolErrorDisconnect s .receiveMaximumExceeded
      else
        encodePubrec (pkt.packetId.getD 0)
          (if s.hasInflightPacketId (pkt.packetId.getD 0) then
            PublishReason.packetIdentifierInUse.code
          else if handler.onPublish then PublishReason.success.code
          else PublishReason.notAuthorized.code) s.protocolLevel {} := by
  obtain ⟨topicAliases, result, hadmits, _⟩ := admitPublish_cases s data flags
  rw [hadmits] at hok
  subst hok
  have hcount : { s with topicAliases }.inflightCount = s.inflightCount := rfl
  have hmember : { s with topicAliases }.hasInflightPacketId = s.hasInflightPacketId := rfl
  rw [handlePublish, hadmits]
  dsimp only
  rw [hcount, hmember]
  by_cases hfull : s.inflightCount ≥ s.receiveMaximum.toNat
  · rw [if_pos ⟨hqos, hfull⟩, if_pos hfull]
    rfl
  rw [if_neg fun hboth => hfull hboth.2, if_neg hfull]
  by_cases hin : s.hasInflightPacketId (pkt.packetId.getD 0) = true
  · rw [if_pos ⟨hqos, hin⟩, if_pos hin]
  rw [if_neg fun hboth => hin hboth.2, if_neg hin]
  cases handler.onPublish with
  | false =>
    rw [refusePublish, hqos]
    rfl
  | true =>
    rw [acceptPublish, hqos]
    rfl

variable (sid : Nat) (b : Broker) (packet : Qos2Packet)

variable (level : ProtocolLevel)

/-- The subscriptions are the same, and so are the sessions that messages can be written to. -/
structure Alike (b b' : Broker) : Prop where
  topicTree : b'.topicTree = b.topicTree
  listening : ∀ sid,
    (b'.session? sid).map (fun s => decide (s.state = .connected ∧ s.connection)) =
      (b.session? sid).map fun s => decide (s.state = .connected ∧ s.connection)

theorem Alike.trans {b b₁ b₂ : Broker} (h : Alike b b₁) (h₁ : Alike b₁ b₂) : Alike b b₂ :=
  ⟨h₁.topicTree.trans h.topicTree, fun sid => (h₁.listening sid).trans (h.listening sid)⟩

theorem Alike.recipients_eq {b b' : Broker} (h : Alike b b') (sid : Nat) (pkt : MqttPublishPacket) :
    b'.recipients sid pkt = b.recipients sid pkt := by
  rw [recipients, recipients, h.topicTree, receives_congr h.listening]

theorem alike_emit (b : Broker) (e : Event) : Alike b (b.emit e) := ⟨rfl, fun _ => rfl⟩

theorem alike_modifySession (b : Broker) (sid : Nat) {f : MqttSession → MqttSession}
    (h : ∀ s, b.session? sid = some s →
      (f s).state = s.state ∧ (f s).connection = s.connection) :
    Alike b (b.modifySession sid f) := by
  refine ⟨rfl, fun sid' => ?_⟩
  by_cases hsid : sid' = sid
  · subst hsid
    rw [session?_modifySession_self]
    cases hs : b.session? sid' with
    | none => rfl
    | some s => simp [h s hs]
  · rw [session?_modifySession_of_ne _ _ _ hsid]

theorem alike_retain (b : Broker) (level : ProtocolLevel) (pkt : MqttPublishPacket) :
    Alike b (b.retain level pkt) := by
  rw [retain]
  split <;> exact ⟨rfl, fun _ => rfl⟩

theorem alike_acceptPublish (b : Broker) (sid : Nat) (s : MqttSession) (pkt : MqttPublishPacket) :
    Alike b (b.acceptPublish sid s pkt).1 := by
  have hwrites := writes_publishToSubscribers sid pkt
    ((b.emit (.accepted sid pkt)).retain s.protocolLevel pkt)
  have hretain := (alike_emit b (.accepted sid pkt)).trans (alike_retain _ s.protocolLevel pkt)
  have hsame := hretain.trans ⟨hwrites.topicTree, hwrites.map_eq fun _ => rfl⟩
  rw [acceptPublish]
  split
  · exact hsame
  · exact hsame
  · exact hsame.trans (alike_modifySession _ sid fun _ _ => ⟨rfl, rfl⟩)

theorem session?_retain (pkt : MqttPublishPacket) (sid : Nat) :
    (b.retain level pkt).session? sid = b.session? sid := by
  rw [retain]
  split <;> rfl

theorem log_retain (pkt : MqttPublishPacket) : (b.retain level pkt).log = b.log := by
  rw [retain]
  split <;> rfl

/-- The packet ids in flight of a session. -/
def inflight (sid : Nat) : Option (Finset UInt16) :=
  (b.session? sid).map (·.inflightPacketIds)

theorem log_acceptPublish (sid : Nat) (s : MqttSession) (pkt : MqttPublishPacket) :
    ∃ events, (b.acceptPublish sid s pkt).1.log = b.log ++ .accepted sid pkt :: events ∧
      events.filterMap Event.recipient = b.recipients sid pkt ∧ ∀ e ∈ events, e.Carries pkt := by
  obtain ⟨events, hlog, hrecipients, hcarries⟩ := log_publishToSubscribers sid pkt
    ((b.emit (.accepted sid pkt)).retain s.protocolLevel pkt)
  have hsame := (alike_emit b (.accepted sid pkt)).trans (alike_retain _ s.protocolLevel pkt)
  refine ⟨events, ?_, hrecipients.trans (hsame.recipients_eq sid pkt), hcarries⟩
  rw [log_retain, log_emit, List.append_assoc] at hlog
  rw [acceptPublish]
  split <;> exact hlog

theorem inflight_acceptPublish (sid : Nat) (s : MqttSession) (hqos : pkt.qos ≠ .reserved) :
    (b.acceptPublish sid s pkt).1.inflight sid =
      (b.inflight sid).map fun ids =>
        if pkt.qos = .exactlyOnce then insert (pkt.packetId.getD 0) ids else ids := by
  have hforward : (((b.emit (.accepted sid pkt)).retain s.protocolLevel pkt).publishToSubscribers
      sid pkt).inflight sid = b.inflight sid := by
    rw [inflight, (writes_publishToSubscribers sid pkt _).map_eq (fun _ => rfl), session?_retain]
    rfl
  rw [acceptPublish]
  split
  · rename_i hmost
    rw [hforward, hmost]
    simp
  · rename_i hleast
    rw [hforward, hleast]
    simp
  · rename_i hmost hleast
    have hexactly : pkt.qos = .exactlyOnce := by
      cases h : pkt.qos with
      | exactlyOnce => rfl
      | atMostOnce => exact absurd h hmost
      | atLeastOnce => exact absurd h hleast
      | reserved => exact absurd h hqos
    simp only [if_pos hexactly]
    rw [← hforward, inflight, session?_modifySession_self, map_map, inflight, map_map]
    rfl

/-- A packet of the exchange for QoS 2. -/
inductive Qos2Packet
  | publish (handler : MqttHandler) (data : Bytes) (flags : UInt8)
  | pubrel (data : Bytes)

/-- The broker and its answer after a packet of the session. -/
def qos2Handle : Broker × Bytes :=
  match b.session? sid with
  | none => (b, [])
  | some s =>
    match packet with
    | .publish handler data flags => b.handlePublish handler sid s data flags
    | .pubrel data => b.handlePubrel sid s data

def qos2Step : Broker := (qos2Handle sid b packet).1

/-- A message is in use exactly while its packet id is in flight, and the subscribers of the broker
`b₀` that the run started with have got it. -/
def InUse (b₀ : Broker) (sid : Nat) (b : Broker) : Prop :=
  Alike b₀ b ∧ ∃ ids, b.inflight sid = some ids ∧ ∀ pid,
    (useOf sid pid b.log).ForwardedOnce (b₀.recipients sid) ∧
      ((useOf sid pid b.log).accepted ≠ [] → pid ∈ ids)

theorem inUse_publish (handler : MqttHandler) {sid : Nat} {b : Broker}
    (hs : b.session? sid = some s) (data : Bytes) (flags : UInt8) (h : InUse b₀ sid b) :
    InUse b₀ sid (b.handlePublish handler sid s data flags).1 := by
  obtain ⟨halike, ids, hids, huse⟩ := h
  obtain ⟨topicAliases, _, hadmits, _⟩ := admitPublish_cases s data flags
  set b₁ := b.modifySession sid fun _ => (admitPublish s data flags).1 with hb₁
  have hsame : b₁.inflight sid = some ids := by
    rw [← hids, inflight, hb₁, session?_modifySession_self, hadmits, inflight, hs]
    rfl
  have halike₁ : Alike b₀ b₁ := by
    refine halike.trans (alike_modifySession b sid fun s' hs' => ?_)
    rw [hadmits, some.inj (hs'.symm.trans hs)]
    exact ⟨rfl, rfl⟩
  rcases handlePublish_cases handler b sid s data flags with hstep | ⟨pkt, hok, hnew, hstep⟩
  · rw [hstep]
    exact ⟨halike₁, ids, hsame, huse⟩
  · obtain ⟨_, hqos, hpid⟩ := admitPublish_ok hok
    obtain ⟨events, hlog, hrecipients, hcarries⟩ :=
      log_acceptPublish b₁ sid (admitPublish s data flags).1 pkt
    have hinflight := inflight_acceptPublish b₁ sid (admitPublish s data flags).1 hqos
    rw [hsame, map_some] at hinflight
    rw [hstep]
    refine ⟨halike₁.trans (alike_acceptPublish b₁ sid _ pkt), _, hinflight, fun pid => ?_⟩
    obtain ⟨hforwarded, hused⟩ := huse pid
    rw [hlog, log_modifySession, useOf_forward sid pid b.log pkt hcarries]
    by_cases huses : pkt.uses pid = true
    · -- the packet id was not in flight, so that nothing was accepted before
      obtain ⟨hexactly, hsome⟩ := of_decide_eq_true huses
      have hget : pkt.packetId.getD 0 = pid := by rw [hsome]; rfl
      have hout : pid ∉ ids := by
        have hids' : ids = (admitPublish s data flags).1.inflightPacketIds := by
          rw [inflight, hs] at hids
          rw [hadmits]
          exact (some.inj hids).symm
        rw [hids', ← hget]
        exact hnew hexactly
      have hnone : (useOf sid pid b.log).accepted = [] := not_not.mp (mt hused hout)
      have hnothing : (useOf sid pid b.log).delivered = [] :=
        List.eq_nil_iff_forall_not_mem.mpr fun e he => by
          obtain ⟨pkt', hmem, _⟩ := hforwarded.carries e he
          rw [hnone] at hmem
          exact List.not_mem_nil hmem
      rw [if_pos huses, hnone, hnothing, if_pos hexactly, hget]
      refine ⟨⟨le_rfl, ?_, fun e he => ⟨pkt, List.mem_singleton_self _, hcarries e he⟩⟩,
        fun _ => Finset.mem_insert_self pid ids⟩
      rw [List.nil_append, List.nil_append, List.flatMap_singleton, hrecipients]
      exact halike₁.recipients_eq sid pkt
    · rw [if_neg huses]
      refine ⟨⟨hforwarded.once, hforwarded.delivered, hforwarded.carries⟩, fun haccepted => ?_⟩
      split_ifs
      · exact Finset.mem_insert_of_mem (hused haccepted)
      · exact hused haccepted

theorem inUse_pubrel {sid : Nat} {b : Broker} (hs : b.session? sid = some s) (data : Bytes)
    (h : InUse b₀ sid b) : InUse b₀ sid (b.handlePubrel sid s data).1 := by
  rw [handlePubrel]
  cases decodePubrel data s.protocolLevel with
  | none => exact h
  | some pubrel =>
    dsimp only
    split
    · exact h
    obtain ⟨halike, ids, hids, huse⟩ := h
    have hinflight : ids = s.inflightPacketIds := by
      rw [inflight, hs] at hids
      exact (some.inj hids).symm
    have halike₁ := halike.trans (alike_emit b (.released sid pubrel.packetId))
    -- in both cases the packet id is not in flight any more
    have hreleased : ∀ b' : Broker, Alike b₀ b' →
        b'.log = b.log ++ [.released sid pubrel.packetId] →
        b'.inflight sid = some (ids.erase pubrel.packetId) → InUse b₀ sid b' := by
      intro b' halike' hlog hids'
      refine ⟨halike', _, hids', fun pid => ?_⟩
      rw [hlog, useOf_concat, Use.next]
      split_ifs with hpid
      · exact ⟨⟨Nat.zero_le 1, rfl, fun e he => absurd he List.not_mem_nil⟩, fun h => absurd rfl h⟩
      · obtain ⟨hforwarded, hused⟩ := huse pid
        refine ⟨hforwarded, fun haccepted => Finset.mem_erase.mpr ⟨?_, hused haccepted⟩⟩
        rintro rfl
        exact hpid ⟨rfl, rfl⟩
    split_ifs with hfree
    · refine hreleased _ halike₁ rfl ?_
      have hout : pubrel.packetId ∉ ids := by
        rw [hinflight]
        simpa [MqttSession.hasInflightPacketId] using hfree
      rw [Finset.erase_eq_of_notMem hout]
      exact hids
    · refine hreleased _ (halike₁.trans (alike_modifySession _ sid fun _ _ => ⟨rfl, rfl⟩)) rfl ?_
      rw [inflight, session?_modifySession_self, session?_emit, hs, hinflight]
      rfl

theorem inUse_step (h : InUse b₀ sid b) : InUse b₀ sid (qos2Step sid b packet) := by
  rw [qos2Step, qos2Handle]
  cases hs : b.session? sid with
  | none => exact h
  | some s =>
    cases packet with
    | publish handler data flags => exact inUse_publish handler hs data flags h
    | pubrel data => exact inUse_pubrel hs data h

/-- The packet id of a PUBLISH that passes the checks and that is in flight. -/
def retransmission? (sid : Nat) : Qos2Packet → Option UInt16
  | .publish _ data flags =>
    (b.session? sid).bind fun s =>
      match (admitPublish s data flags).2 with
      | .error _ => none
      | .ok pkt =>
        if pkt.qos = .exactlyOnce ∧ s.hasInflightPacketId (pkt.packetId.getD 0) then
          some (pkt.packetId.getD 0)
        else none
  | .pubrel _ => none

/-- A message that is sent again is answered as it was the first time. -/
def Answered : Prop :=
  ∀ pid ∈ b.retransmission? sid packet, ∀ s ∈ b.session? sid,
    (qos2Handle sid b packet).2 = encodePubrec pid PublishReason.success.code s.protocolLevel {}

instance (sid : Nat) (b : Broker) (packet : Qos2Packet) : Decidable (Answered sid b packet) :=
  (b.retransmission? sid packet).decidableForallMem

/-- A message is sent again only in version 3.1.1, where there are no reason codes, and only with
room for another one. -/
def Roomy : Prop :=
  ∀ _pid ∈ b.retransmission? sid packet, ∀ s ∈ b.session? sid,
    s.protocolLevel = .v3_1_1 ∧ s.inflightCount < s.receiveMaximum.toNat

theorem encodePubrec_ne (pid : UInt16) (h : reasonCode ≠ reasonCode') :
    encodePubrec pid reasonCode .v5_0 {} ≠ encodePubrec pid reasonCode' .v5_0 {} := by
  have hencode : ∀ code, encodePubrec pid code .v5_0 {} =
      buildFixedHeader .pubrec 0 4 ++ (writeU16 pid ++ [code, 0]) := fun _ => rfl
  intro hsame
  rw [hencode, hencode] at hsame
  exact h (List.cons.inj (List.append_cancel_left (List.append_cancel_left hsame))).1

theorem protocolErrorDisconnect_ne (s : MqttSession) (reason : DisconnectReason) (pid : UInt16)
    (reasonCode : UInt8) :
    protocolErrorDisconnect s reason ≠ encodePubrec pid reasonCode s.protocolLevel {} := by
  rw [protocolErrorDisconnect]
  cases s.protocolLevel with
  | v3_1_1 => exact fun h => absurd h.symm (List.cons_ne_nil _ _)
  | v5_0 => exact fun h => absurd (List.cons.inj h).1 (by decide)

theorem answered_iff : Answered sid b packet ↔ Roomy sid b packet := by
  refine forall₂_congr fun pid hpid => forall₂_congr fun s hs => ?_
  have hs : b.session? sid = some s := hs
  cases packet with
  | pubrel data => cases hpid
  | publish handler data flags =>
    rw [retransmission?, hs, bind_some] at hpid
    rw [qos2Handle, hs]
    cases hchecks : (admitPublish s data flags).2 with
    | error reason =>
      rw [hchecks] at hpid
      cases hpid
    | ok pkt =>
      rw [hchecks] at hpid
      dsimp only at hpid ⊢
      split_ifs at hpid with hagain
      · obtain rfl : pkt.packetId.getD 0 = pid := some.inj hpid
        rw [handlePublish_snd handler b sid hchecks hagain.1, if_pos hagain.2]
        split_ifs with hfull
        · exact iff_of_false (protocolErrorDisconnect_ne s _ _ _) fun hroom =>
            absurd hroom.2 (not_lt.mpr hfull)
        · cases s.protocolLevel with
          | v3_1_1 => exact iff_of_true rfl ⟨rfl, not_le.mp hfull⟩
          | v5_0 => exact iff_of_false (encodePubrec_ne _ (by decide)) fun h => by cases h.1
      · cases hpid

def reading : MqttPublishPacket :=
  { qos := .exactlyOnce, topic := text "a", packetId := some 7, payload := text "x" }

/-- The message, the message again, its PUBREL, and another message with the same packet id. -/
def sentAgain : List Qos2Packet :=
  [.publish {} (publishBody reading level) 0x04, .publish {} (publishBody reading level) 0x0C,
    .pubrel (writeU16 7), .publish {} (publishBody reading level) 0x04]

/-- The other session has subscribed. -/
def oneSubscriber : Broker :=
  twoSessions.subscribeFilter {} 2 .v3_1_1 {} { topicFilter := text "a" }

/-- A session of version 5 that may have as many messages in flight. -/
def withMaximum (receiveMaximum : UInt16) : Broker :=
  twoSessions.modifySession 1 fun s => { s with protocolLevel := .v5_0, receiveMaximum }

end Broker

end ServerLib.Mqtt

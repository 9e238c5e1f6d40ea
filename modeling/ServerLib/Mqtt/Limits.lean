import ServerLib.Mqtt.Connect

/-! The limits that the broker announces to a client of version 5 in its CONNACK, and those that it
enforces.  They are the same only for some of the limits that the client names in its CONNECT. -/

namespace ServerLib.Mqtt

open Lib Option

/-- Each alias between 1 and the announced maximum, and no other, passes a check against the
maximum, where 0 stands for no check. -/
def AliasesAnnounced (cfg : MqttServerConfig) (topicAliasMaximum : UInt16) : Prop :=
  topicAliasMaximum = 0 ∧ cfg.topicAliasMaximum = 65535 ∨
    topicAliasMaximum ≠ 0 ∧ topicAliasMaximum = cfg.topicAliasMaximum

instance (cfg : MqttServerConfig) (topicAliasMaximum : UInt16) :
    Decidable (AliasesAnnounced cfg topicAliasMaximum) :=
  inferInstanceAs (Decidable (_ ∨ _))

/-- The client asks for no less than is announced. -/
def FairConnect (cfg : MqttServerConfig) (connect : MqttConnectPacket) : Prop :=
  connect.protocolLevel = .v5_0 →
    cfg.receiveMaximum ≤ connect.properties.receiveMaximum.getD 65535 ∧
      AliasesAnnounced cfg (connect.properties.topicAliasMaximum.getD cfg.topicAliasMaximum)

instance (cfg : MqttServerConfig) (connect : MqttConnectPacket) :
    Decidable (FairConnect cfg connect) :=
  inferInstanceAs (Decidable (_ → _))

/-- The limits of a session are those that were announced. -/
structure Announced (cfg : MqttServerConfig) (terms : Terms) : Prop where
  receiveMaximum : terms.receiveMaximum = cfg.receiveMaximum
  topicAliasMaximum : AliasesAnnounced cfg terms.topicAliasMaximum

/-- A connected session of version 5 has the announced limits, and the client asks for no less. -/
structure Limited (cfg : MqttServerConfig) (s : MqttSession) : Prop where
  clientReceiveMaximum : cfg.receiveMaximum ≤ s.clientReceiveMaximum
  announced : s.state = .connected → s.protocolLevel = .v5_0 → Announced cfg s.terms

theorem min_eq_of_le {a b : UInt16} (h : b ≤ a) : min a b = b := by
  change (if a ≤ b then a else b) = b
  split_ifs with hle
  · exact UInt16.le_antisymm hle h
  · rfl

theorem Limited.establish (h : Limited cfg s) {connect : MqttConnectPacket}
    (hfair : FairConnect cfg connect) (clientId : Bytes) :
    Limited cfg (establish cfg connect { s with clientId }) := by
  rw [Mqtt.establish]
  cases hlevel : connect.protocolLevel with
  | v3_1_1 => exact ⟨h.clientReceiveMaximum, fun _ hv5 => by cases hv5⟩
  | v5_0 =>
    obtain ⟨hreceive, halias⟩ := hfair hlevel
    have hclient : cfg.receiveMaximum ≤
        connect.properties.receiveMaximum.getD s.clientReceiveMaximum := by
      cases hproperty : connect.properties.receiveMaximum with
      | none => exact h.clientReceiveMaximum
      | some receiveMaximum =>
        rw [hproperty] at hreceive
        exact hreceive
    exact ⟨hclient, fun _ _ => ⟨min_eq_of_le hclient, halias⟩⟩

theorem Limited.of_terms (h : Limited cfg s) (hterms : s'.terms = s.terms)
    (hstate : s'.state = .connected → s.state = .connected) : Limited cfg s' where
  clientReceiveMaximum := by
    have hclient : s'.clientReceiveMaximum = s.clientReceiveMaximum :=
      congrArg Terms.clientReceiveMaximum hterms
    rw [hclient]
    exact h.clientReceiveMaximum
  announced hconnected hlevel := by
    rw [hterms]
    exact h.announced (hstate hconnected) ((congrArg Terms.protocolLevel hterms).symm.trans hlevel)

theorem AliasesAnnounced.inRange_iff (h : AliasesAnnounced cfg topicAliasMaximum)
    (topicAlias : UInt16) :
    topicAlias ≠ 0 ∧ (topicAliasMaximum = 0 ∨ topicAlias ≤ topicAliasMaximum) ↔
      1 ≤ topicAlias ∧ topicAlias ≤ cfg.topicAliasMaximum := by
  have hone : topicAlias ≠ 0 ↔ 1 ≤ topicAlias := by
    rw [← UInt16.pos_iff_ne_zero, UInt16.lt_iff_toNat_lt, UInt16.le_iff_toNat_le]
    exact Nat.succ_le_iff.symm
  rw [hone]
  refine and_congr_right fun _ => ?_
  rcases h with ⟨hzero, hall⟩ | ⟨hzero, hsame⟩
  · rw [hall]
    refine iff_of_true (.inl hzero) ?_
    rw [UInt16.le_iff_toNat_le]
    exact Nat.le_of_lt_succ topicAlias.toNat_lt
  · rw [hsame] at hzero ⊢
    simp [hzero]

/-- The body and the flags of a PUBLISH that gets as far as `handle_publish`. -/
def publishOf? (data : Bytes) : Option (Bytes × UInt8) :=
  match data with
  | [] => none
  | firstByte :: _ =>
    if PacketType.ofCode (firstByte >>> 4) = some .publish ∧
        isValidPublishFlags (firstByte &&& 0x0F) then
      (parseRemainingLength data).map fun lengths => (data.drop lengths.1, firstByte &&& 0x0F)
    else none

theorem Broker.dispatch_publish (cfg : MqttServerConfig) (handler : MqttHandler) {b : Broker}
    (hs : b.session? sid = some s) (hstate : s.state = .connected)
    (hpublish : publishOf? data = some (body, flags)) :
    b.dispatch cfg handler sid data = b.handlePublish handler sid s body flags := by
  cases data with
  | nil => cases hpublish
  | cons firstByte rest =>
    rw [publishOf?] at hpublish
    split at hpublish
    · rename_i htype
      obtain ⟨lengths, hlengths, hsame⟩ := map_eq_some_iff.mp hpublish
      obtain ⟨rfl, rfl⟩ := Prod.mk.inj hsame
      unfold dispatch
      rw [hs]
      dsimp only
      rw [htype.1, hlengths]
      rw [if_neg fun hboth => hboth.1 hstate, if_neg (by simp),
        if_neg (by simp [isValidPacketFlags, htype.2])]
      rfl
    · cases hpublish

/-- The session, if it is connected, and the packet, if it is a PUBLISH. -/
def Broker.publication? (b : Broker) (sid : Nat) (data : Bytes) :
    Option (MqttSession × MqttPublishPacket) :=
  match b.session? sid, publishOf? data with
  | some s, some (body, flags) =>
    if s.state = .connected then (decodePublish body flags s.protocolLevel).map (s, ·) else none
  | _, _ => none

theorem Broker.publication?_eq_some {b : Broker} (h : b.publication? sid data = some (s, pkt)) :
    b.session? sid = some s ∧ s.state = .connected ∧ ∃ body flags,
      publishOf? data = some (body, flags) ∧
      decodePublish body flags s.protocolLevel = some pkt := by
  rw [publication?] at h
  split at h
  · rename_i s' body flags hs hpublish
    split at h
    · rename_i hstate
      obtain ⟨pkt', hdecode, hsame⟩ := map_eq_some_iff.mp h
      obtain ⟨rfl, rfl⟩ := Prod.mk.inj hsame
      exact ⟨hs, hstate, body, flags, hpublish, hdecode⟩
    · cases h
  · cases h

variable (reason : DisconnectReason)

def disconnectFor : Bytes := encodeDisconnect reason.code .v5_0 {}

/-- The reasons that name a limit. -/
def DisconnectReason.NamesLimit : Prop :=
  reason = .receiveMaximumExceeded ∨ reason = .topicAliasInvalid

instance : Decidable reason.NamesLimit := inferInstanceAs (Decidable (_ ∨ _))

theorem disconnectFor_injective : Function.Injective disconnectFor := by
  intro reason reason' h
  cases reason <;> cases reason' <;> first | rfl | exact absurd h (by decide)

theorem disconnectFor_ne_nil : [] ≠ disconnectFor reason :=
  (List.cons_ne_nil _ _).symm

theorem encodePacket_ne {type : PacketType} (htype : type ≠ .disconnect) (flags : UInt8)
    (body : Bytes) (reason : DisconnectReason) :
    encodePacket type flags body ≠ disconnectFor reason := by
  intro h
  have hfirst : type.code <<< 4 ||| (flags &&& (0x0F : UInt8)) =
      PacketType.disconnect.code <<< 4 ||| ((0 : UInt8) &&& 0x0F) := (List.cons.inj h).1
  have hcode := congrArg (fun first : UInt8 => first >>> 4) hfirst
  rw [firstByte_shiftRight, firstByte_shiftRight] at hcode
  have hsame := congrArg PacketType.ofCode hcode
  rw [PacketType.ofCode_code, PacketType.ofCode_code] at hsame
  exact htype (some.inj hsame)

theorem protocolErrorDisconnect_eq (s : MqttSession) (reason : DisconnectReason) :
    protocolErrorDisconnect s reason =
      if s.protocolLevel = .v5_0 then disconnectFor reason else [] := by
  rw [protocolErrorDisconnect]
  cases s.protocolLevel with
  | v3_1_1 | v5_0 => rfl

theorem protocolErrorDisconnect_of_ne (s : MqttSession) {reason reason' : DisconnectReason}
    (h : reason' ≠ reason) : protocolErrorDisconnect s reason' ≠ disconnectFor reason := by
  rw [protocolErrorDisconnect_eq]
  split
  · exact fun hsame => h (disconnectFor_injective hsame)
  · exact disconnectFor_ne_nil reason

theorem DisconnectReason.NamesLimit.ne_error {reason reason' : DisconnectReason}
    (hreason : reason.NamesLimit) (s : MqttSession) (hother : ¬reason'.NamesLimit) :
    protocolErrorDisconnect s reason' ≠ disconnectFor reason :=
  protocolErrorDisconnect_of_ne s fun hsame => hother (hsame ▸ hreason)

namespace Broker

section Answers

variable (cfg : MqttServerConfig) (handler : MqttHandler) (b : Broker) (sid : Nat) (s : MqttSession)
  {reason : DisconnectReason}

theorem handleConnect_snd_ne (hreason : reason.NamesLimit) (body : Bytes) :
    (b.handleConnect cfg handler sid s body).2 ≠ disconnectFor reason := by
  have hconnack : ∀ connack level, encodeConnack connack level ≠ disconnectFor reason :=
    fun _ _ => encodePacket_ne (by decide) _ _ reason
  rw [handleConnect]
  split
  · exact hreason.ne_error s (by decide)
  · dsimp only
    repeat' split
    all_goals exact hconnack _ _

theorem handlePacket_snd_ne (hreason : reason.NamesLimit) {type : Option PacketType}
    (htype : type ≠ some .publish) (flags : UInt8) (body : Bytes) :
    (b.handlePacket cfg handler sid s type flags body).2 ≠ disconnectFor reason := by
  have hmalformed :=
    hreason.ne_error s (show ¬DisconnectReason.malformedPacket.NamesLimit by decide)
  have hprotocol := hreason.ne_error s (show ¬DisconnectReason.protocolError.NamesLimit by decide)
  unfold handlePacket
  split
  · exact handleConnect_snd_ne cfg handler b sid s hreason body
  · exact absurd rfl htype
  · rw [handlePuback]
    split
    · exact hmalformed
    · exact disconnectFor_ne_nil reason
  · rw [handlePubrec]
    split
    · exact hmalformed
    split
    · exact hprotocol
    · exact encodePacket_ne (by decide) _ _ reason
  · rw [handlePubrel]
    split
    · exact hmalformed
    dsimp only
    split
    · exact hprotocol
    split <;> exact encodePacket_ne (by decide) _ _ reason
  · rw [handlePubcomp]
    split
    · exact hmalformed
    · exact disconnectFor_ne_nil reason
  · rw [handleSubscribe]
    split
    · exact hmalformed
    split
    · exact hmalformed
    · exact encodePacket_ne (by decide) _ _ reason
  · rw [handleUnsubscribe]
    split
    · exact hmalformed
    split
    · exact hmalformed
    · exact encodePacket_ne (by decide) _ _ reason
  · have hpingresp : PacketType.pingresp ≠ .disconnect := by decide
    exact encodePacket_ne hpingresp 0 [] reason
  · exact disconnectFor_ne_nil reason
  · rw [handleAuth]
    split
    · exact disconnectFor_ne_nil reason
    split
    · exact hmalformed
    split
    · exact hreason.ne_error s (by decide)
    split
    · exact encodePacket_ne (by decide) _ _ reason
    · rename_i hlevel _ _ _ _ _
      rw [hlevel]
      intro hsame
      have hbad : DisconnectReason.badAuthenticationMethod = reason := disconnectFor_injective hsame
      exact absurd (hbad ▸ hreason) (by decide)
  · exact disconnectFor_ne_nil reason

theorem dispatch_namesLimit (hreason : reason.NamesLimit)
    (h : (b.dispatch cfg handler sid data).2 = disconnectFor reason) :
    ∃ s body flags, b.session? sid = some s ∧ s.state = .connected ∧
      publishOf? data = some (body, flags) := by
  unfold dispatch at h
  cases hs : b.session? sid with
  | none =>
    rw [hs] at h
    exact absurd h (disconnectFor_ne_nil reason)
  | some s =>
    rw [hs] at h
    cases data with
    | nil => exact absurd h (disconnectFor_ne_nil reason)
    | cons firstByte rest =>
      dsimp only at h
      split_ifs at h with hunconnected _ hflags
      iterate 3 exact absurd h (hreason.ne_error s (by decide))
      split at h
      · exact absurd h (hreason.ne_error s (by decide))
      rename_i headerLen bodyLen hlengths
      by_cases htype : PacketType.ofCode (firstByte >>> 4) = some .publish
      · have hstate : s.state = .connected := by
          by_contra hstate
          exact hunconnected ⟨hstate, by rw [htype]; decide⟩
        have hvalid : isValidPublishFlags (firstByte &&& 0x0F) := by
          rw [htype] at hflags
          simpa [isValidPacketFlags] using hflags
        refine ⟨s, (firstByte :: rest).drop headerLen, firstByte &&& 0x0F, rfl, hstate, ?_⟩
        rw [publishOf?, if_pos ⟨htype, hvalid⟩, hlengths]
        rfl
      · exact absurd h (handlePacket_snd_ne cfg handler b sid s hreason htype _ _)

theorem handlePublish_snd_error {reason : DisconnectReason}
    (herror : (admitPublish s data flags).2 = .error reason) :
    (b.handlePublish handler sid s data flags).2 = protocolErrorDisconnect s reason := by
  obtain ⟨topicAliases, result, hadmits, _⟩ := admitPublish_cases s data flags
  rw [hadmits] at herror
  subst herror
  rw [handlePublish, hadmits]
  rfl

variable {s}

theorem handlePublish_snd_of_ne {pkt : MqttPublishPacket}
    (hok : (admitPublish s data flags).2 = .ok pkt) (hqos : pkt.qos ≠ .exactlyOnce)
    (reason : DisconnectReason) :
    (b.handlePublish handler sid s data flags).2 ≠ disconnectFor reason := by
  rw [handlePublish]
  generalize admitPublish s data flags = admitted at hok
  obtain ⟨s', result⟩ := admitted
  subst hok
  dsimp only
  rw [if_neg fun hboth => hqos hboth.1, if_neg fun hboth => hqos hboth.1]
  split
  · rw [refusePublish]
    split
    · exact encodePacket_ne (by decide) _ _ reason
    · exact encodePacket_ne (by decide) _ _ reason
    · exact disconnectFor_ne_nil reason
  · rw [acceptPublish]
    split
    · exact disconnectFor_ne_nil reason
    · exact encodePacket_ne (by decide) _ _ reason
    · exact encodePacket_ne (by decide) _ _ reason

theorem handlePublish_snd_ne {pkt : MqttPublishPacket}
    (hok : (admitPublish s data flags).2 = .ok pkt) :
    (b.handlePublish handler sid s data flags).2 ≠ disconnectFor .topicAliasInvalid := by
  by_cases hqos : pkt.qos = .exactlyOnce
  · rw [handlePublish_snd handler b sid hok hqos]
    split
    · exact protocolErrorDisconnect_of_ne s (by decide)
    · exact encodePacket_ne (by decide) _ _ _
  · exact handlePublish_snd_of_ne handler b sid hok hqos _

end Answers

end Broker

theorem Broker.handlePublish_exceeded (handler : MqttHandler) (b : Broker) (sid : Nat)
    (h : (b.handlePublish handler sid s data flags).2 = disconnectFor .receiveMaximumExceeded) :
    s.protocolLevel = .v5_0 ∧ s.receiveMaximum.toNat ≤ s.inflightCount ∧
      ∃ pkt, decodePublish data flags s.protocolLevel = some pkt ∧ pkt.qos = .exactlyOnce := by
  cases hchecks : (admitPublish s data flags).2 with
  | error reason =>
    rw [handlePublish_snd_error handler b sid s hchecks] at h
    obtain ⟨_, result, hadmits, hcases⟩ := admitPublish_cases s data flags
    rw [hadmits] at hchecks
    subst hchecks
    obtain hreason | hreason | ⟨_, _, _, _, hreason⟩ := hcases
    all_goals cases hreason
    all_goals exact absurd h (protocolErrorDisconnect_of_ne s (by decide))
  | ok pkt =>
    by_cases hqos : pkt.qos = .exactlyOnce
    · rw [handlePublish_snd handler b sid hchecks hqos] at h
      split at h
      · rename_i hfull
        rw [protocolErrorDisconnect_eq] at h
        split_ifs at h with hlevel
        · obtain ⟨⟨pkt', topic, hdecode, rfl⟩, _⟩ := admitPublish_ok hchecks
          exact ⟨hlevel, hfull, pkt', hdecode, hqos⟩
        · exact absurd h (disconnectFor_ne_nil _)
      · exact absurd h (encodePacket_ne (by decide) _ _ _)
    · exact absurd h (handlePublish_snd_of_ne handler b sid hchecks hqos _)

/-- The topic that a PUBLISH names, itself or by its alias. -/
def topicOf? (s : MqttSession) (pkt : MqttPublishPacket) (topicAlias : UInt16) : Option Bytes :=
  if pkt.topic = [] then s.resolveTopicAlias topicAlias else some pkt.topic

section Aliases

variable {s : MqttSession} (hlevel : s.protocolLevel = .v5_0) {pkt : MqttPublishPacket}
  (halias : pkt.properties.topicAlias = some topicAlias)

include hlevel halias

theorem resolveTopic_inRange (htopic : topicOf? s pkt topicAlias = some topic)
    (hzero : topicAlias ≠ 0)
    (hmaximum : s.topicAliasMaximum = 0 ∨ topicAlias ≤ s.topicAliasMaximum) :
    ∃ s', resolveTopic s pkt = some (s', { pkt with topic }) := by
  have hrange : ¬(s.topicAliasMaximum > 0 ∧ topicAlias > s.topicAliasMaximum) := by
    rintro ⟨hpositive, hgreater⟩
    rcases hmaximum with hmaximum | hmaximum
    · rw [hmaximum] at hpositive
      exact absurd hpositive (by decide)
    · exact UInt16.not_lt.mpr hmaximum hgreater
  rw [topicOf?] at htopic
  rw [resolveTopic, hlevel, halias]
  dsimp only
  rw [if_neg hzero, if_neg hrange]
  split_ifs at htopic with hempty
  · rw [if_pos hempty, htopic]
    exact ⟨s, rfl⟩
  · cases htopic
    rw [if_neg hempty]
    exact ⟨_, rfl⟩

theorem resolveTopic_outOfRange
    (hrange : ¬(topicAlias ≠ 0 ∧ (s.topicAliasMaximum = 0 ∨ topicAlias ≤ s.topicAliasMaximum))) :
    resolveTopic s pkt = none := by
  rw [resolveTopic, hlevel, halias]
  dsimp only
  split
  · rfl
  rename_i hzero
  rw [if_pos]
  have hgreater : ¬(s.topicAliasMaximum = 0 ∨ topicAlias ≤ s.topicAliasMaximum) :=
    fun h => hrange ⟨hzero, h⟩
  rw [not_or] at hgreater
  exact ⟨UInt16.pos_iff_ne_zero.mpr hgreater.1, UInt16.not_le.mp hgreater.2⟩

theorem handlePublish_alias (handler : MqttHandler) (b : Broker) (sid : Nat)
    (hdecode : decodePublish data flags s.protocolLevel = some pkt)
    (htopic : topicOf? s pkt topicAlias = some topic) (hvalid : validateTopicName topic) :
    (b.handlePublish handler sid s data flags).2 ≠ disconnectFor .topicAliasInvalid ↔
      topicAlias ≠ 0 ∧ (s.topicAliasMaximum = 0 ∨ topicAlias ≤ s.topicAliasMaximum) := by
  constructor
  · intro haccepted
    by_contra hrange
    have herror : (admitPublish s data flags).2 = .error .topicAliasInvalid := by
      rw [admitPublish, hdecode]
      dsimp only
      rw [resolveTopic_outOfRange hlevel halias hrange]
    rw [Broker.handlePublish_snd_error handler b sid s herror, protocolErrorDisconnect_eq,
      if_pos hlevel] at haccepted
    exact haccepted rfl
  · rintro ⟨hzero, hmaximum⟩
    obtain ⟨s', hresolve⟩ := resolveTopic_inRange hlevel halias htopic hzero hmaximum
    cases hchecks : (admitPublish s data flags).2 with
    | ok pkt' => exact Broker.handlePublish_snd_ne handler b sid hchecks
    | error reason =>
      rw [Broker.handlePublish_snd_error handler b sid s hchecks]
      apply protocolErrorDisconnect_of_ne
      rintro rfl
      rw [admitPublish, hdecode] at hchecks
      dsimp only at hchecks
      rw [hresolve] at hchecks
      dsimp only at hchecks
      rw [hvalid, if_neg (by decide)] at hchecks
      split at hchecks <;> cases hchecks

end Aliases

/-- A packet of a session, with what the handler says to it. -/
structure SessionPacket where
  sid : Nat
  handler : MqttHandler := {}
  data : Bytes

namespace Broker

section Respects

variable (cfg : MqttServerConfig)

def packetStep (b : Broker) (p : SessionPacket) : Broker :=
  (b.dispatch cfg p.handler p.sid p.data).1

def answer (b : Broker) (p : SessionPacket) : Bytes := (b.dispatch cfg p.handler p.sid p.data).2

/-- Whoever gets connected in version 5 is told the limits. -/
def Advertised (b : Broker) (p : SessionPacket) : Prop :=
  ∀ s s', b.session? p.sid = some s → s.state ≠ .connected →
    (b.packetStep cfg p).session? p.sid = some s' → s'.state = .connected →
    s'.protocolLevel = .v5_0 →
    ∃ connack, b.answer cfg p = encodeConnack connack .v5_0 ∧
      connack.properties.receiveMaximum = some cfg.receiveMaximum ∧
      connack.properties.topicAliasMaximum = some cfg.topicAliasMaximum

/-- With the message more of QoS 2 are in flight than may be. -/
def Exceeds (s : MqttSession) (pkt : MqttPublishPacket) : Prop :=
  pkt.qos = .exactlyOnce ∧
    cfg.receiveMaximum.toNat < (insert (pkt.packetId.getD 0) s.inflightPacketIds).card

instance (s : MqttSession) (pkt : MqttPublishPacket) : Decidable (Exceeds cfg s pkt) :=
  inferInstanceAs (Decidable (_ ∧ _))

/-- That there is no room is answered only to a message that exceeds the maximum. -/
def RoomGranted (b : Broker) (p : SessionPacket) : Prop :=
  b.answer cfg p = disconnectFor .receiveMaximumExceeded →
    ∃ m ∈ b.publication? p.sid p.data, Exceeds cfg m.1 m.2

/-- An alias for a valid topic is accepted if it is between 1 and the maximum. -/
def AliasGranted (b : Broker) (p : SessionPacket) : Prop :=
  ∀ m ∈ b.publication? p.sid p.data, m.1.protocolLevel = .v5_0 →
    ∀ topicAlias ∈ m.2.properties.topicAlias, ∀ topic ∈ topicOf? m.1 m.2 topicAlias,
      validateTopicName topic = true →
        (b.answer cfg p ≠ disconnectFor .topicAliasInvalid ↔
          1 ≤ topicAlias ∧ topicAlias ≤ cfg.topicAliasMaximum)

instance (b : Broker) (p : SessionPacket) : Decidable (RoomGranted cfg b p) :=
  inferInstanceAs (Decidable (_ → _))

instance (b : Broker) (p : SessionPacket) : Decidable (AliasGranted cfg b p) :=
  have (m : MqttSession × MqttPublishPacket) : Decidable (m.1.protocolLevel = .v5_0 →
      ∀ topicAlias ∈ m.2.properties.topicAlias, ∀ topic ∈ topicOf? m.1 m.2 topicAlias,
        validateTopicName topic = true →
          (b.answer cfg p ≠ disconnectFor .topicAliasInvalid ↔
            1 ≤ topicAlias ∧ topicAlias ≤ cfg.topicAliasMaximum)) :=
    @instDecidableForall _ _ _ m.2.properties.topicAlias.decidableForallMem
  (b.publication? p.sid p.data).decidableForallMem

/-- The limits that are enforced are those that were announced. -/
structure Respects (b : Broker) (p : SessionPacket) : Prop where
  advertised : b.Advertised cfg p
  room : b.RoomGranted cfg p
  topicAlias : b.AliasGranted cfg p

/-- The clients ask for no less than is announced, and none sends a message again while as many are
in flight as may be. -/
def Fair (b : Broker) (p : SessionPacket) : Prop :=
  (∀ connect ∈ b.connecting? p.sid p.data, FairConnect cfg connect) ∧
    ∀ m ∈ b.publication? p.sid p.data, m.1.protocolLevel = .v5_0 → m.2.qos = .exactlyOnce →
      m.2.packetId.getD 0 ∈ m.1.inflightPacketIds → m.1.inflightCount < cfg.receiveMaximum.toNat

instance (b : Broker) (p : SessionPacket) : Decidable (Fair cfg b p) :=
  inferInstanceAs (Decidable ((∀ _ ∈ _, _) ∧ ∀ _ ∈ _, _))

end Respects

def AllLimited (cfg : MqttServerConfig) (b : Broker) : Prop :=
  ∀ sid s, b.session? sid = some s → Limited cfg s

theorem allLimited_step (h : AllLimited cfg b) (hfair : b.Fair cfg p) :
    AllLimited cfg (b.packetStep cfg p) := by
  -- a session with the same terms that was connected before
  have hsame : ∀ sid s', ((b.packetStep cfg p).session? sid).map MqttSession.terms =
        (b.session? sid).map MqttSession.terms →
      (∀ s', (b.packetStep cfg p).session? sid = some s' → s'.state = .connected →
        ∃ s, b.session? sid = some s ∧ s.state = .connected) →
      (b.packetStep cfg p).session? sid = some s' → Limited cfg s' := by
    intro sid s' hterms hconnected hs'
    rw [hs', map_some] at hterms
    obtain ⟨s, hs, hterms⟩ := map_eq_some_iff.mp hterms.symm
    refine (h sid s hs).of_terms hterms.symm fun hstate => ?_
    obtain ⟨s₁, hs₁, hstate₁⟩ := hconnected s' hs' hstate
    rw [hs] at hs₁
    cases hs₁
    exact hstate₁
  intro sid s' hs'
  rcases dispatch_cases cfg p.handler b p.sid p.data with
    ⟨hsteady, _⟩ | ⟨s, body, hs, _, hbody, hstep⟩
  · exact hsame sid s' (hsteady.terms sid) (hsteady.connected sid) hs'
  · by_cases hsid : sid = p.sid
    · subst hsid
      rw [packetStep, hstep] at hs'
      rcases handleConnect_cases cfg p.handler hs body with
        ⟨protocolLevel, hrefused⟩ | ⟨connect, present, hdecode, haccepted, _⟩
      · rw [hrefused] at hs'
        cases hs'
        exact ⟨(h _ s hs).clientReceiveMaximum, nofun⟩
      · rw [haccepted] at hs'
        cases hs'
        refine (h _ s hs).establish (hfair.1 connect ?_) _
        rw [connecting?, hbody]
        exact hdecode
    · have hopens := b.opens_handleConnect p.sid cfg p.handler s body
      rw [← hstep] at hopens
      exact hsame sid s' (hopens.terms sid hsid) (fun s' => hopens.connected sid s' hsid) hs'

theorem advertised_of_dispatch (b : Broker) (p : SessionPacket) : b.Advertised cfg p := by
  intro s s' hs hstate hs' hstate' hlevel
  rw [packetStep] at hs'
  rw [answer]
  rcases dispatch_cases cfg p.handler b p.sid p.data with
    ⟨hsteady, _⟩ | ⟨s₁, body, hs₁, _, _, hstep⟩
  · obtain ⟨s₁, hs₁, hstate₁⟩ := hsteady.connected p.sid s' hs' hstate'
    rw [hs] at hs₁
    cases hs₁
    exact absurd hstate₁ hstate
  · rw [hstep] at hs' ⊢
    rcases handleConnect_cases cfg p.handler hs₁ body with
      ⟨protocolLevel, hrefused⟩ | ⟨connect, present, _, haccepted, hanswer⟩
    · rw [hrefused] at hs'
      cases hs'
      cases hstate'
    · rw [haccepted] at hs'
      cases hs'
      have hv5 : connect.protocolLevel = .v5_0 := by
        rw [← hlevel, establish]
        split <;> rfl
      rw [hanswer, hv5]
      refine ⟨_, rfl, ?_, ?_⟩
      all_goals
        rw [connackFor, hv5]
        rfl

theorem roomGranted_of_limited (h : AllLimited cfg b) (hfair : b.Fair cfg p) :
    b.RoomGranted cfg p := by
  intro hanswer
  obtain ⟨s, body, flags, hs, hstate, hpublish⟩ :=
    dispatch_namesLimit cfg p.handler b p.sid (.inl rfl) hanswer
  rw [answer, dispatch_publish cfg p.handler hs hstate hpublish] at hanswer
  obtain ⟨hlevel, hfull, pkt, hdecode, hqos⟩ := handlePublish_exceeded p.handler b p.sid hanswer
  have hpublication : b.publication? p.sid p.data = some (s, pkt) := by
    rw [publication?, hs, hpublish]
    dsimp only
    rw [if_pos hstate, hdecode]
    rfl
  have hmaximum : s.receiveMaximum = cfg.receiveMaximum :=
    ((h _ s hs).announced hstate hlevel).receiveMaximum
  rw [hmaximum] at hfull
  refine ⟨(s, pkt), hpublication, hqos, ?_⟩
  -- a message in flight is not sent again, so that this is one more
  have hnew : pkt.packetId.getD 0 ∉ s.inflightPacketIds := by
    intro hin
    exact absurd (hfair.2 _ hpublication hlevel hqos hin) (not_lt.mpr hfull)
  rw [Finset.card_insert_of_notMem hnew]
  exact Nat.lt_succ_of_le hfull

theorem aliasGranted_of_limited (h : AllLimited cfg b) : b.AliasGranted cfg p := by
  rintro ⟨s, pkt⟩ hpublication hlevel topicAlias halias topic htopic hvalid
  obtain ⟨hs, hstate, body, flags, hpublish, hdecode⟩ := publication?_eq_some hpublication
  rw [answer, dispatch_publish cfg p.handler hs hstate hpublish,
    handlePublish_alias hlevel halias p.handler b p.sid hdecode htopic hvalid]
  exact ((h _ s hs).announced hstate hlevel).topicAliasMaximum.inRange_iff topicAlias

/-- Along every run over packets of sessions that start unconnected, if the clients are fair, the
limits that are enforced are those that were announced. -/
theorem respects_run {b : Broker}
    (hnew : ∀ sid s, b.session? sid = some s →
      s.state ≠ .connected ∧ s.clientReceiveMaximum = 65535)
    {packets : List SessionPacket} (hfair : Along (packetStep cfg) (Fair cfg) b packets) :
    Along (packetStep cfg) (Respects cfg) b packets := by
  refine along_of_invariant (fun b p h hfair => allLimited_step h hfair)
    (fun b p h hfair => ?_) ?_ hfair
  · exact ⟨advertised_of_dispatch b p, roomGranted_of_limited h hfair, aliasGranted_of_limited h⟩
  · intro sid s hs
    obtain ⟨hstate, hclient⟩ := hnew sid s hs
    refine ⟨?_, fun hconnected => absurd hconnected hstate⟩
    rw [hclient, UInt16.le_iff_toNat_le]
    exact Nat.le_of_lt_succ cfg.receiveMaximum.toNat_lt

def newSession : Broker where
  sessionMgr :=
    { sessions := (∅ : AList fun _ : Nat => MqttSession).insert 1 { state := .connecting } }

/-- A CONNECT, a message of QoS 2 with an alias, another one with this alias and one with a greater
one, all of them sent by the same client. -/
def conversation (properties : MqttProperties) (topicAlias : UInt16) : List SessionPacket :=
  let message (pid topicAlias : UInt16) : SessionPacket :=
    { sid := 1
      data := encodePublish { reading with
        packetId := some pid, properties.topicAlias := some topicAlias } .v5_0 }
  [{ sid := 1, data := connectPacket (text "c") properties }, message 7 topicAlias,
    message 8 topicAlias, message 9 (topicAlias + 1)]

theorem respects_run_conversation :
    Along (packetStep { receiveMaximum := 2, topicAliasMaximum := 5 })
      (Respects { receiveMaximum := 2, topicAliasMaximum := 5 }) newSession
      (conversation {} 5) := by
  refine respects_run (fun sid s hs => ?_) (by decide +kernel)
  by_cases hsid : sid = 1
  · subst hsid
    rw [session?, newSession, AList.lookup_insert] at hs
    cases hs
    exact ⟨by decide, rfl⟩
  · rw [session?, newSession, AList.lookup_insert_ne hsid, AList.lookup_empty] at hs
    cases hs

/-- A client that says that it can have one message in flight is told that it may have two, but the
second is refused.  One that says nothing of aliases is told that it may have none, but the alias 5
is accepted. -/
theorem not_respects_conversation :
    ¬Along (packetStep { receiveMaximum := 2, topicAliasMaximum := 5 })
        (Respects { receiveMaximum := 2, topicAliasMaximum := 5 }) newSession
        (conversation { receiveMaximum := some 1 } 5) ∧
      ¬Along (packetStep {}) (Respects {}) newSession (conversation {} 5) :=
  ⟨fun h => absurd h.2.2.1.room (by decide +kernel),
    fun h => absurd h.2.1.topicAlias (by decide +kernel)⟩

end Broker

end ServerLib.Mqtt

import ServerLib.Mqtt.ExactlyOnce
import ServerLib.Mqtt.Ownership

/-! What the packets other than CONNECT leave as it is: the terms of every session, who has which
client id, and the subscriptions of the other sessions.  No session gets connected by them. -/

namespace ServerLib.Mqtt

open Lib Option

/-- What is settled when a session is connected. -/
structure Terms where
  clientId : Bytes
  protocolLevel : ProtocolLevel
  sessionExpiryInterval : UInt32
  receiveMaximum : UInt16
  clientReceiveMaximum : UInt16
  topicAliasMaximum : UInt16

def MqttSession.terms (s : MqttSession) : Terms where
  clientId := s.clientId
  protocolLevel := s.protocolLevel
  sessionExpiryInterval := s.sessionExpiryInterval
  receiveMaximum := s.receiveMaximum
  clientReceiveMaximum := s.clientReceiveMaximum
  topicAliasMaximum := s.topicAliasMaximum

namespace Broker

/-- What a packet of the session `sid` may do, unless it is a CONNECT. -/
structure Steady (sid : Nat) (b b' : Broker) : Prop where
  terms : ∀ sid', (b'.session? sid').map MqttSession.terms = (b.session? sid').map MqttSession.terms
  connected : ∀ sid' s', b'.session? sid' = some s' → s'.state = .connected →
    ∃ s, b.session? sid' = some s ∧ s.state = .connected
  clientIdIndex : b'.sessionMgr.clientIdIndex = b.sessionMgr.clientIdIndex
  bindings : b'.bindings = b.bindings
  single : b.topicTree.Single → b'.topicTree.Single
  owns : b.topicTree.Single → ∀ sid', b'.topicTree.Owns sid' →
    b.topicTree.Owns sid' ∨ sid' = sid

theorem Steady.refl (sid : Nat) (b : Broker) : Steady sid b b :=
  ⟨fun _ => rfl, fun _ s' hs' hstate => ⟨s', hs', hstate⟩, rfl, rfl, id, fun _ _ => .inl⟩

theorem Steady.trans (h : Steady sid b b₁) (h₁ : Steady sid b₁ b₂) : Steady sid b b₂ where
  terms sid' := (h₁.terms sid').trans (h.terms sid')
  connected sid' s₂ hs₂ hstate := by
    obtain ⟨s₁, hs₁, hstate₁⟩ := h₁.connected sid' s₂ hs₂ hstate
    exact h.connected sid' s₁ hs₁ hstate₁
  clientIdIndex := h₁.clientIdIndex.trans h.clientIdIndex
  bindings := h₁.bindings.trans h.bindings
  single hsingle := h₁.single (h.single hsingle)
  owns hsingle sid' howns := by
    rcases h₁.owns (h.single hsingle) sid' howns with howns | howns
    · exact h.owns hsingle sid' howns
    · exact .inr howns

theorem Writes.steady (h : Writes b b') (sid : Nat) : Steady sid b b' where
  terms := h.map_eq fun _ => rfl
  connected sid' s' hs' hstate := by
    have hmap := h.map_eq (f := fun s => s.state) (fun _ => rfl) sid'
    rw [hs', map_some] at hmap
    obtain ⟨s, hs, hsame⟩ := map_eq_some_iff.mp hmap.symm
    exact ⟨s, hs, hsame.trans hstate⟩
  clientIdIndex := h.clientIdIndex
  bindings := h.bindings
  single hsingle := by
    rw [h.topicTree]
    exact hsingle
  owns _ sid' howns := by
    rw [h.topicTree] at howns
    exact .inl howns

theorem steady_modifySession (sid : Nat) (h : ∀ s, b.session? sid' = some s →
      (f s).terms = s.terms ∧ ((f s).state = .connected → s.state = .connected)) :
    Steady sid b (b.modifySession sid' f) := by
  refine ⟨fun sid₁ => ?_, fun sid₁ s₁ hs₁ hstate => ?_, rfl, rfl, id, fun _ _ => .inl⟩
  · by_cases hsid : sid₁ = sid'
    · subst hsid
      rw [session?_modifySession_self]
      cases hs : b.session? sid₁ with
      | none => rfl
      | some s => exact congrArg some (h s hs).1
    · rw [session?_modifySession_of_ne _ _ _ hsid]
  · by_cases hsid : sid₁ = sid'
    · subst hsid
      rw [session?_modifySession_self] at hs₁
      obtain ⟨s, hs, rfl⟩ := map_eq_some_iff.mp hs₁
      exact ⟨s, hs, (h s hs).2 hstate⟩
    · rw [session?_modifySession_of_ne _ _ _ hsid] at hs₁
      exact ⟨s₁, hs₁, hstate⟩

theorem steady_topicTree (hsingle : b.topicTree.Single → t.Single)
    (howns : b.topicTree.Single → ∀ sid', t.Owns sid' → b.topicTree.Owns sid' ∨ sid' = sid) :
    Steady sid b { b with topicTree := t } :=
  ⟨fun _ => rfl, fun _ s' hs' hstate => ⟨s', hs', hstate⟩, rfl, rfl, hsingle, howns⟩

theorem steady_setState (sid sid' : Nat) (h : state ≠ .connected) :
    Steady sid b (b.setState sid' state) :=
  steady_modifySession sid fun _ _ => ⟨rfl, fun hstate => absurd hstate h⟩

theorem steady_removeAll (sid sid' : Nat) : Steady sid b (b.removeAll sid') :=
  steady_topicTree (fun h => h.removeAll sid') fun _ _ howns => .inl howns.of_removeAll.2

theorem steady_retain (sid : Nat) (level : ProtocolLevel) (pkt : MqttPublishPacket) :
    Steady sid b (b.retain level pkt) := by
  rw [retain]
  split
  · exact .refl sid b
  · exact ⟨fun _ => rfl, fun _ s' hs' hstate => ⟨s', hs', hstate⟩, rfl, rfl, id, fun _ _ => .inl⟩

theorem steady_acceptPublish (sid : Nat) (b : Broker) (s : MqttSession) (pkt : MqttPublishPacket) :
    Steady sid b (b.acceptPublish sid s pkt).1 := by
  have hforward : Steady sid b (((b.emit (.accepted sid pkt)).retain s.protocolLevel
      pkt).publishToSubscribers sid pkt) :=
    (((writes_emit b rfl).steady sid).trans (steady_retain sid _ _)).trans
      ((writes_publishToSubscribers sid pkt _).steady sid)
  rw [acceptPublish]
  split
  · exact hforward
  · exact hforward
  · exact hforward.trans (steady_modifySession sid fun _ _ => ⟨rfl, id⟩)

theorem steady_handlePublish (handler : MqttHandler) (hs : b.session? sid = some s) (data : Bytes)
    (flags : UInt8) : Steady sid b (b.handlePublish handler sid s data flags).1 := by
  have hchecks : Steady sid b (b.modifySession sid fun _ => (admitPublish s data flags).1) := by
    refine steady_modifySession sid fun s' hs' => ?_
    obtain ⟨topicAliases, _, hadmits, _⟩ := admitPublish_cases s data flags
    rw [hs] at hs'
    cases hs'
    rw [hadmits]
    exact ⟨rfl, id⟩
  rcases handlePublish_cases handler b sid s data flags with hstep | ⟨pkt, _, _, hstep⟩
  · rw [hstep]
    exact hchecks
  · rw [hstep]
    exact hchecks.trans (steady_acceptPublish sid _ _ _)

theorem steady_handlePubrel (sid : Nat) (b : Broker) (s : MqttSession) (data : Bytes) :
    Steady sid b (b.handlePubrel sid s data).1 := by
  rw [handlePubrel]
  split
  · exact .refl sid b
  dsimp only
  split
  · exact .refl sid b
  · have hemit : ∀ pid, Steady sid b (b.emit (.released sid pid)) := fun pid =>
      (writes_emit b rfl).steady sid
    split
    · exact hemit _
    · exact (hemit _).trans (steady_modifySession sid fun _ _ => ⟨rfl, id⟩)

theorem steady_subscribeFilter (cfg : MqttServerConfig) (sid : Nat) (b : Broker)
    (level : ProtocolLevel) (pkt : MqttSubscribePacket) (sub : MqttSubOption) :
    Steady sid b (b.subscribeFilter cfg sid level pkt sub) := by
  have hsubscribe : Steady sid b ({ b with
      topicTree := (b.topicTree.subscribe sub.topicFilter
        (treeSubscription cfg sid level pkt sub)).1 }.modifySession sid
        (·.addSubscription sub.topicFilter (grantedQos cfg sub))) := by
    refine (steady_topicTree (fun h => h.subscribe _ _) fun h _ howns => ?_).trans
      (steady_modifySession sid fun _ _ => ⟨rfl, id⟩)
    exact howns.of_subscribe h
  rw [subscribeFilter]
  split
  · exact hsubscribe
  · exact hsubscribe.trans ((writes_foldl (writes_sendRetained sid _) _ _).steady sid)

theorem steady_handleSubscribe (cfg : MqttServerConfig) (handler : MqttHandler) (sid : Nat)
    (b : Broker) (s : MqttSession) (data : Bytes) :
    Steady sid b (b.handleSubscribe cfg handler sid s data).1 := by
  rw [handleSubscribe]
  split
  · exact .refl sid b
  rename_i pkt _
  split
  · exact .refl sid b
  refine run_preserves (I := fun b' : Broker × List UInt8 => Steady sid b b'.1)
    (fun b' sub h => ?_) (.refl sid b) _
  rw [subscribeRound]
  split
  · exact h
  · exact h.trans (steady_subscribeFilter cfg sid _ _ _ _)

theorem steady_handleUnsubscribe (sid : Nat) (b : Broker) (s : MqttSession) (data : Bytes) :
    Steady sid b (b.handleUnsubscribe sid s data).1 := by
  rw [handleUnsubscribe]
  split
  · exact .refl sid b
  split
  · exact .refl sid b
  · refine run_preserves (I := fun b' => Steady sid b b') (fun b' filter h => h.trans ?_)
      (.refl sid b) _
    refine (steady_topicTree (fun hsingle => hsingle.unsubscribe _ _) fun hsingle _ howns =>
      ?_).trans (steady_modifySession sid fun _ _ => ⟨rfl, id⟩)
    exact .inl (howns.of_unsubscribe hsingle)

theorem steady_handleDisconnect (sid : Nat) (b : Broker) (s : MqttSession) (data : Bytes) :
    Steady sid b (b.handleDisconnect sid s data).1 := by
  rw [handleDisconnect]
  have hstate : Steady sid b (b.modifySession sid fun s =>
      { s with
        state := .disconnected
        willMessage := if keepsWill s data then s.willMessage else none }) :=
    steady_modifySession sid fun _ _ => ⟨rfl, nofun⟩
  split
  · exact hstate.trans (steady_removeAll sid sid)
  · exact hstate

theorem steady_handlePacket (cfg : MqttServerConfig) (handler : MqttHandler)
    (hs : b.session? sid = some s) (htype : type ≠ some .connect) (flags : UInt8) (body : Bytes) :
    Steady sid b (b.handlePacket cfg handler sid s type flags body).1 := by
  unfold handlePacket
  split
  · exact absurd rfl htype
  · exact steady_handlePublish handler hs body flags
  · rw [handlePuback]
    split <;> exact .refl sid b
  · rw [handlePubrec]
    split
    · exact .refl sid b
    · split <;> exact .refl sid b
  · exact steady_handlePubrel sid b s body
  · rw [handlePubcomp]
    split
    · exact .refl sid b
    · exact steady_modifySession sid fun _ _ => ⟨rfl, id⟩
  · exact steady_handleSubscribe cfg handler sid b s body
  · exact steady_handleUnsubscribe sid b s body
  · exact .refl sid b
  · exact steady_handleDisconnect sid b s body
  · rw [handleAuth]
    split
    · exact .refl sid b
    · split
      · exact .refl sid b
      · split
        · exact .refl sid b
        · split <;> exact .refl sid b
  · exact .refl sid b

/-- The packet is a CONNECT that gets as far as `handle_connect`, with this body. -/
def connectBody? (b : Broker) (sid : Nat) (data : Bytes) : Option Bytes :=
  match b.session? sid, data with
  | some s, firstByte :: _ =>
    if s.state ≠ .connected ∧ PacketType.ofCode (firstByte >>> 4) = some .connect ∧
        firstByte &&& 0x0F = 0 then
      (parseRemainingLength data).map fun lengths => data.drop lengths.1
    else none
  | _, _ => none

theorem dispatch_cases (cfg : MqttServerConfig) (handler : MqttHandler) (b : Broker) (sid : Nat)
    (data : Bytes) :
    Steady sid b (b.dispatch cfg handler sid data).1 ∧ b.connectBody? sid data = none ∨
      ∃ s body, b.session? sid = some s ∧ s.state ≠ .connected ∧
        b.connectBody? sid data = some body ∧
        b.dispatch cfg handler sid data = b.handleConnect cfg handler sid s body := by
  unfold dispatch connectBody?
  cases hs : b.session? sid with
  | none => exact .inl ⟨.refl sid b, rfl⟩
  | some s =>
    cases data with
    | nil => exact .inl ⟨.refl sid b, rfl⟩
    | cons firstByte rest =>
      dsimp only
      by_cases hconnect : PacketType.ofCode (firstByte >>> 4) = some .connect
      · rw [hconnect, if_neg fun hboth => hboth.2 rfl]
        by_cases hstate : s.state = .connected
        · rw [if_pos ⟨hstate, rfl⟩, if_neg fun hboth => hboth.1 hstate]
          exact .inl ⟨steady_setState sid sid (by decide), rfl⟩
        rw [if_neg fun hboth => hstate hboth.1]
        by_cases hflags : firstByte &&& 0x0F = 0
        · rw [if_neg (by simp [isValidPacketFlags, hflags]), if_pos ⟨hstate, rfl, hflags⟩]
          cases hlength : parseRemainingLength (firstByte :: rest) with
          | none => exact .inl ⟨.refl sid b, rfl⟩
          | some lengths => exact .inr ⟨s, _, rfl, hstate, rfl, rfl⟩
        · rw [if_pos (by simp [isValidPacketFlags, hflags]), if_neg fun hall => hflags hall.2.2]
          exact .inl ⟨steady_setState sid sid (by decide), rfl⟩
      · rw [if_neg (c := s.state = .connected ∧ _) fun hboth => hconnect hboth.2,
          if_neg (c := s.state ≠ .connected ∧ _ ∧ _) fun hall => hconnect hall.2.1]
        refine .inl ⟨?_, rfl⟩
        split
        · exact .refl sid b
        · split
          · exact steady_setState sid sid (by decide)
          · split
            · exact .refl sid b
            · exact steady_handlePacket cfg handler hs hconnect _ _

theorem topicTree_dispatch (cfg : MqttServerConfig) (handler : MqttHandler) {b : Broker}
    (hs : b.session? sid = some s) (hstate : s.state ≠ .connected)
    (hconnect : b.connectBody? sid data = none) :
    (b.dispatch cfg handler sid data).1.topicTree = b.topicTree := by
  unfold connectBody? at hconnect
  unfold dispatch
  rw [hs] at hconnect ⊢
  cases data with
  | nil => rfl
  | cons firstByte rest =>
    dsimp only at hconnect ⊢
    split
    · rfl
    rename_i htype
    have htype : PacketType.ofCode (firstByte >>> 4) = some .connect := by
      by_contra hother
      exact htype ⟨hstate, hother⟩
    split
    · rfl
    split_ifs with hflags
    · rfl
    rw [if_pos ⟨hstate, htype, by simpa [isValidPacketFlags, htype] using hflags⟩] at hconnect
    rw [map_eq_none_iff.mp hconnect]

end Broker

end ServerLib.Mqtt

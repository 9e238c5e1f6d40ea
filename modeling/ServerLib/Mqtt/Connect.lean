import ServerLib.Mqtt.Steady

/-! What a CONNECT does: to its own session, which it connects or refuses, and to the others, of
which it may take one over. -/

namespace ServerLib.Mqtt

open Lib

theorem MqttSessionManager.sessions_findByClientId (m : MqttSessionManager) (clientId : Bytes) :
    (m.findByClientId clientId).1.sessions = m.sessions := by
  rw [findByClientId]
  split
  · rfl
  · split <;> rfl

namespace Broker

theorem session?_findByClientId (b : Broker) (clientId : Bytes) (sid : Nat) :
    (b.findByClientId clientId).1.session? sid = b.session? sid := by
  rw [session?, findByClientId]
  exact congrArg (AList.lookup sid) (b.sessionMgr.sessions_findByClientId clientId)

variable (b : Broker) (sid : Nat) (clientId : Bytes) (cleanStart : Bool)

section Rules

variable {P : Broker → Prop} {sid : Nat} {b : Broker} (h : P b)
  (hfind : ∀ b clientId, P b → P (b.findByClientId clientId).1)
include h hfind

/-- What `findByClientId` and the end of another session keep, a CONNECT keeps up to the point
where it is refused or accepted. -/
theorem takeOver_of (hstate : ∀ b old, old ≠ sid → P b → P (b.setState old .disconnecting)) :
    P (b.takeOver sid clientId cleanStart) := by
  have hfound := hfind b clientId h
  rw [takeOver]
  generalize b.findByClientId clientId = found at hfound
  obtain ⟨b', old⟩ := found
  cases old with
  | none => exact hfound
  | some old =>
    dsimp only at hfound ⊢
    split_ifs with hold
    · exact hfound
    · exact hstate b' old hold hfound
    · exact hfound

theorem sessionPresent_of : P (b.sessionPresent sid clientId cleanStart).1 := by
  have hfound := hfind b clientId h
  rw [sessionPresent]
  split
  · exact h
  · generalize b.findByClientId clientId = found at hfound
    obtain ⟨b', existing⟩ := found
    cases existing with
    | none | some existing => exact hfound

theorem discardSubscriptions_of (hremove : ∀ b old, P b → P (b.removeAll old)) :
    P (b.discardSubscriptions sid clientId cleanStart) := by
  have hfound := hfind b clientId h
  rw [discardSubscriptions]
  split
  · generalize b.findByClientId clientId = found at hfound
    obtain ⟨b', existing⟩ := found
    cases existing with
    | none => exact hfound
    | some existing =>
      dsimp only at hfound ⊢
      split
      · exact hremove b' existing hfound
      · exact hfound
  · exact h

end Rules

theorem session?_takeOver : (b.takeOver sid clientId cleanStart).session? sid = b.session? sid :=
  takeOver_of clientId cleanStart (P := fun b' => b'.session? sid = b.session? sid) rfl
    (fun b' clientId => (b'.session?_findByClientId clientId sid).trans)
    fun _ _ hold => (session?_modifySession_of_ne _ _ _ (Ne.symm hold)).trans

theorem session?_sessionPresent (sid' : Nat) :
    (b.sessionPresent sid clientId cleanStart).1.session? sid' = b.session? sid' :=
  sessionPresent_of clientId cleanStart (P := fun b' => b'.session? sid' = b.session? sid') rfl
    fun b' clientId => (b'.session?_findByClientId clientId sid').trans

theorem session?_discardSubscriptions (sid' : Nat) :
    (b.discardSubscriptions sid clientId cleanStart).session? sid' = b.session? sid' :=
  discardSubscriptions_of clientId cleanStart (P := fun b' => b'.session? sid' = b.session? sid')
    rfl (fun b' clientId => (b'.session?_findByClientId clientId sid').trans) fun _ _ => id

theorem session?_bindClientId :
    (b.bindClientId sid clientId).session? sid =
      (b.session? sid).map fun s => { s with clientId } :=
  lookup_modify_self _ _ _

theorem bindings_bindClientId :
    (b.bindClientId sid clientId).bindings = b.bindings ++ [(clientId, sid)] := by
  rw [bindClientId, bindings, log_emit, List.filterMap_append]
  rfl

variable (cfg : MqttServerConfig)

theorem session?_acceptConnect (hs : b.session? sid = some s) (connect : MqttConnectPacket) :
    (b.acceptConnect cfg sid connect clientId).1.session? sid =
      some (establish cfg connect { s with clientId }) := by
  rw [acceptConnect]
  rw [session?_modifySession_self, session?_bindClientId, session?_discardSubscriptions,
    session?_sessionPresent, hs]
  rfl

/-- The packet is a CONNECT that is handled for the session. -/
def connecting? (b : Broker) (sid : Nat) (data : Bytes) : Option MqttConnectPacket :=
  (b.connectBody? sid data).bind decodeConnect

/-- A CONNECT is refused, and the session is not connected, or it is accepted and answered. -/
theorem handleConnect_cases (handler : MqttHandler) {b : Broker} {sid : Nat} {s : MqttSession}
    (hs : b.session? sid = some s) (body : Bytes) :
    (∃ protocolLevel, (b.handleConnect cfg handler sid s body).1.session? sid =
        some { s with protocolLevel, state := .disconnecting }) ∨
      ∃ connect present, decodeConnect body = some connect ∧
        (b.handleConnect cfg handler sid s body).1.session? sid =
          some (establish cfg connect { s with clientId := clientIdFor connect sid }) ∧
        (b.handleConnect cfg handler sid s body).2 =
          encodeConnack (connackFor cfg connect (clientIdFor connect sid) present)
            connect.protocolLevel := by
  have hrefuse : ∀ {b' : Broker} {level : ProtocolLevel} {v5 other : ConnackCode},
      b'.session? sid = some s → ∃ protocolLevel,
        (b'.refuseConnect sid level v5 other).1.session? sid =
          some { s with protocolLevel, state := .disconnecting } := by
    intro b' level v5 other hs'
    refine ⟨level, ?_⟩
    rw [refuseConnect, session?_modifySession_self, hs']
    rfl
  rw [handleConnect]
  cases decodeConnect body with
  | none =>
    refine .inl ⟨s.protocolLevel, ?_⟩
    rw [setState, session?_modifySession_self, hs]
    rfl
  | some connect =>
    dsimp only
    split
    · exact .inl (hrefuse hs)
    split
    · exact .inl (hrefuse hs)
    have hover := b.session?_takeOver sid (clientIdFor connect sid)
      (MqttConnectPacket.hasFlag flagCleanStart connect.connectFlags)
    rw [hs] at hover
    split
    · exact .inl (hrefuse hover)
    split
    · exact .inl (hrefuse hover)
    · exact .inr ⟨connect, _, rfl, session?_acceptConnect _ _ _ cfg hover connect, rfl⟩

/-- What a CONNECT of the session `sid` may do to the other sessions and to the tree. -/
structure Opens (sid : Nat) (b b' : Broker) : Prop where
  terms : ∀ sid', sid' ≠ sid →
    (b'.session? sid').map MqttSession.terms = (b.session? sid').map MqttSession.terms
  connected : ∀ sid' s', sid' ≠ sid → b'.session? sid' = some s' → s'.state = .connected →
    ∃ s, b.session? sid' = some s ∧ s.state = .connected
  single : b.topicTree.Single → b'.topicTree.Single
  owns : ∀ sid', b'.topicTree.Owns sid' → b.topicTree.Owns sid'
  bindings : ∀ binding ∈ b'.bindings, binding ∈ b.bindings ∨ binding.2 = sid

theorem Opens.refl (sid : Nat) (b : Broker) : Opens sid b b :=
  ⟨fun _ _ => rfl, fun _ s' _ hs' hstate => ⟨s', hs', hstate⟩, id, fun _ => id, fun _ => .inl⟩

theorem Opens.trans {sid : Nat} {b b₁ b₂ : Broker} (h : Opens sid b b₁) (h₁ : Opens sid b₁ b₂) :
    Opens sid b b₂ where
  terms sid' hne := (h₁.terms sid' hne).trans (h.terms sid' hne)
  connected sid' s₂ hne hs₂ hstate := by
    obtain ⟨s₁, hs₁, hstate₁⟩ := h₁.connected sid' s₂ hne hs₂ hstate
    exact h.connected sid' s₁ hne hs₁ hstate₁
  single hsingle := h₁.single (h.single hsingle)
  owns sid' howns := h.owns sid' (h₁.owns sid' howns)
  bindings binding hmem := by
    rcases h₁.bindings binding hmem with hmem | hsid
    · exact h.bindings binding hmem
    · exact .inr hsid

theorem opens_of_eq {sid : Nat} {b b' : Broker}
    (hsession : ∀ sid' ≠ sid, b'.session? sid' = b.session? sid')
    (htree : b'.topicTree = b.topicTree)
    (hbindings : ∀ binding ∈ b'.bindings, binding ∈ b.bindings ∨ binding.2 = sid) :
    Opens sid b b' where
  terms sid' hne := by rw [hsession sid' hne]
  connected sid' s' hne hs' hstate := ⟨s', (hsession sid' hne).symm.trans hs', hstate⟩
  single hsingle := by
    rw [htree]
    exact hsingle
  owns sid' howns := by
    rw [htree] at howns
    exact howns
  bindings := hbindings

theorem opens_removeAll (sid : Nat) (b : Broker) (old : Nat) : Opens sid b (b.removeAll old) :=
  ⟨fun _ _ => rfl, fun _ s' _ hs' hstate => ⟨s', hs', hstate⟩, fun h => h.removeAll old,
    fun _ howns => howns.of_removeAll.2, fun _ => .inl⟩

theorem opens_findByClientId (sid : Nat) (b : Broker) (clientId : Bytes) :
    Opens sid b (b.findByClientId clientId).1 :=
  opens_of_eq (fun sid' _ => b.session?_findByClientId clientId sid') rfl fun _ => .inl

theorem opens_modifySession (sid : Nat) (b : Broker) (f : MqttSession → MqttSession) :
    Opens sid b (b.modifySession sid f) :=
  opens_of_eq (fun _ hne => session?_modifySession_of_ne _ _ _ hne) rfl fun _ => .inl

theorem opens_takeOver : Opens sid b (b.takeOver sid clientId cleanStart) := by
  refine takeOver_of clientId cleanStart (P := Opens sid b) (.refl sid b)
    (fun b' clientId h => h.trans (opens_findByClientId sid b' clientId)) fun b' old _ h => ?_
  have hstate : Steady old b' (b'.setState old .disconnecting) :=
    steady_setState old old (by decide)
  exact h.trans ⟨fun sid' _ => hstate.terms sid', fun sid' s' _ => hstate.connected sid' s', id,
    fun _ => id, fun _ => .inl⟩

theorem opens_acceptConnect (connect : MqttConnectPacket) :
    Opens sid b (b.acceptConnect cfg sid connect clientId).1 := by
  have hfind := fun b' clientId (h : Opens sid b b') =>
    h.trans (opens_findByClientId sid b' clientId)
  have hbind : ∀ b : Broker, Opens sid b (b.bindClientId sid clientId) := by
    intro b
    refine opens_of_eq (fun _ hne => lookup_modify_of_ne _ hne _) rfl fun binding hmem => ?_
    rw [bindings_bindClientId, List.mem_append, List.mem_singleton] at hmem
    rcases hmem with hmem | rfl
    · exact .inl hmem
    · exact .inr rfl
  rw [acceptConnect]
  refine (Opens.trans ?_ (hbind _)).trans (opens_modifySession sid _ _)
  exact discardSubscriptions_of _ _ (sessionPresent_of _ _ (.refl sid b) hfind) hfind
    fun b' old h => h.trans (opens_removeAll sid b' old)

theorem opens_handleConnect (handler : MqttHandler) (s : MqttSession) (body : Bytes) :
    Opens sid b (b.handleConnect cfg handler sid s body).1 := by
  rw [handleConnect]
  cases decodeConnect body with
  | none => exact opens_modifySession sid b _
  | some connect =>
    dsimp only
    split
    · exact opens_modifySession sid b _
    split
    · exact opens_modifySession sid b _
    have hover := b.opens_takeOver sid (clientIdFor connect sid)
      (MqttConnectPacket.hasFlag flagCleanStart connect.connectFlags)
    split
    · exact hover.trans (opens_modifySession sid _ _)
    split
    · exact hover.trans (opens_modifySession sid _ _)
    · exact hover.trans (opens_acceptConnect _ sid _ cfg connect)

def connectPacket (clientId : Bytes) (properties : MqttProperties) : Bytes :=
  encodePacket .connect 0 (writeUtf8String (text "MQTT") ++ [5, flagCleanStart] ++ writeU16 60 ++
    encodeProperties properties ++ writeUtf8String clientId)

end Broker

end ServerLib.Mqtt

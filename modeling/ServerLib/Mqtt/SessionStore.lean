import ServerLib.Mqtt.Server

/-! The stored sessions, and what a client finds of its previous session when it comes back.  The
file keeps the filters of a session and their QoS, but the topic tree knows the subscribers by their
session ids, and a session that is read from the file or that takes over a client id has a new
one. -/

namespace ServerLib.Mqtt

open Lib AList List

open MqttConnectPacket (hasFlag)

/-- What `load_from_file` finds of a session in the file.  A member that is not there, or not of its
type, is `none`. -/
structure SavedSession where
  clientId : Option Bytes := none
  protocolLevel : Option UInt8 := none
  state : Option Int := none
  keepAlive : Option UInt16 := none
  cleanStart : Option Bool := none
  sessionExpiryInterval : Option UInt32 := none
  receiveMaximum : Option UInt16 := none
  clientReceiveMaximum : Option UInt16 := none
  maximumPacketSize : Option UInt32 := none
  topicAliasMaximum : Option UInt16 := none
  subscriptions : List (Bytes × UInt8) := []
  willMessage : Option MqttWillMessage := none

def savedState : Option Int → MqttSessionState
  | some 1 => .connecting
  | some 2 => .connected
  | some 3 => .disconnecting
  | _ => .disconnected

def savedQos (qos : UInt8) : QoS := if qos ≤ 2 then QoS.ofBits qos.toNat else .atMostOnce

/-- The session that is made of an item of the file. -/
def SavedSession.load (item : SavedSession) : MqttSession :=
  let fresh : MqttSession := { connection := false }
  { fresh with
    clientId := item.clientId.getD fresh.clientId
    protocolLevel := if item.protocolLevel = some 5 then .v5_0 else .v3_1_1
    state := savedState item.state
    keepAlive := item.keepAlive.getD fresh.keepAlive
    cleanStart := item.cleanStart.getD fresh.cleanStart
    sessionExpiryInterval := item.sessionExpiryInterval.getD fresh.sessionExpiryInterval
    receiveMaximum := item.receiveMaximum.getD fresh.receiveMaximum
    clientReceiveMaximum := item.clientReceiveMaximum.getD fresh.clientReceiveMaximum
    maximumPacketSize := item.maximumPacketSize.getD fresh.maximumPacketSize
    topicAliasMaximum := item.topicAliasMaximum.getD fresh.topicAliasMaximum
    subscriptions :=
      item.subscriptions.foldl (fun m sub => m.insert sub.1 (savedQos sub.2)) fresh.subscriptions
    willMessage := item.willMessage.filter (·.topic ≠ []) }

namespace MqttServer

/-- One round of the loop in `load_from_file`: the session gets the next session id. -/
def loadSession (srv : MqttServer) (item : SavedSession) : MqttServer :=
  let s := item.load
  let m := srv.broker.sessionMgr
  { srv with
    broker.sessionMgr :=
      { sessions := m.sessions.insert srv.nextSessionId s
        clientIdIndex :=
          if s.clientId ≠ [] then m.clientIdIndex.insert s.clientId srv.nextSessionId
          else m.clientIdIndex }
    nextSessionId := srv.nextSessionId + 1 }

/-- `load_session_store`, for a file that is an array. -/
def loadSessionStore (srv : MqttServer) (items : List SavedSession) : MqttServer :=
  items.foldl loadSession { srv with broker.sessionMgr := {} }

end MqttServer

/-- What the subscriptions of the session `existing` are for the session `sid` that comes after it:
one of the new session is found for a topic exactly when a recorded filter matches, and it is the
one that the previous session had, with the recorded QoS. -/
structure Effective (before after : MqttTopicTree) (existing sid : Nat)
    (recorded : AList fun _ : Bytes => QoS) (topic : Bytes) : Prop where
  found : (∃ sub ∈ after.matchTopic topic, sub.sessionId = sid) ↔
    ∃ filter ∈ recorded, filterMatches (actualFilter filter) topic
  same : ∀ sub ∈ after.matchTopic topic, sub.sessionId = sid →
    { sub with sessionId := existing } ∈ before.matchTopic topic ∧
      ∃ filter, recorded.lookup filter = some sub.qos ∧ filterMatches (actualFilter filter) topic

theorem body_eq_of_encodePacket
    (h : encodePacket type flags body = encodePacket type' flags' body') : body = body' := by
  have hread : ∀ body : Bytes,
      readVar 5 (encodeRemainingLength (UInt32.ofNat body.length) ++ body) =
        some ((UInt32.ofNat body.length).toNat, body) := fun body =>
    reads_var le_rfl (by decide) ((UInt32.ofNat body.length).toNat_lt.trans (by decide)) body
  have htail := congrArg (fun packet => (readVar 5 packet).map Prod.snd) (List.cons.inj h).2
  have hboth := (congrArg (Option.map Prod.snd) (hread body)).symm.trans
    (htail.trans (congrArg (Option.map Prod.snd) (hread body')))
  exact Option.some.inj hboth

/-- The answer is a CONNACK that tells the client that its session is there. -/
def SaysPresent (answer : Bytes) : Prop :=
  ∃ connack level, connack.sessionPresent = 1 ∧ answer = encodeConnack connack level

theorem not_saysPresent (cfg : MqttServerConfig) (connect : MqttConnectPacket) (clientId : Bytes)
    (level : ProtocolLevel) :
    ¬SaysPresent (encodeConnack (connackFor cfg connect clientId false) level) := by
  rintro ⟨connack, level', hpresent, hanswer⟩
  have hbody := body_eq_of_encodePacket hanswer
  rw [hpresent] at hbody
  have hbit : (0 : UInt8) &&& 0x01 = 1 &&& 0x01 := (List.cons.inj hbody).1
  exact absurd hbit (by decide)

namespace MqttTopicTree

/-- The subscription is at a node below. -/
def Below (node : Node) (sub : MqttSubscription) : Prop := ∃ path, sub ∈ node.valueAt [] path

theorem Below.of_child {node child : Node} (hchild : node.child k = some child)
    (h : Below child sub) : Below node sub := by
  obtain ⟨path, hpath⟩ := h
  refine ⟨k :: path, ?_⟩
  rw [Trie.valueAt_cons, hchild]
  exact hpath

theorem below_of_mem_multiLevel {node : Node} (h : sub ∈ multiLevelSubscriptions node) :
    Below node sub := by
  rw [multiLevelSubscriptions] at h
  split at h
  · rename_i multi hmulti
    exact .of_child hmulti ⟨[], h⟩
  · exact absurd h not_mem_nil

theorem below_of_mem_matchRecursive {node : Node} (h : sub ∈ matchRecursive node levels) :
    Below node sub := by
  induction levels generalizing node with
  | nil =>
    rcases mem_append.mp h with h | h
    · exact ⟨[], h⟩
    · exact below_of_mem_multiLevel h
  | cons current rest ih =>
    simp only [matchRecursive, mem_append] at h
    rcases h with (h | h) | h
    · split at h
      · exact .of_child (by assumption) (ih h)
      · exact absurd h not_mem_nil
    · split at h
      · exact .of_child (by assumption) (ih h)
      · exact absurd h not_mem_nil
    · exact below_of_mem_multiLevel h

/-- What is found for a topic belongs to a session that owns a subscription. -/
theorem owns_of_mem_matchTopic {t : MqttTopicTree} (h : sub ∈ t.matchTopic topic) :
    t.Owns sub.sessionId := by
  have hbelow : Below t.root sub := by
    rw [matchTopic] at h
    split at h
    · exact absurd h not_mem_nil
    · split at h
      · split at h
        · exact .of_child (by assumption) (below_of_mem_matchRecursive h)
        · exact absurd h not_mem_nil
      · exact below_of_mem_matchRecursive h
  obtain ⟨path, hpath⟩ := hbelow
  exact ⟨path, ne_nil_of_mem (mem_filter.mpr ⟨hpath, by simp⟩)⟩

end MqttTopicTree

namespace Broker

variable (b : Broker) (sid : Nat) (clientId : Bytes) (cleanStart : Bool)

theorem topicTree_takeOver : (b.takeOver sid clientId cleanStart).topicTree = b.topicTree :=
  takeOver_of clientId cleanStart (P := fun b' => b'.topicTree = b.topicTree) rfl
    (fun _ _ h => h) fun _ _ _ h => h

theorem topicTree_sessionPresent :
    (b.sessionPresent sid clientId cleanStart).1.topicTree = b.topicTree :=
  sessionPresent_of clientId cleanStart (P := fun b' => b'.topicTree = b.topicTree) rfl
    fun _ _ h => h

/-- A CONNECT that finds the session of the client leaves the tree as it is. -/
theorem topicTree_handleConnect (cfg : MqttServerConfig) (handler : MqttHandler) (s : MqttSession)
    (body : Bytes) (h : SaysPresent (b.handleConnect cfg handler sid s body).2) :
    (b.handleConnect cfg handler sid s body).1.topicTree = b.topicTree := by
  rw [handleConnect] at h ⊢
  cases hdecode : decodeConnect body with
  | none => rfl
  | some connect =>
    rw [hdecode] at h
    dsimp only at h ⊢
    have hover := b.topicTree_takeOver sid (clientIdFor connect sid)
      (hasFlag flagCleanStart connect.connectFlags)
    generalize b.takeOver sid (clientIdFor connect sid)
      (hasFlag flagCleanStart connect.connectFlags) = b' at h hover
    split_ifs at h ⊢
    · rfl
    · exact hover
    · exact hover
    · rw [acceptConnect] at h ⊢
      cases hclean : hasFlag flagCleanStart connect.connectFlags with
      | true =>
        rw [hclean] at h
        exact absurd h (not_saysPresent cfg connect _ _)
      | false => exact (b'.topicTree_sessionPresent sid _ false).trans hover
    · rfl

end Broker

namespace MqttServer

variable (cfg : MqttServerConfig)

/-- The first CONNECT of a connection. If its CONNACK says that a session is present, the
subscriptions that are recorded for the session of the client are effective for the new one exactly
if they match nothing. -/
def Resumes (srv : MqttServer) : ServerEvent → Prop
  | .decode sid handler =>
    ∀ c ∈ srv.connections.lookup sid, c.firstPacket → ∀ packet ∈ c.packet?,
      ∀ connect ∈ srv.broker.connecting? sid packet.2,
        let out := srv.broker.dispatch cfg handler sid packet.2
        SaysPresent out.2 →
        ∀ existing ∈ (srv.broker.findByClientId (clientIdFor connect sid)).2,
        ∀ old ∈ srv.broker.session? existing,
          ((∀ topic, validateTopicName topic →
              Effective srv.broker.topicTree out.1.topicTree existing sid old.subscriptions topic) ↔
            ∀ topic, validateTopicName topic →
              ∀ filter ∈ old.subscriptions, ¬filterMatches (actualFilter filter) topic)
  | _ => True

/-- Before the first packet of a connection, its session owns no subscription. -/
structure Fresh (srv : MqttServer) : Prop where
  single : srv.broker.topicTree.Single
  unowned : ∀ sid c, srv.connections.lookup sid = some c → c.firstPacket →
    ¬srv.broker.topicTree.Owns sid
  owners : ∀ sid, srv.broker.topicTree.Owns sid → sid < srv.nextSessionId
  accepted : ∀ sid c, srv.connections.lookup sid = some c → sid < srv.nextSessionId

variable {srv : MqttServer}

theorem Fresh.resumes (h : srv.Fresh) (event : ServerEvent) : srv.Resumes cfg event := by
  cases event with
  | decode sid handler =>
    intro c hc hfirst packet hpacket connect hconnect out hpresent existing _ old _
    have hnew : ∀ topic, ∀ sub ∈ srv.broker.topicTree.matchTopic topic, sub.sessionId ≠ sid := by
      rintro topic sub hsub rfl
      exact h.unowned _ c hc hfirst (MqttTopicTree.owns_of_mem_matchTopic hsub)
    have htree : out.1.topicTree = srv.broker.topicTree := by
      rcases Broker.dispatch_cases cfg handler srv.broker sid packet.2 with
        ⟨_, hnone⟩ | ⟨s, body, _, _, _, hstep⟩
      · simp [Broker.connecting?, hnone] at hconnect
      · have hout : out = _ := hstep
        rw [hout] at hpresent ⊢
        exact srv.broker.topicTree_handleConnect sid cfg handler s body hpresent
    rw [htree]
    refine forall₂_congr fun topic htopic =>
      ⟨fun h filter hfilter hmatches => ?_, fun h => ⟨?_, ?_⟩⟩
    · obtain ⟨sub, hsub, hsid⟩ := h.found.mpr ⟨filter, hfilter, hmatches⟩
      exact hnew topic sub hsub hsid
    · refine iff_of_false ?_ ?_
      · rintro ⟨sub, hsub, hsid⟩
        exact hnew topic sub hsub hsid
      · rintro ⟨filter, hfilter, hmatches⟩
        exact h filter hfilter hmatches
    · exact fun sub hsub hsid => absurd hsid (hnew topic sub hsub)
  | _ => trivial

theorem Fresh.setConnection (h : srv.Fresh) (hc : srv.connections.lookup sid = some c)
    {broker : Broker} (hsingle : broker.topicTree.Single)
    (howns : ∀ sid', broker.topicTree.Owns sid' →
      srv.broker.topicTree.Owns sid' ∨ sid' = sid ∧ c'.firstPacket = false)
    (hfirst : c'.firstPacket → c.firstPacket) :
    Fresh ({ srv with broker }.setConnection sid c') := by
  have hknown := h.accepted sid c hc
  refine ⟨hsingle, fun sid' c₁ hc₁ hfirst₁ howns' => ?_, fun sid' howns' => ?_,
    fun sid' c₁ hc₁ => ?_⟩
  · by_cases hsid : sid' = sid
    · subst hsid
      obtain rfl : c' = c₁ := Option.some.inj ((lookup_insert _).symm.trans hc₁)
      rcases howns sid' howns' with hold | ⟨_, hnot⟩
      · exact h.unowned sid' c hc (hfirst hfirst₁) hold
      · exact Bool.false_ne_true (hnot.symm.trans hfirst₁)
    · rcases howns sid' howns' with hold | ⟨hsame, _⟩
      · exact h.unowned sid' c₁ ((lookup_insert_ne hsid).symm.trans hc₁) hfirst₁ hold
      · exact hsid hsame
  · rcases howns sid' howns' with hold | ⟨rfl, _⟩
    · exact h.owners sid' hold
    · exact hknown
  · by_cases hsid : sid' = sid
    · exact hsid ▸ hknown
    · exact h.accepted sid' c₁ ((lookup_insert_ne hsid).symm.trans hc₁)

theorem Fresh.setPhase (h : srv.Fresh) (hc : srv.connections.lookup sid = some c)
    {c' : Connection} (hfirst : c'.firstPacket → c.firstPacket) :
    (srv.setConnection sid c').Fresh :=
  h.setConnection hc h.single (fun _ => .inl) hfirst

theorem fresh_accept (h : srv.Fresh) : srv.accept.Fresh := by
  have hold : ∀ {sid c}, sid ≠ srv.nextSessionId → srv.accept.connections.lookup sid = some c →
      srv.connections.lookup sid = some c := fun hsid hc => (lookup_insert_ne hsid).symm.trans hc
  refine ⟨h.single, fun sid c hc hfirst howns => ?_, fun sid howns => ?_, fun sid c hc => ?_⟩
  · have hlt : sid < srv.nextSessionId := h.owners sid howns
    exact h.unowned sid c (hold hlt.ne hc) hfirst howns
  · exact Nat.lt_succ_of_lt (h.owners sid howns)
  · by_cases hsid : sid = srv.nextSessionId
    · rw [hsid]
      exact Nat.lt_succ_self _
    · exact Nat.lt_succ_of_lt (h.accepted sid c (hold hsid hc))

theorem fresh_dispatchPacket (handler : MqttHandler) (h : srv.Fresh)
    (hc : srv.connections.lookup sid = some c) (packet : Bytes) :
    (srv.dispatchPacket cfg handler sid c packet).Fresh := by
  rw [dispatchPacket]
  rcases Broker.dispatch_cases cfg handler srv.broker sid packet with
    ⟨hsteady, _⟩ | ⟨s, body, _, _, _, hstep⟩
  · refine h.setConnection hc (hsteady.single h.single) (fun sid' howns => ?_)
      fun hfirst => by cases hfirst
    exact (hsteady.owns h.single sid' howns).imp_right fun hsid => ⟨hsid, rfl⟩
  · have hopens := srv.broker.opens_handleConnect sid cfg handler s body
    rw [hstep]
    exact h.setConnection hc (hopens.single h.single)
      (fun sid' howns => .inl (hopens.owns sid' howns))
      fun hfirst => by cases hfirst

theorem fresh_cleanupSession (h : srv.Fresh) (hc : srv.connections.lookup sid = some c)
    (elapsed : Nat) : (srv.cleanupSession sid c elapsed).Fresh := by
  have hsteady : Broker.Steady sid srv.broker (if c.everConnected then
      srv.broker.onSessionClosed sid elapsed else srv.broker.setState sid .disconnected) := by
    split
    · exact steady_onSessionClosed _ _ _
    · exact Broker.steady_setState sid sid (by decide)
  have hold : ∀ {sid' c'}, (srv.connections.erase sid).lookup sid' = some c' →
      sid' ≠ sid ∧ srv.connections.lookup sid' = some c' := by
    intro sid' c' hc'
    have hsid : sid' ≠ sid := by
      rintro rfl
      cases (lookup_erase _ _).symm.trans hc'
    exact ⟨hsid, (lookup_erase_ne hsid).symm.trans hc'⟩
  refine ⟨hsteady.single h.single, fun sid' c' hc' hfirst howns => ?_, fun sid' howns => ?_,
    fun sid' c' hc' => h.accepted sid' c' (hold hc').2⟩
  · rcases hsteady.owns h.single sid' howns with howns | hsid
    · exact h.unowned sid' c' (hold hc').2 hfirst howns
    · exact (hold hc').1 hsid
  · rcases hsteady.owns h.single sid' howns with howns | rfl
    · exact h.owners sid' howns
    · exact h.accepted sid' c hc

theorem fresh_step (h : srv.Fresh) (event : ServerEvent) : (srv.serverStep cfg event).Fresh := by
  cases event with
  | accept => exact fresh_accept h
  | read sid data | written sid | closed sid => exact resume_of h fun c hc _ => h.setPhase hc id
  | decode sid handler =>
    refine resume_of h fun c hc _ => decode_of cfg handler (fun phase => h.setPhase hc id) ?_
    exact fun packet _ => fresh_dispatchPacket cfg handler h hc packet.2
  | cleanup sid elapsed =>
    exact resume_of h fun c hc _ => fresh_cleanupSession h hc elapsed

theorem fresh_loadSessionStore (items : List SavedSession) : (loadSessionStore {} items).Fresh := by
  have hloaded : ∀ (srv : MqttServer), srv.broker.topicTree = {} → srv.connections = ∅ →
      (items.foldl loadSession srv).broker.topicTree = {} ∧
        (items.foldl loadSession srv).connections = ∅ := by
    induction items with
    | nil => exact fun srv htree hnone => ⟨htree, hnone⟩
    | cons item items ih => exact fun srv htree hnone => ih (srv.loadSession item) htree hnone
  obtain ⟨htree, hnone⟩ := hloaded { ({} : MqttServer) with broker.sessionMgr := {} } rfl rfl
  have hlookup : ∀ sid c, (loadSessionStore {} items).connections.lookup sid ≠ some c := by
    intro sid c hc
    rw [loadSessionStore, hnone] at hc
    cases hc
  have howns : ∀ sid, ¬(loadSessionStore {} items).broker.topicTree.Owns sid := by
    intro sid
    rw [loadSessionStore, htree]
    exact MqttTopicTree.not_owns_new sid
  refine ⟨?_, fun sid c hc => absurd hc (hlookup sid c), fun sid h => absurd h (howns sid),
    fun sid c hc => absurd hc (hlookup sid c)⟩
  rw [loadSessionStore, htree]
  exact MqttTopicTree.single_new

/-- After a start with any session file, in every run of the connections, a client that is told that
its session is present has the subscriptions of this session exactly if they match nothing. -/
theorem resumes_run (items : List SavedSession) (events : List ServerEvent) :
    Along (serverStep cfg) (Resumes cfg) (loadSessionStore {} items) events :=
  along_of_invariant (I := Fresh) (fun _ event h _ => fresh_step cfg h event)
    (fun _ event h _ => h.resumes cfg event) (fresh_loadSessionStore items)
    (along_of_forall (serverStep cfg) (C := fun _ _ => True) (fun _ _ => trivial) _ events)

/-- CONNECT of the client without a clean start. -/
def comeBack : Bytes :=
  encodePacket .connect 0 (writeUtf8String (text "MQTT") ++ [5, 0] ++ writeU16 60 ++
    encodeProperties {} ++ writeUtf8String (text "c"))

/-- A new server has read a stored session with one subscription, and its client sends CONNECT. -/
def restored : MqttServer :=
  let item : SavedSession :=
    { clientId := some (text "c"), sessionExpiryInterval := some 60,
      subscriptions := [(text "a", 1)] }
  run (serverStep {}) (loadSessionStore {} [item]) [.accept, .read 2 comeBack]

/-- The client had subscribed to a topic, is told that its session is there, and gets nothing. -/
theorem not_effective_restored :
    SaysPresent (restored.broker.dispatch {} {} 2 comeBack).2 ∧
      ∃ old, restored.broker.session? 1 = some old ∧
        (restored.broker.findByClientId old.clientId).2 = some 1 ∧
        ¬∀ topic, validateTopicName topic → Effective restored.broker.topicTree
          (restored.serverStep {} (.decode 2 {})).broker.topicTree 1 2 old.subscriptions topic := by
  refine ⟨⟨connackFor {} { protocolLevel := .v5_0, keepAlive := 60 } (text "c") true, .v5_0, rfl,
    by decide +kernel⟩, _, rfl, by decide +kernel, fun h => ?_⟩
  have hfound := (h (text "a") (by decide +kernel)).found.mpr
    ⟨text "a", AList.mem_insert _ |>.mpr (.inl rfl), by decide +kernel⟩
  exact absurd hfound (by decide +kernel)

end MqttServer

end ServerLib.Mqtt

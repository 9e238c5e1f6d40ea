import ServerLib.Mqtt.Bindings

/-! The server.  Every connection has a coroutine that makes a session, reads packets, has them
dispatched one by one, and cleans the session up at the end.  The steps of one coroutine are taken
one by one here, so that those of the others may come between any two of them. -/

namespace ServerLib.Mqtt

open Lib AList Option

/-- Where the coroutine of a connection is: it waits for data, looks at its buffer, waits until an
answer is written, waits until it is written that a packet was too large, or is about to clean
up. -/
inductive Phase
  | reading
  | decoding
  | answering
  | refusing
  | closing
deriving DecidableEq

/-- The variables of `handle_connection`. -/
structure Connection where
  phase : Phase := .reading
  recvBuf : Bytes := []
  firstPacket : Bool := true
  everConnected : Bool := false

/-- The session ids come from a counter. -/
structure MqttServer where
  broker : Broker := {}
  nextSessionId : Nat := 1
  connections : AList (fun _ : Nat => Connection) := ∅

/-- What may happen to the server. -/
inductive ServerEvent
  | accept
  | read (sid : Nat) (data : Bytes)
  | decode (sid : Nat) (handler : MqttHandler)
  | written (sid : Nat)
  | closed (sid : Nat)
  | cleanup (sid : Nat) (elapsed : Nat)

namespace Broker

variable (b : Broker) (sid : Nat)

def stateIn (states : List MqttSessionState) : Bool :=
  (b.session? sid).any fun s => s.state ∈ states

/-- What comes after an answer. -/
def afterAnswer : Phase :=
  if b.stateIn sid [.disconnected, .disconnecting] then .closing else .decoding

/-- What comes after a packet that is too large: only version 5 has a DISCONNECT for it. -/
def tooLarge : Phase :=
  if (b.session? sid).any (·.protocolLevel = .v5_0) then .refusing else .closing

def removeSession (b : Broker) (sid : Nat) : Broker :=
  { b with sessionMgr := b.sessionMgr.removeSession sid }

end Broker

/-- The first packet in the buffer, once all of it is there. -/
def Connection.packet? (c : Connection) : Option (PacketType × Bytes) :=
  (tryDecode c.recvBuf).map fun (type, len) => (type, c.recvBuf.take len)

namespace MqttServer

variable (cfg : MqttServerConfig)

variable (srv : MqttServer)

def setConnection (sid : Nat) (c : Connection) : MqttServer :=
  { srv with connections := srv.connections.insert sid c }

/-- The step of a coroutine that is in one of the phases. -/
def resume (sid : Nat) (phases : List Phase) (f : Connection → MqttServer) : MqttServer :=
  match srv.connections.lookup sid with
  | none => srv
  | some c => if c.phase ∈ phases then f c else srv

/-- `create_session_owner`. -/
def accept : MqttServer where
  broker :=
    { srv.broker with
      sessionMgr.sessions :=
        srv.broker.sessionMgr.sessions.insert srv.nextSessionId { state := .connecting } }
  nextSessionId := srv.nextSessionId + 1
  connections := srv.connections.insert srv.nextSessionId {}

def dispatchPacket (handler : MqttHandler) (srv : MqttServer) (sid : Nat) (c : Connection)
    (packet : Bytes) : MqttServer :=
  let answered := srv.broker.dispatch cfg handler sid packet
  { srv with broker := answered.1 }.setConnection sid
    { phase := if answered.2 = [] then answered.1.afterAnswer sid else .answering
      recvBuf := c.recvBuf.drop packet.length
      firstPacket := false
      everConnected := c.everConnected || answered.1.stateIn sid [.connected] }

/-- One round of the inner loop of `handle_connection`, up to the point where it waits. -/
def decode (handler : MqttHandler) (srv : MqttServer) (sid : Nat) (c : Connection) : MqttServer :=
  match c.packet? with
  | none =>
    if cfg.maxPacketSize.toNat < c.recvBuf.length then
      srv.setConnection sid { c with phase := srv.broker.tooLarge sid }
    else srv.setConnection sid { c with phase := .reading }
  | some (type, packet) =>
    if cfg.maxPacketSize.toNat < packet.length then
      srv.setConnection sid { c with phase := srv.broker.tooLarge sid }
    else if c.firstPacket ∧ type ≠ .connect then srv.setConnection sid { c with phase := .closing }
    else if type ≠ .connect ∧ !srv.broker.stateIn sid [.connected] then
      srv.setConnection sid { c with phase := .closing }
    else srv.dispatchPacket cfg handler sid c packet

def cleanupSession (sid : Nat) (c : Connection) (elapsed : Nat) : MqttServer :=
  let broker :=
    if c.everConnected then srv.broker.onSessionClosed sid elapsed
    else srv.broker.setState sid .disconnected
  { srv with broker := broker.removeSession sid, connections := srv.connections.erase sid }

def serverStep : ServerEvent → MqttServer
  | .accept => srv.accept
  | .read sid data =>
    srv.resume sid [.reading] fun c =>
      srv.setConnection sid { c with phase := .decoding, recvBuf := c.recvBuf ++ data }
  | .decode sid handler => srv.resume sid [.decoding] fun c => srv.decode cfg handler sid c
  | .written sid =>
    srv.resume sid [.answering, .refusing] fun c =>
      srv.setConnection sid
        { c with phase := if c.phase = .answering then srv.broker.afterAnswer sid else .closing }
  | .closed sid =>
    srv.resume sid [.reading] fun c => srv.setConnection sid { c with phase := .closing }
  | .cleanup sid elapsed =>
    srv.resume sid [.closing] fun c => srv.cleanupSession sid c elapsed

end MqttServer

/-- Who owns a subscription is there, and who got a client id last is found by it, if it is
there. -/
structure Broker.Tidy (b : Broker) : Prop where
  owners : ∀ sid, b.topicTree.Owns sid → (b.session? sid).isSome
  clients : ∀ clientId sid, lastBound b.bindings clientId = some sid → (b.session? sid).isSome →
    (b.findByClientId clientId).2 = some sid

namespace MqttServer

/-- A session that is cleaned up has no expiry interval or owns no subscriptions, and one that is
connected a second time keeps its client id. -/
def Orderly (srv : MqttServer) : ServerEvent → Prop
  | .decode sid _ =>
    ∀ c ∈ srv.connections.lookup sid, c.phase = .decoding → ∀ packet ∈ c.packet?,
      ∀ connect ∈ srv.broker.connecting? sid packet.2, ∀ s ∈ srv.broker.session? sid,
        s.clientId = [] ∨ s.clientId = clientIdFor connect sid
  | .cleanup sid _ =>
    ∀ c ∈ srv.connections.lookup sid, c.phase = .closing → ∀ s ∈ srv.broker.session? sid,
      s.sessionExpiryInterval = 0 ∨ ¬srv.broker.topicTree.Owns sid
  | _ => True

def EverConnected (srv : MqttServer) (sid : Nat) : Prop :=
  ∃ c, srv.connections.lookup sid = some c ∧ c.everConnected = true

structure Sound (srv : MqttServer) : Prop where
  single : srv.broker.topicTree.Single
  owns : ∀ sid, srv.broker.topicTree.Owns sid → srv.EverConnected sid
  connected : ∀ sid s, srv.broker.session? sid = some s → s.state = .connected →
    srv.EverConnected sid
  present : ∀ sid, (srv.connections.lookup sid).isSome = (srv.broker.session? sid).isSome
  known : ∀ sid, (srv.broker.session? sid).isSome → sid < srv.nextSessionId
  boundKnown : ∀ binding ∈ srv.broker.bindings, binding.2 < srv.nextSessionId
  bound : srv.broker.Bound

theorem Sound.tidy {srv : MqttServer} (h : srv.Sound) : srv.broker.Tidy where
  owners sid howns := by
    obtain ⟨c, hc, _⟩ := h.owns sid howns
    rw [← h.present sid, hc]
    rfl
  clients clientId sid hlast hs := by
    obtain ⟨s, hs⟩ := isSome_iff_exists.mp hs
    exact h.bound.findByClientId_snd hlast hs

theorem sound_new : ({} : MqttServer).Sound where
  single := MqttTopicTree.single_new
  owns sid howns := absurd howns (MqttTopicTree.not_owns_new sid)
  connected sid s hs := by cases hs
  present sid := rfl
  known sid hs := by cases hs
  boundKnown binding hmem := by cases hmem
  bound := ⟨fun _ hmem => (List.not_mem_nil hmem).elim, fun _ _ _ hlast => by cases hlast⟩

section Steps

variable {srv : MqttServer}

theorem EverConnected.setConnection (h : srv.EverConnected sid')
    (hc : sid' = sid → c.everConnected) : (srv.setConnection sid c).EverConnected sid' := by
  by_cases hsid : sid' = sid
  · subst hsid
    exact ⟨c, lookup_insert _, hc rfl⟩
  · obtain ⟨c', hc', hever⟩ := h
    exact ⟨c', (lookup_insert_ne hsid).trans hc', hever⟩

theorem Sound.setConnection (h : srv.Sound) (hc : srv.connections.lookup sid = some c)
    {broker : Broker} (hsingle : broker.topicTree.Single)
    (howns : ∀ sid', broker.topicTree.Owns sid' → srv.broker.topicTree.Owns sid' ∨
      sid' = sid ∧ c'.everConnected)
    (hconnected : ∀ sid' s', broker.session? sid' = some s' → s'.state = .connected →
      srv.EverConnected sid' ∨ sid' = sid ∧ c'.everConnected)
    (hpresent : ∀ sid', (broker.session? sid').isSome = (srv.broker.session? sid').isSome)
    (hbindings : ∀ binding ∈ broker.bindings, binding ∈ srv.broker.bindings ∨ binding.2 = sid)
    (hbound : broker.Bound) (hever : c.everConnected → c'.everConnected) :
    Sound ({ srv with broker }.setConnection sid c') := by
  have hsame : ∀ sid', srv.EverConnected sid' ∨ sid' = sid ∧ c'.everConnected →
      ({ srv with broker }.setConnection sid c').EverConnected sid' := by
    rintro sid' (hever' | ⟨rfl, hever'⟩)
    · have hlater : EverConnected { srv with broker } sid' := hever'
      refine hlater.setConnection ?_
      rintro rfl
      obtain ⟨c₁, hc₁, hever₁⟩ := hever'
      rw [hc] at hc₁
      cases hc₁
      exact hever hever₁
    · exact ⟨c', lookup_insert _, hever'⟩
  have hknown : sid < srv.nextSessionId := by
    apply h.known sid
    rw [← h.present sid, hc]
    rfl
  constructor
  · exact hsingle
  · intro sid' howns'
    exact hsame sid' ((howns sid' howns').imp_left (h.owns sid'))
  · intro sid' s' hs' hstate
    exact hsame sid' (hconnected sid' s' hs' hstate)
  · intro sid'
    change ((srv.connections.insert sid c').lookup sid').isSome = (broker.session? sid').isSome
    rw [hpresent]
    by_cases hsid : sid' = sid
    · subst hsid
      rw [lookup_insert, ← h.present, hc]
      rfl
    · rw [lookup_insert_ne hsid]
      exact h.present sid'
  · intro sid' hs'
    exact h.known sid' ((hpresent sid').symm.trans hs')
  · intro binding hmem
    rcases hbindings binding hmem with hmem | hsid
    · exact h.boundKnown binding hmem
    · rw [hsid]
      exact hknown
  · exact hbound

theorem Sound.setPhase (h : srv.Sound) (hc : srv.connections.lookup sid = some c)
    {c' : Connection} (hever : c.everConnected → c'.everConnected) :
    (srv.setConnection sid c').Sound :=
  h.setConnection hc h.single (fun _ => .inl)
    (fun sid' s' hs' hstate => .inl (h.connected sid' s' hs' hstate)) (fun _ => rfl) (fun _ => .inl)
    h.bound hever

theorem sound_accept (h : srv.Sound) : srv.accept.Sound := by
  have hnew : srv.broker.session? srv.nextSessionId = none := by
    by_contra hsome
    exact absurd (h.known _ (ne_none_iff_isSome.mp hsome)) (lt_irrefl _)
  have hold : ∀ {sid}, sid ≠ srv.nextSessionId →
      srv.accept.broker.session? sid = srv.broker.session? sid := fun hsid =>
    lookup_insert_ne hsid
  have hself : srv.accept.broker.session? srv.nextSessionId = some { state := .connecting } :=
    lookup_insert _
  have hever : ∀ {sid}, srv.EverConnected sid → srv.accept.EverConnected sid := by
    rintro sid ⟨c, hc, hever⟩
    have hsid : sid ≠ srv.nextSessionId := by
      rintro rfl
      have hpresent := h.present srv.nextSessionId
      rw [hc, hnew] at hpresent
      cases hpresent
    exact ⟨c, (lookup_insert_ne hsid).trans hc, hever⟩
  constructor
  · exact h.single
  · intro sid howns
    exact hever (h.owns sid howns)
  · intro sid s hs hstate
    by_cases hsid : sid = srv.nextSessionId
    · rw [hsid, hself] at hs
      cases hs
      cases hstate
    · rw [hold hsid] at hs
      exact hever (h.connected sid s hs hstate)
  · intro sid
    change ((srv.connections.insert srv.nextSessionId {}).lookup sid).isSome = _
    by_cases hsid : sid = srv.nextSessionId
    · rw [hsid, hself, lookup_insert]
      rfl
    · rw [hold hsid, lookup_insert_ne hsid]
      exact h.present sid
  · intro sid hs
    by_cases hsid : sid = srv.nextSessionId
    · rw [hsid]
      exact Nat.lt_succ_self _
    · rw [hold hsid] at hs
      exact Nat.lt_succ_of_lt (h.known sid hs)
  · intro binding hmem
    exact Nat.lt_succ_of_lt (h.boundKnown binding hmem)
  · refine ⟨h.bound.named, fun clientId sid s hlast hs => ?_⟩
    have hsid : sid ≠ srv.nextSessionId := by
      rintro rfl
      exact absurd (h.boundKnown _ (mem_of_lastBound hlast)) (lt_irrefl _)
    rw [hold hsid] at hs
    exact h.bound.index clientId sid s hlast hs

theorem isSome_of_terms {b b' : Broker}
    (h : (b'.session? sid).map MqttSession.terms = (b.session? sid).map MqttSession.terms) :
    (b'.session? sid).isSome = (b.session? sid).isSome := by
  rw [← isSome_map (f := MqttSession.terms), h, isSome_map]

theorem isSome_dispatch (cfg : MqttServerConfig) (handler : MqttHandler) (b : Broker) (sid : Nat)
    (data : Bytes) (sid' : Nat) :
    ((b.dispatch cfg handler sid data).1.session? sid').isSome = (b.session? sid').isSome := by
  rcases Broker.dispatch_cases cfg handler b sid data with
    ⟨hsteady, _⟩ | ⟨s, body, hs, _, _, hstep⟩
  · exact isSome_of_terms (hsteady.terms sid')
  · rw [hstep]
    by_cases hsid : sid' = sid
    · subst hsid
      rw [hs]
      rcases Broker.handleConnect_cases cfg handler hs body with
        ⟨protocolLevel, hrefused⟩ | ⟨connect, present, _, haccepted, _⟩
      · rw [hrefused]
        rfl
      · rw [haccepted]
        rfl
    · exact isSome_of_terms ((b.opens_handleConnect sid cfg handler s body).terms sid' hsid)

theorem sound_dispatchPacket (cfg : MqttServerConfig) (handler : MqttHandler) (h : srv.Sound)
    (hc : srv.connections.lookup sid = some c) {packet : Bytes}
    (hnew : ∀ connect ∈ srv.broker.connecting? sid packet, ∀ s ∈ srv.broker.session? sid,
      s.clientId = [] ∨ s.clientId = clientIdFor connect sid) :
    (srv.dispatchPacket cfg handler sid c packet).Sound := by
  have hpresent := isSome_dispatch cfg handler srv.broker sid packet
  have hstate : ∀ {b : Broker} {s : MqttSession}, b.session? sid = some s → s.state = .connected →
      b.stateIn sid [.connected] := by
    intro b s hs hstate
    simp [Broker.stateIn, hs, hstate]
  rw [dispatchPacket]
  rcases Broker.dispatch_cases cfg handler srv.broker sid packet with
    ⟨hsteady, hconnect⟩ | ⟨s, body, hs, _, hbody, hstep⟩
  · refine h.setConnection hc (hsteady.single h.single) ?_ ?_ hpresent ?_ (h.bound.steady hsteady)
      (fun hever => by rw [hever]; rfl)
    · intro sid' howns
      by_cases hsid : sid' = sid
      · -- a session that subscribes is connected, and was so before
        subst hsid
        cases hs : srv.broker.session? sid' with
        | none =>
          have hsome := h.present sid'
          rw [hc, hs] at hsome
          cases hsome
        | some s =>
          by_cases hconnected : s.state = .connected
          · obtain ⟨c₁, hc₁, hever⟩ := h.connected sid' s hs hconnected
            rw [hc] at hc₁
            cases hc₁
            refine .inr ⟨rfl, ?_⟩
            rw [hever]
            rfl
          · rw [Broker.topicTree_dispatch cfg handler hs hconnected hconnect] at howns
            exact .inl howns
      · rcases hsteady.owns h.single sid' howns with howns | hsame
        · exact .inl howns
        · exact absurd hsame hsid
    · intro sid' s' hs' hconnected
      obtain ⟨s, hs, hconnected⟩ := hsteady.connected sid' s' hs' hconnected
      exact .inl (h.connected sid' s hs hconnected)
    · intro binding hmem
      rw [hsteady.bindings] at hmem
      exact .inl hmem
  · have hopens := srv.broker.opens_handleConnect sid cfg handler s body
    rw [hstep] at hpresent ⊢
    refine h.setConnection hc (hopens.single h.single) ?_ ?_ hpresent hopens.bindings ?_
      (fun hever => by rw [hever]; rfl)
    · intro sid' howns
      exact .inl (hopens.owns sid' howns)
    · intro sid' s' hs' hconnected
      by_cases hsid : sid' = sid
      · subst hsid
        refine .inr ⟨rfl, ?_⟩
        rw [hstate hs' hconnected, Bool.or_true]
      · obtain ⟨s₁, hs₁, hconnected₁⟩ := hopens.connected sid' s' hsid hs' hconnected
        exact .inl (h.connected sid' s₁ hs₁ hconnected₁)
    · refine h.bound.handleConnect cfg handler hs fun connect hdecode => hnew connect ?_ s hs
      rw [Broker.connecting?, hbody]
      exact hdecode

/-- A round of the inner loop sets the phase of the connection or dispatches its packet. -/
theorem decode_of (cfg : MqttServerConfig) (handler : MqttHandler) {P : MqttServer → Prop}
    {c : Connection}
    (hphase : ∀ phase, P (srv.setConnection sid { c with phase }))
    (hdispatch : ∀ packet ∈ c.packet?, P (srv.dispatchPacket cfg handler sid c packet.2)) :
    P (srv.decode cfg handler sid c) := by
  rw [decode]
  split
  · split <;> exact hphase _
  · rename_i type packet hpacket
    split
    · exact hphase _
    split
    · exact hphase _
    split
    · exact hphase _
    · exact hdispatch (type, packet) hpacket

theorem resume_of {P : MqttServer → Prop} (h : P srv)
    (hf : ∀ c, srv.connections.lookup sid = some c → c.phase ∈ phases → P (f c)) :
    P (srv.resume sid phases f) := by
  rw [resume]
  split
  · exact h
  · rename_i c hc
    split_ifs with hphase
    · exact hf c hc hphase
    · exact h

end Steps

section Cleanup

variable {b : Broker}

theorem steady_sendWillMessage (b : Broker) (sid : Nat) (s : MqttSession) :
    Broker.Steady sid b (b.sendWillMessage sid s) := by
  rw [Broker.sendWillMessage]
  split
  · exact Broker.Steady.refl sid b
  · exact (((Broker.writes_publishToSubscribers sid _ b).steady sid).trans
      (Broker.steady_retain sid _ _)).trans
      (Broker.steady_modifySession sid fun _ _ => ⟨rfl, id⟩)

theorem topicTree_sendWillMessage (b : Broker) (sid : Nat) (s : MqttSession) :
    (b.sendWillMessage sid s).topicTree = b.topicTree := by
  rw [Broker.sendWillMessage]
  split
  · rfl
  rename_i will _
  have hpublish := (Broker.writes_publishToSubscribers sid (willPublish s.protocolLevel will)
    b).topicTree
  rw [← hpublish]
  change (Broker.retain _ _ _).topicTree = _
  rw [Broker.retain]
  split <;> rfl

theorem steady_onSessionClosed (b : Broker) (sid elapsed : Nat) :
    Broker.Steady sid b (b.onSessionClosed sid elapsed) := by
  rw [Broker.onSessionClosed]
  split
  · exact Broker.Steady.refl sid b
  rename_i s _
  have hwill : Broker.Steady sid b
      (if Broker.shouldSendWill s elapsed then b.sendWillMessage sid s else b) := by
    split
    · exact steady_sendWillMessage b sid s
    · exact Broker.Steady.refl sid b
  dsimp only
  split
  · exact (hwill.trans (Broker.steady_removeAll sid sid)).trans
      (Broker.steady_setState sid sid (by decide))
  · exact hwill.trans (Broker.steady_setState sid sid (by decide))

theorem topicTree_onSessionClosed (hs : b.session? sid = some s) (elapsed : Nat) :
    (b.onSessionClosed sid elapsed).topicTree =
      if s.sessionExpiryInterval = 0 then b.topicTree.removeAll sid else b.topicTree := by
  have hwill : (if Broker.shouldSendWill s elapsed then b.sendWillMessage sid s
      else b).topicTree = b.topicTree := by
    split
    · exact topicTree_sendWillMessage b sid s
    · rfl
  rw [Broker.onSessionClosed, hs, ← hwill]
  dsimp only
  split <;> rfl

theorem session?_removeSession (b : Broker) (sid sid' : Nat) :
    (b.removeSession sid).session? sid' = if sid' = sid then none else b.session? sid' := by
  change (b.sessionMgr.removeSession sid).sessions.lookup sid' = _
  rw [MqttSessionManager.removeSession]
  by_cases hsid : sid' = sid
  · rw [if_pos hsid, hsid]
    split
    · assumption
    · exact lookup_erase _ _
  · rw [if_neg hsid]
    split
    · rfl
    · exact lookup_erase_ne hsid

theorem Sound.cleanup {srv : MqttServer} (h : srv.Sound) (hc : srv.connections.lookup sid = some c)
    {broker : Broker} (hsteady : Broker.Steady sid srv.broker broker)
    (howns : ¬broker.topicTree.Owns sid) :
    Sound { srv with
      broker := broker.removeSession sid, connections := srv.connections.erase sid } := by
  have hpresent := fun sid' => isSome_of_terms (hsteady.terms sid')
  have hever : ∀ {sid'}, sid' ≠ sid → srv.EverConnected sid' → EverConnected { srv with
      broker := broker.removeSession sid, connections := srv.connections.erase sid } sid' := by
    rintro sid' hsid ⟨c', hc', hever⟩
    exact ⟨c', (lookup_erase_ne hsid).trans hc', hever⟩
  constructor
  · exact hsteady.single h.single
  · intro sid' howns'
    have hsid : sid' ≠ sid := by
      rintro rfl
      exact howns howns'
    rcases hsteady.owns h.single sid' howns' with hold | hsame
    · exact hever hsid (h.owns sid' hold)
    · exact absurd hsame hsid
  · intro sid' s' hs' hstate
    rw [session?_removeSession] at hs'
    split at hs'
    · cases hs'
    · rename_i hsid
      obtain ⟨s, hs, hstate⟩ := hsteady.connected sid' s' hs' hstate
      exact hever hsid (h.connected sid' s hs hstate)
  · intro sid'
    rw [session?_removeSession]
    split_ifs with hsid
    · rw [hsid, lookup_erase]
      rfl
    · rw [lookup_erase_ne hsid, hpresent]
      exact h.present sid'
  · intro sid' hs'
    rw [session?_removeSession] at hs'
    split at hs'
    · cases hs'
    · rw [hpresent] at hs'
      exact h.known sid' hs'
  · intro binding hmem
    have hbindings : broker.bindings = srv.broker.bindings := hsteady.bindings
    exact h.boundKnown binding (hbindings ▸ hmem)
  · exact (h.bound.steady hsteady).removeSession sid

theorem sound_cleanupSession {srv : MqttServer} (h : srv.Sound) {sid : Nat} {c : Connection}
    (hc : srv.connections.lookup sid = some c) (elapsed : Nat)
    (hexpiry : ∀ s ∈ srv.broker.session? sid,
      s.sessionExpiryInterval = 0 ∨ ¬srv.broker.topicTree.Owns sid) :
    (srv.cleanupSession sid c elapsed).Sound := by
  obtain ⟨s, hs⟩ : ∃ s, srv.broker.session? sid = some s := by
    rw [← isSome_iff_exists, ← h.present sid, hc]
    rfl
  rw [cleanupSession]
  split_ifs with hnever
  · apply h.cleanup hc (steady_onSessionClosed _ _ _)
    intro howns
    rw [topicTree_onSessionClosed hs] at howns
    split_ifs at howns with hlater
    · exact howns.of_removeAll.1 rfl
    · exact (hexpiry s hs).elim hlater fun hnone => hnone howns
  · apply h.cleanup hc (Broker.steady_setState sid sid (by decide))
    intro howns
    obtain ⟨c', hc', hever⟩ := h.owns sid howns
    rw [hc] at hc'
    cases hc'
    exact hnever hever

end Cleanup

section Runs

variable (cfg : MqttServerConfig) {srv : MqttServer}

theorem sound_step (h : srv.Sound) {event : ServerEvent} (horderly : srv.Orderly event) :
    (srv.serverStep cfg event).Sound := by
  cases event with
  | accept => exact sound_accept h
  | read sid data | written sid | closed sid => exact resume_of h fun c hc _ => h.setPhase hc id
  | decode sid handler =>
    refine resume_of h fun c hc hphase => ?_
    refine decode_of cfg handler (fun phase => h.setPhase hc id) fun packet hpacket => ?_
    exact sound_dispatchPacket cfg handler h hc
      (horderly c hc (List.mem_singleton.mp hphase) packet hpacket)
  | cleanup sid elapsed =>
    refine resume_of h fun c hc hphase => ?_
    exact sound_cleanupSession h hc elapsed (horderly c hc (List.mem_singleton.mp hphase))

/-- After every orderly run of a new server, whatever the connections do and however their steps are
interleaved, who owns a subscription is there, and who got a client id last is found by it. -/
theorem tidy_run {events : List ServerEvent} (horderly : Along (serverStep cfg) Orderly {} events) :
    (run (serverStep cfg) {} events).broker.Tidy := by
  have hsound : (run (serverStep cfg) {} events).Sound :=
    run_invariant (I := Sound) (fun srv event h => sound_step cfg h) sound_new horderly
  exact hsound.tidy

/-- An orderly event that finds no expiry interval. -/
def ExpiresAtOnce (srv : MqttServer) : ServerEvent → Prop
  | .cleanup sid _ => ∀ s ∈ srv.broker.session? sid, s.sessionExpiryInterval = 0
  | event => srv.Orderly event

instance (srv : MqttServer) : (event : ServerEvent) → Decidable (srv.ExpiresAtOnce event)
  | .cleanup _ _ => inferInstanceAs (Decidable (∀ _ ∈ _, _))
  | .decode _ _ => inferInstanceAs (Decidable (∀ _ ∈ _, _))
  | .accept | .read _ _ | .written _ | .closed _ => inferInstanceAs (Decidable True)

theorem orderly_of_expiresAtOnce (srv : MqttServer) (event : ServerEvent)
    (h : srv.ExpiresAtOnce event) : srv.Orderly event := by
  cases event with
  | cleanup sid elapsed => exact fun _ _ _ s hs => .inl (h s hs)
  | _ => exact h

def exchange (sid : Nat) (data : Bytes) : List ServerEvent :=
  [.read sid data, .decode sid {}, .written sid, .decode sid {}]

def arrival (sid : Nat) (properties : MqttProperties) : List ServerEvent :=
  .accept :: exchange sid (Broker.connectPacket (text "c") properties) ++
    exchange sid (encodePacket .subscribe 0x02
      (writeU16 1 ++ encodeProperties {} ++ writeUtf8String (text "a") ++ [1]))

/-- The client comes again, and its first session is taken over and cleaned up. -/
theorem tidy_run_takeOver :
    (run (serverStep {}) {}
      (arrival 1 {} ++ arrival 2 {} ++ [.closed 1, .cleanup 1 0])).broker.Tidy :=
  tidy_run {} (Along.mono orderly_of_expiresAtOnce (by decide +kernel))

/-- The connection of a client with an expiry interval is lost.  Its session is removed, but its
subscription stays. -/
theorem not_tidy_expiry :
    ¬(run (serverStep {}) {} (arrival 1 { sessionExpiryInterval := some 60 } ++
      [.closed 1, .cleanup 1 0])).broker.Tidy := by
  intro h
  have howns : (run (serverStep {}) {} (arrival 1 { sessionExpiryInterval := some 60 } ++
      [.closed 1, .cleanup 1 0])).broker.topicTree.Owns 1 :=
    ⟨path (text "a"), by decide +kernel⟩
  exact absurd (h.owners 1 howns) (by decide +kernel)

end Runs

end MqttServer

end ServerLib.Mqtt

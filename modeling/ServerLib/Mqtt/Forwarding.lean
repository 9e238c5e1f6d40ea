import ServerLib.Mqtt.Dispatcher

/-! Forwarding a message to the subscribers: what it changes in the broker, to whom the message is
written, and when every shared subscription gets it once. -/

namespace ServerLib.Mqtt

open Lib List

namespace Broker

variable (b : Broker) (sid : Nat) (f : MqttSession → MqttSession) (e : Event)

@[simp] theorem session?_modifySession_self :
    (b.modifySession sid f).session? sid = (b.session? sid).map f :=
  lookup_modify_self _ _ _

@[simp] theorem session?_modifySession_of_ne (h : sid' ≠ sid) :
    (b.modifySession sid f).session? sid' = b.session? sid' :=
  lookup_modify_of_ne _ h _

@[simp] theorem log_modifySession : (b.modifySession sid f).log = b.log := rfl

@[simp] theorem session?_emit : (b.emit e).session? sid = b.session? sid := rfl

@[simp] theorem log_emit : (b.emit e).log = b.log ++ [e] := rfl

end Broker

/-- All of a session but its next packet id. -/
def MqttSession.core (s : MqttSession) : MqttSession := { s with nextPacketId := 0 }

/-- The client id and the session that were bound. -/
def Event.binding : Event → Option (Bytes × Nat)
  | .bound clientId sid => some (clientId, sid)
  | _ => none

def Broker.bindings (b : Broker) : List (Bytes × Nat) := b.log.filterMap Event.binding

/-- Packets are written, and nothing but the packet ids and the log changes. -/
structure Broker.Writes (b b' : Broker) : Prop where
  session : ∀ sid, (b'.session? sid).map MqttSession.core = (b.session? sid).map MqttSession.core
  clientIdIndex : b'.sessionMgr.clientIdIndex = b.sessionMgr.clientIdIndex
  topicTree : b'.topicTree = b.topicTree
  bindings : b'.bindings = b.bindings

namespace Broker

theorem Writes.refl (b : Broker) : Writes b b := ⟨fun _ => rfl, rfl, rfl, rfl⟩

theorem Writes.trans (h : Writes b b₁) (h₁ : Writes b₁ b₂) : Writes b b₂ :=
  ⟨fun sid => (h₁.session sid).trans (h.session sid), h₁.clientIdIndex.trans h.clientIdIndex,
    h₁.topicTree.trans h.topicTree, h₁.bindings.trans h.bindings⟩

theorem Writes.map_eq (h : Writes b b') {α : Type} {f : MqttSession → α} (hf : ∀ s, f s.core = f s)
    (sid : Nat) : (b'.session? sid).map f = (b.session? sid).map f := by
  have hcore : ∀ o : Option MqttSession, o.map f = (o.map MqttSession.core).map f := by
    intro o
    cases o with
    | none => rfl
    | some s => exact congrArg some (hf s).symm
  rw [hcore, hcore (b.session? sid), h.session sid]

theorem bindings_emit (b : Broker) (he : e.binding = none) : (b.emit e).bindings = b.bindings := by
  simp [bindings, he]

theorem writes_emit (b : Broker) (he : e.binding = none) : Writes b (b.emit e) :=
  ⟨fun _ => rfl, rfl, rfl, bindings_emit b he⟩

theorem writes_advancePacketId (b : Broker) (sid : Nat) :
    Writes b (b.modifySession sid (·.advancePacketId)) := by
  refine ⟨fun sid' => ?_, rfl, rfl, rfl⟩
  by_cases h : sid' = sid
  · subst h
    rw [session?_modifySession_self, Option.map_map]
    rfl
  · rw [session?_modifySession_of_ne _ _ _ h]

theorem writes_foldl {α : Type} {f : Broker → α → Broker} (h : ∀ b a, Writes b (f b a)) (b : Broker)
    (as : List α) : Writes b (as.foldl f b) := by
  induction as generalizing b with
  | nil => exact .refl b
  | cons a as ih => exact (h b a).trans (ih (f b a))

/-- The session of the subscription is connected, and is not the one that `no_local` leaves out. -/
def receives (b : Broker) (sourceId : Nat) (sub : MqttSubscription) : Bool :=
  (b.receiver? sourceId sub).isSome

theorem receives_congr {b b' : Broker} (h : ∀ sid,
      (b'.session? sid).map (fun s => decide (s.state = .connected ∧ s.connection)) =
        (b.session? sid).map fun s => decide (s.state = .connected ∧ s.connection))
    (sourceId : Nat) : b'.receives sourceId = b.receives sourceId := by
  have hany : ∀ {o o' : Option MqttSession} {p : MqttSession → Bool}, o'.map p = o.map p →
      (o'.filter p).isSome = (o.filter p).isSome := by
    intro o o' p hmap
    cases o with
    | none =>
      cases o' with
      | none => rfl
      | some s' => cases hmap
    | some s =>
      cases o' with
      | none => cases hmap
      | some s' =>
        have hp : p s' = p s := Option.some.inj hmap
        simp [Option.filter, hp]
        split <;> rfl
  funext sub
  rw [receives, receives, receiver?, receiver?]
  split
  · rfl
  · exact hany (h sub.sessionId)

theorem Writes.receives_eq {b b' : Broker} (h : Writes b b') (sourceId : Nat) :
    b'.receives sourceId = b.receives sourceId :=
  receives_congr (h.map_eq fun _ => rfl) sourceId

/-- The subscriptions on whose account a message has to be written. -/
def recipients (b : Broker) (sourceId : Nat) (pkt : MqttPublishPacket) : List MqttSubscription :=
  (applySharedSubscriptionPolicy (b.topicTree.matchTopic pkt.topic)).filter (b.receives sourceId)

variable (sourceId : Nat) (pkt : MqttPublishPacket)

theorem writes_deliver (b : Broker) (sub : MqttSubscription) :
    Writes b (deliver sourceId pkt b sub) := by
  rw [deliver]
  cases b.receiver? sourceId sub with
  | none => exact .refl b
  | some s =>
    dsimp only
    split
    · exact (writes_advancePacketId b sub.sessionId).trans (writes_emit _ rfl)
    · exact writes_emit b rfl

theorem writes_publishToSubscribers (b : Broker) : Writes b (b.publishToSubscribers sourceId pkt) :=
  writes_foldl (writes_deliver sourceId pkt) b _

theorem writes_sendRetained (sid : Nat) (granted : QoS) (b : Broker) (rm : MqttRetainedMessage) :
    Writes b (sendRetained sid granted b rm) := by
  rw [sendRetained]
  cases b.session? sid with
  | none => exact .refl b
  | some s =>
    dsimp only
    have hadvance : ∀ {c : Prop} [Decidable c],
        Writes b (if c then b.modifySession sid (·.advancePacketId) else b) := by
      intro c _
      split
      · exact writes_advancePacketId b sid
      · exact .refl b
    by_cases hconnection : s.connection = true
    · rw [if_pos hconnection]
      exact hadvance.trans (writes_emit _ rfl)
    · rw [if_neg hconnection]
      exact hadvance

end Broker

/-- The subscription on whose account a packet was written. -/
def Event.recipient : Event → Option MqttSubscription
  | .delivered sub _ => some sub
  | _ => none

/-- A PUBLISH with the message was written to a subscriber. -/
def Event.Carries (pkt : MqttPublishPacket) (e : Event) : Prop :=
  ∃ sub pub level, e = .delivered sub (encodePublish pub level) ∧
    pub.topic = pkt.topic ∧ pub.payload = pkt.payload

namespace Broker

variable (sourceId : Nat) (pkt : MqttPublishPacket)

theorem log_deliver (b : Broker) (sub : MqttSubscription) :
    ∃ events, (deliver sourceId pkt b sub).log = b.log ++ events ∧
      events.filterMap Event.recipient = [sub].filter (b.receives sourceId) ∧
      ∀ e ∈ events, e.Carries pkt := by
  rw [deliver, filter_singleton, receives]
  cases b.receiver? sourceId sub with
  | none => exact ⟨[], (append_nil _).symm, rfl, fun e he => absurd he not_mem_nil⟩
  | some s =>
    refine ⟨[.delivered sub (encodePublish (publishFor pkt sub s) s.protocolLevel)], ?_, rfl, ?_⟩
    · dsimp only
      split <;> rfl
    · intro e he
      exact ⟨sub, publishFor pkt sub s, s.protocolLevel, mem_singleton.mp he, rfl, rfl⟩

theorem log_foldl_deliver (b : Broker) (subs : List MqttSubscription) :
    ∃ events, (subs.foldl (deliver sourceId pkt) b).log = b.log ++ events ∧
      events.filterMap Event.recipient = subs.filter (b.receives sourceId) ∧
      ∀ e ∈ events, e.Carries pkt := by
  induction subs generalizing b with
  | nil => exact ⟨[], (append_nil _).symm, rfl, fun e he => absurd he not_mem_nil⟩
  | cons sub subs ih =>
    obtain ⟨first, hfirst, hrecipient, hcarries⟩ := log_deliver sourceId pkt b sub
    obtain ⟨events, hlog, hrecipients, hall⟩ := ih (deliver sourceId pkt b sub)
    -- who receives does not change in the loop
    have hsame := (writes_deliver sourceId pkt b sub).receives_eq sourceId
    refine ⟨first ++ events, ?_, ?_, ?_⟩
    · rw [foldl_cons, hlog, hfirst, append_assoc]
    · rw [filterMap_append, hrecipient, hrecipients, hsame, ← filter_append]
      rfl
    · intro e he
      rcases mem_append.mp he with he | he
      · exact hcarries e he
      · exact hall e he

theorem log_publishToSubscribers (b : Broker) :
    ∃ events, (b.publishToSubscribers sourceId pkt).log = b.log ++ events ∧
      events.filterMap Event.recipient = b.recipients sourceId pkt ∧ ∀ e ∈ events, e.Carries pkt :=
  log_foldl_deliver sourceId pkt b _

end Broker

/-- The group and the filter of a shared subscription. -/
def MqttSubscription.sharedKey (sub : MqttSubscription) : Bytes × Bytes :=
  (sub.sharedGroup, sub.sharedFilter)

theorem filter_filterMap_of_nodup {κ α : Type} [DecidableEq κ] {f : κ → Option α} {key : α → κ}
    (hkey : ∀ k a, f k = some a → key a = k) {ks : List κ} (hnodup : ks.Nodup) {k : κ}
    (hk : k ∈ ks) : (ks.filterMap f).filter (key · = k) = (f k).toList := by
  induction ks with
  | nil => cases hk
  | cons k' ks ih =>
    obtain ⟨hnot, hnodup⟩ := nodup_cons.mp hnodup
    have hother : k' = k → (ks.filterMap f).filter (key · = k) = [] := by
      rintro rfl
      refine filter_eq_nil_iff.mpr fun a ha => ?_
      obtain ⟨k'', hk'', ha⟩ := mem_filterMap.mp ha
      rw [decide_eq_true_eq, hkey k'' a ha]
      rintro rfl
      exact hnot hk''
    by_cases hsame : k' = k
    · rw [filterMap_cons, ← hsame]
      cases hf : f k' with
      | none =>
        rw [hsame, hother hsame]
        rfl
      | some a =>
        rw [filter_cons_of_pos (by simp [hkey k' a hf]), hsame, hother hsame]
        rfl
    · have hmem : k ∈ ks := by
        rcases mem_cons.mp hk with h | h
        · exact absurd h.symm hsame
        · exact h
      rw [filterMap_cons, ← ih hnodup hmem]
      cases hf : f k' with
      | none => rfl
      | some a =>
        rw [filter_cons_of_neg (by simp [hkey k' a hf, hsame])]

section Policy

variable (found : List MqttSubscription)

theorem nodup_groupNames : (groupNames found).Nodup :=
  (perm_insertionSort _ _).nodup_iff.mpr (nodup_dedup _)

theorem mem_groupNames :
    group ∈ groupNames found ↔ group ≠ [] ∧ ∃ sub ∈ found, sub.sharedGroup = group := by
  rw [groupNames, (perm_insertionSort _ _).mem_iff, mem_dedup, mem_filter]
  simp [and_comm]

theorem sharedGroup_selectedMember (h : selectedMember found group = some sub) :
    sub.sharedGroup = group :=
  of_decide_eq_true (mem_filter.mp (mem_of_getElem? h)).2

theorem filter_applySharedSubscriptionPolicy (h : group ∈ groupNames found) :
    (applySharedSubscriptionPolicy found).filter (·.sharedGroup = group) =
      (selectedMember found group).toList := by
  have hplain : (found.filter (·.sharedGroup = [])).filter (·.sharedGroup = group) = [] := by
    refine filter_eq_nil_iff.mpr fun sub hsub => ?_
    rw [of_decide_eq_true (mem_filter.mp hsub).2, decide_eq_true_eq]
    exact ((mem_groupNames found).mp h).1.symm
  rw [applySharedSubscriptionPolicy, filter_append, hplain, nil_append]
  exact filter_filterMap_of_nodup (fun _ _ => sharedGroup_selectedMember found)
    (nodup_groupNames found) h

end Policy

namespace Broker

variable (b : Broker) (sourceId : Nat) (pkt : MqttPublishPacket)

/-- What is added to the log when the message is forwarded. -/
def forwarding : List Event :=
  (b.publishToSubscribers sourceId pkt).log.drop b.log.length

/-- The subscriptions on whose account the message is written. -/
def deliveries : List MqttSubscription := (b.forwarding sourceId pkt).filterMap Event.recipient

/-- The message gets where it should: once through each shared subscription with a member that can
receive it, and through every other subscription whose session can receive it. -/
structure Served : Prop where
  shared : ∀ member ∈ b.topicTree.matchTopic pkt.topic, member.sharedGroup ≠ [] →
    b.receives sourceId member →
    ((b.deliveries sourceId pkt).filter (·.sharedKey = member.sharedKey)).length = 1
  plain : ∀ sub ∈ b.topicTree.matchTopic pkt.topic, sub.sharedGroup = [] →
    b.receives sourceId sub → sub ∈ b.deliveries sourceId pkt
  carries : ∀ e ∈ b.forwarding sourceId pkt, e.recipient.isSome → e.Carries pkt

/-- In a group with a member that can receive the message, the selected one can, and it stands for
all of those. -/
def Selects : Prop :=
  ∀ member ∈ b.topicTree.matchTopic pkt.topic, member.sharedGroup ≠ [] →
    b.receives sourceId member →
    (selectedMember (b.topicTree.matchTopic pkt.topic) member.sharedGroup).any fun selected =>
      b.receives sourceId selected ∧ selected.sharedKey = member.sharedKey

theorem deliveries_eq :
    b.deliveries sourceId pkt = b.recipients sourceId pkt := by
  obtain ⟨events, hlog, hrecipients, _⟩ := log_publishToSubscribers sourceId pkt b
  rw [deliveries, forwarding, hlog, drop_left, hrecipients]

theorem carries_forwarding (he : e ∈ b.forwarding sourceId pkt) : e.Carries pkt := by
  obtain ⟨events, hlog, _, hcarries⟩ := log_publishToSubscribers sourceId pkt b
  rw [forwarding, hlog, drop_left] at he
  exact hcarries e he

theorem length_deliveries (hmember : member ∈ b.topicTree.matchTopic pkt.topic)
    (hgroup : member.sharedGroup ≠ []) :
    ((b.deliveries sourceId pkt).filter (·.sharedKey = member.sharedKey)).length =
      ((selectedMember (b.topicTree.matchTopic pkt.topic) member.sharedGroup).toList.filter
        fun selected => b.receives sourceId selected ∧
          selected.sharedKey = member.sharedKey).length := by
  have hname := (mem_groupNames _).mpr ⟨hgroup, member, hmember, rfl⟩
  rw [deliveries_eq, recipients, ← filter_applySharedSubscriptionPolicy _ hname, filter_filter,
    filter_filter]
  congr 2
  funext sub
  by_cases hkey : sub.sharedKey = member.sharedKey
  · have hsame : sub.sharedGroup = member.sharedGroup := congrArg Prod.fst hkey
    simp [hkey, hsame]
  · simp [hkey]

/-- The message gets where it should exactly if the selection is good. -/
theorem served_iff : b.Served sourceId pkt ↔ b.Selects sourceId pkt := by
  have hone : ∀ {o : Option MqttSubscription} {p : MqttSubscription → Bool},
      (o.toList.filter p).length = 1 ↔ o.any p := by
    intro o p
    cases o with
    | none => simp
    | some sub => by_cases hp : p sub <;> simp [hp]
  constructor
  · intro h member hmember hgroup hreceives
    rw [← hone, ← length_deliveries b sourceId pkt hmember hgroup]
    exact h.shared member hmember hgroup hreceives
  · intro h
    refine ⟨fun member hmember hgroup hreceives => ?_, fun sub hsub hplain hreceives => ?_,
      fun e he _ => b.carries_forwarding sourceId pkt he⟩
    · rw [length_deliveries b sourceId pkt hmember hgroup, hone]
      exact h member hmember hgroup hreceives
    · rw [deliveries_eq]
      refine mem_filter.mpr ⟨mem_append_left _ ?_, hreceives⟩
      exact mem_filter.mpr ⟨hsub, decide_eq_true hplain⟩

def twoSessions : Broker where
  sessionMgr :=
    { sessions :=
        ((∅ : AList fun _ : Nat => MqttSession).insert 1 { state := .connected }).insert 2
          { state := .connected } }

/-- Two sessions share a group, each with a filter of its own. -/
def oneGroup : Broker :=
  (twoSessions.subscribeFilter {} 1 .v5_0 {} { topicFilter := text "$share/g/a" }).subscribeFilter
    {} 2 .v5_0 {} { topicFilter := text "$share/g/+" }

/-- Both filters match, but only one member is selected, and nothing is written on account of the
other filter. -/
theorem not_served_oneGroup : ¬oneGroup.Served 3 { topic := text "a", payload := text "x" } := by
  intro h
  have hone := h.shared (treeSubscription {} 1 .v5_0 {} { topicFilter := text "$share/g/a" })
    (by decide +kernel) (by decide +kernel) (by decide +kernel)
  revert hone
  decide +kernel

end Broker

end ServerLib.Mqtt

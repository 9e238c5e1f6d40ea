import ServerLib.Mqtt.Forwarding
import ServerLib.Mqtt.Ownership

/-! Each session has a map of the filters it subscribed to, and the topic tree has the
subscriptions. The tree knows a filter without the name of its group, so that the two agree only as
long as no session uses two filters that differ in that name. -/

namespace ServerLib.Mqtt

open Lib MqttTopicTree Option

/-- What a subscription in the tree keeps of the filter that it was made from. -/
def sharedMark (filter : Bytes) : Bytes := if isSharedSubscription filter then filter else []

theorem ne_nil_of_isSharedSubscription (h : isSharedSubscription filter) : filter ≠ [] := by
  rintro rfl
  cases h

theorem eq_of_actualFilter_eq (hactual : actualFilter filter' = actualFilter filter)
    (hmark : sharedMark filter' = sharedMark filter) : filter' = filter := by
  rw [sharedMark, sharedMark] at hmark
  rw [actualFilter, actualFilter] at hactual
  cases hshared : isSharedSubscription filter with
  | true =>
    cases hshared' : isSharedSubscription filter' with
    | true => simpa [hshared, hshared'] using hmark
    | false =>
      rw [hshared, hshared'] at hmark
      exact absurd hmark.symm (ne_nil_of_isSharedSubscription hshared)
  | false =>
    cases hshared' : isSharedSubscription filter' with
    | true =>
      rw [hshared, hshared'] at hmark
      exact absurd hmark (ne_nil_of_isSharedSubscription hshared')
    | false => simpa [hshared, hshared'] using hactual

theorem isSome_extractSharedGroup (hvalid : validateTopicFilter filter) :
    (extractSharedGroup filter).isSome = isSharedSubscription filter := by
  rw [extractSharedGroup]
  cases hshared : isSharedSubscription filter with
  | false => rfl
  | true =>
    rw [validateTopicFilter, validateTopicFilterTo, if_neg (ne_nil_of_isSharedSubscription hshared),
      hshared] at hvalid
    rw [sharedGroup, hshared]
    cases hparts : sharedParts filter with
    | none => simp [hparts] at hvalid
    | some parts =>
      by_cases hgroup : parts.1 = []
      · simp [hparts, hgroup] at hvalid
      · simp [hgroup]

theorem sharedFilter_treeSubscription (hvalid : validateTopicFilter sub.topicFilter) :
    (treeSubscription cfg sid level pkt sub).sharedFilter = sharedMark sub.topicFilter := by
  rw [treeSubscription, isSome_extractSharedGroup hvalid]
  rfl

theorem validateTopicFilter_of_not_refused
    (h : refuseSubscription cfg level pkt allowed sub = none) :
    validateTopicFilter sub.topicFilter := by
  by_contra hvalid
  rw [refuseSubscription, Bool.not_eq_true _ |>.mp hvalid] at h
  cases h

/-- The tree has, for the session, a subscription that was made from exactly the filter, with the
QoS. -/
def TreeHas (t : MqttTopicTree) (sid : Nat) (filter : Bytes) (qos : QoS) : Prop :=
  ∃ sub ∈ t.owned sid (path (actualFilter filter)), sub.sharedFilter = sharedMark filter ∧
    sub.qos = qos

instance (t : MqttTopicTree) (sid : Nat) (filter : Bytes) (qos : QoS) :
    Decidable (TreeHas t sid filter qos) :=
  inferInstanceAs (Decidable (∃ _ ∈ _, _))

/-- The map of a session and the tree agree. -/
def MapAgrees (t : MqttTopicTree) (sid : Nat) (subscriptions : AList fun _ : Bytes => QoS) : Prop :=
  ∀ filter qos, subscriptions.lookup filter = some qos ↔ TreeHas t sid filter qos

def Broker.Agrees (b : Broker) : Prop :=
  ∀ sid s, b.session? sid = some s → MapAgrees b.topicTree sid s.subscriptions

/-- No filter of the map differs from the filter in the group only. -/
def Separate (subscriptions : AList fun _ : Bytes => QoS) (filter : Bytes) : Prop :=
  ∀ filter' ∈ subscriptions.keys, actualFilter filter' = actualFilter filter → filter' = filter

instance (subscriptions : AList fun _ : Bytes => QoS) (filter : Bytes) :
    Decidable (Separate subscriptions filter) :=
  inferInstanceAs (Decidable (∀ _ ∈ _, _))

theorem Separate.lookup_eq_none (h : Separate subscriptions filter) (hne : filter' ≠ filter)
    (hactual : actualFilter filter' = actualFilter filter) :
    subscriptions.lookup filter' = none := by
  refine AList.lookup_eq_none.mpr fun hmem => hne (h filter' ?_ hactual)
  exact AList.mem_keys.mp hmem

section

variable (h : MapAgrees t sid subscriptions)
include h

theorem MapAgrees.subscribe_of_ne (hsingle : t.Single) (filter : Bytes)
    (hsub : sub.sessionId ≠ sid) : MapAgrees (t.subscribe filter sub).1 sid subscriptions := by
  intro filter' qos
  rw [TreeHas, owned_subscribe hsingle, if_neg fun hboth => hsub hboth.2]
  exact h filter' qos

theorem MapAgrees.subscribe (hsingle : t.Single) (hseparate : Separate subscriptions filter)
    (hsub : sub.sessionId = sid) (hmark : sub.sharedFilter = sharedMark filter) :
    MapAgrees (t.subscribe filter sub).1 sid (subscriptions.insert filter sub.qos) := by
  intro filter' qos
  rw [TreeHas, owned_subscribe hsingle]
  by_cases hfilter : filter' = filter
  · subst hfilter
    rw [if_pos ⟨rfl, hsub⟩, AList.lookup_insert]
    simp [hmark]
  · rw [AList.lookup_insert_ne hfilter]
    by_cases hactual : actualFilter filter' = actualFilter filter
    · -- the new subscription has taken the place of any other one
      rw [hactual, if_pos ⟨rfl, hsub⟩, hseparate.lookup_eq_none hfilter hactual]
      refine iff_of_false (fun hnone => by cases hnone) ?_
      rintro ⟨sub', hsub', hmark', _⟩
      rw [List.mem_singleton.mp hsub', hmark] at hmark'
      exact hfilter (eq_of_actualFilter_eq hactual hmark'.symm)
    · rw [if_neg fun hboth => hactual (path_injective hboth.1)]
      exact h filter' qos

theorem MapAgrees.unsubscribe_of_ne (hsingle : t.Single) (filter : Bytes) (hsid : sid' ≠ sid) :
    MapAgrees (t.unsubscribe filter sid').1 sid subscriptions := by
  intro filter' qos
  rw [TreeHas, owned_unsubscribe hsingle, if_neg fun hboth => hsid hboth.2]
  exact h filter' qos

theorem MapAgrees.unsubscribe (hsingle : t.Single) (hseparate : Separate subscriptions filter) :
    MapAgrees (t.unsubscribe filter sid).1 sid (subscriptions.erase filter) := by
  intro filter' qos
  rw [TreeHas, owned_unsubscribe hsingle]
  by_cases hactual : actualFilter filter' = actualFilter filter
  · have hnone : (subscriptions.erase filter).lookup filter' = none := by
      by_cases hfilter : filter' = filter
      · rw [hfilter, AList.lookup_erase]
      · rw [AList.lookup_erase_ne hfilter, hseparate.lookup_eq_none hfilter hactual]
    rw [hactual, if_pos ⟨rfl, rfl⟩, hnone]
    simp
  · have hfilter : filter' ≠ filter := fun hsame => hactual (congrArg actualFilter hsame)
    rw [if_neg fun hboth => hactual (path_injective hboth.1), AList.lookup_erase_ne hfilter]
    exact h filter' qos

end

namespace Broker

variable (cfg : MqttServerConfig)

/-- No filter in the map of the session differs from the filter in the group only. -/
def Separated (b : Broker) (sid : Nat) (filter : Bytes) : Prop :=
  ∀ s ∈ b.session? sid, Separate s.subscriptions filter

instance (b : Broker) (sid : Nat) (filter : Bytes) : Decidable (b.Separated sid filter) :=
  inferInstanceAs (Decidable (∀ _ ∈ _, _))

/-- The maps and the tree agree, and the tree has one subscription for each session and node. -/
structure Consistent (b : Broker) : Prop where
  single : b.topicTree.Single
  agrees : b.Agrees

variable {b : Broker}

theorem Consistent.of_writes (h : b.Consistent) (hwrites : Writes b b') : b'.Consistent := by
  refine ⟨hwrites.topicTree ▸ h.single, fun sid s' hs' => ?_⟩
  have hmap := hwrites.map_eq (f := fun s => s.subscriptions) (fun _ => rfl) sid
  rw [hs', map_some] at hmap
  obtain ⟨s, hs, hsame⟩ := map_eq_some_iff.mp hmap.symm
  rw [hwrites.topicTree, ← hsame]
  exact h.agrees sid s hs

theorem Consistent.change (h : b.Consistent) (hsingle : t.Single) (sid : Nat)
    (hother : ∀ sid', sid' ≠ sid → ∀ m, MapAgrees b.topicTree sid' m → MapAgrees t sid' m)
    (hself : ∀ s, b.session? sid = some s → MapAgrees b.topicTree sid s.subscriptions →
      MapAgrees t sid (f s).subscriptions) :
    ({ b with topicTree := t }.modifySession sid f).Consistent := by
  refine ⟨hsingle, fun sid' s' hs' => ?_⟩
  by_cases hsid : sid' = sid
  · subst hsid
    rw [session?_modifySession_self] at hs'
    obtain ⟨s, hs, rfl⟩ := map_eq_some_iff.mp hs'
    exact hself s hs (h.agrees sid' s hs)
  · rw [session?_modifySession_of_ne _ _ _ hsid] at hs'
    exact hother sid' hsid _ (h.agrees sid' s' hs')

theorem Consistent.subscribeFilter (h : b.Consistent)
    (hvalid : validateTopicFilter sub.topicFilter)
    (hseparated : b.Separated sid sub.topicFilter) :
    (b.subscribeFilter cfg sid level pkt sub).Consistent := by
  have hchanged : ({ b with
      topicTree := (b.topicTree.subscribe sub.topicFilter
        (treeSubscription cfg sid level pkt sub)).1 }.modifySession sid
        (·.addSubscription sub.topicFilter (grantedQos cfg sub))).Consistent := by
    refine h.change (h.single.subscribe _ _) sid (fun sid' hsid m hm => ?_) fun s hs hm => ?_
    · exact hm.subscribe_of_ne h.single _ hsid.symm
    · exact hm.subscribe h.single (hseparated s hs) rfl (sharedFilter_treeSubscription hvalid)
  rw [Broker.subscribeFilter]
  split
  · exact hchanged
  · exact hchanged.of_writes (writes_foldl (writes_sendRetained sid _) _ _)

theorem Consistent.unsubscribeRound (h : b.Consistent) (hseparated : b.Separated sid filter) :
    (unsubscribeRound sid b filter).Consistent := by
  refine h.change (h.single.unsubscribe _ _) sid (fun sid' hsid m hm => ?_) fun s hs hm => ?_
  · exact hm.unsubscribe_of_ne h.single _ hsid.symm
  · exact hm.unsubscribe h.single (hseparated s hs)

/-- A packet that changes the subscriptions of a session. -/
inductive SubscriptionPacket
  | subscribe (sid : Nat) (handler : MqttHandler) (data : Bytes)
  | unsubscribe (sid : Nat) (data : Bytes)

/-- The broker after a packet of a session that is there. -/
def subscriptionStep (b : Broker) : SubscriptionPacket → Broker
  | .subscribe sid handler data =>
    match b.session? sid with
    | none => b
    | some s => (b.handleSubscribe cfg handler sid s data).1
  | .unsubscribe sid data =>
    match b.session? sid with
    | none => b
    | some s => (b.handleUnsubscribe sid s data).1

/-- A filter of a SUBSCRIBE is refused, or it is separated from those in the map. -/
def RoundSeparated (handler : MqttHandler) (sid : Nat) (level : ProtocolLevel)
    (pkt : MqttSubscribePacket) (b : Broker × List UInt8) (sub : MqttSubOption × Nat) : Prop :=
  (refuseSubscription cfg level pkt (handler.onSubscribe sub.2) sub.1).isNone →
    b.1.Separated sid sub.1.topicFilter

instance (handler : MqttHandler) (sid : Nat) (level : ProtocolLevel) (pkt : MqttSubscribePacket)
    (b : Broker × List UInt8) (sub : MqttSubOption × Nat) :
    Decidable (RoundSeparated cfg handler sid level pkt b sub) :=
  inferInstanceAs (Decidable (_ → _))

/-- Each filter of the packet is separated from those that are in the map when its turn comes. -/
def PacketSeparated (b : Broker) : SubscriptionPacket → Prop
  | .subscribe sid handler data =>
    ∀ s ∈ b.session? sid, ∀ pkt ∈ decodeSubscribe data s.protocolLevel,
      Along (subscribeRound cfg handler sid s.protocolLevel pkt)
        (RoundSeparated cfg handler sid s.protocolLevel pkt) (b, []) pkt.subscriptions.zipIdx
  | .unsubscribe sid data =>
    ∀ s ∈ b.session? sid, ∀ pkt ∈ decodeUnsubscribe data s.protocolLevel,
      Along (unsubscribeRound sid) (Separated · sid ·) b pkt.topicFilters

instance (b : Broker) : (packet : SubscriptionPacket) → Decidable (b.PacketSeparated cfg packet)
  | .subscribe _ _ _ => inferInstanceAs (Decidable (∀ _ ∈ _, _))
  | .unsubscribe _ _ => inferInstanceAs (Decidable (∀ _ ∈ _, _))

theorem Consistent.subscribeRound (b : Broker × List UInt8) (sub : MqttSubOption × Nat)
    (h : b.1.Consistent) (hseparated : RoundSeparated cfg handler sid level pkt b sub) :
    (subscribeRound cfg handler sid level pkt b sub).1.Consistent := by
  rw [Broker.subscribeRound]
  cases hrefuse : refuseSubscription cfg level pkt (handler.onSubscribe sub.2) sub.1 with
  | some reason => exact h
  | none =>
    refine h.subscribeFilter cfg (validateTopicFilter_of_not_refused hrefuse) (hseparated ?_)
    rw [hrefuse]
    rfl

theorem Consistent.subscriptionStep (b : Broker) (packet : SubscriptionPacket) (h : b.Consistent)
    (hseparated : b.PacketSeparated cfg packet) : (b.subscriptionStep cfg packet).Consistent := by
  cases packet with
  | subscribe sid handler data =>
    rw [Broker.subscriptionStep]
    cases hs : b.session? sid with
    | none => exact h
    | some s =>
      dsimp only
      rw [handleSubscribe]
      cases hpkt : decodeSubscribe data s.protocolLevel with
      | none => exact h
      | some pkt =>
        dsimp only
        split
        · exact h
        · exact run_invariant (I := fun b : Broker × List UInt8 => b.1.Consistent)
            (fun b sub => Consistent.subscribeRound cfg b sub) h (hseparated s hs pkt hpkt)
  | unsubscribe sid data =>
    rw [Broker.subscriptionStep]
    cases hs : b.session? sid with
    | none => exact h
    | some s =>
      dsimp only
      rw [handleUnsubscribe]
      cases hpkt : decodeUnsubscribe data s.protocolLevel with
      | none => exact h
      | some pkt =>
        dsimp only
        split
        · exact h
        · exact run_invariant (fun b filter hb => hb.unsubscribeRound) h (hseparated s hs pkt hpkt)

/-- From sessions without subscriptions on, the maps and the tree agree as long as no session uses
two filters that differ in the group only. -/
theorem agrees_run {b : Broker} (htree : b.topicTree = {})
    (hempty : ∀ sid s, b.session? sid = some s → s.subscriptions = ∅)
    {packets : List SubscriptionPacket}
    (hseparated : Along (subscriptionStep cfg) (PacketSeparated cfg) b packets) :
    (run (subscriptionStep cfg) b packets).Agrees := by
  have hstart : b.Consistent := by
    refine ⟨htree ▸ single_new, fun sid s hs filter qos => ?_⟩
    rw [hempty sid s hs, TreeHas, htree, owned_new]
    simp
  exact (run_invariant (Consistent.subscriptionStep cfg) hstart hseparated).agrees

/-- A SUBSCRIBE of version 3.1.1 with QoS 1 for all filters. -/
def subscribeBody (filters : List Bytes) : Bytes :=
  writeU16 1 ++ filters.flatMap fun filter => writeUtf8String filter ++ [1]

def unsubscribeBody (filters : List Bytes) : Bytes := writeU16 1 ++ filters.flatMap writeUtf8String

/-- Two sessions subscribe, also to the same shared filter, and one of them unsubscribes. -/
theorem agrees_run_two :
    (run (subscriptionStep {}) twoSessions
      [.subscribe 1 {} (subscribeBody [text "a", text "$share/g/b"]),
        .subscribe 2 {} (subscribeBody [text "$share/g/b"]),
        .unsubscribe 1 (unsubscribeBody [text "a"])]).Agrees := by
  refine agrees_run {} rfl (fun sid s hs => ?_) (by decide +kernel)
  have hlookup : twoSessions.session? sid =
      if sid = 2 then some { state := .connected }
      else if sid = 1 then some { state := .connected } else none := by
    rw [session?, twoSessions]
    by_cases h2 : sid = 2
    · rw [h2, AList.lookup_insert]
      rfl
    rw [AList.lookup_insert_ne h2]
    by_cases h1 : sid = 1
    · rw [h1, AList.lookup_insert]
      rfl
    · rw [AList.lookup_insert_ne h1, if_neg h2, if_neg h1]
      rfl
  rw [hlookup] at hs
  split at hs
  · rw [← some.inj hs]
  · split at hs
    · rw [← some.inj hs]
    · cases hs

/-- A shared subscription takes the place of the plain one on the same filter, which stays in the
map. -/
theorem not_agrees_shared :
    ¬(run (subscriptionStep {}) twoSessions
      [.subscribe 1 {} (subscribeBody [text "a", text "$share/g/a"])]).Agrees := by
  intro h
  have htree := (h 1 _ (some_get (by decide +kernel)).symm (text "a") .atLeastOnce).mp
    (by decide +kernel)
  revert htree
  decide +kernel

end Broker

end ServerLib.Mqtt

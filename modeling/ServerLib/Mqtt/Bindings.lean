import ServerLib.Mqtt.Connect

/-! Who has which client id.  The manager keeps an index, which it repairs when a session is looked
for; the history of the bindings says which session got a client id last.  While no session changes
its client id, that session is the one that is found. -/

namespace ServerLib.Mqtt

open Lib Option AList

/-- The session that got the client id last. -/
def lastBound (bindings : List (Bytes × Nat)) (clientId : Bytes) : Option Nat :=
  (bindings.reverse.find? (·.1 = clientId)).map Prod.snd

theorem lastBound_concat (bindings : List (Bytes × Nat)) (clientId clientId' : Bytes) (sid : Nat) :
    lastBound (bindings ++ [(clientId, sid)]) clientId' =
      if clientId = clientId' then some sid else lastBound bindings clientId' := by
  by_cases h : clientId = clientId' <;> simp [lastBound, h]

theorem mem_of_lastBound (h : lastBound bindings clientId = some sid) :
    (clientId, sid) ∈ bindings := by
  obtain ⟨binding, hfind, rfl⟩ := map_eq_some_iff.mp h
  have hsame := List.find?_some hfind
  rw [← of_decide_eq_true hsame]
  exact List.mem_reverse.mp (List.mem_of_find?_eq_some hfind)

namespace Broker

/-- The session that got a client id last still has it, and the index names it. -/
structure Bound (b : Broker) : Prop where
  named : ∀ binding ∈ b.bindings, binding.1 ≠ []
  index : ∀ clientId sid s, lastBound b.bindings clientId = some sid → b.session? sid = some s →
    s.clientId = clientId ∧ b.sessionMgr.clientIdIndex.lookup clientId = some sid

variable {b : Broker}

variable {b' : Broker}

section

variable (h : b.Bound)
include h

theorem Bound.indexed (hlast : lastBound b.bindings clientId = some sid)
    (hs : b.session? sid = some s) : b.sessionMgr.indexed clientId = some sid := by
  obtain ⟨hclientId, hindex⟩ := h.index clientId sid s hlast hs
  have hs : b.sessionMgr.sessions.lookup sid = some s := hs
  rw [MqttSessionManager.indexed, hindex, filter_some, hs]
  simp [hclientId]

theorem Bound.findByClientId_snd (hlast : lastBound b.bindings clientId = some sid)
    (hs : b.session? sid = some s) : (b.findByClientId clientId).2 = some sid := by
  rw [findByClientId, MqttSessionManager.findByClientId, h.indexed hlast hs]

/-- A step without a binding, in which sessions may go but keep their client id, and in which the
index still names those that it named and that are still there. -/
theorem Bound.mono (hbindings : b'.bindings = b.bindings)
    (hsession : ∀ sid s', b'.session? sid = some s' →
      ∃ s, b.session? sid = some s ∧ s'.clientId = s.clientId)
    (hindex : ∀ sid s', b'.session? sid = some s' →
      b.sessionMgr.indexed s'.clientId = some sid →
      b.sessionMgr.clientIdIndex.lookup s'.clientId = some sid →
      b'.sessionMgr.clientIdIndex.lookup s'.clientId = some sid) : b'.Bound where
  named := by
    rw [hbindings]
    exact h.named
  index clientId sid s' hlast hs' := by
    rw [hbindings] at hlast
    obtain ⟨s, hs, hsame⟩ := hsession sid s' hs'
    obtain ⟨rfl, hlookup⟩ := h.index clientId sid s hlast hs
    rw [← hsame] at hlookup ⊢
    refine ⟨rfl, hindex sid s' hs' ?_ hlookup⟩
    rw [hsame]
    exact h.indexed hlast hs

theorem Bound.of_clientIdIndex (hbindings : b'.bindings = b.bindings)
    (hsession : ∀ sid s', b'.session? sid = some s' →
      ∃ s, b.session? sid = some s ∧ s'.clientId = s.clientId)
    (hindex : b'.sessionMgr.clientIdIndex = b.sessionMgr.clientIdIndex) : b'.Bound := by
  refine h.mono hbindings hsession fun sid s' _ _ hlookup => ?_
  rw [hindex]
  exact hlookup

theorem Bound.steady (hsteady : Steady sid b b') : b'.Bound := by
  refine h.of_clientIdIndex hsteady.bindings (fun sid' s' hs' => ?_) hsteady.clientIdIndex
  have hterms := hsteady.terms sid'
  rw [hs', map_some] at hterms
  obtain ⟨s, hs, hsame⟩ := map_eq_some_iff.mp hterms.symm
  exact ⟨s, hs, (congrArg Terms.clientId hsame).symm⟩

theorem Bound.modifySession (sid : Nat) (hf : ∀ s, (f s).clientId = s.clientId) :
    (b.modifySession sid f).Bound := by
  refine h.of_clientIdIndex rfl (fun sid' s' hs' => ?_) rfl
  by_cases hsid : sid' = sid
  · subst hsid
    rw [session?_modifySession_self] at hs'
    obtain ⟨s, hs, rfl⟩ := map_eq_some_iff.mp hs'
    exact ⟨s, hs, hf s⟩
  · rw [session?_modifySession_of_ne _ _ _ hsid] at hs'
    exact ⟨s', hs', rfl⟩

theorem Bound.findByClientId (clientId : Bytes) : (b.findByClientId clientId).1.Bound := by
  refine h.mono rfl (fun sid s' hs' => ⟨s', ?_, rfl⟩) fun sid s' hs' hindexed hlookup => ?_
  · rw [← hs', session?_findByClientId]
  · rw [Broker.findByClientId, MqttSessionManager.findByClientId]
    by_cases hsame : s'.clientId = clientId
    · rw [← hsame, hindexed]
      exact hlookup
    split
    · exact hlookup
    split
    · rw [lookup_insert_ne hsame]
      exact hlookup
    · exact hlookup

theorem Bound.bindClientId (hs : b.session? sid = some s)
    (hnew : s.clientId = [] ∨ s.clientId = clientId) (hnamed : clientId ≠ []) :
    (b.bindClientId sid clientId).Bound where
  named binding hmem := by
    rw [bindings_bindClientId, List.mem_append, List.mem_singleton] at hmem
    rcases hmem with hmem | rfl
    · exact h.named binding hmem
    · exact hnamed
  index clientId' sid' s' hlast hs' := by
    have hold : b.sessionMgr.clientIdOf sid = s.clientId := by
      have hs : b.sessionMgr.sessions.lookup sid = some s := hs
      rw [MqttSessionManager.clientIdOf, hs]
      rfl
    have hindex : (b.bindClientId sid clientId).sessionMgr.clientIdIndex =
        b.sessionMgr.clientIdIndex.insert clientId sid := by
      change (b.sessionMgr.bindClientId sid clientId).clientIdIndex = _
      rw [MqttSessionManager.bindClientId]
      rw [hold, if_pos hnamed, if_neg]
      rintro ⟨hempty, hother⟩
      exact hnew.elim hempty hother
    rw [bindings_bindClientId, lastBound_concat] at hlast
    rw [hindex]
    by_cases hclientId : clientId = clientId'
    · subst hclientId
      rw [if_pos rfl] at hlast
      cases hlast
      rw [session?_bindClientId, hs] at hs'
      cases hs'
      exact ⟨rfl, lookup_insert _⟩
    · rw [if_neg hclientId] at hlast
      rw [lookup_insert_ne (Ne.symm hclientId)]
      by_cases hsid : sid' = sid
      · -- the session would have had another client id before
        subst hsid
        obtain ⟨rfl, _⟩ := h.index clientId' sid' s hlast hs
        rcases hnew with hempty | hsame
        · exact absurd hempty (h.named _ (mem_of_lastBound hlast))
        · exact absurd hsame.symm hclientId
      · refine h.index clientId' sid' s' hlast ?_
        rw [← hs']
        exact (lookup_modify_of_ne _ hsid _).symm

theorem Bound.removeSession (sid : Nat) :
    Bound { b with sessionMgr := b.sessionMgr.removeSession sid } := by
  cases hs : b.sessionMgr.sessions.lookup sid with
  | none =>
    have hsame : b.sessionMgr.removeSession sid = b.sessionMgr := by
      rw [MqttSessionManager.removeSession, hs]
    rw [hsame]
    exact h
  | some s =>
    have hremove : b.sessionMgr.removeSession sid =
        { sessions := b.sessionMgr.sessions.erase sid
          clientIdIndex :=
            if s.clientId ≠ [] ∧ b.sessionMgr.clientIdIndex.lookup s.clientId = some sid then
              b.sessionMgr.clientIdIndex.erase s.clientId
            else b.sessionMgr.clientIdIndex } := by
      rw [MqttSessionManager.removeSession, hs]
    rw [hremove]
    have hstay : ∀ sid' s', (b.sessionMgr.sessions.erase sid).lookup sid' = some s' →
        sid' ≠ sid ∧ b.session? sid' = some s' := by
      intro sid' s' hs'
      by_cases hsid : sid' = sid
      · rw [hsid, lookup_erase] at hs'
        cases hs'
      · rw [lookup_erase_ne hsid] at hs'
        exact ⟨hsid, hs'⟩
    refine h.mono rfl (fun sid' s' hs' => ⟨s', (hstay sid' s' hs').2, rfl⟩) ?_
    intro sid' s' hs' _ hlookup
    split_ifs with herase
    · rw [lookup_erase_ne]
      · exact hlookup
      · intro hsame
        rw [hsame, herase.2] at hlookup
        exact (hstay sid' s' hs').1 (some.inj hlookup).symm
    · exact hlookup

theorem Bound.takeOver (sid : Nat) (clientId : Bytes) (cleanStart : Bool) :
    (b.takeOver sid clientId cleanStart).Bound :=
  takeOver_of clientId cleanStart h (fun _ clientId h => h.findByClientId clientId)
    fun _ old _ h => h.modifySession old fun _ => rfl

theorem Bound.sessionPresent (sid : Nat) (clientId : Bytes) (cleanStart : Bool) :
    (b.sessionPresent sid clientId cleanStart).1.Bound :=
  sessionPresent_of clientId cleanStart h fun _ clientId h => h.findByClientId clientId

theorem Bound.discardSubscriptions (sid : Nat) (clientId : Bytes)
    (cleanStart : Bool) : (b.discardSubscriptions sid clientId cleanStart).Bound :=
  discardSubscriptions_of clientId cleanStart h (fun _ clientId h => h.findByClientId clientId)
    fun _ old h => h.steady (steady_removeAll sid old)

end

theorem clientIdFor_ne_nil (connect : MqttConnectPacket) (sid : Nat) :
    clientIdFor connect sid ≠ [] := by
  rw [clientIdFor]
  split
  · exact List.cons_ne_nil _ _
  · assumption

theorem Bound.handleConnect (cfg : MqttServerConfig) (handler : MqttHandler) (h : b.Bound)
    (hs : b.session? sid = some s) (hnew : ∀ connect ∈ decodeConnect body,
      s.clientId = [] ∨ s.clientId = clientIdFor connect sid) :
    (b.handleConnect cfg handler sid s body).1.Bound := by
  rw [Broker.handleConnect]
  cases hdecode : decodeConnect body with
  | none => exact h.modifySession sid fun _ => rfl
  | some connect =>
    dsimp only
    split
    · exact h.modifySession sid fun _ => rfl
    split
    · exact h.modifySession sid fun _ => rfl
    have hover := h.takeOver sid (clientIdFor connect sid)
      (MqttConnectPacket.hasFlag flagCleanStart connect.connectFlags)
    split
    · exact hover.modifySession sid fun _ => rfl
    split
    · exact hover.modifySession sid fun _ => rfl
    rw [acceptConnect]
    apply Bound.modifySession
    · apply ((hover.sessionPresent sid _ _).discardSubscriptions sid _ _).bindClientId (s := s)
      · rw [session?_discardSubscriptions, session?_sessionPresent, session?_takeOver, hs]
      · exact hnew connect hdecode
      · exact clientIdFor_ne_nil connect sid
    · intro s'
      rw [establish]
      split <;> rfl

end Broker

end ServerLib.Mqtt

import ServerLib.Mqtt.TopicTree

/-! The subscriptions in the tree by the sessions they belong to.  A node has one at most for each
session, and every operation touches those of one session only. -/

namespace ServerLib.Mqtt

open Lib

section Node

variable (subs : List MqttSubscription)

theorem filter_addSubscription_of_ne (h : sub.sessionId ≠ sessionId) :
    (addSubscription sub subs).filter (·.sessionId = sessionId) =
      subs.filter (·.sessionId = sessionId) := by
  fun_induction addSubscription sub subs with
  | case1 => simp [h]
  | case2 existing subs hsame =>
    have hne : existing.sessionId ≠ sessionId := hsame ▸ h
    simp [h, hne]
  | case3 existing subs hsame ih => simp only [List.filter_cons, ih]

theorem filter_addSubscription_self (h : (subs.filter (·.sessionId = sub.sessionId)).length ≤ 1) :
    (addSubscription sub subs).filter (·.sessionId = sub.sessionId) = [sub] := by
  fun_induction addSubscription sub subs with
  | case1 => simp
  | case2 existing subs hsame =>
    rw [List.filter_cons_of_pos (by simpa using hsame), List.length_cons] at h
    have hnone : subs.filter (·.sessionId = sub.sessionId) = [] :=
      List.eq_nil_of_length_eq_zero (by omega)
    rw [List.filter_cons_of_pos (by simp), hnone]
  | case3 existing subs hsame ih =>
    rw [List.filter_cons_of_neg (by simpa using hsame)] at h ⊢
    exact ih h

theorem filter_eraseP_of_ne (h : sessionId' ≠ sessionId) :
    (subs.eraseP (·.sessionId = sessionId')).filter (·.sessionId = sessionId) =
      subs.filter (·.sessionId = sessionId) := by
  induction subs with
  | nil => rfl
  | cons existing subs ih =>
    by_cases hsame : existing.sessionId = sessionId'
    · have hne : existing.sessionId ≠ sessionId := hsame ▸ h
      rw [List.eraseP_cons_of_pos (by simpa using hsame),
        List.filter_cons_of_neg (by simpa using hne)]
    · rw [List.eraseP_cons_of_neg (by simpa using hsame), List.filter_cons, List.filter_cons, ih]

theorem filter_eraseP_self (h : (subs.filter (·.sessionId = sessionId)).length ≤ 1) :
    (subs.eraseP (·.sessionId = sessionId)).filter (·.sessionId = sessionId) = [] := by
  induction subs with
  | nil => rfl
  | cons existing subs ih =>
    by_cases hsame : existing.sessionId = sessionId
    · rw [List.filter_cons_of_pos (by simpa using hsame), List.length_cons] at h
      rw [List.eraseP_cons_of_pos (by simpa using hsame)]
      exact List.eq_nil_of_length_eq_zero (by omega)
    · rw [List.filter_cons_of_neg (by simpa using hsame)] at h
      rw [List.eraseP_cons_of_neg (by simpa using hsame),
        List.filter_cons_of_neg (by simpa using hsame)]
      exact ih h

end Node

namespace MqttTopicTree

def owned (t : MqttTopicTree) (sessionId : Nat) (node : List Edge) : List MqttSubscription :=
  (t.root.valueAt [] node).filter (·.sessionId = sessionId)

/-- No session has two subscriptions at a node. -/
def Single (t : MqttTopicTree) : Prop :=
  ∀ sessionId node, (t.owned sessionId node).length ≤ 1

theorem owned_new (sessionId : Nat) (node : List Edge) :
    ({} : MqttTopicTree).owned sessionId node = [] := by
  rw [owned, Trie.valueAt_new]
  rfl

theorem single_new : ({} : MqttTopicTree).Single := by
  intro sessionId node
  rw [owned_new]
  exact Nat.zero_le 1

variable {t : MqttTopicTree}

theorem owned_subscribe (h : t.Single) (filter : Bytes) (sub : MqttSubscription) (sessionId : Nat)
    (node : List Edge) :
    (t.subscribe filter sub).1.owned sessionId node =
      if node = path (actualFilter filter) ∧ sub.sessionId = sessionId then [sub]
      else t.owned sessionId node := by
  rw [owned, subscribe, Trie.valueAt_modifyAt]
  by_cases hnode : node = path (actualFilter filter)
  · rw [if_pos hnode]
    by_cases hsession : sub.sessionId = sessionId
    · rw [if_pos ⟨hnode, hsession⟩, ← hsession]
      exact filter_addSubscription_self _ (h sub.sessionId _)
    · rw [if_neg fun hboth => hsession hboth.2, filter_addSubscription_of_ne _ hsession, hnode]
      rfl
  · rw [if_neg hnode, if_neg fun hboth => hnode hboth.1]
    rfl

theorem owned_unsubscribe (h : t.Single) (filter : Bytes) (sessionId' sessionId : Nat)
    (node : List Edge) :
    (t.unsubscribe filter sessionId').1.owned sessionId node =
      if node = path (actualFilter filter) ∧ sessionId' = sessionId then []
      else t.owned sessionId node := by
  rw [owned, unsubscribe, Trie.valueAt_updateAt _ _ rfl]
  by_cases hnode : node = path (actualFilter filter)
  · rw [if_pos hnode]
    by_cases hsession : sessionId' = sessionId
    · rw [if_pos ⟨hnode, hsession⟩, hsession]
      exact filter_eraseP_self _ (h sessionId _)
    · rw [if_neg fun hboth => hsession hboth.2, filter_eraseP_of_ne _ hsession, hnode]
      rfl
  · rw [if_neg hnode, if_neg fun hboth => hnode hboth.1]
    rfl

theorem owned_removeAll (t : MqttTopicTree) (sessionId' sessionId : Nat) (node : List Edge) :
    (t.removeAll sessionId').owned sessionId node =
      if sessionId' = sessionId then [] else t.owned sessionId node := by
  rw [owned, removeAll, Trie.valueAt_mapValues _ _ rfl, List.filter_filter]
  split_ifs with hsession
  · refine List.filter_eq_nil_iff.mpr fun sub _ => ?_
    simp [hsession]
  · refine List.filter_congr fun sub _ => ?_
    by_cases hsub : sub.sessionId = sessionId
    · simp [hsub, Ne.symm hsession]
    · simp [hsub]

theorem Single.subscribe (h : t.Single) (filter : Bytes) (sub : MqttSubscription) :
    (t.subscribe filter sub).1.Single := by
  intro sessionId node
  rw [owned_subscribe h]
  split
  · exact Nat.le_refl 1
  · exact h sessionId node

theorem Single.unsubscribe (h : t.Single) (filter : Bytes) (sessionId : Nat) :
    (t.unsubscribe filter sessionId).1.Single := by
  intro sessionId' node
  rw [owned_unsubscribe h]
  split
  · exact Nat.zero_le 1
  · exact h sessionId' node

theorem Single.removeAll (h : t.Single) (sessionId : Nat) : (t.removeAll sessionId).Single := by
  intro sessionId' node
  rw [owned_removeAll]
  split
  · exact Nat.zero_le 1
  · exact h sessionId' node

def Owns (t : MqttTopicTree) (sessionId : Nat) : Prop := ∃ node, t.owned sessionId node ≠ []

theorem not_owns_new (sessionId : Nat) : ¬({} : MqttTopicTree).Owns sessionId := by
  rintro ⟨node, hnode⟩
  exact hnode (owned_new sessionId node)

theorem Owns.of_subscribe (h : t.Single) (howns : (t.subscribe filter sub).1.Owns sessionId) :
    t.Owns sessionId ∨ sessionId = sub.sessionId := by
  obtain ⟨node, hnode⟩ := howns
  rw [owned_subscribe h] at hnode
  split_ifs at hnode with hboth
  · exact .inr hboth.2.symm
  · exact .inl ⟨node, hnode⟩

theorem Owns.of_unsubscribe (h : t.Single)
    (howns : (t.unsubscribe filter sessionId').1.Owns sessionId) : t.Owns sessionId := by
  obtain ⟨node, hnode⟩ := howns
  rw [owned_unsubscribe h] at hnode
  split at hnode
  · exact absurd rfl hnode
  · exact ⟨node, hnode⟩

theorem Owns.of_removeAll (howns : (t.removeAll sessionId').Owns sessionId) :
    sessionId ≠ sessionId' ∧ t.Owns sessionId := by
  obtain ⟨node, hnode⟩ := howns
  rw [owned_removeAll] at hnode
  split_ifs at hnode with hne
  · exact absurd rfl hnode
  · exact ⟨Ne.symm hne, node, hnode⟩

end MqttTopicTree

end ServerLib.Mqtt

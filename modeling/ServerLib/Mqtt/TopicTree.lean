import Mathlib.Data.List.Nodup
import ServerLib.Lib.Run
import ServerLib.Lib.Trie
import ServerLib.Mqtt.Protocol

/-! The tree of subscriptions.  There is one node for each filter, and the edges are the levels,
with the wildcards apart.  A run of the operations of the tree is compared with a list of filters
and subscriptions, and what `match` returns with the rules of MQTT. -/

namespace ServerLib.Mqtt

open Lib List

structure MqttSubscription where
  sessionId : Nat
  qos : QoS := .atMostOnce
  noLocal : UInt8 := 0
  retainAsPublished : UInt8 := 0
  retainHandling : UInt8 := 0
  subscriptionIdentifier : Option UInt32 := none
  sharedGroup : Bytes := []
  sharedFilter : Bytes := []
deriving DecidableEq

/-- How a node leads to another one: `children`, `single_level_wildcard`, and
`multi_level_wildcard`. -/
inductive Edge
  | level (name : Bytes)
  | singleLevelWildcard
  | multiLevelWildcard
deriving DecidableEq

abbrev Node := Trie Edge (List MqttSubscription)

variable (level : Bytes)

def edge : Edge :=
  if level = [plus] then .singleLevelWildcard
  else if level = [hash] then .multiLevelWildcard
  else .level level

/-- The way from the root to the node of a filter. -/
def path (filter : Bytes) : List Edge := (splitTopic filter).map edge

structure MqttTopicTree where
  root : Node := .node [] []

/-- A subscription of the same session is replaced. -/
def addSubscription (sub : MqttSubscription) : List MqttSubscription → List MqttSubscription
  | [] => [sub]
  | existing :: rest =>
    if existing.sessionId = sub.sessionId then sub :: rest else existing :: addSubscription sub rest

namespace MqttTopicTree

def subscriptionsAt (t : MqttTopicTree) (filter : Bytes) : List MqttSubscription :=
  t.root.valueAt [] (path filter)

/-- The second value is the QoS of the subscription that is replaced. -/
def subscribe (t : MqttTopicTree) (topicFilter : Bytes) (sub : MqttSubscription) :
    MqttTopicTree × Option QoS :=
  let filter := actualFilter topicFilter
  ({ root := t.root.modifyAt [] (addSubscription sub) (path filter) },
    ((t.subscriptionsAt filter).find? (·.sessionId = sub.sessionId)).map (·.qos))

def unsubscribe (t : MqttTopicTree) (topicFilter : Bytes) (sessionId : Nat) :
    MqttTopicTree × Bool :=
  let filter := actualFilter topicFilter
  ({ root := t.root.updateAt (List.eraseP (·.sessionId = sessionId)) (path filter) },
    (t.subscriptionsAt filter).any (·.sessionId = sessionId))

/-- The source visits all nodes with a stack. -/
def removeAll (t : MqttTopicTree) (sessionId : Nat) : MqttTopicTree where
  root := t.root.mapValues (List.filter (·.sessionId ≠ sessionId))

def multiLevelSubscriptions (node : Node) : List MqttSubscription :=
  match node.child .multiLevelWildcard with
  | some multi => multi.value
  | none => []

def matchRecursive : Node → List Bytes → List MqttSubscription
  | node, [] => node.value ++ multiLevelSubscriptions node
  | node, current :: rest =>
    (match node.child (.level current) with
      | some child => matchRecursive child rest
      | none => []) ++
    (match node.child .singleLevelWildcard with
      | some child => matchRecursive child rest
      | none => []) ++
    multiLevelSubscriptions node

def matchTopic (t : MqttTopicTree) (topic : Bytes) : List MqttSubscription :=
  match splitTopic topic with
  | [] => []
  | first :: rest =>
    if first.head? = some dollar then
      match t.root.child (.level first) with
      | some child => matchRecursive child rest
      | none => []
    else matchRecursive t.root (first :: rest)

end MqttTopicTree

theorem edge_injective : Function.Injective edge := by
  intro level level' h
  rw [edge, edge] at h
  split at h
  · split at h
    · rename_i hlevel hlevel'
      rw [hlevel, hlevel']
    · split at h <;> cases h
  · split at h
    · split at h
      · cases h
      · split at h
        · rename_i hlevel _ hlevel'
          rw [hlevel, hlevel']
        · cases h
    · split at h
      · cases h
      · split at h
        · cases h
        · exact Edge.level.inj h

theorem path_injective : Function.Injective path := fun _ _ h =>
  splitTopic_injective (map_injective_iff.mpr edge_injective h)

theorem edge_plus : edge [plus] = .singleLevelWildcard := rfl

theorem edge_hash : edge [hash] = .multiLevelWildcard := rfl

theorem edge_of_not_isWildcard {level : Bytes} (h : isWildcard level = false) :
    edge level = .level level := by
  have hnot := of_decide_eq_false h
  rw [edge, if_neg fun hplus => hnot (.inl hplus), if_neg fun hhash => hnot (.inr hhash)]

/-- Subscriptions, each with the levels of its filter. -/
abbrev LevelSubscriptions := List (List Bytes × MqttSubscription)

/-- The node and what is below it hold these subscriptions. -/
def Denotes (node : Node) (subs : LevelSubscriptions) : Prop :=
  ∀ levels, node.valueAt [] (levels.map edge) = (subs.filter (·.1 = levels)).map Prod.snd

/-- The subscriptions that start with a level, without that level. -/
def below (subs : LevelSubscriptions) : LevelSubscriptions :=
  subs.filterMap fun s =>
    match s.1 with
    | [] => none
    | first :: rest => if first = level then some (rest, s.2) else none

theorem filter_below (subs : LevelSubscriptions) (p : List Bytes → Bool) :
    ((below level subs).filter fun s => p s.1).map Prod.snd =
      (subs.filter fun s => s.1.head? = some level ∧ p s.1.tail).map Prod.snd := by
  induction subs with
  | nil => rfl
  | cons s subs ih =>
    obtain ⟨levels, sub⟩ := s
    cases levels with
    | nil => simpa [below] using ih
    | cons first rest =>
      by_cases hfirst : first = level
      · by_cases hp : p rest <;> simpa [below, hfirst, hp] using ih
      · simpa [below, hfirst] using ih

theorem mem_below {level : Bytes} {subs : LevelSubscriptions} {rest : List Bytes}
    {sub : MqttSubscription} (h : (rest, sub) ∈ below level subs) :
    (level :: rest, sub) ∈ subs := by
  obtain ⟨⟨levels, sub'⟩, hmem, hsome⟩ := mem_filterMap.mp h
  cases levels with
  | nil => cases hsome
  | cons first rest' =>
    dsimp only at hsome
    split at hsome
    · rename_i hfirst
      obtain ⟨rfl, rfl⟩ := Prod.mk.inj (Option.some.inj hsome)
      rw [← hfirst]
      exact hmem
    · cases hsome

theorem Denotes.child {child : Node} {level : Bytes} (h : Denotes node subs)
    (hchild : node.child (edge level) = some child) : Denotes child (below level subs) := by
  intro levels
  have hvalue := h (level :: levels)
  rw [map_cons, Trie.valueAt_cons, hchild, Option.map_some, Option.getD_some] at hvalue
  have hfilter := filter_below level subs (· = levels)
  simp only [decide_eq_true_eq] at hfilter
  rw [hvalue, hfilter]
  congr 2
  funext s
  obtain ⟨levels', sub⟩ := s
  cases levels' with
  | nil | cons first rest => simp

theorem Denotes.below_eq_nil {level : Bytes} (h : Denotes node subs)
    (hchild : node.child (edge level) = none) : below level subs = [] := by
  cases hbelow : below level subs with
  | nil => rfl
  | cons s rest =>
    obtain ⟨levels, sub⟩ := s
    have hmem : (level :: levels, sub) ∈ subs :=
      mem_below (by rw [hbelow]; exact mem_cons_self)
    have hvalue := h (level :: levels)
    rw [map_cons, Trie.valueAt_cons, hchild] at hvalue
    have hnil := map_eq_nil_iff.mp hvalue.symm
    have hin : (level :: levels, sub) ∈ subs.filter (·.1 = level :: levels) :=
      mem_filter.mpr ⟨hmem, by simp⟩
    rw [hnil] at hin
    cases hin

theorem Denotes.value (h : Denotes node subs) :
    node.value = (subs.filter (·.1 = [])).map Prod.snd :=
  h []

theorem Denotes.multiLevelSubscriptions (h : Denotes node subs) :
    MqttTopicTree.multiLevelSubscriptions node =
      (subs.filter (·.1 = [[hash]])).map Prod.snd := by
  have hvalue := h [[hash]]
  rw [map_singleton, edge_hash, Trie.valueAt_cons] at hvalue
  rw [← hvalue, MqttTopicTree.multiLevelSubscriptions]
  split
  all_goals
    rename_i hchild
    rw [hchild]
    rfl

theorem filter_or_perm {α : Type} (l : List α) {p q : α → Bool}
    (h : ∀ x ∈ l, p x → q x = false) :
    (l.filter fun x => p x || q x).Perm (l.filter p ++ l.filter q) := by
  induction l with
  | nil => exact List.Perm.nil
  | cons x l ih =>
    obtain ⟨hx, h⟩ := forall_mem_cons.mp h
    have ih := ih h
    cases hp : p x with
    | true =>
      have hq := hx hp
      simpa [hp, hq] using ih
    | false =>
      cases hq : q x with
      | true => simpa [hp, hq] using (ih.cons x).trans perm_middle.symm
      | false => simpa [hp, hq] using ih

theorem levelsMatch_cons {levels : List Bytes} (hvalid : validateLevels levels) {t : Bytes}
    (ht : isWildcard t = false) (ts : List Bytes) :
    levelsMatch levels (t :: ts) =
      (((levels.head? = some t ∧ levelsMatch levels.tail ts) ||
        (levels.head? = some [plus] ∧ levelsMatch levels.tail ts)) || levels = [[hash]]) := by
  have hnot := of_decide_eq_false ht
  cases levels with
  | nil => rfl
  | cons level rest =>
    rw [levelsMatch]
    by_cases hhash : level = [hash]
    · subst hhash
      simp [eq_nil_of_validateLevels hvalid]
    · simp [hhash]
      grind

theorem matchRecursive_perm {node : Node} {subs : LevelSubscriptions} (h : Denotes node subs)
    (hvalid : ∀ s ∈ subs, validateLevels s.1) {ts : List Bytes}
    (hts : ∀ t ∈ ts, isWildcard t = false) :
    (MqttTopicTree.matchRecursive node ts).Perm
      ((subs.filter fun s => levelsMatch s.1 ts).map Prod.snd) := by
  induction ts generalizing node subs with
  | nil =>
    have hcases : ∀ s ∈ subs, levelsMatch s.1 [] = ((s.1 = []) || (s.1 = [[hash]])) := by
      rintro ⟨levels, sub⟩ _
      cases levels with
      | nil => rfl
      | cons level rest => simp [levelsMatch]
    rw [filter_congr hcases, MqttTopicTree.matchRecursive, h.value, h.multiLevelSubscriptions,
      ← map_append]
    refine (filter_or_perm subs ?_).symm.map _
    intro s _ hnil
    simp [of_decide_eq_true hnil]
  | cons t ts ih =>
    obtain ⟨ht, hts⟩ := forall_mem_cons.mp hts
    have hnot := of_decide_eq_false ht
    have hedge : ∀ level, (match node.child (edge level) with
        | some child => MqttTopicTree.matchRecursive child ts
        | none => []).Perm ((subs.filter fun s : List Bytes × MqttSubscription =>
          s.1.head? = some level ∧ levelsMatch s.1.tail ts).map Prod.snd) := by
      intro level
      rw [← filter_below level subs (levelsMatch · ts)]
      split
      · rename_i child hchild
        refine ih (h.child hchild) (fun s hs => ?_) hts
        exact validateLevels_tail (hvalid _ (mem_below hs))
      · rename_i hchild
        rw [h.below_eq_nil hchild]
        exact List.Perm.nil
    have hcases := fun s hs => levelsMatch_cons (hvalid s hs) ht ts
    rw [filter_congr hcases, MqttTopicTree.matchRecursive, h.multiLevelSubscriptions,
      ← edge_of_not_isWildcard ht, ← edge_plus]
    refine (((hedge t).append (hedge [plus])).append_right _).trans ?_
    rw [← map_append, ← map_append]
    -- the three kinds of edges exclude each other
    refine List.Perm.map _ (List.Perm.symm ?_)
    refine (filter_or_perm subs ?_).trans ((filter_or_perm subs ?_).append_right _)
    · intro s _ hlevel
      refine decide_eq_false fun hhash => ?_
      rw [hhash] at hlevel
      rcases (Bool.or_eq_true _ _).mp hlevel with hlevel | hlevel
      · exact hnot (.inr (Option.some.inj (of_decide_eq_true hlevel).1).symm)
      · cases (of_decide_eq_true hlevel).1
    · intro s _ hlevel
      refine decide_eq_false fun hplus => ?_
      have hhead := (of_decide_eq_true hlevel).1
      rw [hplus.1] at hhead
      exact hnot (.inl (Option.some.inj hhead).symm)

/-- A call of one of the operations that change the tree. -/
inductive TreeOp
  | subscribe (topicFilter : Bytes) (sub : MqttSubscription)
  | unsubscribe (topicFilter : Bytes) (sessionId : Nat)
  | removeAll (sessionId : Nat)

/-- The filter is valid and not shared. -/
def TreeOp.Plain : TreeOp → Prop
  | .subscribe filter _ | .unsubscribe filter _ =>
    validateTopicFilter filter = true ∧ isSharedSubscription filter = false
  | .removeAll _ => True

instance : (op : TreeOp) → Decidable op.Plain
  | .subscribe _ _ | .unsubscribe _ _ => inferInstanceAs (Decidable (_ ∧ _))
  | .removeAll _ => isTrue trivial

def MqttTopicTree.step (t : MqttTopicTree) : TreeOp → MqttTopicTree
  | .subscribe filter sub => (t.subscribe filter sub).1
  | .unsubscribe filter sessionId => (t.unsubscribe filter sessionId).1
  | .removeAll sessionId => t.removeAll sessionId

/-- The current subscriptions, each with its filter. -/
abbrev Subscriptions := List (Bytes × MqttSubscription)

namespace Subscriptions

def key (s : Bytes × MqttSubscription) : Bytes × Nat := (s.1, s.2.sessionId)

/-- A subscription with the same key is replaced. -/
def add (filter : Bytes) (sub : MqttSubscription) : Subscriptions → Subscriptions
  | [] => [(filter, sub)]
  | s :: current =>
    if key s = (filter, sub.sessionId) then (filter, sub) :: current
    else s :: add filter sub current

def step (current : Subscriptions) : TreeOp → Subscriptions
  | .subscribe filter sub => add filter sub current
  | .unsubscribe filter sessionId => current.eraseP (key · = (filter, sessionId))
  | .removeAll sessionId => current.filter (·.2.sessionId ≠ sessionId)

/-- The subscriptions by the levels of their filters. -/
def byLevels (current : Subscriptions) : LevelSubscriptions :=
  current.map fun s => (splitTopic s.1, s.2)

/-- The subscriptions for one list of levels. -/
def forLevels (current : Subscriptions) (levels : List Bytes) : List MqttSubscription :=
  (current.filter (splitTopic ·.1 = levels)).map Prod.snd

variable (current : Subscriptions)

theorem filter_byLevels (p : List Bytes → Bool) :
    ((byLevels current).filter fun s => p s.1).map Prod.snd =
      (current.filter fun s => p (splitTopic s.1)).map Prod.snd := by
  rw [byLevels, filter_map, map_map]
  rfl

theorem forLevels_cons (s : Bytes × MqttSubscription)
    (levels : List Bytes) :
    forLevels (s :: current) levels =
      if splitTopic s.1 = levels then s.2 :: forLevels current levels
      else forLevels current levels := by
  by_cases h : splitTopic s.1 = levels <;> simp [forLevels, h]

variable (filter : Bytes)

theorem forLevels_add (sub : MqttSubscription) (levels : List Bytes) :
    forLevels (add filter sub current) levels =
      if levels = splitTopic filter then addSubscription sub (forLevels current levels)
      else forLevels current levels := by
  induction current with
  | nil =>
    rw [add, forLevels_cons]
    by_cases h : levels = splitTopic filter
    · simp [h, forLevels, addSubscription]
    · simp [h, Ne.symm h]
  | cons s current ih =>
    obtain ⟨filter', sub'⟩ := s
    rw [add]
    split
    · rename_i hkey
      obtain ⟨rfl, hsession⟩ := Prod.mk.inj hkey
      rw [forLevels_cons, forLevels_cons]
      by_cases h : levels = splitTopic filter'
      · have hsession' : sub'.sessionId = sub.sessionId := hsession
        simp [h, addSubscription, hsession']
      · simp [h, Ne.symm h]
    · rename_i hkey
      rw [forLevels_cons, forLevels_cons, ih]
      by_cases h : levels = splitTopic filter
      · subst h
        by_cases hfilter : splitTopic filter' = splitTopic filter
        · -- the same filter, so that the sessions differ
          have hsession : sub'.sessionId ≠ sub.sessionId := fun hsession =>
            hkey (Prod.ext (splitTopic_injective hfilter) hsession)
          simp [hfilter, addSubscription, hsession]
        · simp [hfilter]
      · simp [h]

theorem forLevels_eraseP (sessionId : Nat) (levels : List Bytes) :
    forLevels (current.eraseP (key · = (filter, sessionId))) levels =
      if levels = splitTopic filter then
        (forLevels current levels).eraseP (·.sessionId = sessionId)
      else forLevels current levels := by
  induction current with
  | nil => simp [forLevels]
  | cons s current ih =>
    obtain ⟨filter', sub'⟩ := s
    by_cases hkey : key (filter', sub') = (filter, sessionId)
    · rw [eraseP_cons_of_pos (by simpa using hkey), forLevels_cons]
      obtain ⟨rfl, hsession⟩ := Prod.mk.inj hkey
      by_cases h : levels = splitTopic filter'
      · have hsession' : sub'.sessionId = sessionId := hsession
        simp [h, hsession']
      · simp [h, Ne.symm h]
    · rw [eraseP_cons_of_neg (by simpa using hkey), forLevels_cons, forLevels_cons, ih]
      by_cases h : levels = splitTopic filter
      · subst h
        by_cases hfilter : splitTopic filter' = splitTopic filter
        · have hsession : sub'.sessionId ≠ sessionId := fun hsession =>
            hkey (Prod.ext (splitTopic_injective hfilter) hsession)
          simp [hfilter, hsession]
        · simp [hfilter]
      · simp [h]

theorem forLevels_filter (sessionId : Nat) (levels : List Bytes) :
    forLevels (current.filter (·.2.sessionId ≠ sessionId)) levels =
      (forLevels current levels).filter (·.sessionId ≠ sessionId) := by
  rw [forLevels, forLevels, filter_map, filter_filter, filter_filter]
  congr 2
  funext s
  exact Bool.and_comm _ _

theorem map_key_add (sub : MqttSubscription) :
    (add filter sub current).map key =
      if (filter, sub.sessionId) ∈ current.map key then current.map key
      else current.map key ++ [(filter, sub.sessionId)] := by
  fun_induction add filter sub current with
  | case1 => rfl
  | case2 s current hkey => simp [key, ← hkey]
  | case3 s current hkey ih =>
    rw [map_cons, ih]
    by_cases hmem : (filter, sub.sessionId) ∈ current.map key
    · rw [if_pos hmem, map_cons, if_pos (mem_cons_of_mem (key s) hmem)]
    · rw [if_neg hmem, map_cons, if_neg (by simpa [Ne.symm hkey] using hmem)]
      rfl

variable {current : Subscriptions}

theorem mem_add {filter : Bytes} (h : s ∈ add filter sub current) :
    s = (filter, sub) ∨ s ∈ current := by
  induction current with
  | nil => exact .inl (mem_singleton.mp h)
  | cons s' current ih =>
    rw [add] at h
    split at h
    · exact (mem_cons.mp h).imp_right (mem_cons_of_mem s')
    · rcases mem_cons.mp h with rfl | h
      · exact .inr mem_cons_self
      · exact (ih h).imp_right (mem_cons_of_mem s')

theorem nodup_step (h : (current.map key).Nodup) (op : TreeOp) :
    ((current.step op).map key).Nodup := by
  cases op with
  | subscribe filter sub =>
    rw [step, map_key_add]
    split_ifs with hnew
    · exact h
    · exact h.append (nodup_singleton _) (disjoint_singleton.mpr hnew)
  | unsubscribe filter sessionId => exact (eraseP_sublist.map key).nodup h
  | removeAll sessionId => exact (filter_sublist.map key).nodup h

theorem mem_step {op : TreeOp} {s : Bytes × MqttSubscription} (h : s ∈ current.step op) :
    s ∈ current ∨ op = .subscribe s.1 s.2 := by
  cases op with
  | subscribe filter sub =>
    rcases mem_add h with rfl | h
    · exact .inr rfl
    · exact .inl h
  | unsubscribe filter sessionId => exact .inl (mem_of_mem_eraseP h)
  | removeAll sessionId => exact .inl (mem_filter.mp h).1

end Subscriptions

/-- The tree holds the current subscriptions. -/
def Holds (t : MqttTopicTree) (current : Subscriptions) : Prop :=
  ∀ levels, t.root.valueAt [] (levels.map edge) = current.forLevels levels

theorem map_edge_eq_path_iff (levels : List Bytes) (filter : Bytes) :
    levels.map edge = path filter ↔ levels = splitTopic filter :=
  (map_injective_iff.mpr edge_injective).eq_iff

namespace Holds

variable (h : Holds t current)

include h

theorem denotes : Denotes t.root current.byLevels := by
  intro levels
  rw [h levels]
  exact (current.filter_byLevels (· = levels)).symm

theorem subscribe {filter : Bytes} (hshared : isSharedSubscription filter = false)
    (sub : MqttSubscription) :
    Holds (t.subscribe filter sub).1 (Subscriptions.add filter sub current) := by
  intro levels
  have hactual : actualFilter filter = filter := by rw [actualFilter, hshared]; rfl
  rw [MqttTopicTree.subscribe, hactual, Trie.valueAt_modifyAt, Subscriptions.forLevels_add,
    ← h levels]
  simp only [map_edge_eq_path_iff]
  split_ifs with hlevels
  · rw [hlevels]
    rfl
  · rfl

theorem unsubscribe {filter : Bytes} (hshared : isSharedSubscription filter = false)
    (sessionId : Nat) :
    Holds (t.unsubscribe filter sessionId).1
      (current.eraseP (Subscriptions.key · = (filter, sessionId))) := by
  intro levels
  have hactual : actualFilter filter = filter := by rw [actualFilter, hshared]; rfl
  rw [MqttTopicTree.unsubscribe, hactual, Trie.valueAt_updateAt _ _ rfl,
    Subscriptions.forLevels_eraseP, ← h levels]
  simp only [map_edge_eq_path_iff]
  split_ifs with hlevels
  · rw [hlevels]
    rfl
  · rfl

theorem removeAll (sessionId : Nat) :
    Holds (t.removeAll sessionId) (current.filter (·.2.sessionId ≠ sessionId)) := by
  intro levels
  rw [MqttTopicTree.removeAll, Trie.valueAt_mapValues _ _ rfl, h levels,
    Subscriptions.forLevels_filter]

theorem step {op : TreeOp} (hop : op.Plain) : Holds (t.step op) (current.step op) := by
  cases op with
  | subscribe filter sub => exact h.subscribe hop.2 sub
  | unsubscribe filter sessionId => exact h.unsubscribe hop.2 sessionId
  | removeAll sessionId => exact h.removeAll sessionId

end Holds

theorem filterMatches_of_dollar {filter topic first : Bytes} {rest : List Bytes}
    (hsplit : splitTopic topic = first :: rest) (hfirst : isWildcard first = false)
    (hdollar : topic.head? = some dollar) :
    filterMatches filter topic = decide ((splitTopic filter).head? = some first ∧
      levelsMatch (splitTopic filter).tail rest) := by
  rw [filterMatches, hsplit]
  cases splitTopic filter with
  | nil => simp [levelsMatch]
  | cons level levels =>
    by_cases hlevel : isWildcard level
    · have hne : level ≠ first := by
        rintro rfl
        rw [hlevel] at hfirst
        cases hfirst
      simp [hdollar, hlevel, hne]
    · rw [isWildcard, decide_eq_true_eq] at hlevel
      simp [hdollar, levelsMatch, isWildcard]
      grind

theorem Holds.matchTopic_perm (h : Holds t current)
    (hvalid : ∀ s ∈ current, validateLevels (splitTopic s.1)) {topic : Bytes}
    (htopic : validateTopicName topic) :
    (t.matchTopic topic).Perm ((current.filter (filterMatches ·.1 topic)).map Prod.snd) := by
  have hvalid' : ∀ s ∈ current.byLevels, validateLevels s.1 := by
    intro s hs
    obtain ⟨s', hs', rfl⟩ := mem_map.mp hs
    exact hvalid s' hs'
  cases hsplit : splitTopic topic with
  | nil => exact absurd hsplit (splitTopic_ne_nil topic)
  | cons first rest =>
    have hplain : ∀ level ∈ first :: rest, isWildcard level = false := by
      intro level hlevel
      rw [← hsplit] at hlevel
      exact not_isWildcard_of_validateTopicName htopic hlevel
    have hdollar : first.head? = some dollar ↔ topic.head? = some dollar := by
      rw [← head?_splitTopic topic dollar (by decide), hsplit]
      rfl
    rw [MqttTopicTree.matchTopic, hsplit]
    dsimp only
    split_ifs with hfirst
    · have hwild := hplain first mem_cons_self
      have hmatches : ((current.filter (filterMatches ·.1 topic)).map Prod.snd) =
          ((below first current.byLevels).filter fun s => levelsMatch s.1 rest).map Prod.snd := by
        rw [filter_below first current.byLevels (levelsMatch · rest),
          current.filter_byLevels fun levels => levels.head? = some first ∧
            levelsMatch levels.tail rest]
        congr 2
        funext s
        rw [filterMatches_of_dollar hsplit hwild (hdollar.mp hfirst)]
      rw [hmatches, ← edge_of_not_isWildcard hwild]
      split
      · rename_i child hchild
        refine matchRecursive_perm (h.denotes.child hchild) (fun s hs => ?_) fun level hlevel =>
          hplain level (mem_cons_of_mem first hlevel)
        exact validateLevels_tail (hvalid' _ (mem_below hs))
      · rename_i hchild
        rw [h.denotes.below_eq_nil hchild]
        exact List.Perm.nil
    · have hperm := matchRecursive_perm h.denotes hvalid' hplain
      rw [current.filter_byLevels (levelsMatch · (first :: rest))] at hperm
      refine hperm.trans (List.Perm.of_eq ?_)
      congr 2
      funext s
      have htopic' : ¬topic.head? = some dollar := fun h => hfirst (hdollar.mpr h)
      simp [filterMatches, hsplit, htopic']

theorem Holds.run (h : Holds t current) (hops : ∀ op ∈ ops, op.Plain) :
    Holds (Lib.run MqttTopicTree.step t ops) (Lib.run Subscriptions.step current ops) := by
  induction ops generalizing t current with
  | nil => exact h
  | cons op ops ih =>
    obtain ⟨hop, hops⟩ := forall_mem_cons.mp hops
    exact ih (h.step hop) hops

theorem nodup_run (h : (current.map Subscriptions.key).Nodup) (ops : List TreeOp) :
    ((Lib.run Subscriptions.step current ops).map Subscriptions.key).Nodup := by
  induction ops generalizing current with
  | nil => exact h
  | cons op ops ih => exact ih (Subscriptions.nodup_step h op)

theorem validateLevels_run (hops : ∀ op ∈ ops, op.Plain)
    (h : ∀ s ∈ current, validateLevels (splitTopic s.1)) :
    ∀ s ∈ Lib.run Subscriptions.step current ops, validateLevels (splitTopic s.1) := by
  induction ops generalizing current with
  | nil => exact h
  | cons op ops ih =>
    obtain ⟨hop, hops⟩ := forall_mem_cons.mp hops
    refine ih hops fun s hs => ?_
    rcases Subscriptions.mem_step hs with hs | rfl
    · exact h s hs
    · obtain ⟨hfilter, hshared⟩ := hop
      exact ((validateTopicFilter_of_not_shared hshared).mp hfilter).2.2

theorem holds_new : Holds {} [] := fun levels => Trie.valueAt_new [] (levels.map edge)

/-- After every run with valid filters that are not shared, `match` returns the current
subscriptions whose filter matches the topic.  Each is returned once, and there is one for each
filter and session. -/
theorem matchTopic_run (ops : List TreeOp) (hops : ∀ op ∈ ops, op.Plain) (topic : Bytes)
    (htopic : validateTopicName topic = true) :
    ((run MqttTopicTree.step {} ops).matchTopic topic).Perm
      (((run Subscriptions.step [] ops).filter (filterMatches ·.1 topic)).map Prod.snd) ∧
    ((run Subscriptions.step [] ops).map Subscriptions.key).Nodup := by
  constructor
  · refine (holds_new.run hops).matchTopic_perm ?_ htopic
    exact validateLevels_run hops fun s hs => absurd hs not_mem_nil
  · have hnil : (([] : Subscriptions).map Subscriptions.key).Nodup := nodup_nil
    exact nodup_run hnil ops

/-- A subscription that is replaced, wildcards, and a topic without the last level of `#`. -/
theorem matchTopic_run_sport :
    let ops : List TreeOp := [.subscribe (text "sport/#") ⟨1, .atMostOnce, 0, 0, 0, none, [], []⟩,
      .subscribe (text "+") ⟨1, .atLeastOnce, 0, 0, 0, none, [], []⟩,
      .subscribe (text "sport/#") ⟨1, .exactlyOnce, 0, 0, 0, none, [], []⟩,
      .subscribe (text "sport") ⟨2, .atMostOnce, 0, 0, 0, none, [], []⟩,
      .unsubscribe (text "sport/#") 2, .removeAll 2]
    ((run MqttTopicTree.step {} ops).matchTopic (text "sport")).Perm
      (((run Subscriptions.step [] ops).filter (filterMatches ·.1 (text "sport"))).map Prod.snd) ∧
    ((run Subscriptions.step [] ops).map Subscriptions.key).Nodup :=
  matchTopic_run _ (by decide +kernel) _ (by decide +kernel)

end ServerLib.Mqtt

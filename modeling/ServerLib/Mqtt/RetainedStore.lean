import Mathlib.Data.List.AList
import ServerLib.Mqtt.TopicTree

/-! The store of retained messages.  It has a matcher of its own, level by level, which agrees with
the one of the topic tree. -/

namespace ServerLib.Mqtt

structure MqttRetainedMessage where
  topic : Bytes
  payload : Bytes
  qos : QoS := .atMostOnce
  messageExpiryInterval : Option UInt32 := none
  payloadFormatIndicator : Option UInt8 := none
  contentType : Option Bytes := none
  userProperties : List UserProperty := []

def topicMatchesFilter : List Bytes → List Bytes → Bool
  | topicLevels, [] => topicLevels = []
  | topicLevels, filterLevel :: filterLevels =>
    if filterLevel = [hash] then true
    else
      match topicLevels with
      | [] => false
      | topicLevel :: topicLevels =>
        if filterLevel = [plus] then topicMatchesFilter topicLevels filterLevels
        else if filterLevel ≠ topicLevel then false
        else topicMatchesFilter topicLevels filterLevels

structure MqttRetainedStore where
  messages : AList fun _ : Bytes => MqttRetainedMessage := ∅

namespace MqttRetainedStore

def store (s : MqttRetainedStore) (msg : MqttRetainedMessage) : MqttRetainedStore where
  messages :=
    if msg.payload = [] then s.messages.erase msg.topic else s.messages.insert msg.topic msg

/-- The condition in the loop of `match`. -/
def accepts (topicFilter topic : Bytes) : Bool :=
  if plus ∈ topicFilter ∨ hash ∈ topicFilter then
    if topic.head? = some dollar ∧ (topicFilter = text "#" ∨ topicFilter.head? = some plus ∨
        topicFilter.head? = some hash) then false
    else topicMatchesFilter (splitTopic topic) (splitTopic topicFilter)
  else topic = topicFilter

def matchFilter (s : MqttRetainedStore) (topicFilter : Bytes) : List MqttRetainedMessage :=
  if topicFilter = [] then []
  else (s.messages.entries.filter fun e => accepts topicFilter e.1).map Sigma.snd

end MqttRetainedStore

theorem topicMatchesFilter_eq (hvalid : validateLevels levels) (ts : List Bytes) :
    topicMatchesFilter ts levels = levelsMatch levels ts := by
  induction levels generalizing ts with
  | nil =>
    cases ts with
    | nil | cons t ts => rfl
  | cons level levels ih =>
    have ih := ih (validateLevels_tail hvalid)
    by_cases hhash : level = [hash]
    · subst hhash
      have hnil := eq_nil_of_validateLevels hvalid
      cases ts with
      | nil | cons t ts => simp [topicMatchesFilter, levelsMatch, hnil]
    · cases ts with
      | nil => simp [topicMatchesFilter, levelsMatch, hhash]
      | cons t ts =>
        have hnot : ¬(level = [hash] ∧ levels = []) := fun h => hhash h.1
        rw [topicMatchesFilter, levelsMatch, if_neg hhash, if_neg hnot, ih]
        by_cases hplus : level = [plus]
        · simp [hplus]
        · by_cases hsame : level = t
          · simp [hsame]
          · simp [hplus, hsame]

theorem levelsMatch_iff_eq (hplain : ∀ level ∈ levels, isWildcard level = false) (ts : List Bytes) :
    levelsMatch levels ts ↔ levels = ts := by
  induction levels generalizing ts with
  | nil =>
    cases ts with
    | nil | cons t ts => simp [levelsMatch]
  | cons level levels ih =>
    obtain ⟨hlevel, hplain⟩ := List.forall_mem_cons.mp hplain
    have hnot := not_or.mp (of_decide_eq_false hlevel)
    have ih := ih hplain
    cases ts with
    | nil => simp [levelsMatch, hnot.2]
    | cons t ts => simp [levelsMatch, hnot.1, hnot.2, ih]

theorem head?_eq_iff_of_validateLevels (hvalid : validateLevels (splitTopic filter)) :
    (filter.head? = some plus ∨ filter.head? = some hash) ↔
      (splitTopic filter).head?.any isWildcard := by
  rw [← head?_splitTopic filter plus (by decide), ← head?_splitTopic filter hash (by decide)]
  cases hsplit : splitTopic filter with
  | nil => exact absurd hsplit (splitTopic_ne_nil filter)
  | cons level levels =>
    rw [hsplit, validateLevels] at hvalid
    have hhead : ∀ c, level.head? = some c → c ∈ level := fun c => List.mem_of_mem_head?
    constructor
    · rintro (hplus | hhash)
      · by_cases hlevel : level = [plus]
        · exact decide_eq_true (.inl hlevel)
        · rw [if_neg hlevel, if_pos (hhead plus hplus)] at hvalid
          cases hvalid
      · by_cases hlevel : level = [hash]
        · exact decide_eq_true (.inr hlevel)
        · split at hvalid
          · rename_i hplus
            rw [hplus] at hhash
            cases hhash
          · split at hvalid
            · cases hvalid
            · rw [if_pos (hhead hash hhash)] at hvalid
              cases hvalid
    · intro hwild
      rcases of_decide_eq_true hwild with rfl | rfl
      · exact .inl rfl
      · exact .inr rfl

theorem accepts_eq_filterMatches (hvalid : validateLevels (splitTopic filter))
    (topic : Bytes) : MqttRetainedStore.accepts filter topic = filterMatches filter topic := by
  have hhead := head?_eq_iff_of_validateLevels hvalid
  rw [MqttRetainedStore.accepts, filterMatches]
  split
  · have hhash : filter = text "#" → filter.head? = some hash := by
      rintro rfl
      rfl
    by_cases hdollar : topic.head? = some dollar
    · by_cases hwild : (splitTopic filter).head?.any isWildcard
      · simp [hdollar, hwild, hhead.mpr hwild]
      · have hnot : ¬(filter = text "#" ∨ filter.head? = some plus ∨ filter.head? = some hash) := by
          rintro (hall | hstart)
          · exact hwild (hhead.mp (.inr (hhash hall)))
          · exact hwild (hhead.mp hstart)
        simp [hdollar, hwild, hnot, topicMatchesFilter_eq hvalid]
    · simp [hdollar, topicMatchesFilter_eq hvalid]
  · rename_i hplain
    rw [not_or] at hplain
    have hlevels : ∀ level ∈ splitTopic filter, isWildcard level = false := by
      intro level hlevel
      refine decide_eq_false ?_
      rintro (rfl | rfl)
      · exact hplain.1 (mem_of_mem_splitTopic hlevel List.mem_cons_self)
      · exact hplain.2 (mem_of_mem_splitTopic hlevel List.mem_cons_self)
    have hfirst : (splitTopic filter).head?.any isWildcard = false := by
      cases hsplit : splitTopic filter with
      | nil => rfl
      | cons level levels => exact hlevels level (by rw [hsplit]; exact List.mem_cons_self)
    simp only [levelsMatch_iff_eq hlevels, splitTopic_injective.eq_iff, hfirst, eq_comm]
    simp

/-- For a valid topic and a valid filter that is not shared, the tree with that subscription returns
it if and only if the store with a message on that topic returns it. -/
theorem matchTopic_iff_matchFilter (topic filter : Bytes) (htopic : validateTopicName topic = true)
    (hfilter : validateTopicFilter filter = true) (hshared : isSharedSubscription filter = false)
    (sub : MqttSubscription) (msg : MqttRetainedMessage) (hmsg : msg.topic = topic)
    (hpayload : msg.payload ≠ []) :
    sub ∈ ((({} : MqttTopicTree).subscribe filter sub).1.matchTopic topic) ↔
      msg ∈ (({} : MqttRetainedStore).store msg).matchFilter filter := by
  obtain ⟨hempty, -, hvalid⟩ := (validateTopicFilter_of_not_shared hshared).mp hfilter
  have hholds := holds_new.subscribe hshared sub
  have hperm := hholds.matchTopic_perm (List.forall_mem_singleton.mpr hvalid) htopic
  rw [hperm.mem_iff]
  subst hmsg
  have hstore : (({} : MqttRetainedStore).store msg).matchFilter filter =
      if filterMatches filter msg.topic then [msg] else [] := by
    rw [MqttRetainedStore.matchFilter, if_neg hempty, MqttRetainedStore.store, if_neg hpayload]
    by_cases hmatches : filterMatches filter msg.topic = true
    all_goals simp [accepts_eq_filterMatches hvalid, hmatches]
  rw [hstore]
  by_cases hmatches : filterMatches filter msg.topic = true <;> simp [Subscriptions.add, hmatches]

/-- `#` matches the level before it, and a wildcard at the start no topic with a dollar sign. -/
theorem matchTopic_iff_matchFilter_sport :
    (let sub : MqttSubscription := ⟨1, .atMostOnce, 0, 0, 0, none, [], []⟩
      let msg : MqttRetainedMessage := ⟨text "sport", [1], .atMostOnce, none, none, none, []⟩
      sub ∈ ((({} : MqttTopicTree).subscribe (text "sport/#") sub).1.matchTopic (text "sport")) ↔
        msg ∈ (({} : MqttRetainedStore).store msg).matchFilter (text "sport/#")) ∧
    (let sub : MqttSubscription := ⟨1, .atMostOnce, 0, 0, 0, none, [], []⟩
      let msg : MqttRetainedMessage := ⟨text "$SYS/a", [1], .atMostOnce, none, none, none, []⟩
      sub ∈ ((({} : MqttTopicTree).subscribe (text "+/a") sub).1.matchTopic (text "$SYS/a")) ↔
        msg ∈ (({} : MqttRetainedStore).store msg).matchFilter (text "+/a")) :=
  ⟨matchTopic_iff_matchFilter _ _ (by decide +kernel) (by decide +kernel) (by decide +kernel) _ _
      rfl (by decide),
    matchTopic_iff_matchFilter _ _ (by decide +kernel) (by decide +kernel) (by decide +kernel) _ _
      rfl (by decide)⟩

theorem lookup_run_store (msgs : List MqttRetainedMessage) (topic : Bytes) :
    (Lib.run MqttRetainedStore.store {} msgs).messages.lookup topic =
      (msgs.filter (·.topic = topic)).getLast?.filter (·.payload ≠ []) := by
  induction msgs using List.reverseRecOn with
  | nil => rfl
  | append_singleton msgs last ih =>
    rw [Lib.run_append, Lib.run_cons, Lib.run_nil, MqttRetainedStore.store]
    by_cases htopic : last.topic = topic
    · subst htopic
      by_cases hpayload : last.payload = [] <;> simp [hpayload, Option.filter]
    · split <;> simp [htopic, Ne.symm htopic, ih]

/-- After any messages, a filter finds the last one on each topic that it matches, unless that one
is empty. -/
theorem mem_matchFilter_run (msgs : List MqttRetainedMessage) (filter : Bytes)
    (hfilter : validateTopicFilter filter = true) (hshared : isSharedSubscription filter = false)
    (msg : MqttRetainedMessage) :
    msg ∈ (Lib.run MqttRetainedStore.store {} msgs).matchFilter filter ↔
      filterMatches filter msg.topic ∧ msg.payload ≠ [] ∧
        (msgs.filter (·.topic = msg.topic)).getLast? = some msg := by
  obtain ⟨hempty, -, hvalid⟩ := (validateTopicFilter_of_not_shared hshared).mp hfilter
  simp only [MqttRetainedStore.matchFilter, if_neg hempty, List.mem_map, List.mem_filter,
    accepts_eq_filterMatches hvalid, Sigma.exists, ← AList.mem_lookup_iff, lookup_run_store,
    Option.mem_def, Option.filter_eq_some_iff, decide_eq_true_eq]
  constructor
  · rintro ⟨topic, _, ⟨⟨hlast, hpayload⟩, hmatches⟩, rfl⟩
    -- a message is stored under its own topic
    obtain rfl : _ = topic := by simpa using List.of_mem_filter (List.mem_of_getLast? hlast)
    exact ⟨hmatches, hpayload, hlast⟩
  · rintro ⟨hmatches, hpayload, hlast⟩
    exact ⟨msg.topic, msg, ⟨⟨hlast, hpayload⟩, hmatches⟩, rfl⟩

/-- The second message of a topic replaces the first. -/
theorem mem_matchFilter_run_replaced :
    let msg : MqttRetainedMessage := { topic := text "a/b", payload := [2] }
    msg ∈ (Lib.run MqttRetainedStore.store {} [{ msg with payload := [1] }, msg]).matchFilter
      (text "a/+") :=
  (mem_matchFilter_run _ _ (by decide +kernel) (by decide +kernel) _).mpr
    ⟨by decide +kernel, by decide, rfl⟩

end ServerLib.Mqtt

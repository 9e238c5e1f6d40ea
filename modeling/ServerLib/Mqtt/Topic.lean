import Mathlib.Data.FinEnum

/-! Topic names and topic filters of MQTT: how they are split in levels, which of them are valid,
the filters of shared subscriptions, and when a filter matches a topic. -/

namespace ServerLib.Mqtt

open List

/-- A `std::string`. -/
abbrev Bytes := List UInt8

def text (s : String) : Bytes := s.toList.map fun c => UInt8.ofNat c.toNat

def slash : UInt8 := 0x2f
def plus : UInt8 := 0x2b
def hash : UInt8 := 0x23
def dollar : UInt8 := 0x24

variable (filter : Bytes) (topic : Bytes)

def splitTopic : List Bytes := topic.splitOn slash

def isSharedSubscription : Bool :=
  7 < filter.length ∧ filter.take 7 = text "$share/"

/-- What stands before and after the second slash. -/
def sharedParts : Option (Bytes × Bytes) :=
  match (filter.drop 7).dropWhile (· ≠ slash) with
  | [] => none
  | _ :: inner => some ((filter.drop 7).takeWhile (· ≠ slash), inner)

def sharedGroup : Bytes :=
  if isSharedSubscription filter then ((sharedParts filter).map Prod.fst).getD [] else []

def sharedTopicFilter : Bytes :=
  if isSharedSubscription filter then ((sharedParts filter).map Prod.snd).getD [] else []

/-- `actual_filter` in the functions of the topic tree. -/
def actualFilter : Bytes :=
  if isSharedSubscription filter then sharedTopicFilter filter else filter

def validateLevels : List Bytes → Bool
  | [] => true
  | level :: rest =>
    if level = [plus] then validateLevels rest
    else if plus ∈ level then false
    else if level = [hash] then rest = []
    else if hash ∈ level then false
    else validateLevels rest

/-- `validate_topic_filter`, at most `depth` shared subscriptions deep. -/
def validateTopicFilterTo : Nat → Bytes → Bool
  | 0, _ => false
  | depth + 1, filter =>
    if filter = [] then false
    else if isSharedSubscription filter then
      match sharedParts filter with
      | none => false
      | some (group, inner) =>
        if group = [] ∨ inner = [] then false
        else if plus ∈ group ∨ hash ∈ group then false
        else validateTopicFilterTo depth inner
    else if 0 ∈ filter then false
    else validateLevels (splitTopic filter)

/-- What is inside of a shared subscription is shorter, so that the depth is never exhausted. -/
def validateTopicFilter : Bool := validateTopicFilterTo (filter.length + 1) filter

def validateTopicName : Bool :=
  topic ≠ [] ∧ ∀ c ∈ topic, c ≠ plus ∧ c ≠ hash ∧ c ≠ 0

/-- The levels of a filter match those of a topic.  `#` at the end stands for any number of levels,
also for none. -/
def levelsMatch : List Bytes → List Bytes → Bool
  | [], [] => true
  | [], _ :: _ => false
  | level :: rest, [] => level = [hash] ∧ rest = []
  | level :: rest, t :: ts =>
    if level = [hash] ∧ rest = [] then true
    else (level = [plus] ∨ level = t) ∧ levelsMatch rest ts

def isWildcard (level : Bytes) : Bool := level = [plus] ∨ level = [hash]

/-- A filter matches a topic.  A wildcard at the start matches no topic with a dollar sign there. -/
def filterMatches : Bool :=
  levelsMatch (splitTopic filter) (splitTopic topic) ∧
    ¬(topic.head? = some dollar ∧ (splitTopic filter).head?.any isWildcard)

theorem splitTopic_ne_nil : splitTopic topic ≠ [] := splitOnP_ne_nil _ topic

theorem splitTopic_cons (c : UInt8) (topic : Bytes) :
    splitTopic (c :: topic) =
      if c = slash then [] :: splitTopic topic
      else (splitTopic topic).modifyHead (cons c) := by
  rw [splitTopic, splitOn, splitOnP_cons_eq_if_modifyHead]
  simp [splitTopic, splitOn]

theorem splitTopic_injective : Function.Injective splitTopic := by
  intro filter filter' h
  have hjoin : ∀ topic, [slash].intercalate (splitTopic topic) = topic :=
    fun _ => intercalate_splitOn slash
  rw [← hjoin filter, ← hjoin filter', h]

theorem mem_of_mem_splitTopic {topic level : Bytes} (hlevel : level ∈ splitTopic topic)
    (hc : c ∈ level) : c ∈ topic := by
  induction topic generalizing level with
  | nil =>
    rw [splitTopic, splitOn_nil, mem_singleton] at hlevel
    rwa [hlevel] at hc
  | cons d topic ih =>
    rw [splitTopic_cons] at hlevel
    split at hlevel
    · rcases mem_cons.mp hlevel with rfl | hlevel
      · cases hc
      · exact mem_cons_of_mem d (ih hlevel hc)
    · cases hsplit : splitTopic topic with
      | nil => exact absurd hsplit (splitTopic_ne_nil topic)
      | cons first rest =>
        rw [hsplit, modifyHead_cons] at hlevel
        rcases mem_cons.mp hlevel with rfl | hlevel
        · rcases mem_cons.mp hc with rfl | hc
          · exact mem_cons_self
          · exact mem_cons_of_mem d (ih (by rw [hsplit]; exact mem_cons_self) hc)
        · refine mem_cons_of_mem d (ih ?_ hc)
          rw [hsplit]
          exact mem_cons_of_mem first hlevel

theorem head?_splitTopic (c : UInt8) (hc : c ≠ slash) :
    (splitTopic topic).head?.bind head? = some c ↔ topic.head? = some c := by
  cases topic with
  | nil => rfl
  | cons d topic =>
    rw [splitTopic_cons]
    split_ifs with hd
    · simp [hd, Ne.symm hc]
    · cases hsplit : splitTopic topic with
      | nil => exact absurd hsplit (splitTopic_ne_nil topic)
      | cons first rest => rfl

theorem not_isWildcard_of_validateTopicName {topic level : Bytes}
    (h : validateTopicName topic) (hlevel : level ∈ splitTopic topic) :
    isWildcard level = false := by
  have hvalid := (of_decide_eq_true h).2
  refine decide_eq_false ?_
  rintro (rfl | rfl)
  · exact (hvalid plus (mem_of_mem_splitTopic hlevel mem_cons_self)).1 rfl
  · exact (hvalid hash (mem_of_mem_splitTopic hlevel mem_cons_self)).2.1 rfl

theorem validateLevels_tail (h : validateLevels (level :: rest)) :
    validateLevels rest := by
  rw [validateLevels] at h
  split at h
  · exact h
  split at h
  · cases h
  split at h
  · rw [of_decide_eq_true h]
    rfl
  split at h
  · cases h
  · exact h

theorem eq_nil_of_validateLevels (h : validateLevels ([hash] :: rest)) : rest = [] :=
  of_decide_eq_true h

theorem validateTopicFilter_of_not_shared {filter : Bytes}
    (hshared : isSharedSubscription filter = false) :
    validateTopicFilter filter ↔
      filter ≠ [] ∧ 0 ∉ filter ∧ validateLevels (splitTopic filter) := by
  rw [validateTopicFilter, validateTopicFilterTo, hshared]
  by_cases hempty : filter = []
  · simp [hempty]
  · by_cases hzero : (0 : UInt8) ∈ filter <;> simp [hempty, hzero]

end ServerLib.Mqtt

import ServerLib.Redis.UnpackReply

/-! Which replies `unpack_result` understands, however their bytes are cut. -/

namespace ServerLib.Redis

open Lib Buffer List Option

namespace Reply

theorem induction {P : Reply → Prop}
    (line : ∀ kind text, P (.line kind text)) (blob : ∀ kind text, P (.blob kind text))
    (null : ∀ form, P (.null form))
    (aggregate : ∀ kind items, (∀ item ∈ items, P item) → P (.aggregate kind items))
    (attributed : ∀ items reply, (∀ item ∈ items, P item) → P reply →
      P (.attributed items reply)) :
    ∀ reply, P reply
  | .line kind text => line kind text
  | .blob kind text => blob kind text
  | .null form => null form
  | .aggregate kind items =>
    aggregate kind items fun item _ => induction line blob null aggregate attributed item
  | .attributed items reply =>
    attributed items reply
      (fun item _ => induction line blob null aggregate attributed item)
      (induction line blob null aggregate attributed reply)
termination_by reply => sizeOf reply
decreasing_by
  · rename_i hmem
    have := List.sizeOf_lt_of_mem hmem
    simp only [Reply.aggregate.sizeOf_spec]
    omega
  · rename_i hmem
    have := List.sizeOf_lt_of_mem hmem
    simp only [Reply.attributed.sizeOf_spec]
    omega
  · simp only [Reply.attributed.sizeOf_spec]
    omega

/-- The number that a text with or without a sign stands for. -/
def integerValue (text : Bytes) : Int :=
  if text.head? = some '-'.toUInt8 then -(digitsValue text.tail : Int)
  else if text.head? = some '+'.toUInt8 then digitsValue text.tail
  else digitsValue text

/-- A sign or none, digits, and a number of 64 bits. -/
def IntegerText (text : Bytes) : Prop :=
  isIntegerLiteral text = true ∧ inInt64 (integerValue text) = true

instance (text : Bytes) : Decidable (IntegerText text) := inferInstanceAs (Decidable (_ ∧ _))

/-- The keys among the items of a map, if they are bulk strings. -/
def pairKeys : List Reply → Option (List Bytes)
  | [] => some []
  | .blob .bulk key :: _ :: rest => (pairKeys rest).map (key :: ·)
  | _ => none

/-- The items are pairs, and their keys are bulk strings of which no two are the same. -/
def distinctKeys (items : List Reply) : Bool :=
  match pairKeys items with
  | some keys => keys.Nodup
  | none => false

mutual

/-- Arrays, sets, maps, attributes, bulk and simple strings, errors, integers and nulls. -/
def wellFormed : Reply → Bool
  | line .simple text => OneLine text
  | line .error text => OneLine text
  | line .integer text => IntegerText text
  | line _ _ => false
  | blob .verbatim _ => false
  | blob _ _ => true
  | null _ => true
  | aggregate .map items => distinctKeys items && wellFormedAll items
  | aggregate .push _ => false
  | aggregate _ items => wellFormedAll items
  | attributed items reply => items.length % 2 = 0 && wellFormedAll items && reply.wellFormed

def wellFormedAll : List Reply → Bool
  | [] => true
  | reply :: rest => reply.wellFormed && wellFormedAll rest

end

mutual

/-- With `toMap`, an array stands for a map. -/
def value (toMap : Bool) : Reply → RedisValue
  | line .simple text => statusValue text
  | line .error text => .error text
  | line .integer text => .int (integerValue text) []
  | line .double text => .float text
  | line .boolean text => .status (text.head? = some 't'.toUInt8) text
  | line .bigNumber text => .string text text
  | blob .bulk text => .string text []
  | blob .error text => .error text
  | blob .verbatim text => .string (text.drop 4) text
  | null _ => .null
  | aggregate .map items => .map (entries items)
  | aggregate .array items => if toMap then .map (entries items) else .array (values toMap items)
  | aggregate _ items => .array (values toMap items)
  | attributed _ reply => reply.value toMap

def values (toMap : Bool) : List Reply → List RedisValue
  | [] => []
  | reply :: rest => reply.value toMap :: values toMap rest

def entries : List Reply → List (Bytes × RedisValue)
  | .blob .bulk key :: val :: rest => (key, val.value false) :: entries rest
  | _ => []

end

mutual

/-- No integer has a plus sign, no length is too large, and an array that is to be a map can be
one. -/
def readable (toMap : Bool) : Reply → Bool
  | line .integer text => text.head? ≠ some '+'.toUInt8
  | line _ _ => true
  | blob _ text => text.length < 2 ^ 63 ∧ 0 ≤ castInt text.length
  | null form => ¬ (toMap ∧ form = .array)
  | aggregate .map items => items.length / 2 < 2 ^ 63 && readableAll false items
  | aggregate .array items =>
    if toMap then items.length < 2 ^ 63 && (distinctKeys items && readableAll false items)
    else items.length < 2 ^ 31 && readableAll toMap items
  | aggregate _ items => items.length < 2 ^ 31 && readableAll toMap items
  | attributed items reply =>
    items.length / 2 ≤ (2 ^ 63 - 1) / 2 && (readableAll false items && reply.readable toMap)

def readableAll (toMap : Bool) : List Reply → Bool
  | [] => true
  | reply :: rest => reply.readable toMap && readableAll toMap rest

end

theorem wellFormedAll_iff (replies : List Reply) :
    wellFormedAll replies ↔ ∀ reply ∈ replies, reply.wellFormed := by
  induction replies with
  | nil => simp [wellFormedAll]
  | cons reply rest ih => simp [wellFormedAll, ih]

theorem oneLine_of_isIntegerLiteral {text : Bytes} (h : isIntegerLiteral text) :
    OneLine text := by
  have hdigits : ∀ {digits : Bytes}, digits.all isDigit → OneLine digits := by
    intro digits hall b hb
    have hdigit := all_eq_true.mp hall b hb
    constructor
    all_goals
      rintro rfl
      exact absurd hdigit (by decide)
  simp only [isIntegerLiteral, Bool.decide_and, Bool.and_eq_true, decide_eq_true_eq] at h
  obtain ⟨-, h⟩ := h
  cases text with
  | nil => simp [OneLine]
  | cons c rest =>
    by_cases hsign : c = '+'.toUInt8 ∨ c = '-'.toUInt8
    · rw [if_pos (by simpa using hsign)] at h
      intro b hb
      rcases mem_cons.mp hb with rfl | hb
      · rcases hsign with rfl | rfl <;> decide
      · exact hdigits h b hb
    · rw [if_neg (by simpa using hsign)] at h
      exact hdigits h

theorem even_of_pairKeys {keys : List Bytes} (h : pairKeys items = some keys) :
    items.length % 2 = 0 := by
  induction items using twoStepInduction generalizing keys with
  | nil => rfl
  | singleton reply => simp [pairKeys] at h
  | cons_cons key val rest ih _ =>
    cases key with
    | blob kind key =>
      cases kind with
      | bulk =>
        rw [pairKeys, map_eq_some_iff] at h
        obtain ⟨keys, hkeys, -⟩ := h
        have heven := ih hkeys
        simp only [length_cons]
        omega
      | _ => cases h
    | _ => cases h

theorem even_of_distinctKeys (h : distinctKeys items) : items.length % 2 = 0 := by
  rw [distinctKeys] at h
  split at h
  · rename_i keys hkeys
    exact even_of_pairKeys hkeys
  · cases h

theorem framed_of_wellFormed {reply : Reply} (h : reply.wellFormed) : reply.Framed := by
  induction reply using Reply.induction with
  | line kind text =>
    cases kind with
    | simple | error => exact (of_decide_eq_true h : OneLine text)
    | integer => exact oneLine_of_isIntegerLiteral (of_decide_eq_true h).1
    | _ => cases h
  | blob kind text | null form => trivial
  | aggregate kind items ih =>
    have hall : wellFormedAll items → FramedAll items := fun h =>
      (framedAll_iff items).mpr fun item hmem =>
        ih item hmem ((wellFormedAll_iff items).mp h item hmem)
    cases kind with
    | array | set => exact ⟨nofun, hall h⟩
    | push => cases h
    | map =>
      rw [wellFormed, Bool.and_eq_true] at h
      exact ⟨fun _ => even_of_distinctKeys h.1, hall h.2⟩
  | attributed items reply ih ihreply =>
    simp only [wellFormed, Bool.and_eq_true, decide_eq_true_eq] at h
    refine ⟨h.1.1, (framedAll_iff items).mpr fun item hmem => ?_, ihreply h.2⟩
    exact ih item hmem ((wellFormedAll_iff items).mp h.1.2 item hmem)

end Reply

open Reply

theorem parseNumber_plus (rest : Bytes) : parseNumber ('+'.toUInt8 :: rest) = none := by
  have hread : readDigits ('+'.toUInt8 :: rest) = none := readDigits_cons_of_not (by decide) rest
  rw [parseNumber, if_neg (cons_ne_nil _ _), fromChars, if_neg (by simp; decide), hread]
  rfl

theorem fromChars_integerText {text : Bytes} (h : IntegerText text)
    (hplus : text.head? ≠ some '+'.toUInt8) : fromChars text = some (integerValue text, []) := by
  obtain ⟨hliteral, hrange⟩ := h
  simp only [isIntegerLiteral, Bool.decide_and, Bool.and_eq_true, decide_eq_true_eq] at hliteral
  rw [fromChars]
  by_cases hminus : text.head? = some '-'.toUInt8
  · rw [if_pos (.inr hminus)] at hliteral
    rw [integerValue, if_pos hminus] at hrange ⊢
    rw [if_pos hminus, readDigits_of_all hliteral.1 hliteral.2]
    simp only [map_some, filter_some]
    rw [if_pos hrange]
  · rw [if_neg (by simp [hplus, hminus])] at hliteral
    rw [integerValue, if_neg hminus, if_neg hplus] at hrange ⊢
    rw [if_neg hminus, readDigits_of_all hliteral.1 hliteral.2]
    simp only [map_some, filter_some]
    rw [if_pos hrange]

theorem parseNumber_integerText {text : Bytes} (h : IntegerText text)
    (hplus : text.head? ≠ some '+'.toUInt8) : parseNumber text = some (integerValue text) := by
  have hne : text ≠ [] := by
    rintro rfl
    exact absurd h.1 (by decide)
  rw [parseNumber, if_neg hne, fromChars_integerText h hplus]

/-- `out` is the value `v` if `ok`, and a failure otherwise. -/
def Answers {α : Type} (out : Result α) (ok : Bool) (v : α) : Prop :=
  if ok then out = .value v else ∃ e unread, out = .stop e unread

section Answers

variable {α β : Type} {v : α}

theorem answers_value (v : α) : Answers (.value v) true v := rfl

theorem answers_malformed (unread : Bytes) (v : α) : Answers (malformed unread) false v :=
  ⟨_, unread, rfl⟩

theorem Answers.andThen {text : Bytes} {f : α → Result β} {w : β} (h : Answers out ok v)
    (hf : ok → Answers (f v) ok' w) : Answers (out.andThen text f) (ok && ok') w := by
  cases ok with
  | true =>
    obtain rfl : out = .value v := h
    rw [Bool.true_and]
    exact hf rfl
  | false =>
    obtain ⟨e, unread, rfl⟩ : ∃ e unread, out = .stop e unread := h
    exact ⟨e, unread ++ text, rfl⟩

theorem Answers.map (h : Answers out ok v) (f : α → β) : Answers (out.map f) ok (f v) := by
  have hmap : Answers (out.map f) (ok && true) (f v) := h.andThen fun _ => answers_value (f v)
  rwa [Bool.and_true] at hmap

theorem Answers.mapFailure (h : Answers out ok v) (g : Failure → Failure) :
    Answers (out.mapFailure g) ok v := by
  cases ok with
  | true =>
    obtain rfl : out = .value v := h
    rfl
  | false =>
    obtain ⟨e, unread, rfl⟩ : ∃ e unread, out = .stop e unread := h
    exact ⟨g e, unread, rfl⟩

theorem Answers.restored {out : Result RedisValue} {v : RedisValue} (h : Answers out ok v)
    (wire : Bytes) : Answers (restored wire out) ok v := by
  cases ok with
  | true =>
    obtain rfl : out = .value v := h
    rfl
  | false =>
    obtain ⟨e, unread, rfl⟩ : ∃ e unread, out = .stop e unread := h
    by_cases hmore : asksMore e
    · exact ⟨failure needMoreBytes, wire, if_pos hmore⟩
    · exact ⟨e, unread, if_neg hmore⟩

theorem Answers.guard (h : Answers out ok v) (c : Prop) [Decidable c] (unread : Bytes) :
    Answers (if c then out else malformed unread) (decide c && ok) v := by
  by_cases hc : c
  · rwa [if_pos hc, decide_eq_true hc, Bool.true_and]
  · rw [if_neg hc, decide_eq_false hc, Bool.false_and]
    exact answers_malformed unread v

end Answers

theorem answers_items {toMap : Bool} {items : List Reply}
    (h : ∀ item ∈ items,
      Answers (bodyOutcome converts toMap item) (item.readable toMap) (item.value toMap)) :
    Answers (itemsOutcome converts toMap items) (readableAll toMap items)
      (values toMap items) := by
  induction items with
  | nil => exact answers_value []
  | cons reply rest ih =>
    obtain ⟨hreply, hrest⟩ := forall_mem_cons.mp h
    exact ((hreply.restored _).mapFailure _).andThen fun _ => (ih hrest).map _

/-- The keys that are read are bulk strings, and different from each other and from those read
before. -/
def keysFit (res : List (Bytes × RedisValue)) (items : List Reply) : Bool :=
  match pairKeys items with
  | some keys => (res.map Prod.fst ++ keys).Nodup
  | none => false

theorem keysFit_append :
    keysFit (res ++ [(key, v)]) rest = keysFit res (.blob .bulk key :: val :: rest) := by
  rw [keysFit, keysFit, pairKeys]
  cases pairKeys rest with
  | none => rfl
  | some keys => simp

theorem answers_entry (hstring : key.type = .string) (hres : (res.map Prod.fst).Nodup)
    (ih : ∀ {res : List (Bytes × RedisValue)}, (res.map Prod.fst).Nodup →
      Answers (pairsOutcome converts rest res) (keysFit res rest && readableAll false rest)
        (res ++ entries rest)) :
    Answers
      ((entryOutcome res (key.value false) (val.value false)).andThen (wires rest) fun res =>
        pairsOutcome converts rest res)
      (keysFit res (key :: val :: rest) && readableAll false rest)
      (res ++ entries (key :: val :: rest)) := by
  cases key with
  | line kind text | aggregate kind items => cases kind <;> cases hstring
  | blob kind key =>
    cases kind with
    | bulk =>
      change Answers ((entryOutcome res (.string key []) (val.value false)).andThen _ _) _
        (res ++ (key, val.value false) :: entries rest)
      rw [entryOutcome]
      by_cases hkey : (res.any fun entry => entry.1 == key)
      · have hmem : key ∈ res.map Prod.fst := by simpa using hkey
        have hfit : keysFit res (.blob .bulk key :: val :: rest) = false := by
          rw [keysFit, pairKeys]
          cases pairKeys rest with
          | none => rfl
          | some keys =>
            refine decide_eq_false fun hnodup => ?_
            exact (nodup_append.mp hnodup).2.2 key hmem key mem_cons_self rfl
        rw [if_pos hkey, hfit, Bool.false_and]
        exact answers_malformed _ _
      · have hmem : key ∉ res.map Prod.fst := by simpa using hkey
        have hnodup : ((res ++ [(key, val.value false)]).map Prod.fst).Nodup := by
          rw [map_append, nodup_append]
          refine ⟨hres, by simp, ?_⟩
          rintro a ha b hb rfl
          obtain rfl : a = key := mem_singleton.mp hb
          exact hmem ha
        rw [if_neg hkey, ← keysFit_append]
        have hrest := ih hnodup
        rw [append_assoc] at hrest
        exact hrest
    | error | verbatim => cases hstring
  | null form => exact answers_malformed _ _
  | attributed items reply => cases hstring

theorem keysFit_of_type_ne (h : key.type ≠ .string) : keysFit res (key :: val :: rest) = false := by
  cases key with
  | blob kind key =>
    cases kind with
    | bulk => exact absurd rfl h
    | _ => rfl
  | _ => rfl

theorem answers_pairs {items : List Reply} (heven : items.length % 2 = 0) (h : ∀ item ∈ items,
      Answers (bodyOutcome converts false item) (item.readable false) (item.value false))
    (hres : (res.map Prod.fst).Nodup) :
    Answers (pairsOutcome converts items res) (keysFit res items && readableAll false items)
      (res ++ entries items) := by
  induction items using twoStepInduction generalizing res with
  | nil =>
    have hfit : keysFit res [] := by simpa [keysFit, pairKeys] using hres
    have hentries : entries [] = [] := rfl
    rw [hfit, hentries, append_nil]
    exact answers_value res
  | singleton reply => simp at heven
  | cons_cons key val rest ih _ =>
    rw [pairsOutcome]
    have hkey := ((h key (by simp)).restored key.wire).mapFailure dropResult
    have hval := ((h val (by simp)).restored val.wire).mapFailure dropResult
    have hrest : ∀ {res : List (Bytes × RedisValue)}, (res.map Prod.fst).Nodup →
        Answers (pairsOutcome converts rest res) (keysFit res rest && readableAll false rest)
          (res ++ entries rest) :=
      ih (by simp only [length_cons] at heven; omega) fun item hmem => h item (by simp [hmem])
    by_cases hstring : key.type = .string
    · rw [if_pos hstring, readableAll, readableAll, Bool.and_left_comm,
        Bool.and_left_comm (keysFit _ _)]
      exact hkey.andThen fun _ => hval.andThen fun _ => answers_entry hstring hres hrest
    · rw [if_neg hstring, keysFit_of_type_ne hstring, Bool.false_and]
      exact answers_malformed _ _

theorem answers_map (heven : items.length % 2 = 0) (h : ∀ item ∈ items,
      Answers (bodyOutcome converts false item) (item.readable false) (item.value false)) :
    Answers ((pairsOutcome converts items []).map RedisValue.map)
      (distinctKeys items && readableAll false items) (RedisValue.map (entries items)) := by
  have hnil : (([] : List (Bytes × RedisValue)).map Prod.fst).Nodup := nodup_nil
  exact (answers_pairs heven h hnil).map RedisValue.map

theorem answers_blob {text : Bytes} (hv : blobValue text kind = v) :
    Answers (blobOutcome kind text) (decide (text.length < 2 ^ 63 ∧ 0 ≤ castInt text.length))
      v := by
  rw [blobOutcome]
  by_cases hlength : 2 ^ 63 ≤ text.length
  · rw [if_pos hlength, decide_eq_false fun h => Nat.not_lt.mpr hlength h.1]
    exact answers_malformed _ _
  rw [if_neg hlength]
  by_cases hneg : castInt text.length < 0
  · rw [if_pos hneg, decide_eq_false fun h => Int.not_le.mpr hneg h.2]
    exact ⟨_, _, rfl⟩
  · rw [if_neg hneg, decide_eq_true ⟨Nat.not_le.mp hlength, Int.not_lt.mp hneg⟩, hv]
    exact answers_value v

theorem answers_integer (converts : Bytes → Bool) {text : Bytes} (htext : IntegerText text) :
    Answers (lineOutcome converts .integer text) (decide (text.head? ≠ some '+'.toUInt8))
      (.int (integerValue text) []) := by
  rw [lineOutcome, lineValue, parseRespInt64]
  by_cases hplus : text.head? = some '+'.toUInt8
  · obtain ⟨rest, rfl⟩ : ∃ rest, text = '+'.toUInt8 :: rest := by
      cases text with
      | nil => cases hplus
      | cons c rest => exact ⟨rest, by rw [some.inj hplus]⟩
    rw [parseNumber_plus, decide_eq_false (by simp)]
    exact answers_malformed _ _
  · rw [parseNumber_integerText htext hplus, decide_eq_true hplus]
    exact answers_value _

theorem answers_body (converts : Bytes → Bool) (h : reply.wellFormed) (toMap : Bool) :
    Answers (bodyOutcome converts toMap reply) (reply.readable toMap) (reply.value toMap) := by
  induction reply using Reply.induction generalizing toMap with
  | line kind text =>
    cases kind with
    | simple | error => exact answers_value _
    | integer => exact answers_integer converts (of_decide_eq_true h)
    | _ => cases h
  | blob kind text =>
    cases kind with
    | bulk | error => exact answers_blob rfl
    | verbatim => cases h
  | null form =>
    rw [bodyOutcome, nullOutcome, readable]
    by_cases hform : toMap ∧ form = .array
    · rw [if_pos hform, decide_eq_false (not_not_intro hform)]
      exact answers_malformed _ _
    · rw [if_neg hform, decide_eq_true hform]
      exact answers_value _
  | aggregate kind items ih =>
    have hitems : ∀ toMap, wellFormedAll items → ∀ item ∈ items,
        Answers (bodyOutcome converts toMap item) (item.readable toMap) (item.value toMap) :=
      fun toMap hall item hmem => ih item hmem ((wellFormedAll_iff items).mp hall item hmem) toMap
    cases kind with
    | array =>
      cases toMap with
      | true =>
        rw [bodyOutcome, if_pos rfl, readable, if_pos rfl, value, if_pos rfl]
        by_cases heven : items.length % 2 = 0
        · simp only [heven, and_true]
          exact (answers_map heven (hitems false h)).guard _ _
        · have hkeys : distinctKeys items = false := by
            rw [Bool.eq_false_iff]
            exact fun h => heven (even_of_distinctKeys h)
          rw [if_neg fun h => heven h.2, hkeys, Bool.false_and, Bool.and_false]
          exact answers_malformed _ _
      | false => exact ((answers_items (hitems false h)).map RedisValue.array).guard _ _
    | set => exact ((answers_items (hitems toMap h)).map RedisValue.array).guard _ _
    | push => cases h
    | map =>
      rw [wellFormed, Bool.and_eq_true] at h
      have hmap := answers_map (even_of_distinctKeys h.1) (hitems false h.2)
      rw [h.1, Bool.true_and] at hmap
      exact hmap.guard _ _
  | attributed items reply ih ihreply =>
    simp only [wellFormed, Bool.and_eq_true] at h
    have hitems : Answers (itemsOutcome converts false items) (readableAll false items)
        (values false items) :=
      answers_items fun item hmem => ih item hmem ((wellFormedAll_iff items).mp h.1.2 item hmem) _
    exact (hitems.andThen fun _ => (ihreply h.2 toMap).restored _).guard _ _

theorem answers_outcome (converts : Bytes → Bool) (h : reply.wellFormed) (toMap : Bool) :
    Answers (outcome converts toMap reply) (reply.readable toMap) (reply.value toMap) :=
  (answers_body converts h toMap).restored _

theorem unpackResult_of_asksMore (h : (unpackResult buffers converts toMap p).AsksMore asksMore) :
    unpackResult buffers converts toMap p = .failed (failure needMoreBytes) p := by
  rw [unpackResult] at h ⊢
  generalize remainingBytes buffers p = fuel at h ⊢
  cases fuel with
  | zero => rfl
  | succ fuel => exact Scan.checkpoint_of_asksMore asksMore h

/-- Wherever the bytes are cut into buffers: a part of the reply gives `need_more_bytes` and
leaves the reader where it is, and the whole reply gives its value and leaves the reader after it,
whatever follows. -/
def Understood (converts : Bytes → Bool) (toMap : Bool) (reply : Reply) : Prop :=
  ∀ buffers p,
    (∀ front, front <+: reply.wire → front ≠ reply.wire → Ahead buffers p front →
      unpackResult buffers converts toMap p = .failed (failure needMoreBytes) p) ∧
    ∀ after, Ahead buffers p (reply.wire ++ after) →
      ∃ p', unpackResult buffers converts toMap p = .done (reply.value toMap) p' ∧
        Ahead buffers p' after

theorem not_understood_of_stop {toMap : Bool} (hreply : reply.Framed) {e : Failure}
    {unread : Bytes} (hstop : outcome converts toMap reply = .stop e unread) :
    ¬ Understood converts toMap reply := by
  intro h
  have hstart : Ahead [reply.wire] {} (reply.wire ++ []) := by
    rw [append_nil]
    exact ahead_start (cons_ne_nil _ _)
  obtain ⟨p', hdone, -⟩ := (h [reply.wire] {}).2 [] hstart
  have hends := (unpacks_result converts toMap hreply).whole hstart le_rfl
  rw [hstop] at hends
  obtain ⟨s, hfailed, -⟩ := hends
  rw [hdone] at hfailed
  cases hfailed

/-- `unpack_result` understands the readable replies, and no others. -/
theorem understood_iff_readable (converts : Bytes → Bool) (toMap : Bool) (reply : Reply)
    (hreply : reply.wellFormed = true) :
    Understood converts toMap reply ↔ reply.readable toMap = true := by
  have hframed := framed_of_wellFormed hreply
  have hanswers := answers_outcome converts hreply toMap
  constructor
  · intro h
    by_contra hread
    rw [Bool.not_eq_true] at hread
    rw [Answers, hread] at hanswers
    obtain ⟨e, unread, hstop⟩ := hanswers
    exact not_understood_of_stop hframed hstop h
  · intro hread buffers p
    rw [Answers, if_pos hread] at hanswers
    have hmeets : ∀ n, Unpacks buffers n (unpackResult buffers converts toMap) reply.wire
        (.value (reply.value toMap)) := by
      intro n
      rw [← hanswers]
      exact unpacks_result converts toMap hframed
    refine ⟨fun front hfront hne hp => ?_, fun after hp => ?_⟩
    · exact unpackResult_of_asksMore ((hmeets front.length).early trivial hp le_rfl hfront hne)
    · exact (hmeets (reply.wire ++ after).length).whole hp le_rfl

/-- `*2
$2
ab
:-5
` -/
def pairReply : Reply :=
  .aggregate .array [.blob .bulk (text "ab"), .line .integer (text "-5")]

theorem understood_pairReply :
    pairReply.wellFormed = true ∧ Understood (fun _ => true) false pairReply :=
  ⟨by decide, (understood_iff_readable _ _ _ (by decide)).mpr (by decide)⟩

/-- Neither `:+5` nor a bulk string of `2 ^ 31` bytes is understood. -/
theorem not_understood_plus_and_long :
    ¬ Understood (fun _ => true) false (.line .integer (text "+5")) ∧
      ¬ Understood (fun _ => true) false (.blob .bulk (replicate (2 ^ 31) 0)) := by
  constructor
  · have hline : OneLine (text "+5") := by decide +kernel
    exact not_understood_of_stop (e := failure formatError) hline rfl
  · have hlength : (replicate (2 ^ 31) (0 : UInt8)).length = 2 ^ 31 := length_replicate
    have hcast : castInt (2 ^ 31) < 0 := by decide
    have hstop : outcome (fun _ => true) false (.blob .bulk (replicate (2 ^ 31) 0)) =
        restored (Reply.blob .bulk (replicate (2 ^ 31) 0)).wire
          (.stop (failure (castInt (2 ^ 31))) crlf) := by
      rw [outcome, bodyOutcome, blobOutcome, hlength, if_neg (by decide), if_pos hcast]
    exact not_understood_of_stop trivial hstop

end ServerLib.Redis

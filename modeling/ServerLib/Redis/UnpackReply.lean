import ServerLib.Redis.Reply

/-! `unpack_result` on the bytes of a reply. -/

namespace ServerLib.Redis

open Lib Buffer Reply List Option

/-- `Meets` for the reader over some buffers. -/
abbrev Unpacks {α : Type} (buffers : List Bytes) (n : Nat) (m : Unpack α) (text : Bytes)
    (out : Result α) : Prop :=
  Meets (Ahead buffers) asksMore n m text out

variable (k : Nat) (converts : Bytes → Bool)

theorem oneLine_decimal : OneLine (decimal k) := by
  intro b hb
  have hdigit := isDigit_of_mem_decimal hb
  constructor
  all_goals
    rintro rfl
    exact absurd hdigit (by decide)

theorem fromChars_decimal :
    fromChars (decimal k) = if k < 2 ^ 63 then some ((k : Int), []) else none := by
  have hread : readDigits (decimal k ++ []) = some (k, []) := readDigits_decimal k (by simp)
  rw [append_nil] at hread
  have hminus : (decimal k).head? ≠ some '-'.toUInt8 := by
    intro hhead
    exact absurd (isDigit_of_mem_decimal (mem_of_head? hhead)) (by decide)
  simp only [fromChars, if_neg hminus, hread, map_some, filter_some]
  by_cases hk : k < 2 ^ 63
  · rw [if_pos hk, if_pos (by simp [inInt64]; omega)]
  · rw [if_neg hk, if_neg (by simp [inInt64]; omega)]

theorem parseRespLength_decimal :
    parseRespLength (decimal k) = if k < 2 ^ 63 then some (k : Int) else none := by
  rw [parseRespLength, parseNumber, if_neg (decimal_ne_nil k), fromChars_decimal]
  by_cases hk : k < 2 ^ 63
  · simp only [if_pos hk]
  · simp only [if_neg hk]

theorem readChar_ahead {p : Position} {b : UInt8} {bytes : Bytes}
    (h : Ahead buffers p (b :: bytes)) :
    readChar buffers p = .done b (Buffer.advance buffers 1 p) := by
  rw [readChar, h.peekChar_eq]

theorem unpacks_readLine {line : Bytes} (hline : OneLine line) (held : Option RedisValue) :
    Unpacks buffers n (readLine buffers held) (line ++ crlf) (.value line) := by
  have h : Unpacks buffers n ((Buffer.readLine buffers).mapFailure fun ret => (ret, held))
      (line ++ crlf) (Outcome.mapFailure (fun ret => (ret, held)) (.value line)) :=
    (meets_readLine hline n).mapFailure fun _ => rfl
  exact h

theorem unpacks_line {line : Bytes} (hline : OneLine line) (convert : Bytes → Option RedisValue) :
    Unpacks buffers n (unpackLine buffers convert) (line ++ crlf)
      (match convert line with
        | none => malformed []
        | some value => .value value) := by
  refine (unpacks_readLine hline none).bind_end ?_
  cases convert line with
  | none => exact meets_fail _ []
  | some value => exact meets_pure value

variable {after : Bytes}

theorem unpacks_length {k : Nat} {out : Result RedisValue} (g : Int → Unpack RedisValue)
    (hsome : k < 2 ^ 63 → Unpacks buffers n (g k) after out)
    (hnone : 2 ^ 63 ≤ k → out = malformed after) :
    Unpacks buffers n
      (do
        let line ← readLine buffers none
        match parseRespLength line with
        | none => Scan.fail (failure formatError)
        | some len => g len)
      (decimal k ++ crlf ++ after) out := by
  refine (unpacks_readLine (oneLine_decimal k) none).bind_value ?_
  rw [parseRespLength_decimal]
  by_cases hk : k < 2 ^ 63
  · rw [if_pos hk]
    exact (hsome hk).mono (Nat.sub_le _ _)
  · rw [if_neg hk, hnone (Nat.not_lt.mp hk)]
    exact meets_fail _ after

theorem unpacks_body (held : Bytes → Option RedisValue) (convert : Bytes → RedisValue)
    (blob : Bytes) :
    Unpacks buffers n (unpackBody buffers blob.length held convert) (blob ++ crlf)
      (if castInt blob.length < 0 then .stop (failure (castInt blob.length)) crlf
        else .value (convert blob)) where
  whole {p rest} hp _ := by
    have hremain := hp.remainingBytes_eq
    rw [append_assoc] at hp hremain
    have hlength : blob.length + 2 ≤ remainingBytes buffers p := by
      simp [hremain, crlf]
    have hle : blob.length ≤ (blob ++ (crlf ++ rest)).length := by
      rw [length_append]
      exact Nat.le_add_right _ _
    rw [unpackBody, remain, look_bind, if_neg (Nat.not_lt.mpr hlength)]
    obtain ⟨p', hread, hp'⟩ := read_ahead hp blob.length
    rw [Nat.min_eq_left hle, take_left] at hread
    rw [drop_left] at hp'
    by_cases hneg : castInt blob.length < 0
    · rw [if_pos hneg]
      refine ⟨p', Scan.bind_of_failed ?_ _, hp'⟩
      simp only [readBytes, hread, if_pos hneg]
    · rw [if_neg hneg]
      have hdone : readBytes buffers blob.length p = .done blob p' := by
        simp only [readBytes, hread, if_neg hneg]
      have hcr : Ahead buffers p' ('\r'.toUInt8 :: '\n'.toUInt8 :: rest) := hp'
      refine ⟨_, ?_, hcr.next.next⟩
      rw [Scan.bind_of_done hdone, Scan.bind_of_done (readChar_ahead hcr),
        Scan.bind_of_done (readChar_ahead hcr.next)]
      rfl
  early _ p front hp _ hfront hne := by
    have hlength : front.length < blob.length + 2 := by
      have hle := hfront.length_le
      have hlt : front.length ≠ (blob ++ crlf).length := fun heq => hne (hfront.eq_of_length heq)
      simp only [length_append, crlf, length_cons, length_nil] at hle hlt
      omega
    refine ⟨failure needMoreBytes, p, ?_, rfl⟩
    rw [unpackBody, remain, look_bind, hp.remainingBytes_eq, if_pos hlength]
    rfl

theorem unpacks_blob (held : Bytes → Option RedisValue) (convert : Bytes → RedisValue)
    (blob : Bytes) :
    Unpacks buffers n (unpackBlob buffers held convert)
      (decimal blob.length ++ crlf ++ (blob ++ crlf))
      (if 2 ^ 63 ≤ blob.length then malformed (blob ++ crlf)
        else if castInt blob.length < 0 then .stop (failure (castInt blob.length)) crlf
        else .value (convert blob)) := by
  refine unpacks_length _ (fun hlt => ?_) fun hle => if_pos hle
  rw [if_neg (by omega), if_neg (by omega), Int.toNat_natCast]
  exact unpacks_body held convert blob

theorem unpacks_null {toMap : Bool} (again : Bool → Unpack RedisValue) (form : NullForm) :
    Unpacks buffers n (unpackType buffers converts again toMap form.type)
      ((if form = .null then [] else text "-1") ++ crlf) (nullOutcome toMap form) := by
  have hline : OneLine (text "-1") := by decide +kernel
  have hlength : parseRespLength (text "-1") = some (-1) := by decide +kernel
  cases form with
  | null =>
    have hfirst : Unpacks buffers n (readLine buffers (some .null)) ([] ++ crlf) (.value []) :=
      unpacks_readLine (by simp [OneLine]) _
    refine hfirst.bind_end ?_
    rw [nullOutcome, if_neg (by simp)]
    exact meets_pure _
  | bulk | array =>
    cases toMap
    all_goals
      refine (unpacks_readLine hline none).bind_end ?_
      rw [hlength]
      first | exact meets_pure _ | exact meets_fail _ []

theorem char_eq_iff (type type' : RespType) : type.char = type'.char ↔ type = type' := by
  constructor
  · intro h
    have hsome := RespType.ofChar_char type
    rw [h, RespType.ofChar_char] at hsome
    exact (some.inj hsome).symm
  · rintro rfl
    rfl

theorem unpacks_present {α : Type} {m q : Unpack α} {out : Result α}
    (hm : ∀ {p bytes}, Ahead buffers p (c :: bytes) → m p = q p)
    (h : Unpacks buffers n q (c :: after) out) :
    Unpacks buffers n
      (do
        let left ← remain buffers
        if left = 0 then Scan.fail (failure needMoreBytes) else m)
      (c :: after) out where
  whole {p rest} hp hlength := by
    rw [remain, look_bind, if_neg (by simp [hp.remainingBytes_eq]), hm hp]
    exact h.whole hp hlength
  early hout p front hp hlength hfront hne := by
    rw [remain, look_bind, hp.remainingBytes_eq]
    cases front with
    | nil => exact ⟨failure needMoreBytes, p, rfl, rfl⟩
    | cons b front =>
      obtain ⟨rfl, -⟩ := cons_prefix_cons.mp hfront
      rw [if_neg (by simp), hm hp]
      exact h.early hout hp hlength hfront hne

theorem unpacks_entry (res : List (Bytes × RedisValue)) (key value : RedisValue) :
    Unpacks buffers n (addEntry res key value) [] (entryOutcome res key value) := by
  cases key with
  | string key raw =>
    rw [addEntry, entryOutcome]
    split
    · exact meets_fail _ []
    · exact meets_pure _
  | _ => exact meets_fail _ []

theorem length_entryOutcome (h : entryOutcome res key value = .value res') :
    res'.length = res.length + 1 := by
  cases key with
  | string key raw =>
    rw [entryOutcome] at h
    split at h
    · cases h
    · cases h
      simp
  | _ => cases h

theorem length_pairsOutcome {converts : Bytes → Bool}
    (h : pairsOutcome converts items res = .value res') :
    res'.length = res.length + items.length / 2 := by
  induction items using twoStepInduction generalizing res with
  | nil | singleton reply =>
    cases h
    simp
  | cons_cons key value rest ih _ =>
    rw [pairsOutcome] at h
    split at h
    · obtain ⟨keyValue, -, h⟩ := Outcome.andThen_eq_value.mp h
      obtain ⟨value, -, h⟩ := Outcome.andThen_eq_value.mp h
      obtain ⟨res₁, hentry, h⟩ := Outcome.andThen_eq_value.mp h
      have hlength := ih h
      have hlength₁ := length_entryOutcome hentry
      simp only [length_cons]
      omega
    · cases h

section Items

variable {converts : Bytes → Bool} {again : Bool → Unpack RedisValue}
  (hagain : ∀ toMap reply, reply.Framed →
    Unpacks buffers n (again toMap) reply.wire (outcome converts toMap reply))

include hagain

variable {k : Nat}

theorem unpacks_nested (hk : k ≤ n) (toMap : Bool) (hreply : reply.Framed) :
    Unpacks buffers k (nested (again toMap)) reply.wire
      ((outcome converts toMap reply).mapFailure dropResult) :=
  ((hagain toMap reply hreply).mono hk).mapFailure fun _ => rfl

theorem unpacks_many (hk : k ≤ n) (toMap : Bool) (hitems : FramedAll items) :
    Unpacks buffers k (unpackMany (again toMap) items.length) (wires items)
      (itemsOutcome converts toMap items) := by
  induction items generalizing k with
  | nil => exact meets_pure []
  | cons reply rest ih =>
    refine (unpacks_nested hagain hk toMap hitems.1).bind fun value _ => ?_
    exact (ih (by omega) hitems.2).map_value (value :: ·)

theorem unpacks_pairs (hk : k ≤ n) (hitems : FramedAll items) (heven : items.length % 2 = 0)
    (res : List (Bytes × RedisValue)) :
    Unpacks buffers k (unpackPairs buffers (again false) (items.length / 2) res) (wires items)
      (pairsOutcome converts items res) := by
  induction items using twoStepInduction generalizing k res with
  | nil => exact meets_pure res
  | singleton reply => simp at heven
  | cons_cons key value rest ih _ =>
    obtain ⟨hkey, hvalue, hrest⟩ := hitems
    have hcount : (key :: value :: rest).length / 2 = rest.length / 2 + 1 := by
      simp only [length_cons]
      omega
    have heven' : rest.length % 2 = 0 := by
      simp only [length_cons] at heven
      omega
    rw [hcount, unpackPairs, pairsOutcome]
    refine unpacks_present (q := if key.type.char ≠ RespType.string.char then _ else _)
      (fun hp => by rw [peek, look_bind, hp.peekChar_eq]) ?_
    by_cases hstring : key.type = .string
    · rw [if_pos hstring, if_neg (by simp [hstring])]
      refine (unpacks_nested hagain hk false hkey).bind fun keyValue _ => ?_
      refine unpacks_present (fun _ => rfl) ?_
      refine (unpacks_nested hagain (by omega) false hvalue).bind fun value _ => ?_
      refine (unpacks_entry res keyValue value).bind fun res _ => ?_
      exact ih (by omega) hrest heven' res
    · rw [if_neg hstring, if_pos (fun h => hstring ((char_eq_iff _ _).mp h))]
      exact meets_fail _ _

variable (toMap : Bool)

section

variable (hitems : FramedAll items)
include hitems

theorem unpacks_sequence :
    Unpacks buffers n (unpackSequence buffers (again toMap))
      (decimal items.length ++ crlf ++ wires items)
      (if items.length < 2 ^ 31 then (itemsOutcome converts toMap items).map .array
        else malformed (wires items)) := by
  refine unpacks_length _ (fun _ => ?_) fun hle => if_neg (by omega)
  rw [if_neg (by omega)]
  by_cases hlength : items.length < 2 ^ 31
  · rw [if_neg (by omega), if_pos hlength, Int.toNat_natCast]
    exact (unpacks_many hagain le_rfl toMap hitems).map_value RedisValue.array
  · rw [if_pos (by omega), if_neg hlength]
    exact meets_fail _ _

theorem unpacks_entries (heven : items.length % 2 = 0) :
    Unpacks buffers n (unpackEntries buffers (again false) (items.length / 2)) (wires items)
      ((pairsOutcome converts items []).map .map) := by
  have h : Unpacks buffers n (unpackEntries buffers (again false) (items.length / 2))
      (wires items ++ []) ((pairsOutcome converts items []).map .map) := by
    refine (unpacks_pairs hagain le_rfl hitems heven []).bind fun res hres => ?_
    rw [if_neg (by simp [length_pairsOutcome hres])]
    exact meets_pure _
  rwa [append_nil] at h

theorem unpacks_map (heven : items.length % 2 = 0) :
    Unpacks buffers n (unpackMap buffers (again false) false)
      (decimal (items.length / 2) ++ crlf ++ wires items)
      (if items.length / 2 < 2 ^ 63 then (pairsOutcome converts items []).map .map
        else malformed (wires items)) := by
  refine unpacks_length _ (fun hlength => ?_) fun hle => if_neg (by omega)
  rw [if_neg (by omega), if_neg (by simp), if_pos hlength, if_neg (by simp), Int.toNat_natCast]
  exact unpacks_entries hagain hitems heven

theorem unpacks_arrayAsMap :
    Unpacks buffers n (unpackMap buffers (again false) true)
      (decimal items.length ++ crlf ++ wires items)
      (if items.length < 2 ^ 63 ∧ items.length % 2 = 0 then
          (pairsOutcome converts items []).map .map
        else malformed (wires items)) := by
  refine unpacks_length _ (fun hlength => ?_) fun hle => if_neg (by omega)
  rw [if_neg (by omega)]
  by_cases heven : items.length % 2 = 0
  · rw [if_neg (by simp; omega), if_pos rfl, if_pos ⟨hlength, heven⟩, Int.toNat_natCast]
    exact unpacks_entries hagain hitems heven
  · rw [if_pos ⟨rfl, by omega⟩, if_neg fun h => heven h.2]
    exact meets_fail _ _

theorem unpacks_attr (heven : items.length % 2 = 0) (hreply : reply.Framed) :
    Unpacks buffers n (unpackAttr buffers again toMap)
      (decimal (items.length / 2) ++ crlf ++ (wires items ++ reply.wire))
      (if items.length / 2 ≤ (2 ^ 63 - 1) / 2 then
          (itemsOutcome converts false items).andThen reply.wire fun _ =>
            outcome converts toMap reply
        else malformed (wires items ++ reply.wire)) := by
  refine unpacks_length _ (fun _ => ?_) fun hle => if_neg (by omega)
  rw [if_neg (by omega)]
  by_cases hlength : items.length / 2 ≤ (2 ^ 63 - 1) / 2
  · have hcount : 2 * Int.toNat ((items.length / 2 : Nat) : Int) = items.length := by
      rw [Int.toNat_natCast]
      omega
    rw [if_neg (by omega), if_pos hlength, hcount]
    refine (unpacks_many hagain le_rfl false hitems).bind fun _ _ => ?_
    exact (hagain toMap reply hreply).mono (Nat.sub_le _ _)
  · rw [if_pos (by omega), if_neg hlength]
    exact meets_fail _ _

end

theorem unpacks_type (hreply : reply.Framed) :
    Unpacks buffers n (unpackType buffers converts again toMap reply.type) reply.body
      (bodyOutcome converts toMap reply) := by
  cases reply with
  | line kind line =>
    cases kind with
    | simple => exact unpacks_line hreply fun line => some (statusValue line)
    | error => exact unpacks_line hreply fun line => some (.error line)
    | _ => exact unpacks_line hreply _
  | blob kind blob => cases kind <;> exact unpacks_blob _ _ blob
  | null form => exact unpacks_null converts again form
  | aggregate kind items =>
    obtain ⟨heven, hitems⟩ := hreply
    cases kind with
    | array =>
      cases toMap with
      | true => exact unpacks_arrayAsMap hagain hitems
      | false => exact unpacks_sequence hagain false hitems
    | set | push => exact unpacks_sequence hagain toMap hitems
    | map => exact unpacks_map hagain hitems (heven rfl)
  | attributed items reply =>
    obtain ⟨heven, hitems, hreply⟩ := hreply
    exact unpacks_attr hagain toMap hitems heven hreply

end Items

theorem two_le_length_body (reply : Reply) : 2 ≤ reply.body.length := by
  cases reply <;> simp [body, crlf] <;> omega

theorem unpacks_impl {converts : Bytes → Bool} {type : RespType} (hafter : after ≠ [])
    (h : Unpacks buffers n (unpackType buffers converts again toMap type) after out) :
    Unpacks buffers (n + 1) (unpackResultImpl buffers converts again toMap)
      (type.char :: after) out where
  whole {p rest} hp hlength := by
    have hlong : 1 ≤ after.length := length_pos_of_ne_nil hafter
    have hmore : 2 ≤ (type.char :: after ++ rest).length := by
      rw [length_append, length_cons]
      omega
    rw [unpackResultImpl, remain, look_bind, hp.remainingBytes_eq, if_neg (by omega),
      Scan.bind_of_done (readChar_ahead hp), unpackChar, RespType.ofChar_char]
    exact h.whole hp.next (by simpa using hlength)
  early hout p front hp hlength hfront hne := by
    rw [unpackResultImpl, remain, look_bind, hp.remainingBytes_eq]
    by_cases hshort : front.length < 2
    · rw [if_pos hshort]
      exact ⟨failure needMoreBytes, p, rfl, rfl⟩
    rw [if_neg hshort]
    obtain ⟨c, front, rfl⟩ := exists_cons_of_length_pos (show 0 < front.length by omega)
    obtain ⟨rfl, hpart⟩ := cons_prefix_cons.mp hfront
    rw [Scan.bind_of_done (readChar_ahead hp), unpackChar, RespType.ofChar_char]
    refine h.early hout hp.next (by simpa using hlength) hpart ?_
    rintro rfl
    exact hne rfl

theorem unpacks_resultOf (fuel : Nat) (toMap : Bool) (reply : Reply) (hreply : reply.Framed) :
    Unpacks buffers fuel (unpackResultOf buffers converts fuel toMap) reply.wire
      (outcome converts toMap reply) := by
  induction fuel generalizing toMap reply with
  | zero =>
    refine ⟨fun _ hlength => ?_, fun _ p _ _ _ _ _ => ⟨failure needMoreBytes, p, rfl, rfl⟩⟩
    simp [wire] at hlength
  | succ fuel ih =>
    have hbody : reply.body ≠ [] :=
      ne_nil_of_length_pos (Nat.lt_of_lt_of_le (by decide) (two_le_length_body reply))
    exact (unpacks_impl hbody (unpacks_type ih toMap hreply)).checkpoint rfl

theorem unpacks_result (toMap : Bool) {reply : Reply} (hreply : reply.Framed) :
    Unpacks buffers n (unpackResult buffers converts toMap) reply.wire
      (outcome converts toMap reply) where
  whole hp _ :=
    (unpacks_resultOf converts _ toMap reply hreply).whole hp
      (Nat.le_of_eq hp.remainingBytes_eq.symm)
  early hout _ _ hp _ hfront hne :=
    (unpacks_resultOf converts _ toMap reply hreply).early hout hp
      (Nat.le_of_eq hp.remainingBytes_eq.symm) hfront hne

end ServerLib.Redis

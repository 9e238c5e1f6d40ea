import ServerLib.Redis.UnpackReply

/-! Nothing but the bytes matters to `unpack_result`: not the buffers they lie in, and not the
bytes that were read before. -/

namespace ServerLib.Redis

open Lib Buffer

/-- `Agrees` for readers over two lists of buffers. -/
abbrev Alike {α : Type} (buffers₁ buffers₂ : List Bytes) (m₁ m₂ : Unpack α) : Prop :=
  Agrees (Ahead buffers₁) (Ahead buffers₂) m₁ m₂

theorem alike_remain : Alike buffers₁ buffers₂ (remain buffers₁) (remain buffers₂) :=
  agrees_look fun h₁ h₂ => h₁.remainingBytes_eq.trans h₂.remainingBytes_eq.symm

theorem alike_peek : Alike buffers₁ buffers₂ (peek buffers₁) (peek buffers₂) :=
  agrees_look fun h₁ h₂ => h₁.peekChar_eq_headD.trans h₂.peekChar_eq_headD.symm

theorem alike_readChar : Alike buffers₁ buffers₂ (readChar buffers₁) (readChar buffers₂) := by
  intro p₁ p₂ tokens h₁ h₂
  rw [readChar, readChar, h₁.peekChar_eq_headD, h₂.peekChar_eq_headD]
  exact .done (tokens.drop 1) (List.drop_suffix 1 tokens) (h₁.advance 1) (h₂.advance 1)

theorem alike_readLine (held : Option RedisValue) :
    Alike buffers₁ buffers₂ (readLine buffers₁ held) (readLine buffers₂ held) :=
  agrees_readLine.mapFailure _

theorem alike_readBytes (len : Nat) :
    Alike buffers₁ buffers₂ (readBytes buffers₁ len) (readBytes buffers₂ len) := by
  intro p₁ p₂ tokens h₁ h₂
  obtain ⟨p₁', hread₁, hp₁⟩ := read_ahead h₁ len
  obtain ⟨p₂', hread₂, hp₂⟩ := read_ahead h₂ len
  simp only [readBytes, hread₁, hread₂]
  split
  · exact .failed _ (List.drop_suffix len tokens) hp₁ hp₂
  · exact .done _ (List.drop_suffix len tokens) hp₁ hp₂

theorem alike_line (convert : Bytes → Option RedisValue) :
    Alike buffers₁ buffers₂ (unpackLine buffers₁ convert) (unpackLine buffers₂ convert) := by
  refine (alike_readLine none).bind fun line => ?_
  cases convert line with
  | none => exact agrees_fail _
  | some value => exact agrees_pure value

theorem alike_body (len : Nat) (held : Bytes → Option RedisValue) (convert : Bytes → RedisValue) :
    Alike buffers₁ buffers₂ (unpackBody buffers₁ len held convert)
      (unpackBody buffers₂ len held convert) := by
  refine alike_remain.bind fun left => ?_
  split
  · exact agrees_fail _
  refine (alike_readBytes len).bind fun bytes => ?_
  refine alike_readChar.bind fun cr => ?_
  refine alike_readChar.bind fun lf => ?_
  split
  · exact agrees_fail _
  · exact agrees_pure _

theorem alike_length {g₁ g₂ : Int → Unpack RedisValue}
    (h : ∀ len, Alike buffers₁ buffers₂ (g₁ len) (g₂ len)) :
    Alike buffers₁ buffers₂
      (do
        let line ← readLine buffers₁ none
        match parseRespLength line with
        | none => Scan.fail (failure formatError)
        | some len => g₁ len)
      (do
        let line ← readLine buffers₂ none
        match parseRespLength line with
        | none => Scan.fail (failure formatError)
        | some len => g₂ len) := by
  refine (alike_readLine none).bind fun line => ?_
  cases parseRespLength line with
  | none => exact agrees_fail _
  | some len => exact h len

theorem alike_blob (held : Bytes → Option RedisValue) (convert : Bytes → RedisValue) :
    Alike buffers₁ buffers₂ (unpackBlob buffers₁ held convert)
      (unpackBlob buffers₂ held convert) := by
  refine alike_length fun len => ?_
  split
  · exact agrees_pure _
  · exact alike_body len.toNat held convert

section Items

variable {again₁ again₂ : Bool → Unpack RedisValue}
  (hagain : ∀ toMap, Alike buffers₁ buffers₂ (again₁ toMap) (again₂ toMap))

include hagain

variable (toMap : Bool)

theorem alike_many (count : Nat) :
    Alike buffers₁ buffers₂ (unpackMany (again₁ toMap) count)
      (unpackMany (again₂ toMap) count) := by
  induction count with
  | zero => exact agrees_pure []
  | succ count ih =>
    refine ((hagain toMap).mapFailure dropResult).bind fun value => ?_
    exact ih.bind fun values => agrees_pure _

theorem alike_pairs (count : Nat) (res : List (Bytes × RedisValue)) :
    Alike buffers₁ buffers₂ (unpackPairs buffers₁ (again₁ false) count res)
      (unpackPairs buffers₂ (again₂ false) count res) := by
  induction count generalizing res with
  | zero => exact agrees_pure res
  | succ count ih =>
    refine alike_remain.bind fun left => ?_
    split
    · exact agrees_fail _
    refine alike_peek.bind fun subType => ?_
    split
    · exact agrees_fail _
    refine ((hagain false).mapFailure dropResult).bind fun key => ?_
    refine alike_remain.bind fun left => ?_
    split
    · exact agrees_fail _
    refine ((hagain false).mapFailure dropResult).bind fun value => ?_
    refine .bind ?_ fun res => ih res
    cases key with
    | string key raw =>
      rw [addEntry]
      split
      · exact agrees_fail _
      · exact agrees_pure _
    | _ => exact agrees_fail _

theorem alike_entries (pairCount : Nat) :
    Alike buffers₁ buffers₂ (unpackEntries buffers₁ (again₁ false) pairCount)
      (unpackEntries buffers₂ (again₂ false) pairCount) := by
  refine (alike_pairs hagain pairCount []).bind fun res => ?_
  split
  · exact agrees_fail _
  · exact agrees_pure _

theorem alike_map (arrayAsMap : Bool) :
    Alike buffers₁ buffers₂ (unpackMap buffers₁ (again₁ false) arrayAsMap)
      (unpackMap buffers₂ (again₂ false) arrayAsMap) := by
  refine alike_length fun len => ?_
  split
  · exact agrees_fail _
  · split
    · exact agrees_fail _
    · exact alike_entries hagain _

theorem alike_sequence :
    Alike buffers₁ buffers₂ (unpackSequence buffers₁ (again₁ toMap))
      (unpackSequence buffers₂ (again₂ toMap)) := by
  refine alike_length fun len => ?_
  split
  · exact agrees_pure _
  · split
    · exact agrees_fail _
    · exact (alike_many hagain toMap len.toNat).bind fun values => agrees_pure _

theorem alike_attr :
    Alike buffers₁ buffers₂ (unpackAttr buffers₁ again₁ toMap)
      (unpackAttr buffers₂ again₂ toMap) := by
  refine alike_length fun len => ?_
  split
  · exact agrees_fail _
  · split
    · exact agrees_fail _
    · exact (alike_many hagain false _).bind fun _ => hagain toMap

theorem alike_type (converts : Bytes → Bool) (toMap : Bool) (type : RespType) :
    Alike buffers₁ buffers₂ (unpackType buffers₁ converts again₁ toMap type)
      (unpackType buffers₂ converts again₂ toMap type) := by
  cases type with
  | status => exact alike_line fun line => some (statusValue line)
  | error => exact alike_line fun line => some (.error line)
  | string | blobError | verbatim => exact alike_blob _ _
  | null => exact (alike_readLine _).bind fun _ => agrees_pure _
  | array =>
    cases toMap with
    | true => exact alike_map hagain true
    | false => exact alike_sequence hagain false
  | map => exact alike_map hagain false
  | set | push => exact alike_sequence hagain toMap
  | attr => exact alike_attr hagain toMap
  | _ => exact alike_line _

end Items

theorem alike_char (hagain : ∀ toMap, Alike buffers₁ buffers₂ (again₁ toMap) (again₂ toMap))
    (converts : Bytes → Bool) (toMap : Bool) (type : UInt8) :
    Alike buffers₁ buffers₂ (unpackChar buffers₁ converts again₁ toMap type)
      (unpackChar buffers₂ converts again₂ toMap type) := by
  rw [unpackChar, unpackChar]
  cases RespType.ofChar type with
  | none => exact agrees_fail _
  | some type => exact alike_type hagain converts toMap type

theorem alike_impl (hagain : ∀ toMap, Alike buffers₁ buffers₂ (again₁ toMap) (again₂ toMap))
    (converts : Bytes → Bool) (toMap : Bool) :
    Alike buffers₁ buffers₂ (unpackResultImpl buffers₁ converts again₁ toMap)
      (unpackResultImpl buffers₂ converts again₂ toMap) := by
  refine alike_remain.bind fun left => ?_
  split
  · exact agrees_fail _
  · exact alike_readChar.bind fun type => alike_char hagain converts toMap type

theorem alike_resultOf (converts : Bytes → Bool) (fuel : Nat) (toMap : Bool) :
    Alike buffers₁ buffers₂ (unpackResultOf buffers₁ converts fuel toMap)
      (unpackResultOf buffers₂ converts fuel toMap) := by
  induction fuel generalizing toMap with
  | zero => exact agrees_fail _
  | succ fuel ih => exact (alike_impl ih converts toMap).checkpoint asksMore _

theorem alike_result (converts : Bytes → Bool) (toMap : Bool) :
    Alike buffers₁ buffers₂ (unpackResult buffers₁ converts toMap)
      (unpackResult buffers₂ converts toMap) := by
  intro p₁ p₂ tokens h₁ h₂
  rw [unpackResult, unpackResult, h₁.remainingBytes_eq, h₂.remainingBytes_eq]
  exact alike_resultOf converts tokens.length toMap h₁ h₂

end ServerLib.Redis

import ServerLib.Lib.Decimal
import ServerLib.Buffer.ByteBufferReader

/-!
`unpack_result`: a reply is read off the bytes that are there.  It is started anew, from the same
position, when bytes are missing.  `converts` tells which texts `RedisDoubleConverter::convert`
takes without an exception.
-/

namespace ServerLib.Redis

open Lib Buffer

def text (s : String) : Bytes := s.toList.map Char.toUInt8

/-- The values with the text that `set_raw_str` gives them.  The entries of a map stand in the
order in which they came. -/
inductive RedisValue
  | array (values : List RedisValue)
  | error (error : Bytes)
  | float (raw : Bytes)
  | int (value : Int) (raw : Bytes)
  | map (entries : List (Bytes × RedisValue))
  | null
  | status (status : Bool) (raw : Bytes)
  | string (value raw : Bytes)

inductive RespType
  | status
  | error
  | string
  | int
  | null
  | float
  | bool
  | blobError
  | verbatim
  | bigInt
  | array
  | map
  | set
  | attr
  | push
deriving DecidableEq

namespace RespType

def char : RespType → UInt8
  | status => '+'.toUInt8
  | error => '-'.toUInt8
  | string => '$'.toUInt8
  | int => ':'.toUInt8
  | null => '_'.toUInt8
  | float => ','.toUInt8
  | bool => '#'.toUInt8
  | blobError => '!'.toUInt8
  | verbatim => '='.toUInt8
  | bigInt => '('.toUInt8
  | array => '*'.toUInt8
  | map => '%'.toUInt8
  | set => '~'.toUInt8
  | attr => '|'.toUInt8
  | push => '>'.toUInt8

def all : List RespType :=
  [status, error, string, int, null, float, bool, blobError, verbatim, bigInt, array, map, set,
    attr, push]

/-- The case of the `switch` for a character. -/
def ofChar (c : UInt8) : Option RespType := all.find? fun type => type.char == c

theorem ofChar_char (type : RespType) : ofChar type.char = some type := by
  cases type <;> decide

end RespType

def inInt64 (number : Int) : Bool := -2 ^ 63 ≤ number ∧ number < 2 ^ 63

variable (value : Bytes)

/-- `std::from_chars` for an `int64_t`: the number and what comes after it.  A plus sign is not
part of a number. -/
def fromChars : Option (Int × Bytes) :=
  let number : Option (Int × Bytes) :=
    if value.head? = some '-'.toUInt8 then
      (readDigits value.tail).map fun digits => (-(digits.1 : Int), digits.2)
    else (readDigits value).map fun digits => ((digits.1 : Int), digits.2)
  number.filter fun number => inInt64 number.1

/-- A number that takes the whole text. -/
def parseNumber : Option Int :=
  if value = [] then none
  else
    match fromChars value with
    | some (number, []) => some number
    | _ => none

def parseRespLength : Bytes → Option Int := parseNumber

def parseRespInt64 : Bytes → Option Int := parseNumber

def isIntegerLiteral : Bool :=
  let digits :=
    if value.head? = some '+'.toUInt8 ∨ value.head? = some '-'.toUInt8 then value.tail else value
  digits ≠ [] ∧ digits.all isDigit

def formatError : Int := -1

def needMoreBytes : Int := -2

/-- What is returned and what the caller has as the result. -/
abbrev Failure := Int × Option RedisValue

def failure (ret : Int) : Failure := (ret, none)

def asksMore (e : Failure) : Bool := e.1 = needMoreBytes

/-- The result of a nested call is lost when the call fails. -/
def dropResult (e : Failure) : Failure := failure e.1

abbrev Unpack (α : Type) := Scan Position Failure α

section Reading

variable (buffers : List Bytes)

def remain : Unpack Nat := Scan.look (remainingBytes buffers)

def peek : Unpack UInt8 := Scan.look (peekChar buffers)

def readChar : Unpack UInt8 := fun p => .done (peekChar buffers p) (advance buffers 1 p)

/-- `held` is what the result already is. -/
def readLine (held : Option RedisValue) : Unpack Bytes :=
  (Buffer.readLine buffers).mapFailure fun ret => (ret, held)

/-- The number of bytes is returned as an `int`, and a negative one counts as a failure. -/
def readBytes (len : Nat) : Unpack Bytes := fun p =>
  let result := read buffers len p
  if result.1 < 0 then .failed (failure result.1) result.2.2 else .done result.2.1 result.2.2

def unpackLine (convert : Bytes → Option RedisValue) : Unpack RedisValue := do
  let line ← readLine buffers none
  match convert line with
  | none => Scan.fail (failure formatError)
  | some value => pure value

def statusValue (line : Bytes) : RedisValue :=
  if line = text "OK" then .status true []
  else .status (line = text "QUEUED" ∨ line = text "SUCCESS" ∨ line = text "PONG") line

def unpackStatus : Unpack RedisValue := unpackLine buffers fun line => some (statusValue line)

def unpackError : Unpack RedisValue := unpackLine buffers fun line => some (.error line)

def unpackInt : Unpack RedisValue :=
  unpackLine buffers fun line => (parseRespInt64 line).map fun number => .int number []

def unpackFloat (converts : Bytes → Bool) : Unpack RedisValue :=
  unpackLine buffers fun line => if converts line then some (.float line) else none

def unpackBool : Unpack RedisValue :=
  unpackLine buffers fun line =>
    if line = [] then none else some (.status (line.head? = some 't'.toUInt8) line)

def bigIntValue (line : Bytes) : Option RedisValue :=
  match parseRespInt64 line with
  | some number => some (.int number line)
  | none => if isIntegerLiteral line then some (.string line line) else none

def unpackBigInt : Unpack RedisValue := unpackLine buffers bigIntValue

/-- The result is there before the line is read. -/
def unpackNull : Unpack RedisValue := do
  let _ ← readLine buffers (some .null)
  pure .null

/-- What follows the line with the length. -/
def unpackBody (len : Nat) (held : Bytes → Option RedisValue) (convert : Bytes → RedisValue) :
    Unpack RedisValue := do
  let left ← remain buffers
  if left < len + 2 then Scan.fail (failure needMoreBytes)
  else
    let bytes ← readBytes buffers len
    let cr ← readChar buffers
    let lf ← readChar buffers
    if cr ≠ '\r'.toUInt8 ∨ lf ≠ '\n'.toUInt8 then Scan.fail (formatError, held bytes)
    else pure (convert bytes)

/-- `held` is the result while the line break after the bytes is read. -/
def unpackBlob (held : Bytes → Option RedisValue) (convert : Bytes → RedisValue) :
    Unpack RedisValue := do
  let line ← readLine buffers none
  match parseRespLength line with
  | none => Scan.fail (failure formatError)
  | some len =>
    if len < 0 then pure .null else unpackBody buffers len.toNat held convert

def unpackString : Unpack RedisValue :=
  unpackBlob buffers (fun bytes => some (.string bytes [])) fun bytes => .string bytes []

def unpackBlobError : Unpack RedisValue := unpackBlob buffers (fun _ => none) .error

def verbatimValue (blob : Bytes) : RedisValue :=
  if 4 < blob.length ∧ blob[3]? = some ':'.toUInt8 then .string (blob.drop 4) blob
  else .string blob blob

def unpackVerbatim : Unpack RedisValue := unpackBlob buffers (fun _ => none) verbatimValue

variable (again : Unpack RedisValue)

/-- A reply in another one. -/
def nested : Unpack RedisValue := again.mapFailure dropResult

def unpackMany (again : Unpack RedisValue) : Nat → Unpack (List RedisValue)
  | 0 => pure []
  | count + 1 => do
    let value ← nested again
    let values ← unpackMany again count
    pure (value :: values)

/-- The bodies for arrays, sets and pushes. -/
def unpackSequence : Unpack RedisValue := do
  let line ← readLine buffers none
  match parseRespLength line with
  | none => Scan.fail (failure formatError)
  | some len =>
    if len < 0 then pure .null
    else if len > 2 ^ 31 - 1 then Scan.fail (failure formatError)
    else do
      let values ← unpackMany again len.toNat
      pure (.array values)

/-- The attributes are skipped. -/
def unpackAttr (again : Bool → Unpack RedisValue) (toMap : Bool) : Unpack RedisValue := do
  let line ← readLine buffers none
  match parseRespLength line with
  | none => Scan.fail (failure formatError)
  | some len =>
    if len < 0 then Scan.fail (failure formatError)
    else if len > (2 ^ 63 - 1) / 2 then Scan.fail (failure formatError)
    else do
      let _ ← unpackMany (again false) (2 * len.toNat)
      again toMap

def addEntry (res : List (Bytes × RedisValue)) (key value : RedisValue) :
    Unpack (List (Bytes × RedisValue)) :=
  match key with
  | .string key _ =>
    if res.any fun entry => entry.1 == key then Scan.fail (failure formatError)
    else pure (res ++ [(key, value)])
  | _ => Scan.fail (failure formatError)

def unpackPairs (again : Unpack RedisValue) :
    Nat → List (Bytes × RedisValue) → Unpack (List (Bytes × RedisValue))
  | 0, res => pure res
  | count + 1, res => do
    let left ← remain buffers
    if left = 0 then Scan.fail (failure needMoreBytes)
    else
      let subType ← peek buffers
      if subType ≠ RespType.string.char then Scan.fail (failure formatError)
      else
        let key ← nested again
        let left ← remain buffers
        if left = 0 then Scan.fail (failure needMoreBytes)
        else
          let value ← nested again
          let res ← addEntry res key value
          unpackPairs again count res

def unpackEntries (pairCount : Nat) : Unpack RedisValue := do
  let res ← unpackPairs buffers again pairCount []
  if pairCount ≠ res.length then Scan.fail (failure formatError) else pure (.map res)

/-- `arrayAsMap` for an array that is read as a map. -/
def unpackMap (arrayAsMap : Bool) : Unpack RedisValue := do
  let line ← readLine buffers none
  match parseRespLength line with
  | none => Scan.fail (failure formatError)
  | some len =>
    if len < 0 then Scan.fail (failure formatError)
    else if arrayAsMap ∧ len % 2 ≠ 0 then Scan.fail (failure formatError)
    else unpackEntries buffers again (if arrayAsMap then len.toNat / 2 else len.toNat)

variable (converts : Bytes → Bool)

def unpackType (again : Bool → Unpack RedisValue) (toMap : Bool) : RespType → Unpack RedisValue
  | .status => unpackStatus buffers
  | .error => unpackError buffers
  | .string => unpackString buffers
  | .int => unpackInt buffers
  | .null => unpackNull buffers
  | .float => unpackFloat buffers converts
  | .bool => unpackBool buffers
  | .blobError => unpackBlobError buffers
  | .verbatim => unpackVerbatim buffers
  | .bigInt => unpackBigInt buffers
  | .array =>
    if toMap then unpackMap buffers (again false) true else unpackSequence buffers (again toMap)
  | .push => unpackSequence buffers (again toMap)
  | .set => unpackSequence buffers (again toMap)
  | .attr => unpackAttr buffers again toMap
  | .map => unpackMap buffers (again false) false

def unknownType : RedisValue := .error (text "unknown type")

/-- The `switch`, with its default case. -/
def unpackChar (again : Bool → Unpack RedisValue) (toMap : Bool) (type : UInt8) :
    Unpack RedisValue :=
  match RespType.ofChar type with
  | none => Scan.fail (-1, some unknownType)
  | some type => unpackType buffers converts again toMap type

def unpackResultImpl (again : Bool → Unpack RedisValue) (toMap : Bool) : Unpack RedisValue := do
  let left ← remain buffers
  if left < 2 then Scan.fail (failure needMoreBytes)
  else
    let type ← readChar buffers
    unpackChar buffers converts again toMap type

/-- `unpack_result` for at most `fuel` bytes: with no bytes left, bytes are missing. -/
def unpackResultOf : Nat → Bool → Unpack RedisValue
  | 0, _ => Scan.fail (failure needMoreBytes)
  | fuel + 1, toMap =>
    (unpackResultImpl buffers converts (unpackResultOf fuel) toMap).checkpoint asksMore
      (failure needMoreBytes)

/-- Every nested call has fewer bytes than its caller. -/
def unpackResult (toMap : Bool) : Unpack RedisValue := fun p =>
  unpackResultOf buffers converts (remainingBytes buffers p) toMap p

end Reading

end ServerLib.Redis

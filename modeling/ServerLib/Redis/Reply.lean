import ServerLib.Redis.Unpack

/-! Replies, their bytes, and what `unpack_result` makes of them. -/

namespace ServerLib.Redis

open Lib Buffer

inductive LineKind
  | simple
  | error
  | integer
  | double
  | boolean
  | bigNumber

inductive BlobKind
  | bulk
  | error
  | verbatim

inductive NullForm
  | null
  | bulk
  | array
deriving DecidableEq

inductive Aggregate
  | array
  | set
  | push
  | map

/-- A reply of RESP2 or RESP3.  The items of a map and of attributes are keys and values in
turn. -/
inductive Reply
  | line (kind : LineKind) (text : Bytes)
  | blob (kind : BlobKind) (text : Bytes)
  | null (form : NullForm)
  | aggregate (kind : Aggregate) (items : List Reply)
  | attributed (items : List Reply) (reply : Reply)

def LineKind.type : LineKind → RespType
  | simple => .status
  | error => .error
  | integer => .int
  | double => .float
  | boolean => .bool
  | bigNumber => .bigInt

def BlobKind.type : BlobKind → RespType
  | bulk => .string
  | error => .blobError
  | verbatim => .verbatim

def NullForm.type : NullForm → RespType
  | null => .null
  | bulk => .string
  | array => .array

def Aggregate.type : Aggregate → RespType
  | array => .array
  | set => .set
  | push => .push
  | map => .map

/-- The number that stands before the items. -/
def Aggregate.count : Aggregate → List Reply → Nat
  | map, items => items.length / 2
  | _, items => items.length

namespace Reply

def type : Reply → RespType
  | line kind _ => kind.type
  | blob kind _ => kind.type
  | null form => form.type
  | aggregate kind _ => kind.type
  | attributed _ _ => .attr

mutual

def body : Reply → Bytes
  | line _ text => text ++ crlf
  | blob _ text => decimal text.length ++ crlf ++ (text ++ crlf)
  | null form => (if form = .null then [] else text "-1") ++ crlf
  | aggregate kind items => decimal (kind.count items) ++ crlf ++ wires items
  | attributed items reply =>
    decimal (items.length / 2) ++ crlf ++ (wires items ++ (reply.type.char :: reply.body))

def wires : List Reply → Bytes
  | [] => []
  | reply :: rest => (reply.type.char :: reply.body) ++ wires rest

end

def wire (reply : Reply) : Bytes := reply.type.char :: reply.body

mutual

/-- The lines are lines, and the items of maps and attributes are pairs. -/
def Framed : Reply → Prop
  | line _ text => OneLine text
  | blob _ _ => True
  | null _ => True
  | aggregate kind items => (kind = .map → items.length % 2 = 0) ∧ FramedAll items
  | attributed items reply => items.length % 2 = 0 ∧ FramedAll items ∧ reply.Framed

def FramedAll : List Reply → Prop
  | [] => True
  | reply :: rest => reply.Framed ∧ FramedAll rest

end

theorem framedAll_iff (replies : List Reply) :
    FramedAll replies ↔ ∀ reply ∈ replies, reply.Framed := by
  induction replies with
  | nil => simp [FramedAll]
  | cons reply rest ih => simp [FramedAll, ih]

end Reply

open Reply

abbrev Result (α : Type) := Outcome UInt8 Failure α

/-- The text stops the scan with a format error, and `unread` is left of it. -/
def malformed {α : Type} (unread : Bytes) : Result α := .stop (failure formatError) unread

/-- A failure that asks for more takes the reader back to the start of the reply. -/
def restored (wire : Bytes) (out : Result RedisValue) : Result RedisValue :=
  out.checkpoint asksMore (failure needMoreBytes) wire

def lineValue (converts : Bytes → Bool) (text : Bytes) : LineKind → Option RedisValue
  | .simple => some (statusValue text)
  | .error => some (.error text)
  | .integer => (parseRespInt64 text).map fun number => .int number []
  | .double => if converts text then some (.float text) else none
  | .boolean => if text = [] then none else some (.status (text.head? = some 't'.toUInt8) text)
  | .bigNumber => bigIntValue text

def lineOutcome (converts : Bytes → Bool) (kind : LineKind) (text : Bytes) : Result RedisValue :=
  match lineValue converts text kind with
  | none => malformed []
  | some value => .value value

def blobValue (text : Bytes) : BlobKind → RedisValue
  | .bulk => .string text []
  | .error => .error text
  | .verbatim => verbatimValue text

/-- The length must be an `int64_t`, and as an `int` it must not be negative. -/
def blobOutcome (kind : BlobKind) (text : Bytes) : Result RedisValue :=
  if 2 ^ 63 ≤ text.length then malformed (text ++ crlf)
  else if castInt text.length < 0 then .stop (failure (castInt text.length)) crlf
  else .value (blobValue text kind)

/-- An array of no length is not taken for a map. -/
def nullOutcome (toMap : Bool) (form : NullForm) : Result RedisValue :=
  if toMap ∧ form = .array then malformed [] else .value .null

def entryOutcome (res : List (Bytes × RedisValue)) (key value : RedisValue) :
    Result (List (Bytes × RedisValue)) :=
  match key with
  | .string key _ =>
    if res.any fun entry => entry.1 == key then malformed [] else .value (res ++ [(key, value)])
  | _ => malformed []

section Outcomes

variable (converts : Bytes → Bool)

mutual

def bodyOutcome (toMap : Bool) : Reply → Result RedisValue
  | .line kind text => lineOutcome converts kind text
  | .blob kind text => blobOutcome kind text
  | .null form => nullOutcome toMap form
  | .aggregate .map items =>
    if items.length / 2 < 2 ^ 63 then (pairsOutcome items []).map .map else malformed (wires items)
  | .aggregate .array items =>
    if toMap then
      if items.length < 2 ^ 63 ∧ items.length % 2 = 0 then (pairsOutcome items []).map .map
      else malformed (wires items)
    else
      if items.length < 2 ^ 31 then (itemsOutcome toMap items).map .array
      else malformed (wires items)
  | .aggregate .set items =>
    if items.length < 2 ^ 31 then (itemsOutcome toMap items).map .array
    else malformed (wires items)
  | .aggregate .push items =>
    if items.length < 2 ^ 31 then (itemsOutcome toMap items).map .array
    else malformed (wires items)
  | .attributed items reply =>
    if items.length / 2 ≤ (2 ^ 63 - 1) / 2 then
      (itemsOutcome false items).andThen reply.wire fun _ =>
        restored reply.wire (bodyOutcome toMap reply)
    else malformed (wires items ++ reply.wire)

def itemsOutcome (toMap : Bool) : List Reply → Result (List RedisValue)
  | [] => .value []
  | reply :: rest =>
    ((restored reply.wire (bodyOutcome toMap reply)).mapFailure dropResult).andThen (wires rest)
      fun value => (itemsOutcome toMap rest).map (value :: ·)

def pairsOutcome : List Reply → List (Bytes × RedisValue) → Result (List (Bytes × RedisValue))
  | key :: value :: rest, res =>
    if key.type = .string then
      ((restored key.wire (bodyOutcome false key)).mapFailure dropResult).andThen
        (value.wire ++ wires rest) fun key =>
          ((restored value.wire (bodyOutcome false value)).mapFailure dropResult).andThen
            (wires rest) fun value =>
              (entryOutcome res key value).andThen (wires rest) fun res => pairsOutcome rest res
    else malformed (key.wire ++ (value.wire ++ wires rest))
  | _, res => .value res

end

def outcome (toMap : Bool) (reply : Reply) : Result RedisValue :=
  restored reply.wire (bodyOutcome converts toMap reply)

end Outcomes

end ServerLib.Redis

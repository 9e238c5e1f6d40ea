import ServerLib.Lib.Delimiter
import ServerLib.Lib.Reader

/-! Messages of the domain name system: how a packet is written and how it is read. -/

namespace ServerLib.Dns

open Lib

abbrev Bytes := List UInt8

/-! ### Types

An `enum class` with an underlying type has all values of that type, named or not. -/

structure DnsType where
  code : UInt16
deriving DecidableEq

structure DnsClass where
  code : UInt16
deriving DecidableEq

structure DnsOpcode where
  code : UInt8
deriving DecidableEq

structure DnsResponseCode where
  code : UInt8
deriving DecidableEq

structure DnsQuestion where
  name : Bytes
  type : DnsType
  class_ : DnsClass
deriving DecidableEq

structure DnsResourceRecord where
  name : Bytes
  type : DnsType
  class_ : DnsClass
  ttl : UInt32
  rdata : Bytes
deriving DecidableEq

structure DnsPacket where
  sessionId : UInt16 := 0
  isResponse : Bool := false
  opcode : DnsOpcode := ⟨0⟩
  authoritativeAnswer : Bool := false
  truncated : Bool := false
  recursionDesired : Bool := false
  recursionAvailable : Bool := false
  responseCode : DnsResponseCode := ⟨0⟩
  questions : List DnsQuestion := []
  answers : List DnsResourceRecord := []
  authorities : List DnsResourceRecord := []
  additionals : List DnsResourceRecord := []
deriving DecidableEq

def dot : UInt8 := '.'.toUInt8

/-- A label with its length, which is cut to eight bits. -/
def encodeLabel (label : Bytes) : Bytes := UInt8.ofNat label.length :: label

/-- The loop of `encode_name` on what is left of the name.  Every turn takes a byte of it at
least. -/
def encodeLoop : Nat → Bytes → Bytes
  | 0, _ => []
  | limit + 1, rest =>
    if rest = [] then []
    else
      let label := rest.takeWhile (· ≠ dot)
      encodeLabel label ++ encodeLoop limit (rest.drop (label.length + 1))

def encodeName (name : Bytes) : Bytes := encodeLoop name.length name ++ [0]

def DnsQuestion.serialize (question : DnsQuestion) : Bytes :=
  encodeName question.name ++ (writeU16 question.type.code ++ writeU16 question.class_.code)

/-- The length of the data is cut to sixteen bits. -/
def DnsResourceRecord.serialize (record : DnsResourceRecord) : Bytes :=
  encodeName record.name ++ (writeU16 record.type.code ++ (writeU16 record.class_.code ++
    (writeU32 record.ttl ++ writeBlock record.rdata)))

def DnsPacket.flags (packet : DnsPacket) : UInt16 :=
  UInt16.ofNat (packet.isResponse.toNat * 2 ^ 15 + packet.opcode.code.toNat % 2 ^ 4 * 2 ^ 11 +
    packet.authoritativeAnswer.toNat * 2 ^ 10 + packet.truncated.toNat * 2 ^ 9 +
    packet.recursionDesired.toNat * 2 ^ 8 + packet.recursionAvailable.toNat * 2 ^ 7 +
    packet.responseCode.code.toNat % 2 ^ 4)

def DnsPacket.headerBytes (packet : DnsPacket) : Bytes :=
  writeU16 packet.sessionId ++ (writeU16 packet.flags ++
    (writeU16 (UInt16.ofNat packet.questions.length) ++
      (writeU16 (UInt16.ofNat packet.answers.length) ++
        (writeU16 (UInt16.ofNat packet.authorities.length) ++
          writeU16 (UInt16.ofNat packet.additionals.length)))))

def DnsPacket.serialize (packet : DnsPacket) : Bytes :=
  packet.headerBytes ++ (packet.questions.flatMap DnsQuestion.serialize ++
    (packet.answers.flatMap DnsResourceRecord.serialize ++
      (packet.authorities.flatMap DnsResourceRecord.serialize ++
        packet.additionals.flatMap DnsResourceRecord.serialize)))

/-- The two upper bits of a byte. -/
def labelType (byte : UInt8) : Nat := byte.toNat / 2 ^ 6

def pointerOffset (byte low : UInt8) : Nat := byte.toNat % 2 ^ 6 * 2 ^ 8 + low.toNat

/-- The name with one more label. -/
def joinLabel (name label : Bytes) : Bytes := (if name = [] then [] else name ++ [dot]) ++ label

/-- The variables of `decode_name`. -/
structure Cursor where
  current : Nat
  nextPos : Nat
  advanced : Bool := false
  visited : List Nat := []
  jumps : Nat := 0
  name : Bytes := []

namespace Cursor

variable (c : Cursor)

def visit : Cursor := { c with visited := c.current :: c.visited }

/-- The place after the end of the name in the text, once it is found. -/
def advance (next : Nat) : Cursor :=
  if c.advanced then c else { c with nextPos := next, advanced := true }

def jump (offset : Nat) : Cursor :=
  { c.advance (c.current + 2) with current := offset, jumps := c.jumps + 1 }

def addLabel (label : Bytes) : Cursor :=
  let next := c.current + 1 + label.length
  { c with
    name := joinLabel c.name label
    current := next
    nextPos := if c.advanced then c.nextPos else next }

end Cursor

/-- The loop of `decode_name`.  No place is visited twice, so `limit` need not be above the size of
the data and one. -/
def decodeLoop (data : Bytes) : Nat → Cursor → Option (Bytes × Nat)
  | 0, _ => none
  | limit + 1, c =>
    match data[c.current]? with
    | none => if c.advanced then some (c.name, c.nextPos) else none
    | some byte =>
      if c.current ∈ c.visited then none
      else if byte = 0 then
        some (c.name, (c.advance (c.current + 1)).nextPos)
      else if labelType byte = 3 then
        match data[c.current + 1]? with
        | none => none
        | some low =>
          let offset := pointerOffset byte low
          if data.length ≤ offset then none
          else if data.length < c.jumps + 1 then none
          else decodeLoop data limit (c.visit.jump offset)
      else if labelType byte ≠ 0 then none
      else if byte.toNat = 0 ∨ 63 < byte.toNat then none
      else if data.length < c.current + 1 + byte.toNat then none
      else
        decodeLoop data limit
          (c.visit.addLabel ((data.drop (c.current + 1)).take byte.toNat))

/-- The name at `pos`, and the place after it. -/
def decodeName (data : Bytes) (pos : Nat) : Option (Bytes × Nat) :=
  if data.length ≤ pos then none
  else decodeLoop data (data.length + 1) { current := pos, nextPos := pos }

/-- A name is read from the bytes that are left, as if they were all. -/
def readName : Reader Bytes := fun buffer =>
  (decodeName buffer 0).map fun (name, pos) => (name, buffer.drop pos)

def DnsQuestion.deserialize : Reader DnsQuestion := do
  let name ← readName
  let type ← readU16
  let class_ ← readU16
  return { name, type := ⟨type⟩, class_ := ⟨class_⟩ }

def DnsResourceRecord.deserialize : Reader DnsResourceRecord := do
  let name ← readName
  let type ← readU16
  let class_ ← readU16
  let ttl ← readU32
  let rdata ← readBlock
  return { name, type := ⟨type⟩, class_ := ⟨class_⟩, ttl, rdata }

structure Counts where
  qdcount : UInt16
  ancount : UInt16
  nscount : UInt16
  arcount : UInt16

def flag (flags : UInt16) (bit : Nat) : Bool := flags.toNat / 2 ^ bit % 2 = 1

/-- A packet with the fields of the header, and how many entries follow. -/
def readHeader : Reader (DnsPacket × Counts) := do
  let sessionId ← readU16
  let flags ← readU16
  let qdcount ← readU16
  let ancount ← readU16
  let nscount ← readU16
  let arcount ← readU16
  return ({
    sessionId
    isResponse := flag flags 15
    opcode := ⟨UInt8.ofNat (flags.toNat / 2 ^ 11 % 2 ^ 4)⟩
    authoritativeAnswer := flag flags 10
    truncated := flag flags 9
    recursionDesired := flag flags 8
    recursionAvailable := flag flags 7
    responseCode := ⟨UInt8.ofNat (flags.toNat % 2 ^ 4)⟩ },
    { qdcount, ancount, nscount, arcount })

def DnsPacket.deserialize : Reader DnsPacket := do
  let (packet, counts) ← readHeader
  let questions ← readMany DnsQuestion.deserialize counts.qdcount.toNat
  let answers ← readMany DnsResourceRecord.deserialize counts.ancount.toNat
  let authorities ← readMany DnsResourceRecord.deserialize counts.nscount.toNat
  let additionals ← readMany DnsResourceRecord.deserialize counts.arcount.toNat
  return { packet with questions, answers, authorities, additionals }

end ServerLib.Dns

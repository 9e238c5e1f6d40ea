import ServerLib.Http2.HpackTable
import ServerLib.Http2.Huffman

/-! The HPACK encoder and decoder of `hpack_encoder.cpp` and `hpack_decoder.cpp`.  A function that
appends to `out` returns the bytes that it appends.  A function that reads from `block` at an
offset takes the bytes from there on, and returns those that it leaves. -/

namespace ServerLib.Http2

open Lib

/-- The loop of `append_prefixed_integer`.  The first argument bounds the number of turns, and the
value itself is always enough. -/
def continuationBytes : Nat → Nat → List UInt8
  | 0, value => [UInt8.ofNat value]
  | n + 1, value =>
    if 128 ≤ value then UInt8.ofNat (value % 128 + 128) :: continuationBytes n (value / 128)
    else [UInt8.ofNat value]

def appendPrefixedInteger (prefixBits prefixPattern value : Nat) : List UInt8 :=
  let prefixMax := 2 ^ prefixBits - 1
  if value < prefixMax then [UInt8.ofNat (prefixPattern ||| value)]
  else UInt8.ofNat (prefixPattern ||| prefixMax) :: continuationBytes value (value - prefixMax)

/-- The loop of `decode_prefixed_integer`. -/
def decodeContinuation (out shift : Nat) : List UInt8 → Option (Nat × List UInt8)
  | [] => none
  | b :: rest =>
    let out := out + ((b.toNat &&& 0x7f) <<< shift)
    if b.toNat &&& 0x80 = 0 then some (out, rest)
    else if shift + 7 > 28 then none
    else decodeContinuation out (shift + 7) rest

def decodePrefixedInteger (first : UInt8) (prefixBits : Nat) (rest : List UInt8) :
    Option (Nat × List UInt8) :=
  let prefixMax := 2 ^ prefixBits - 1
  let out := first.toNat &&& prefixMax
  if out < prefixMax then some (out, rest) else decodeContinuation out 0 rest

def appendPlainString (value : List UInt8) : List UInt8 :=
  appendPrefixedInteger 7 0x00 value.length ++ value

def appendString (value : List UInt8) : List UInt8 :=
  if value.length < 6 then appendPlainString value
  else
    let huffed := huffmanEncode value
    if huffed.length < value.length then appendPrefixedInteger 7 0x80 huffed.length ++ huffed
    else appendPlainString value

def decodeStringLiteral : List UInt8 → Option (List UInt8 × List UInt8)
  | [] => none
  | first :: rest => do
    let (length, rest) ← decodePrefixedInteger first 7 rest
    if length > rest.length then none
    else if first.toNat &&& 0x80 ≠ 0 then do
      let out ← huffmanDecode (rest.take length)
      return (out, rest.drop length)
    else return (rest.take length, rest.drop length)

structure HpackEncoder where
  table : DynamicTable

namespace HpackEncoder

def new (maxTableSize : Nat) : HpackEncoder := ⟨DynamicTable.empty maxTableSize⟩

def setMaxTableSize (enc : HpackEncoder) (size : Nat) : HpackEncoder :=
  ⟨enc.table.setMaxTableSize size⟩

/-- The index of the first entry that `p` holds of, with `base` for the first of all, or 0. -/
def findIndex {α : Type} (p : α → Bool) (base : Nat) (entries : List α) : Nat :=
  ((entries.findIdx? p).map (base + ·)).getD 0

variable (name : List UInt8) (value : List UInt8) (enc : HpackEncoder)

def findStaticTableIndex : Nat :=
  findIndex (fun e => strEqCaseInsensitive name e.name && value == e.value && !e.value.isEmpty) 1
    kStaticTable

def findStaticTableNameIndex : Nat :=
  findIndex (fun e => strEqCaseInsensitive name e.name) 1 kStaticTable

def findDynamicTableIndex (name value : List UInt8) : Nat :=
  findIndex (fun e => strEqCaseInsensitive name e.name && value == e.value) (kStaticTableSize + 1)
    enc.table.entries

def findDynamicTableNameIndex (name : List UInt8) : Nat :=
  findIndex (fun e => strEqCaseInsensitive name e.name) (kStaticTableSize + 1) enc.table.entries

def appendIndexed (index : Nat) : List UInt8 := appendPrefixedInteger 7 0x80 index

def appendLiteralWithoutIndexing (nameIndex : Nat) (value : List UInt8) : List UInt8 :=
  appendPrefixedInteger 4 0x00 nameIndex ++ appendString value

def appendLiteralWithIndexing (nameIndex : Nat) (value : List UInt8) : List UInt8 :=
  appendPrefixedInteger 6 0x40 nameIndex ++ appendString value

def appendLiteralWithIndexingName : List UInt8 :=
  0x40 :: (appendString name ++ appendString value)

def appendLiteralWithName : List UInt8 :=
  0x00 :: (appendString name ++ appendString value)

def encodeHeader (name value : List UInt8) : List UInt8 × HpackEncoder :=
  let staticFull := findStaticTableIndex name value
  if staticFull ≠ 0 then (appendIndexed staticFull, enc)
  else
    let dynamicFull := enc.findDynamicTableIndex name value
    if dynamicFull ≠ 0 then (appendIndexed dynamicFull, enc)
    else if name.length + value.length + 32 ≤ enc.table.maxTableSize then
      let staticName := findStaticTableNameIndex name
      let out :=
        if staticName ≠ 0 then appendLiteralWithIndexing staticName value
        else
          let dynamicName := enc.findDynamicTableNameIndex name
          if dynamicName ≠ 0 then appendLiteralWithIndexing dynamicName value
          else appendLiteralWithIndexingName name value
      (out, ⟨enc.table.addToDynamicTable name value⟩)
    else
      let nameIndex := findStaticTableNameIndex name
      if nameIndex ≠ 0 then (appendLiteralWithoutIndexing nameIndex value, enc)
      else (appendLiteralWithName name value, enc)

/-- The block of a header list, by one call of `encode_header` for each header. -/
def encodeHeaders (enc : HpackEncoder) : List HpackHeaderField → List UInt8 × HpackEncoder
  | [] => ([], enc)
  | h :: headers =>
    let first := enc.encodeHeader h.name h.value
    let rest := first.2.encodeHeaders headers
    (first.1 ++ rest.1, rest.2)

end HpackEncoder

structure HpackDecoder where
  table : DynamicTable

namespace HpackDecoder

def new (maxTableSize : Nat) : HpackDecoder := ⟨DynamicTable.empty maxTableSize⟩

def setMaxTableSize (dec : HpackDecoder) (size : Nat) : HpackDecoder :=
  ⟨dec.table.setMaxTableSize size⟩

variable (dec : HpackDecoder)

def lookupIndex (index : Nat) : Option HpackHeaderField :=
  if index = 0 then none
  else if index ≤ kStaticTableSize then kStaticTable[index - 1]?
  else (dec.table.entries[index - kStaticTableSize - 1]?).map fun e => ⟨e.name, e.value⟩

/-- The name of a literal: a string, or the name of an entry. -/
def decodeName (first : UInt8) (prefixBits : Nat) (rest : List UInt8) :
    Option (List UInt8 × List UInt8) :=
  if first.toNat &&& (2 ^ prefixBits - 1) = 0 then decodeStringLiteral rest
  else do
    let (nameIndex, rest) ← decodePrefixedInteger first prefixBits rest
    let entry ← dec.lookupIndex nameIndex
    return (entry.name, rest)

/-- One turn of the loop of `decode`: the header that it adds, if any, the bytes that are left, and
the decoder after it. -/
def decodeField (first : UInt8) (rest : List UInt8) :
    Option (Option HpackHeaderField × List UInt8 × HpackDecoder) :=
  if first.toNat &&& 0x80 ≠ 0 then do
    let (index, rest) ← decodePrefixedInteger first 7 rest
    let entry ← dec.lookupIndex index
    return (some entry, rest, dec)
  else if first.toNat &&& 0xC0 = 0x40 then do
    let (name, rest) ← dec.decodeName first 6 rest
    let (value, rest) ← decodeStringLiteral rest
    return (some ⟨name, value⟩, rest, ⟨dec.table.addToDynamicTable name value⟩)
  else if first.toNat &&& 0xF0 = 0x00 ∨ first.toNat &&& 0xF0 = 0x10 then do
    let (name, rest) ← dec.decodeName first 4 rest
    let (value, rest) ← decodeStringLiteral rest
    return (some ⟨name, value⟩, rest, dec)
  else if first.toNat &&& 0xE0 = 0x20 then do
    let (newMaxSize, rest) ← decodePrefixedInteger first 5 rest
    return (none, rest, dec.setMaxTableSize newMaxSize)
  else none

/-- The loop of `decode`.  Each turn reads a byte, so the length of the block bounds the number of
turns.  The table keeps what was added before a failure. -/
def decodeFields : Nat → HpackDecoder → List UInt8 → Option (List HpackHeaderField) × HpackDecoder
  | _, dec, [] => (some [], dec)
  | 0, dec, _ :: _ => (none, dec)
  | n + 1, dec, first :: rest =>
    match dec.decodeField first rest with
    | none => (none, dec)
    | some (header, rest, dec') =>
      let later := decodeFields n dec' rest
      (later.1.map (header.toList ++ ·), later.2)

def decode (block : List UInt8) : Option (List HpackHeaderField) × HpackDecoder :=
  dec.decodeFields block.length block

end HpackDecoder

end ServerLib.Http2

import Mathlib.Data.List.Sort
import ServerLib.Lib.Decimal

/-!
Bencoding: the converter between value trees and text.  The parser is given two pointers, `begin`
and `end`.  Here it is given the memory from `begin` on, the bytes after `end` included, and the
distance from `begin` to `end`; a list or a dictionary reads the byte at `end` too.
-/

namespace ServerLib.BitTorrent

open Lib

abbrev Bytes := List UInt8

inductive BaseData
  | integer (data : Int64)
  | string (data : Bytes)
  | list (datas : List BaseData)
  | dictionary (datas : List (Bytes × BaseData))

namespace BaseData

def getVal (datas : List (Bytes × BaseData)) (k : Bytes) : Option BaseData :=
  (datas.find? fun entry => entry.1 == k).map Prod.snd

def add (datas : List (Bytes × BaseData)) (key : Bytes) (val : BaseData) :
    List (Bytes × BaseData) :=
  if datas.any fun entry => entry.1 == key then
    datas.map fun entry => if entry.1 == key then (key, val) else entry
  else datas ++ [(key, val)]

mutual

/-- No dictionary in the tree has two entries for one key. -/
def Distinct : BaseData → Prop
  | integer _ => True
  | string _ => True
  | list datas => DistinctItems datas
  | dictionary datas => (datas.map Prod.fst).Nodup ∧ DistinctEntries datas

def DistinctItems : List BaseData → Prop
  | [] => True
  | item :: rest => item.Distinct ∧ DistinctItems rest

def DistinctEntries : List (Bytes × BaseData) → Prop
  | [] => True
  | (_, val) :: rest => val.Distinct ∧ DistinctEntries rest

end

mutual

/-- Equal trees.  A dictionary has no order: it has the same keys with equal values. -/
def Same : BaseData → BaseData → Prop
  | integer a, integer b => a = b
  | string a, string b => a = b
  | list as, list bs => SameItems as bs
  | dictionary as, dictionary bs => as.length = bs.length ∧ SameEntries as bs
  | _, _ => False

def SameItems : List BaseData → List BaseData → Prop
  | [], [] => True
  | a :: as, b :: bs => Same a b ∧ SameItems as bs
  | _, _ => False

def SameEntries : List (Bytes × BaseData) → List (Bytes × BaseData) → Prop
  | [], _ => True
  | (key, a) :: as, bs => (∃ b, getVal bs key = some b ∧ Same a b) ∧ SameEntries as bs

end

end BaseData

namespace BencodingDataConverter

open BaseData

def encodeString (s : Bytes) : Bytes := decimal s.length ++ ':'.toUInt8 :: s

/-- The order of the entries: their keys are compared byte by byte. -/
def keyLe {α : Type} (a b : Bytes × α) : Prop := ¬ b.1 < a.1

instance {α : Type} : DecidableRel (keyLe (α := α)) :=
  fun a b => inferInstanceAs (Decidable (¬ b.1 < a.1))

mutual

def doEncode : BaseData → Bytes
  | .integer data => 'i'.toUInt8 :: (signedDecimal data.toInt ++ ['e'.toUInt8])
  | .string data => encodeString data
  | .list datas => 'l'.toUInt8 :: (encodeItems datas ++ ['e'.toUInt8])
  | .dictionary datas =>
    'd'.toUInt8 :: (((encodeEntries datas).insertionSort keyLe).flatMap
      (fun entry => encodeString entry.1 ++ entry.2) ++ ['e'.toUInt8])

def encodeItems : List BaseData → Bytes
  | [] => []
  | item :: rest => doEncode item ++ encodeItems rest

def encodeEntries : List (Bytes × BaseData) → List (Bytes × Bytes)
  | [] => []
  | (key, val) :: rest => (key, doEncode val) :: encodeEntries rest

end

def encode (data : BaseData) : Bytes := doEncode data

def castInt (n : Int) : Int := n.bmod (2 ^ 32)

def failed : Int × Option BaseData := (-1, none)

/-- A number that `strtoll` or `strtoull` reads up to the end of a string.  Without digits the
number is 0 and nothing is read. -/
def converted (inRange : Int → Bool) (str : Bytes) : Option Int :=
  match readDecimal str with
  | none => if str.headD 0 = 0 then some 0 else none
  | some (value, rest) => if inRange value ∧ rest.headD 0 = 0 then some value else none

def strtoll (str : Bytes) : Option Int :=
  converted (fun value => -2 ^ 63 ≤ value ∧ value < 2 ^ 63) str

/-- A negative number is taken modulo `2 ^ 64`. -/
def strtoull (str : Bytes) : Option Nat :=
  (converted (fun value => value.natAbs < 2 ^ 64) str).map fun value => (value % 2 ^ 64).toNat

def parseInteger (mem : Bytes) (left : Int) : Int × Option BaseData :=
  let str := (mem.take left.toNat).takeWhile (· ≠ 'e'.toUInt8)
  if str = [] ∨ left ≤ str.length then failed
  else
    match strtoll str with
    | none => failed
    | some value => (castInt (str.length + 2), some (.integer (Int64.ofInt value)))

def parseString (mem : Bytes) (left : Int) : Int × Option BaseData :=
  let str := (mem.take left.toNat).takeWhile (· ≠ ':'.toUInt8)
  -- the colon is skipped, but may be missing
  let p := if str.length < left.toNat then str.length + 1 else str.length
  if str = [] then failed
  else
    match strtoull str with
    | none => failed
    | some len =>
      if left - p < len then failed
      else if (p : Int) + len > 2 ^ 31 - 1 then failed
      else (castInt (p + len), some (.string ((mem.drop p).take len)))

mutual

/-- `fuel` bounds the nesting and the turns of the loops. -/
def doParse : Nat → Bytes → Int → Int × Option BaseData
  | 0, _, _ => failed
  | fuel + 1, mem, left =>
    let ch := mem.headD 0
    if isDigit ch then parseString mem left
    else if ch = 'i'.toUInt8 then parseInteger mem.tail (left - 1)
    else if ch = 'l'.toUInt8 then
      match parseList fuel mem.tail (left - 1) [] with
      | none => failed
      | some (length, datas) => (castInt (length + 2), some (.list datas))
    else if ch = 'd'.toUInt8 then
      match parseDictionary fuel mem.tail (left - 1) [] with
      | none => failed
      | some (length, datas) => (castInt (length + 2), some (.dictionary datas))
    else failed

/-- The loop of `parse_list`: the way `p` goes from here, and the list. -/
def parseList : Nat → Bytes → Int → List BaseData → Option (Int × List BaseData)
  | 0, _, _, _ => none
  | fuel + 1, mem, left, datas =>
    if left < 0 ∨ mem.headD 0 = 'e'.toUInt8 then some (0, datas)
    else
      match doParse fuel mem left with
      | (_, none) => none
      | (first, some item) =>
        if first < 0 then none
        else
          (parseList fuel (mem.drop first.toNat) (left - first) (datas ++ [item])).map
            fun (length, datas) => (first + length, datas)

def parseDictionary : Nat → Bytes → Int → List (Bytes × BaseData) →
    Option (Int × List (Bytes × BaseData))
  | 0, _, _, _ => none
  | fuel + 1, mem, left, datas =>
    if left < 0 ∨ mem.headD 0 = 'e'.toUInt8 then some (0, datas)
    else
      match doParse fuel mem left with
      | (first, some (.string key)) =>
        if first < 0 then none
        else
          match doParse fuel (mem.drop first.toNat) (left - first) with
          | (_, none) => none
          | (second, some val) =>
            if second < 0 then none
            else
              (parseDictionary fuel ((mem.drop first.toNat).drop second.toNat)
                (left - first - second) (add datas key val)).map
                fun (length, datas) => (first + second + length, datas)
      | _ => none

end

/-- `parse(begin, end)`, with the text between the pointers and the memory after it. -/
def parse (text after : Bytes) : Option BaseData :=
  (doParse (text.length + 1) (text ++ after) text.length).2

def parseDatasFrom : Nat → Bytes → Int → List BaseData
  | 0, _, _ => []
  | fuel + 1, mem, left =>
    match doParse (mem.length + 1) mem left with
    | (_, none) => []
    | (first, some data) =>
      if first < 0 then []
      else data :: parseDatasFrom fuel (mem.drop first.toNat) (left - first)

def parseDatas (text after : Bytes) : List BaseData :=
  parseDatasFrom ((text ++ after).length + 1) (text ++ after) text.length

end BencodingDataConverter

end ServerLib.BitTorrent

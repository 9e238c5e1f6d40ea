import Mathlib.Data.List.Basic
import Mathlib.Data.Nat.Basic

/-! The target of a request and its parameters.  A target is percent-decoded as a whole when it is
parsed. -/

namespace ServerLib.Http1

open List

abbrev Bytes := List UInt8

def text (s : String) : Bytes := s.toList.map Char.toUInt8

def slash : UInt8 := '/'.toUInt8

def question : UInt8 := '?'.toUInt8

def percent : UInt8 := '%'.toUInt8

def hexVal (ch : UInt8) : Option Nat :=
  if '0'.toUInt8 ≤ ch ∧ ch ≤ '9'.toUInt8 then some (ch.toNat - '0'.toNat)
  else if 'a'.toUInt8 ≤ ch ∧ ch ≤ 'f'.toUInt8 then some (ch.toNat - 'a'.toNat + 10)
  else if 'A'.toUInt8 ≤ ch ∧ ch ≤ 'F'.toUInt8 then some (ch.toNat - 'A'.toNat + 10)
  else none

/-- The byte that three bytes stand for. -/
def escaped (c hi lo : UInt8) : Option UInt8 :=
  if c = percent then
    match hexVal hi, hexVal lo with
    | some hi, some lo => some (UInt8.ofNat (16 * hi + lo))
    | _, _ => none
  else none

def unescaped (isQueryString : Bool) (c : UInt8) : UInt8 :=
  if isQueryString ∧ c = '+'.toUInt8 then ' '.toUInt8 else c

def urlDecode (isQueryString : Bool) : Bytes → Bytes
  | c :: hi :: lo :: rest =>
    match escaped c hi lo with
    | some byte => byte :: urlDecode isQueryString rest
    | none => unescaped isQueryString c :: urlDecode isQueryString (hi :: lo :: rest)
  | c :: rest => unescaped isQueryString c :: urlDecode isQueryString rest
  | [] => []

/-- The parameters in the text after a question mark, up to the first part without a key. -/
def decodeParameters (url : Bytes) : List (Bytes × Bytes) :=
  (((url.dropWhile (· ≠ question)).tail.splitOn '&'.toUInt8).takeWhile fun part =>
    '='.toUInt8 ∈ part ∧ part.head? ≠ some '='.toUInt8).map fun part =>
      (urlDecode true (part.takeWhile (· ≠ '='.toUInt8)),
        urlDecode true (part.dropWhile (· ≠ '='.toUInt8)).tail)

/-- The fields of a request that its target sets. -/
structure Target where
  url : Bytes
  queryPos : Option Nat
  params : List (Bytes × Bytes)
deriving DecidableEq

/-- `parse_url`, with the bytes from `readOffset` on.  The target ends at a space. -/
def parseUrl (maxHeaderLength readOffset : Nat) (data : Bytes) : Option Target :=
  let rawUrl := data.takeWhile (· ≠ ' '.toUInt8)
  if ' '.toUInt8 ∉ data ∨ rawUrl = [] then none
  else if readOffset + rawUrl.length > maxHeaderLength then none
  else
    let needsDecode := percent ∈ rawUrl
    let queryPos := rawUrl.findIdx? (· == question)
    let url := if needsDecode then urlDecode false rawUrl else rawUrl
    if url = [] ∨ (url.head? ≠ some slash ∧ slash ∉ url) then none
    else
      some
        { url
          queryPos := if needsDecode ∧ queryPos ≠ none then url.findIdx? (· == question)
            else queryPos
          params := match queryPos with
            | none => []
            | some pos => decodeParameters (rawUrl.drop pos) }

end ServerLib.Http1

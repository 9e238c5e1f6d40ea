import Mathlib.Data.List.Induction
import ServerLib.Lib.Run
import ServerLib.Http1.Url

/-!
The header lines of a packet.  A line with one of eight well-known keys goes to a slot of its own,
every other line to a map.  Keys are compared without regard to case, and of several lines with
the same key only the last one is kept.
-/

namespace ServerLib.Http1

open Lib List Function

def asciiLower (ch : UInt8) : UInt8 :=
  if 'A'.toUInt8 ≤ ch ∧ ch ≤ 'Z'.toUInt8 then ch + ('a'.toUInt8 - 'A'.toUInt8) else ch

def lowered (t : Bytes) : Bytes := t.map asciiLower

def headerKeyEqualsCi (lhs rhs : Bytes) : Bool := lowered lhs = lowered rhs

inductive Slot where
  | host | connection | contentLength | contentType | transferEncoding | accept | acceptEncoding
  | userAgent
deriving DecidableEq

namespace Slot

def name : Slot → Bytes
  | host => text "host"
  | connection => text "connection"
  | contentLength => text "content-length"
  | contentType => text "content-type"
  | transferEncoding => text "transfer-encoding"
  | accept => text "accept"
  | acceptEncoding => text "accept-encoding"
  | userAgent => text "user-agent"

def all : List Slot :=
  [host, connection, contentLength, contentType, transferEncoding, accept, acceptEncoding,
    userAgent]

def bodyRelated : Slot → Bool
  | contentLength | contentType | transferEncoding => true
  | _ => false

end Slot

def parsedHeaderSlot (key : Bytes) : Option Slot :=
  Slot.all.find? fun slot => headerKeyEqualsCi key slot.name

def equalsCiLiteral (key : Bytes) (slot : Slot) : Bool := lowered key = slot.name

/-- The slot of the key of a line.  A content type is looked for among the keys with 14
characters, which it does not have; so it is never found here and goes to the map. -/
def canonicalHeaderKey (key : Bytes) : Option Slot :=
  match key.length with
  | 4 => if equalsCiLiteral key .host then some .host else none
  | 6 => if equalsCiLiteral key .accept then some .accept else none
  | 10 =>
    if equalsCiLiteral key .connection then some .connection
    else if equalsCiLiteral key .userAgent then some .userAgent
    else none
  | 14 =>
    if equalsCiLiteral key .contentType then some .contentType
    else if equalsCiLiteral key .contentLength then some .contentLength
    else none
  | 15 => if equalsCiLiteral key .acceptEncoding then some .acceptEncoding else none
  | 17 => if equalsCiLiteral key .transferEncoding then some .transferEncoding else none
  | _ => none

structure Headers where
  /-- `parsed_header_values_` of the slots in `parsed_header_present_` -/
  parsed : Slot → Option Bytes
  /-- `headers_` -/
  map : List (Bytes × Bytes)
  bodyRelatedHeaderPresent : Bool

abbrev Line := Bytes × Bytes

namespace Headers

def empty : Headers :=
  { parsed := fun _ => none
    map := []
    bodyRelatedHeaderPresent := false }

section

variable (headers : Headers)

def getHeader (key : Bytes) : Option Bytes :=
  if key = [] then none
  else
    match (parsedHeaderSlot key).bind headers.parsed with
    | some value => some value
    | none => (headers.map.find? fun entry => headerKeyEqualsCi entry.1 key).map Prod.snd

def removeHeader (key : Bytes) : Headers :=
  if key = [] then headers
  else
    { headers with
      parsed := match parsedHeaderSlot key with
        | some slot => Function.update headers.parsed slot none
        | none => headers.parsed
      map := headers.map.filter fun entry => !headerKeyEqualsCi entry.1 key }

def addHeader (key value : Bytes) : Headers :=
  { headers.removeHeader key with
    map := (key, value) :: (headers.removeHeader key).map
    bodyRelatedHeaderPresent := headers.bodyRelatedHeaderPresent ||
      headerKeyEqualsCi key Slot.contentLength.name ||
      headerKeyEqualsCi key Slot.contentType.name ||
      headerKeyEqualsCi key Slot.transferEncoding.name }

def addParsedHeader (slot : Slot) (value : Bytes) : Headers :=
  { headers with
    parsed := Function.update headers.parsed slot (some value)
    bodyRelatedHeaderPresent := headers.bodyRelatedHeaderPresent || slot.bodyRelated }

end

def addLine (headers : Headers) (line : Line) : Headers :=
  match canonicalHeaderKey line.1 with
  | some slot => headers.addParsedHeader slot line.2
  | none => headers.addHeader (lowered line.1) line.2

end Headers

theorem asciiLower_asciiLower (ch : UInt8) : asciiLower (asciiLower ch) = asciiLower ch := by
  unfold asciiLower
  split
  · rename_i h
    rw [if_neg]
    intro h'
    have hch := UInt8.le_iff_toNat_le.mp h.1
    have hch' := UInt8.le_iff_toNat_le.mp h.2
    have hlow := UInt8.le_iff_toNat_le.mp h'.2
    rw [UInt8.toNat_add] at hlow
    change 65 ≤ ch.toNat at hch
    change ch.toNat ≤ 90 at hch'
    change (ch.toNat + 32) % 256 ≤ 90 at hlow
    omega
  · rfl

@[simp] theorem lowered_lowered (t : Bytes) : lowered (lowered t) = lowered t := by
  unfold lowered
  rw [map_map]
  exact map_congr_left fun ch _ => asciiLower_asciiLower ch

@[simp] theorem lowered_eq_nil : lowered t = [] ↔ t = [] := map_eq_nil_iff

@[simp] theorem lowered_name (slot : Slot) : lowered slot.name = slot.name := by
  cases slot <;> decide

variable {slot : Slot} {key : Bytes}

theorem name_injective (h : slot.name = slot'.name) : slot = slot' := by
  cases slot <;> cases slot' <;> first | rfl | exact absurd h (by decide)

theorem parsedHeaderSlot_eq_some : parsedHeaderSlot key = some slot ↔ lowered key = slot.name := by
  constructor
  · intro h
    have hfound := find?_some h
    rwa [headerKeyEqualsCi, decide_eq_true_eq, lowered_name] at hfound
  · intro h
    cases hfind : parsedHeaderSlot key with
    | none =>
      have hnone := find?_eq_none.mp hfind slot (by cases slot <;> decide)
      rw [headerKeyEqualsCi, decide_eq_true_eq, lowered_name] at hnone
      exact absurd h hnone
    | some slot' =>
      have hfound := find?_some hfind
      rw [headerKeyEqualsCi, decide_eq_true_eq, lowered_name] at hfound
      rw [name_injective (hfound.symm.trans h)]

theorem parsedHeaderSlot_congr (h : lowered key = lowered key') :
    parsedHeaderSlot key = parsedHeaderSlot key' := by
  rw [parsedHeaderSlot, parsedHeaderSlot]
  simp only [headerKeyEqualsCi, h]

/-- The well-known keys are found, except for the content type. -/
theorem canonicalHeaderKey_eq_some :
    canonicalHeaderKey key = some slot ↔ lowered key = slot.name ∧ slot ≠ .contentType := by
  have hlength : (lowered key).length = key.length := length_map _
  constructor
  · intro h
    unfold canonicalHeaderKey equalsCiLiteral at h
    split at h
    all_goals
      repeat' split at h
      all_goals cases h
    all_goals
      rename_i hkey _
      rename_i heq
      have hname := of_decide_eq_true heq
      first
      | exact ⟨hname, by decide⟩
      | rw [hname, hkey] at hlength
        exact absurd hlength (by decide)
  · rintro ⟨hname, hslot⟩
    have hkey : key.length = slot.name.length := by rw [← hlength, hname]
    unfold canonicalHeaderKey equalsCiLiteral
    rw [hkey, hname]
    cases slot <;> first | rfl | decide | exact absurd rfl hslot

namespace Headers

theorem getHeader_addParsedHeader (headers : Headers) (slot : Slot) (value key : Bytes) :
    (headers.addParsedHeader slot value).getHeader key =
      if lowered key = slot.name then some value else headers.getHeader key := by
  unfold getHeader addParsedHeader
  by_cases hkey : key = []
  · subst hkey
    rw [if_pos rfl, if_pos rfl, if_neg (by cases slot <;> decide)]
  rw [if_neg hkey, if_neg hkey]
  cases hslot : parsedHeaderSlot key with
  | none =>
    rw [if_neg fun h => by rw [parsedHeaderSlot_eq_some.mpr h] at hslot; cases hslot]
    rfl
  | some slot' =>
    have hname := parsedHeaderSlot_eq_some.mp hslot
    by_cases heq : slot' = slot
    · subst heq
      rw [if_pos hname, Option.bind_some]
      dsimp only
      rw [update_self]
    · rw [if_neg fun h => heq (name_injective (hname.symm.trans h)), Option.bind_some,
        Option.bind_some]
      dsimp only
      rw [update_of_ne heq]

theorem parsed_removeHeader {headers : Headers} (hkey : key ≠ []) :
    (parsedHeaderSlot other).bind (headers.removeHeader key).parsed =
      if lowered other = lowered key then none
      else (parsedHeaderSlot other).bind headers.parsed := by
  rw [removeHeader, if_neg hkey]
  cases hslot : parsedHeaderSlot other with
  | none => simp
  | some slot =>
    have hname := parsedHeaderSlot_eq_some.mp hslot
    rw [Option.bind_some, Option.bind_some]
    cases hslot' : parsedHeaderSlot key with
    | none =>
      rw [if_neg]
      intro h
      rw [parsedHeaderSlot_congr h.symm, hslot] at hslot'
      cases hslot'
    | some slot' =>
      have hname' := parsedHeaderSlot_eq_some.mp hslot'
      dsimp only
      by_cases heq : slot = slot'
      · subst heq
        rw [if_pos (hname.trans hname'.symm), update_self]
      · rw [update_of_ne heq, if_neg]
        intro h
        exact heq (name_injective (hname.symm.trans (h.trans hname')))

theorem getHeader_addHeader (headers : Headers) {key : Bytes} (hkey : key ≠ [])
    (value other : Bytes) :
    (headers.addHeader key value).getHeader other =
      if lowered other = lowered key then some value else headers.getHeader other := by
  unfold getHeader addHeader
  by_cases hother : other = []
  · subst hother
    rw [if_pos rfl, if_pos rfl, if_neg fun h => hkey (lowered_eq_nil.mp h.symm)]
  rw [if_neg hother, if_neg hother]
  rw [parsed_removeHeader hkey]
  by_cases heq : lowered other = lowered key
  · rw [if_pos heq, if_pos heq]
    simp only [find?_cons, headerKeyEqualsCi, heq, decide_true, Option.map_some]
  rw [if_neg heq, if_neg heq, removeHeader, if_neg hkey]
  have hfind : (((key, value) :: headers.map.filter
        fun entry => !headerKeyEqualsCi entry.1 key).find?
        fun entry => headerKeyEqualsCi entry.1 other) =
      headers.map.find? fun entry => headerKeyEqualsCi entry.1 other := by
    rw [find?_cons_of_neg (by simpa [headerKeyEqualsCi] using Ne.symm heq),
      find?_filter]
    congr 1
    funext entry
    by_cases hentry : lowered entry.1 = lowered other
    · simp [headerKeyEqualsCi, hentry, heq]
    · simp [headerKeyEqualsCi, hentry]
  rw [hfind]

theorem getHeader_addLine (headers : Headers) (hline : line.1 ≠ []) (key : Bytes) :
    (headers.addLine line).getHeader key =
      if lowered key = lowered line.1 then some line.2 else headers.getHeader key := by
  rw [addLine]
  cases hslot : canonicalHeaderKey line.1 with
  | none =>
    rw [getHeader_addHeader _ (mt lowered_eq_nil.mp hline), lowered_lowered]
  | some slot =>
    rw [getHeader_addParsedHeader, (canonicalHeaderKey_eq_some.mp hslot).1]

theorem bodyRelatedHeaderPresent_addLine (headers : Headers) (line : Line) :
    (headers.addLine line).bodyRelatedHeaderPresent =
      (headers.bodyRelatedHeaderPresent || (parsedHeaderSlot line.1).any Slot.bodyRelated) := by
  rw [addLine]
  cases hcanonical : canonicalHeaderKey line.1 with
  | some slot =>
    rw [parsedHeaderSlot_eq_some.mpr (canonicalHeaderKey_eq_some.mp hcanonical).1]
    rfl
  | none =>
    dsimp only [addHeader, headerKeyEqualsCi]
    rw [lowered_lowered, lowered_name, lowered_name, lowered_name, Bool.or_assoc, Bool.or_assoc]
    congr 1
    cases hslot : parsedHeaderSlot line.1 with
    | some slot =>
      rw [parsedHeaderSlot_eq_some.mp hslot]
      cases slot <;> decide
    | none =>
      have hne : ∀ slot : Slot, decide (lowered line.1 = slot.name) = false := by
        intro slot
        rw [decide_eq_false_iff_not]
        intro h
        rw [parsedHeaderSlot_eq_some.mpr h] at hslot
        cases hslot
      rw [hne, hne, hne]
      rfl

end Headers

def valuesOf (key : Bytes) (lines : List Line) : List Bytes :=
  (lines.filter fun line => headerKeyEqualsCi line.1 key).map Prod.snd

theorem valuesOf_append (key : Bytes) (lines lines' : List Line) :
    valuesOf key (lines ++ lines') = valuesOf key lines ++ valuesOf key lines' := by
  simp [valuesOf]

theorem valuesOf_singleton (key : Bytes) (line : Line) :
    valuesOf key [line] = if lowered key = lowered line.1 then [line.2] else [] := by
  by_cases h : lowered key = lowered line.1
  · simp [valuesOf, headerKeyEqualsCi, h]
  · simp [valuesOf, headerKeyEqualsCi, h, Ne.symm h]

namespace Headers

theorem getHeader_run (lines : List Line) (hlines : ∀ line ∈ lines, line.1 ≠ []) (key : Bytes) :
    (run addLine empty lines).getHeader key = (valuesOf key lines).getLast? := by
  induction lines using reverseRecOn with
  | nil =>
    rw [run_nil, getHeader]
    split
    · rfl
    · cases parsedHeaderSlot key <;> rfl
  | append_singleton lines line ih =>
    have hlast : line.1 ≠ [] := hlines line (by simp)
    have hinit : ∀ line ∈ lines, line.1 ≠ [] :=
      fun line h => hlines line (mem_append_left _ h)
    rw [run_append, run_cons, run_nil, getHeader_addLine _ hlast, ih hinit, valuesOf_append,
      valuesOf_singleton]
    split
    · rw [getLast?_append, getLast?_singleton, Option.some_or]
    · rw [append_nil]

theorem bodyRelatedHeaderPresent_run (lines : List Line) :
    (run addLine empty lines).bodyRelatedHeaderPresent = false ↔
      ∀ slot : Slot, slot.bodyRelated → valuesOf slot.name lines = [] := by
  induction lines using reverseRecOn with
  | nil => exact iff_of_true rfl fun _ _ => rfl
  | append_singleton lines line ih =>
    rw [run_append, run_cons, run_nil, bodyRelatedHeaderPresent_addLine, Bool.or_eq_false_iff, ih]
    constructor
    · rintro ⟨hlines, hline⟩ slot hslot
      rw [valuesOf_append, hlines slot hslot, valuesOf_singleton, if_neg, append_nil]
      intro h
      rw [lowered_name] at h
      rw [parsedHeaderSlot_eq_some.mpr h.symm] at hline
      exact absurd hslot (by simpa using hline)
    · intro h
      refine ⟨fun slot hslot => ?_, ?_⟩
      · have hslot' := h slot hslot
        rw [valuesOf_append, append_eq_nil_iff] at hslot'
        exact hslot'.1
      · cases hslot : parsedHeaderSlot line.1 with
        | none => rfl
        | some slot =>
          have hname := parsedHeaderSlot_eq_some.mp hslot
          rw [Option.any_some, Bool.eq_false_iff]
          intro hrelated
          have hslot' := h slot hrelated
          rw [valuesOf_append, valuesOf_singleton, lowered_name, if_pos hname.symm] at hslot'
          simp at hslot'

end Headers

end ServerLib.Http1

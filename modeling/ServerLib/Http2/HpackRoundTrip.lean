import Mathlib.Tactic.Ring
import ServerLib.Http2.Hpack

/-! Decoding undoes encoding.  Integers and strings are read back whatever follows them, a header is
read back by a decoder whose table covers that of the encoder, and so are whole sequences of header
lists. -/

namespace ServerLib.Http2

open Lib HpackEncoder HpackDecoder

theorem and_0x7f (n : Nat) : n &&& 0x7f = n % 128 := Nat.and_two_pow_sub_one_eq_mod n 7

theorem and_0x80_eq_zero : ∀ n < 256, (n &&& 0x80 = 0 ↔ n < 128) := by decide +kernel

variable {value rest' rest : List UInt8} {dec : HpackDecoder}

theorem toNat_ofNat_lt (h : n < 256) : (UInt8.ofNat n).toNat = n :=
  UInt8.toNat_ofNat_of_lt' h

theorem decodeContinuation_last (out shift : Nat) {value : Nat} (h : value < 128)
    (rest : List UInt8) :
    decodeContinuation out shift (UInt8.ofNat value :: rest) =
      some (out + value * 2 ^ shift, rest) := by
  rw [decodeContinuation, toNat_ofNat_lt (by omega),
    if_pos ((and_0x80_eq_zero value (by omega)).mpr h), and_0x7f, Nat.mod_eq_of_lt h,
    Nat.shiftLeft_eq]

theorem decodeContinuation_more (out shift value : Nat) (rest : List UInt8) :
    decodeContinuation out shift (UInt8.ofNat (value % 128 + 128) :: rest) =
      if shift + 7 > 28 then none
      else decodeContinuation (out + value % 128 * 2 ^ shift) (shift + 7) rest := by
  have hflag : ¬(value % 128 + 128) &&& 0x80 = 0 := by
    rw [and_0x80_eq_zero _ (by omega)]
    omega
  rw [decodeContinuation, toNat_ofNat_lt (by omega), if_neg hflag, and_0x7f, Nat.shiftLeft_eq,
    Nat.add_mod_right, Nat.mod_mod]

/-- The decoder reads up to `turns` continuation bytes, and these hold the numbers below
`128 ^ turns`. -/
theorem decodeContinuation_append (turns : Nat) {shift value : Nat}
    (hshift : shift + 7 * turns = 35) (hvalue : value < 128 ^ turns) (hn : value ≤ n) (out : Nat)
    (rest : List UInt8) :
    decodeContinuation out shift (continuationBytes n value ++ rest) =
      some (out + value * 2 ^ shift, rest) := by
  induction n generalizing value shift turns out with
  | zero => exact decodeContinuation_last out shift (by omega) rest
  | succ n ih =>
    rw [continuationBytes]
    split_ifs with hle
    · cases turns with
      | zero => omega
      | succ turns =>
        have hdiv : value / 128 < 128 ^ turns :=
          (Nat.div_lt_iff_lt_mul (by decide)).mpr (by rwa [← Nat.pow_succ])
        -- another byte follows, so this is not the last one that the decoder reads
        have hturns : turns ≠ 0 := by
          rintro rfl
          omega
        have hsum : value % 128 * 2 ^ shift + value / 128 * 2 ^ (shift + 7) =
            value * 2 ^ shift := by
          calc value % 128 * 2 ^ shift + value / 128 * 2 ^ (shift + 7)
              = (value % 128 + 128 * (value / 128)) * 2 ^ shift := by ring
            _ = value * 2 ^ shift := by rw [Nat.mod_add_div]
        rw [List.cons_append, decodeContinuation_more, if_neg (by omega),
          ih turns (by omega) hdiv (by omega), Nat.add_assoc, hsum]
    · exact decodeContinuation_last out shift (by omega) rest

theorem decodeContinuation_eq_none (turns : Nat) {shift value : Nat}
    (hshift : shift + 7 * turns = 35) (hvalue : 128 ^ turns ≤ value) (hn : value ≤ n)
    (hturns : turns ≠ 0) (out : Nat) (rest : List UInt8) :
    decodeContinuation out shift (continuationBytes n value ++ rest) = none := by
  induction n generalizing value shift turns out with
  | zero =>
    have := Nat.pow_pos (n := turns) (show 0 < 128 by decide)
    omega
  | succ n ih =>
    cases turns with
    | zero => contradiction
    | succ turns =>
      have hdiv : 128 ^ turns ≤ value / 128 :=
        (Nat.le_div_iff_mul_le (by decide)).mpr (by rwa [← Nat.pow_succ])
      have hone : 1 ≤ 128 ^ turns := Nat.pow_pos (by decide)
      rw [continuationBytes, if_pos (by omega), List.cons_append, decodeContinuation_more]
      split
      · rfl
      · exact ih turns (by omega) hdiv (by omega) (by omega) _

theorem appendPrefixedInteger_eq (bits q value : Nat) (hq : 2 ^ bits * (q + 1) ≤ 256) :
    ∃ first tail, appendPrefixedInteger bits (2 ^ bits * q) value = first :: tail ∧
      first.toNat = 2 ^ bits * q + min value (2 ^ bits - 1) ∧
      ∀ rest, decodePrefixedInteger first bits (tail ++ rest) =
        if value < 2 ^ bits - 1 then some (value, rest)
        else decodeContinuation (2 ^ bits - 1) 0
          (continuationBytes value (value - (2 ^ bits - 1)) ++ rest) := by
  have hpow : 0 < 2 ^ bits := Nat.two_pow_pos bits
  rw [Nat.mul_succ] at hq
  have hfirst : ∀ v < 2 ^ bits, (UInt8.ofNat (2 ^ bits * q ||| v)).toNat = 2 ^ bits * q + v := by
    intro v hv
    rw [← Nat.two_pow_add_eq_or_of_lt hv]
    exact toNat_ofNat_lt (by omega)
  have hmask : ∀ v < 2 ^ bits, (2 ^ bits * q + v) &&& (2 ^ bits - 1) = v := by
    intro v hv
    rw [Nat.and_two_pow_sub_one_eq_mod, Nat.mul_add_mod, Nat.mod_eq_of_lt hv]
  rw [appendPrefixedInteger]
  split_ifs with hlt
  · refine ⟨_, [], rfl, ?_, fun rest => ?_⟩
    · rw [hfirst value (by omega), Nat.min_eq_left (Nat.le_of_lt hlt)]
    · rw [decodePrefixedInteger, hfirst value (by omega), hmask value (by omega), if_pos hlt,
        List.nil_append]
  · refine ⟨_, _, rfl, ?_, fun rest => ?_⟩
    · rw [hfirst _ (by omega), Nat.min_eq_right (Nat.not_lt.mp hlt)]
    · rw [decodePrefixedInteger, hfirst _ (by omega), hmask _ (by omega), if_neg (Nat.lt_irrefl _)]

theorem decodePrefixedInteger_append (bits q value : Nat) (hq : 2 ^ bits * (q + 1) ≤ 256)
    (hvalue : value - (2 ^ bits - 1) < 2 ^ 35) :
    ∃ first tail, appendPrefixedInteger bits (2 ^ bits * q) value = first :: tail ∧
      first.toNat = 2 ^ bits * q + min value (2 ^ bits - 1) ∧
      ∀ rest, decodePrefixedInteger first bits (tail ++ rest) = some (value, rest) := by
  obtain ⟨first, tail, happend, hfirst, hdecode⟩ := appendPrefixedInteger_eq bits q value hq
  refine ⟨first, tail, happend, hfirst, fun rest => ?_⟩
  rw [hdecode]
  split_ifs with hlt
  · rfl
  · rw [decodeContinuation_append 5 rfl (by simpa using hvalue) (by omega)]
    have hvalue : 2 ^ bits - 1 + (value - (2 ^ bits - 1)) * 2 ^ 0 = value := by
      rw [Nat.pow_zero, Nat.mul_one]
      omega
    rw [hvalue]

theorem decodeStringLiteral_raw (hq : q ≤ 1) (hraw : raw.length < 2 ^ 35) (rest : List UInt8) :
    decodeStringLiteral (appendPrefixedInteger 7 (2 ^ 7 * q) raw.length ++ raw ++ rest) =
      if q = 1 then (huffmanDecode raw).map (·, rest) else some (raw, rest) := by
  obtain ⟨first, tail, happend, hfirst, hdecode⟩ :=
    decodePrefixedInteger_append 7 q raw.length (by omega) (by omega)
  have hflag : first.toNat &&& 0x80 = 0 ↔ q ≠ 1 := by
    rw [and_0x80_eq_zero _ first.toNat_lt, hfirst]
    omega
  rw [happend, List.append_assoc, List.cons_append, decodeStringLiteral, hdecode]
  simp only [Option.bind_eq_bind, Option.bind_some, List.length_append, List.take_left,
    List.drop_left, ne_eq, hflag]
  rw [if_neg (by omega)]
  by_cases h1 : q = 1
  · cases huffmanDecode raw <;> simp [h1]
  · simp [h1]

theorem decodeStringLiteral_appendString (h : value.length < 2 ^ 35) (rest : List UInt8) :
    decodeStringLiteral (appendString value ++ rest) = some (value, rest) := by
  have hplain : decodeStringLiteral (appendPlainString value ++ rest) = some (value, rest) :=
    decodeStringLiteral_raw (Nat.zero_le 1) h rest
  rw [appendString]
  split
  · exact hplain
  dsimp only
  split_ifs with hshort
  · have hhuff := decodeStringLiteral_raw (Nat.le_refl 1) (Nat.lt_trans hshort h) rest
    rw [if_pos rfl, huffmanDecode_huffmanEncode, Option.map_some] at hhuff
    exact hhuff
  · exact hplain

def SameName (name name' : List UInt8) : Prop := lowercase name = lowercase name'

theorem SameName.length_eq (h : SameName name name') : name.length = name'.length := by
  simpa [lowercase] using congrArg List.length h

def SameHeader (h h' : HpackHeaderField) : Prop := SameName h.name h'.name ∧ h.value = h'.value

/-- The entries of an encoder and a decoder for the same header. -/
def SameEntry (e e' : DynamicEntry) : Prop := SameName e.name e'.name ∧ e.value = e'.value

theorem SameEntry.size_eq (h : SameEntry e e') : e.size = e'.size := by
  rw [e.size_eq, e'.size_eq, h.1.length_eq, h.2]

theorem findIndex_eq_zero_or {α : Type} (p : α → Bool) (base : Nat) (entries : List α) :
    findIndex p base entries = 0 ∨ ∃ i e, entries[i]? = some e ∧ p e = true ∧
      findIndex p base entries = base + i := by
  rw [findIndex]
  cases hfind : entries.findIdx? p with
  | none => exact .inl rfl
  | some i =>
    obtain ⟨hlt, hp, -⟩ := List.findIdx?_eq_some_iff_getElem.mp hfind
    exact .inr ⟨i, entries[i], List.getElem?_eq_getElem hlt, hp, rfl⟩

theorem lookupIndex_static (h : kStaticTable[i]? = some e) : dec.lookupIndex (1 + i) = some e := by
  obtain ⟨hlt, -⟩ := List.getElem?_eq_some_iff.mp h
  rw [length_kStaticTable] at hlt
  rw [lookupIndex, if_neg (by omega), if_pos (by omega), Nat.add_sub_cancel_left, h]

theorem lookupIndex_dynamic (h : dec.table.entries[i]? = some e) :
    dec.lookupIndex (kStaticTableSize + 1 + i) = some ⟨e.name, e.value⟩ := by
  rw [lookupIndex, if_neg (by omega), if_neg (by omega), Nat.add_assoc,
    Nat.add_sub_cancel_left, Nat.add_sub_cancel_left, h]
  rfl

theorem lookup_static (dec : HpackDecoder) (hne : findIndex p 1 kStaticTable ≠ 0) :
    ∃ entry, dec.lookupIndex (findIndex p 1 kStaticTable) = some entry ∧ p entry = true ∧
      findIndex p 1 kStaticTable < 62 := by
  obtain ⟨i, e, hi, he, h⟩ := (findIndex_eq_zero_or p 1 kStaticTable).resolve_left hne
  have hlt := (List.getElem?_eq_some_iff.mp hi).1
  rw [length_kStaticTable, kStaticTableSize] at hlt
  rw [h]
  exact ⟨e, lookupIndex_static hi, he, by omega⟩

theorem lookup_dynamic {enc : HpackEncoder}
    (hcovers : Covers SameEntry enc.table.entries dec.table.entries)
    (hne : findIndex p (kStaticTableSize + 1) enc.table.entries ≠ 0) :
    ∃ e e', p e = true ∧ SameEntry e e' ∧ dec.lookupIndex (findIndex p (kStaticTableSize + 1)
        enc.table.entries) = some ⟨e'.name, e'.value⟩ ∧
      findIndex p (kStaticTableSize + 1) enc.table.entries < 62 + enc.table.entries.length := by
  obtain ⟨i, e, hi, he, h⟩ := (findIndex_eq_zero_or p _ enc.table.entries).resolve_left hne
  have hlt := (List.getElem?_eq_some_iff.mp hi).1
  obtain ⟨e', hi', hsame⟩ := hcovers.getElem? hi
  rw [h]
  exact ⟨e, e', he, hsame, lookupIndex_dynamic hi', by rw [kStaticTableSize]; omega⟩

theorem and_0xC0_eq : ∀ n < 256, (n &&& 0xC0 = 0x40 ↔ 64 ≤ n ∧ n < 128) := by decide +kernel

theorem and_0xF0_eq : ∀ n < 256, (n &&& 0xF0 = 0 ↔ n < 16) := by decide +kernel

/-- The decoder takes `block` from the front of what it reads, adds `entry` to the headers, and
goes on as `dec'`. -/
def Reads (dec : HpackDecoder) (block : List UInt8) (entry : HpackHeaderField)
    (dec' : HpackDecoder) : Prop :=
  ∃ first tail, block = first :: tail ∧
    ∀ rest, dec.decodeField first (tail ++ rest) = some (some entry, rest, dec')

theorem decodeName_index (hlookup : dec.lookupIndex index = some entry)
    (hfirst : first.toNat % 2 ^ bits ≠ 0)
    (hdecode : decodePrefixedInteger first bits rest = some (index, rest')) :
    dec.decodeName first bits rest = some (entry.name, rest') := by
  rw [decodeName, Nat.and_two_pow_sub_one_eq_mod, if_neg hfirst, hdecode]
  simp [hlookup]

theorem reads_indexed (hlookup : dec.lookupIndex index = some entry)
    (hindex : index - 127 < 2 ^ 35) : Reads dec (appendIndexed index) entry dec := by
  obtain ⟨first, tail, happend, hfirst, hdecode⟩ :=
    decodePrefixedInteger_append 7 1 index (by decide) hindex
  refine ⟨first, tail, happend, fun rest => ?_⟩
  have hflag : first.toNat &&& 0x80 ≠ 0 := by
    rw [Ne, and_0x80_eq_zero _ first.toNat_lt, hfirst]
    omega
  rw [decodeField, if_pos hflag, hdecode]
  simp [hlookup]

/-- The decoder takes a literal that starts with `first`, and goes on as `next`. -/
def TakesLiteral (dec : HpackDecoder) (first : UInt8) (bits : Nat)
    (next : List UInt8 → List UInt8 → HpackDecoder) : Prop :=
  ∀ {rest rest' rest'' name value}, dec.decodeName first bits rest = some (name, rest') →
    decodeStringLiteral rest' = some (value, rest'') →
      dec.decodeField first rest = some (some ⟨name, value⟩, rest'', next name value)

theorem takesLiteral_withIndexing (hlow : 64 ≤ first.toNat) (hhigh : first.toNat < 128) :
    TakesLiteral dec first 6 fun name value => ⟨dec.table.addToDynamicTable name value⟩ := by
  intro _ _ _ _ _ hname hvalue
  have h80 : ¬first.toNat &&& 0x80 ≠ 0 := by
    rw [not_not, and_0x80_eq_zero _ first.toNat_lt]
    exact hhigh
  rw [decodeField, if_neg h80, if_pos ((and_0xC0_eq _ first.toNat_lt).mpr ⟨hlow, hhigh⟩), hname]
  simp [hvalue]

theorem takesLiteral_withoutIndexing (hfirst : first.toNat < 16) :
    TakesLiteral dec first 4 fun _ _ => dec := by
  intro _ _ _ _ _ hname hvalue
  have h80 : ¬first.toNat &&& 0x80 ≠ 0 := by
    rw [not_not, and_0x80_eq_zero _ first.toNat_lt]
    omega
  have hC0 : ¬first.toNat &&& 0xC0 = 0x40 := by
    rw [and_0xC0_eq _ first.toNat_lt]
    omega
  rw [decodeField, if_neg h80, if_neg hC0,
    if_pos (.inl ((and_0xF0_eq _ first.toNat_lt).mpr hfirst)), hname]
  simp [hvalue]

section Literals

variable (hvalue : value.length < 2 ^ 35)
include hvalue

theorem reads_index (q : Nat) (hq : 2 ^ bits * (q + 1) ≤ 256)
    (hlookup : dec.lookupIndex index = some entry) (hindex : index - (2 ^ bits - 1) < 2 ^ 35)
    (hlit : ∀ first : UInt8, first.toNat = 2 ^ bits * q + min index (2 ^ bits - 1) →
      first.toNat % 2 ^ bits ≠ 0 ∧ TakesLiteral dec first bits next) :
    Reads dec (appendPrefixedInteger bits (2 ^ bits * q) index ++ appendString value)
      ⟨entry.name, value⟩ (next entry.name value) := by
  obtain ⟨first, tail, happend, hfirst, hdecode⟩ :=
    decodePrefixedInteger_append bits q index hq hindex
  refine ⟨first, tail ++ appendString value, congrArg (· ++ appendString value) happend,
    fun rest => ?_⟩
  obtain ⟨hne, hlit⟩ := hlit first hfirst
  rw [List.append_assoc]
  exact hlit (decodeName_index hlookup hne (hdecode _))
    (decodeStringLiteral_appendString hvalue rest)

theorem reads_name (hname : name.length < 2 ^ 35) (hfirst : first.toNat &&& (2 ^ bits - 1) = 0)
    (hlit : TakesLiteral dec first bits next) :
    Reads dec (first :: (appendString name ++ appendString value)) ⟨name, value⟩
      (next name value) := by
  refine ⟨first, _, rfl, fun rest => ?_⟩
  rw [List.append_assoc]
  refine hlit ?_ (decodeStringLiteral_appendString hvalue rest)
  rw [decodeName, if_pos hfirst]
  exact decodeStringLiteral_appendString hname _

theorem reads_withIndexing (hlookup : dec.lookupIndex index = some entry) (hpos : index ≠ 0)
    (hindex : index - 63 < 2 ^ 35) :
    Reads dec (appendLiteralWithIndexing index value) ⟨entry.name, value⟩
      ⟨dec.table.addToDynamicTable entry.name value⟩ :=
  reads_index hvalue 1 (by decide) hlookup hindex fun _ h =>
    ⟨by omega, takesLiteral_withIndexing (by omega) (by omega)⟩

end Literals

/-- What a header, read as `entry`, does to the encoder and the decoder: nothing, or it goes into
both tables. -/
inductive Sent (enc : HpackEncoder) (dec : HpackDecoder) (header entry : HpackHeaderField) :
    HpackEncoder → HpackDecoder → Prop
  | same : Sent enc dec header entry enc dec
  | added (fits : 32 + header.name.length + header.value.length ≤ enc.table.maxTableSize) :
      Sent enc dec header entry ⟨enc.table.addToDynamicTable header.name header.value⟩
        ⟨dec.table.addToDynamicTable entry.name entry.value⟩

/-- The name of the entry is the one that was sent, or comes from a table. -/
def NameFrom (dec : HpackDecoder) (header entry : HpackHeaderField) : Prop :=
  entry.name = header.name ∨ ∃ index found, dec.lookupIndex index = some found ∧
    found.name = entry.name

/-- A decoder whose table covers that of the encoder reads a header back.  The encoder's table must
not be so long that an index takes more than five continuation bytes. -/
theorem reads_encodeHeader {enc : HpackEncoder}
    (hcovers : Covers SameEntry enc.table.entries dec.table.entries)
    (hlength : enc.table.entries.length ≤ 2 ^ 35) (hname : header.name.length < 2 ^ 35)
    (hvalue : header.value.length < 2 ^ 35) :
    ∃ entry dec', Reads dec (enc.encodeHeader header.name header.value).1 entry dec' ∧
      SameHeader header entry ∧ NameFrom dec header entry ∧
      Sent enc dec header entry (enc.encodeHeader header.name header.value).2 dec' := by
  rw [encodeHeader]
  dsimp only
  split
  · rename_i hne
    rw [findStaticTableIndex] at hne ⊢
    obtain ⟨entry, hlookup, he, hle⟩ := lookup_static dec hne
    rw [Bool.and_eq_true, Bool.and_eq_true, strEqCaseInsensitive_iff, beq_iff_eq] at he
    exact ⟨entry, dec, reads_indexed hlookup (by omega), he.1,
      .inr ⟨_, entry, hlookup, rfl⟩, .same⟩
  split
  · rename_i hne
    rw [findDynamicTableIndex] at hne ⊢
    obtain ⟨e, e', he, hsame, hlookup, hle⟩ := lookup_dynamic hcovers hne
    rw [Bool.and_eq_true, strEqCaseInsensitive_iff, beq_iff_eq] at he
    exact ⟨_, dec, reads_indexed hlookup (by omega),
      ⟨he.1.trans hsame.1, he.2.trans hsame.2⟩, .inr ⟨_, _, hlookup, rfl⟩, .same⟩
  split
  · rename_i hfits
    have hfits : 32 + header.name.length + header.value.length ≤ enc.table.maxTableSize := by omega
    split
    · rename_i hne
      rw [findStaticTableNameIndex] at hne ⊢
      obtain ⟨entry, hlookup, he, hle⟩ := lookup_static dec hne
      exact ⟨⟨entry.name, header.value⟩, _, reads_withIndexing hvalue hlookup hne (by omega),
        ⟨(strEqCaseInsensitive_iff _ _).mp he, rfl⟩, .inr ⟨_, entry, hlookup, rfl⟩, .added hfits⟩
    split_ifs with hne
    · rw [findDynamicTableNameIndex] at hne ⊢
      obtain ⟨e, e', he, hsame, hlookup, hle⟩ := lookup_dynamic hcovers hne
      exact ⟨⟨e'.name, header.value⟩, _, reads_withIndexing hvalue hlookup hne (by omega),
        ⟨((strEqCaseInsensitive_iff _ _).mp he).trans hsame.1, rfl⟩, .inr ⟨_, _, hlookup, rfl⟩,
        .added hfits⟩
    · exact ⟨header, _, reads_name hvalue hname (by decide)
        (takesLiteral_withIndexing (by decide) (by decide)), ⟨rfl, rfl⟩, .inl rfl, .added hfits⟩
  split_ifs with hne
  · rw [findStaticTableNameIndex] at hne ⊢
    obtain ⟨entry, hlookup, he, hle⟩ := lookup_static dec hne
    exact ⟨⟨entry.name, header.value⟩, dec, reads_index hvalue 0 (by decide) hlookup
      (by omega) fun _ _ =>
        ⟨by omega, takesLiteral_withoutIndexing (by omega)⟩,
      ⟨(strEqCaseInsensitive_iff _ _).mp he, rfl⟩, .inr ⟨_, entry, hlookup, rfl⟩, .same⟩
  · exact ⟨header, dec, reads_name hvalue hname (by decide)
      (takesLiteral_withoutIndexing (by decide)), ⟨rfl, rfl⟩, .inl rfl, .same⟩

end ServerLib.Http2

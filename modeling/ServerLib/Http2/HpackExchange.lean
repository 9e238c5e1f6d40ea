import ServerLib.Http2.HpackRoundTrip
import ServerLib.Lib.Run

/-! An encoder and a decoder over a whole connection.  The blocks of the encoder go to the decoder
one after the other, and both keep their tables. -/

namespace ServerLib.Http2

open Lib HpackEncoder DynamicTable List

theorem DynamicTable.weight_addToDynamicTable_le {t : DynamicTable}
    (h : 32 + name.length + value.length ≤ t.maxTableSize) :
    weight DynamicEntry.size (t.addToDynamicTable name value).entries ≤ t.maxTableSize := by
  have hrest := weight_fitting_le DynamicEntry.size
    (t.maxTableSize - (32 + name.length + value.length)) t.entries
  rw [entries_addToDynamicTable h, weight_cons, DynamicEntry.size_new]
  omega

theorem DynamicTable.length_entries_le {t : DynamicTable}
    (h : weight DynamicEntry.size t.entries ≤ 32 * limit) : t.entries.length ≤ limit := by
  have hlen : ∀ entries : List DynamicEntry,
      32 * entries.length ≤ weight DynamicEntry.size entries := by
    intro entries
    induction entries with
    | nil => exact Nat.le_refl 0
    | cons e entries ih =>
      have hsize := e.size_eq
      rw [weight_cons, length_cons]
      omega
  have := hlen t.entries
  omega

section

variable (hsent : Sent enc dec header entry enc' dec')
include hsent

theorem Sent.forall₂ (hsame : SameHeader header entry)
    (hmax : enc.table.maxTableSize = dec.table.maxTableSize)
    (h : List.Forall₂ SameEntry enc.table.entries dec.table.entries) :
    List.Forall₂ SameEntry enc'.table.entries dec'.table.entries := by
  cases hsent with
  | same => exact h
  | added hfits =>
    have hlength := hsame.1.length_eq
    rw [entries_addToDynamicTable hfits,
      entries_addToDynamicTable (by rw [← hlength, ← hsame.2, ← hmax]; exact hfits),
      ← hlength, ← hsame.2, ← hmax]
    exact List.Forall₂.cons ⟨hsame.1, rfl⟩ (forall₂_fitting (fun _ _ he => he.size_eq) h _)

theorem Sent.covers (hsame : SameHeader header entry)
    (hroom : enc'.table.size ≤ dec.table.maxTableSize)
    (h : Covers SameEntry enc.table.entries dec.table.entries) :
    Covers SameEntry enc'.table.entries dec'.table.entries := by
  cases hsent with
  | same => exact h
  | added hfits =>
    have hlength := hsame.1.length_eq
    rw [size_eq, entries_addToDynamicTable hfits, weight_cons, DynamicEntry.size_new] at hroom
    rw [entries_addToDynamicTable hfits,
      entries_addToDynamicTable (by rw [← hlength, ← hsame.2]; omega),
      ← hlength, ← hsame.2]
    exact (h.fitting (fun _ _ he => he.size_eq) (by omega)).cons ⟨hsame.1, rfl⟩

theorem Sent.maxTableSize :
    enc'.table.maxTableSize = enc.table.maxTableSize ∧
    dec'.table.maxTableSize = dec.table.maxTableSize := by
  cases hsent with
  | same => exact ⟨rfl, rfl⟩
  | added => exact ⟨by simp, by simp⟩

theorem Sent.weight_le (h : weight DynamicEntry.size enc.table.entries ≤ enc.table.maxTableSize) :
    weight DynamicEntry.size enc'.table.entries ≤ enc.table.maxTableSize := by
  cases hsent with
  | same => exact h
  | added hfits => exact weight_addToDynamicTable_le hfits

end

def HpackEncoder.next (enc : HpackEncoder) (header : HpackHeaderField) : HpackEncoder :=
  (enc.encodeHeader header.name header.value).2

theorem Reads.decodeFields (h : Reads dec block entry dec') (hn : (block ++ more).length ≤ n) :
    ∃ n', more.length ≤ n' ∧ dec.decodeFields n (block ++ more) =
      ((dec'.decodeFields n' more).1.map (entry :: ·), (dec'.decodeFields n' more).2) := by
  obtain ⟨first, tail, rfl, hreads⟩ := h
  cases n with
  | zero => simp at hn
  | succ n =>
    refine ⟨n, ?_, ?_⟩
    · simp at hn
      omega
    · rw [cons_append, HpackDecoder.decodeFields, hreads]
      rfl

variable {enc : HpackEncoder}

/-- The rule for blocks.  `I` relates the encoder and the decoder before each header, `S` is what is
known of each header that is sent, and `R` relates it to the header that is read. -/
theorem decodeFields_encodeHeaders {I : HpackEncoder → HpackDecoder → Prop}
    (hcovers : ∀ enc dec, I enc dec → Covers SameEntry enc.table.entries dec.table.entries ∧
      enc.table.entries.length ≤ 2 ^ 35) (hsize : ∀ enc header, S enc header →
      header.name.length < 2 ^ 35 ∧ header.value.length < 2 ^ 35)
    (hsent : ∀ enc dec header entry dec', I enc dec → S enc header → SameHeader header entry →
      NameFrom dec header entry → Sent enc dec header entry (enc.next header) dec' →
      R header entry ∧ I (enc.next header) dec') (hI : I enc dec) (hS : Along next S enc headers)
    (hn : (enc.encodeHeaders headers).1.length ≤ n) :
    ∃ read, (dec.decodeFields n (enc.encodeHeaders headers).1).1 = some read ∧
      List.Forall₂ R headers read ∧
      I (enc.encodeHeaders headers).2 (dec.decodeFields n (enc.encodeHeaders headers).1).2 := by
  induction headers generalizing enc dec n with
  | nil =>
    refine ⟨[], ?_, List.Forall₂.nil, ?_⟩ <;> simp only [encodeHeaders] <;>
      cases n <;> first | rfl | exact hI
  | cons header headers ih =>
    obtain ⟨hheader, hrest⟩ := hS
    obtain ⟨hcov, hlen⟩ := hcovers enc dec hI
    obtain ⟨hname, hvalue⟩ := hsize enc header hheader
    obtain ⟨entry, dec', hreads, hsame, hfrom, hnext⟩ := reads_encodeHeader hcov hlen hname hvalue
    obtain ⟨hR, hI'⟩ := hsent enc dec header entry dec' hI hheader hsame hfrom hnext
    obtain ⟨n', hn', heq⟩ := hreads.decodeFields hn
    obtain ⟨read, hread, hall, hlast⟩ := ih hI' hrest hn'
    refine ⟨entry :: read, ?_, List.Forall₂.cons hR hall, ?_⟩
    · rw [encodeHeaders, heq]
      simp only [HpackEncoder.next] at hread
      rw [hread]
      rfl
    · rw [encodeHeaders, heq]
      exact hlast

/-- For each header list, what the decoder reads from its block, and the encoder and the decoder
after the block. -/
def exchange : HpackEncoder → HpackDecoder → List (List HpackHeaderField) →
    List (Option (List HpackHeaderField) × HpackEncoder × HpackDecoder)
  | _, _, [] => []
  | enc, dec, headers :: lists =>
    let encoded := enc.encodeHeaders headers
    let decoded := dec.decode encoded.1
    (decoded.1, encoded.2, decoded.2) :: exchange encoded.2 decoded.2 lists

/-- The tables hold entries of the same sizes and values, and of the same names up to case, in the
same order. -/
def SameTables (enc : HpackEncoder) (dec : HpackDecoder) : Prop :=
  List.Forall₂ (fun e e' => e.size = e'.size ∧ e.value = e'.value ∧
    lowercase e.name = lowercase e'.name) enc.table.entries dec.table.entries

/-- The decoder has read `headers`, up to the case of names, and its table is that of the
encoder. -/
def RoundTrip (headers : List HpackHeaderField)
    (result : Option (List HpackHeaderField) × HpackEncoder × HpackDecoder) : Prop :=
  ∃ read, result.1 = some read ∧
    List.Forall₂ (fun h h' => lowercase h.name = lowercase h'.name ∧ h.value = h'.value)
      headers read ∧
    SameTables result.2.1 result.2.2

/-- The two tables are equal up to case and keep to the same limit. -/
structure InStep (maxTableSize : Nat) (enc : HpackEncoder) (dec : HpackDecoder) : Prop where
  encMax : enc.table.maxTableSize = maxTableSize
  decMax : dec.table.maxTableSize = maxTableSize
  entries : List.Forall₂ SameEntry enc.table.entries dec.table.entries
  weight : weight DynamicEntry.size enc.table.entries ≤ maxTableSize

/-- The strings of a header are short enough for their lengths to be decoded. -/
def Short (header : HpackHeaderField) : Prop :=
  header.name.length < 2 ^ 35 ∧ header.value.length < 2 ^ 35

theorem InStep.decode {maxTableSize : Nat} (hmax : maxTableSize ≤ 2 ^ 40) {dec : HpackDecoder}
    (h : InStep maxTableSize enc dec) {headers : List HpackHeaderField}
    (hshort : ∀ header ∈ headers, Short header) :
    ∃ read, (dec.decode (enc.encodeHeaders headers).1).1 = some read ∧
      List.Forall₂ SameHeader headers read ∧
      InStep maxTableSize (enc.encodeHeaders headers).2
        (dec.decode (enc.encodeHeaders headers).1).2 := by
  refine decodeFields_encodeHeaders (I := InStep maxTableSize) (S := fun _ header => Short header)
    ?_ (fun _ _ hS => hS) ?_ h (along_of_forall_mem hshort enc) le_rfl
  · intro enc dec h
    refine ⟨covers_of_forall₂ h.entries, length_entries_le ?_⟩
    have := h.weight
    omega
  · intro enc dec header entry dec' h hS hsame hfrom hsent
    obtain ⟨hencMax, hdecMax⟩ := hsent.maxTableSize
    have hweight := hsent.weight_le (by rw [h.encMax]; exact h.weight)
    rw [h.encMax] at hencMax hweight
    rw [h.decMax] at hdecMax
    exact ⟨hsame, hencMax, hdecMax,
      hsent.forall₂ hsame (h.encMax.trans h.decMax.symm) h.entries, hweight⟩

/-- An encoder and a decoder with the same limit, of at most a terabyte, stay in step: every block
is decoded to its header list. -/
theorem exchange_roundTrip (maxTableSize : Nat) (hmax : maxTableSize ≤ 2 ^ 40)
    (lists : List (List HpackHeaderField))
    (hshort : ∀ headers ∈ lists, ∀ header ∈ headers,
      header.name.length < 2 ^ 35 ∧ header.value.length < 2 ^ 35) :
    List.Forall₂ RoundTrip lists
      (exchange (new maxTableSize) (HpackDecoder.new maxTableSize) lists) := by
  have hstart : InStep maxTableSize (new maxTableSize)
      (HpackDecoder.new maxTableSize) :=
    ⟨rfl, rfl, List.Forall₂.nil, Nat.zero_le _⟩
  generalize new maxTableSize = enc at hstart ⊢
  generalize HpackDecoder.new maxTableSize = dec at hstart ⊢
  induction lists generalizing enc dec with
  | nil => exact List.Forall₂.nil
  | cons headers lists ih =>
    obtain ⟨hheaders, hlists⟩ := forall_mem_cons.mp hshort
    obtain ⟨read, hread, hsame, hstep⟩ := hstart.decode hmax hheaders
    refine List.Forall₂.cons ⟨read, hread, hsame, ?_⟩ (ih hlists _ _ hstep)
    exact hstep.entries.imp fun e e' he => ⟨he.size_eq, he.2, he.1⟩

/-- Two lists, of which the second refers to an entry of the first under another case. -/
theorem exchange_roundTrip_twice :
    List.Forall₂ RoundTrip [[field ":status" "200", field "X-Id" "7"], [field "x-id" "7"]]
      (exchange (new 4096) (HpackDecoder.new 4096)
        [[field ":status" "200", field "X-Id" "7"], [field "x-id" "7"]]) :=
  exchange_roundTrip 4096 (by decide) _ (by decide)

def fiveBytes (i : Nat) : List UInt8 :=
  [UInt8.ofNat (i / 2 ^ 32), UInt8.ofNat (i / 2 ^ 24), UInt8.ofNat (i / 2 ^ 16),
    UInt8.ofNat (i / 2 ^ 8), UInt8.ofNat i]

theorem fiveBytes_injective (hi : i < 2 ^ 40) (hj : j < 2 ^ 40) (h : fiveBytes i = fiveBytes j) :
    i = j := by
  simp only [fiveBytes, cons.injEq, and_true, ← UInt8.toNat_inj, UInt8.toNat_ofNat'] at h
  omega

def manyHeader (i : Nat) : HpackHeaderField := ⟨ascii "a", fiveBytes i⟩

theorem findIndex_eq_zero {α : Type} {p : α → Bool} {entries : List α}
    (h : ∀ e ∈ entries, p e = false) (base : Nat) : findIndex p base entries = 0 := by
  rw [findIndex, findIdx?_eq_none_iff.mpr h]
  rfl

theorem findStaticTableIndex_a (value : List UInt8) :
    findStaticTableIndex (ascii "a") value = 0 := by
  have hname : ∀ e ∈ kStaticTable, strEqCaseInsensitive (ascii "a") e.name = false := by
    decide +kernel
  refine findIndex_eq_zero (fun e he => ?_) 1
  simp only [hname e he, Bool.false_and]

theorem HpackEncoder.next_eq_add (hdynamic : enc.findDynamicTableIndex (ascii "a") value = 0)
    (hfits : 32 + (ascii "a").length + value.length ≤ enc.table.maxTableSize) :
    enc.next ⟨ascii "a", value⟩ = ⟨enc.table.addToDynamicTable (ascii "a") value⟩ := by
  rw [next, encodeHeader]
  simp only [findStaticTableIndex_a, hdynamic, ne_eq, not_true_eq_false, if_false]
  rw [if_pos (by omega)]

theorem HpackEncoder.encodeHeaders_indexed
    (hdynamic : enc.findDynamicTableIndex (ascii "a") value = index) (hindex : index ≠ 0) :
    (enc.encodeHeaders [⟨ascii "a", value⟩]).1 = appendIndexed index := by
  rw [encodeHeaders, encodeHeader]
  simp only [findStaticTableIndex_a, hdynamic, hindex, ne_eq, not_true_eq_false, not_false_eq_true,
    if_true, if_false, encodeHeaders, append_nil]

theorem encodeHeaders_snd (enc : HpackEncoder) (headers : List HpackHeaderField) :
    (enc.encodeHeaders headers).2 = run next enc headers := by
  induction headers generalizing enc with
  | nil => rfl
  | cons header headers ih => exact ih _

/-- The entries of the first `k` headers, with the newest first. -/
def manyEntries (k : Nat) : List DynamicEntry :=
  ((List.range k).map fun i => DynamicEntry.new (ascii "a") (fiveBytes i)).reverse

theorem manyEntries_succ (k : Nat) :
    manyEntries (k + 1) = DynamicEntry.new (ascii "a") (fiveBytes k) :: manyEntries k := by
  simp [manyEntries, range_succ]

theorem getElem_manyEntries (h : j < (manyEntries k).length) :
    (manyEntries k)[j] = DynamicEntry.new (ascii "a") (fiveBytes (k - 1 - j)) := by
  simp [manyEntries]

theorem weight_manyEntries (k : Nat) : weight DynamicEntry.size (manyEntries k) = 38 * k := by
  induction k with
  | zero => rfl
  | succ k ih =>
    rw [manyEntries_succ, weight_cons, ih, Nat.mul_succ, Nat.add_comm]
    rfl

theorem run_manyHeaders (k : Nat) (hk : k ≤ 2 ^ 36) :
    (run next (new (2 ^ 42))
        ((range k).map manyHeader)).table.entries = manyEntries k ∧
    (run next (new (2 ^ 42))
      ((range k).map manyHeader)).table.maxTableSize = 2 ^ 42 := by
  induction k with
  | zero => exact ⟨rfl, rfl⟩
  | succ k ih =>
    obtain ⟨hentries, hmax⟩ := ih (Nat.le_of_succ_le hk)
    rw [range_succ, map_append, run_append]
    generalize run next (new (2 ^ 42)) ((range k).map manyHeader) = enc at hentries hmax ⊢
    -- the header is new, and its entry fits in without an eviction
    have hdynamic : enc.findDynamicTableIndex (manyHeader k).name (manyHeader k).value = 0 := by
      refine findIndex_eq_zero (fun e he => ?_) _
      rw [hentries, manyEntries, mem_reverse, mem_map] at he
      obtain ⟨i, hi, rfl⟩ := he
      have hne : fiveBytes k ≠ fiveBytes i := fun h => by
        have := fiveBytes_injective (by omega) (by have := mem_range.mp hi; omega) h
        have := mem_range.mp hi
        omega
      simp [manyHeader, DynamicEntry.new, hne]
    have hfits : 32 + (manyHeader k).name.length + (manyHeader k).value.length ≤
        enc.table.maxTableSize := by
      rw [hmax]
      exact Nat.le_of_ble_eq_true rfl
    have hnext : enc.next (manyHeader k) =
        ⟨enc.table.addToDynamicTable (manyHeader k).name (manyHeader k).value⟩ :=
      next_eq_add hdynamic hfits
    have hweight := weight_manyEntries k
    rw [map_singleton, run_cons, run_nil, hnext,
      entries_addToDynamicTable hfits, hmax, hentries, manyEntries_succ,
      fitting_eq_self (by rw [hweight, show (manyHeader k).name.length = 1 from rfl,
        show (manyHeader k).value.length = 5 from rfl]; omega)]
    exact ⟨rfl, by simp [hmax]⟩

theorem findDynamicTableIndex_manyEntries (hpos : 0 < k) (hk : k ≤ 2 ^ 36)
    (h : enc.table.entries = manyEntries k) :
    enc.findDynamicTableIndex (manyHeader 0).name (manyHeader 0).value =
      kStaticTableSize + 1 + (k - 1) := by
  have hlen : (manyEntries k).length = k := by simp [manyEntries]
  have hfind : (manyEntries k).findIdx? (fun e => strEqCaseInsensitive (manyHeader 0).name e.name &&
      (manyHeader 0).value == e.value) = some (k - 1) := by
    refine findIdx?_eq_some_iff_getElem.mpr ⟨by omega, ?_, fun j hj => ?_⟩
    · rw [getElem_manyEntries, Nat.sub_self]
      decide
    · rw [getElem_manyEntries]
      have hne : fiveBytes 0 ≠ fiveBytes (k - 1 - j) := fun h => by
        have := fiveBytes_injective (by omega) (by omega) h
        omega
      simp [manyHeader, DynamicEntry.new, hne]
  rw [findDynamicTableIndex, findIndex, h, hfind]
  rfl

theorem decode_appendIndexed_eq_none (dec : HpackDecoder) (h : 2 ^ 35 + 127 ≤ index) :
    (dec.decode (appendIndexed index)).1 = none := by
  obtain ⟨first, tail, happend, hfirst, hdecode⟩ := appendPrefixedInteger_eq 7 1 index (by decide)
  have hflag : first.toNat &&& 0x80 ≠ 0 := by
    rw [Ne, and_0x80_eq_zero _ first.toNat_lt, hfirst]
    omega
  have hnone : dec.decodeField first tail = none := by
    have hdecode := hdecode []
    rw [append_nil, if_neg (by omega),
      decodeContinuation_eq_none 5 rfl (by omega) (by omega) (by decide)] at hdecode
    rw [HpackDecoder.decodeField, if_pos hflag, hdecode]
    rfl
  rw [appendIndexed, show 0x80 = 2 ^ 7 * 1 from rfl, happend, HpackDecoder.decode,
    length_cons, HpackDecoder.decodeFields, hnone]

theorem not_roundTrip_manyHeaders (hlow : 2 ^ 35 + 66 ≤ k) (hhigh : k ≤ 2 ^ 36) :
    ¬List.Forall₂ RoundTrip [(range k).map manyHeader, [manyHeader 0]]
      (exchange (new (2 ^ 42)) (HpackDecoder.new (2 ^ 42))
        [(range k).map manyHeader, [manyHeader 0]]) := by
  intro h
  rw [exchange, exchange] at h
  obtain ⟨-, hrest⟩ := forall₂_cons.mp h
  obtain ⟨⟨read, hread, -⟩, -⟩ := forall₂_cons.mp hrest
  have hindex := findDynamicTableIndex_manyEntries (by omega) hhigh (run_manyHeaders k hhigh).1
  rw [encodeHeaders_snd] at hread
  have hblock := encodeHeaders_indexed hindex (by omega)
  rw [show [manyHeader 0] = [⟨ascii "a", (manyHeader 0).value⟩] from rfl] at hread
  rw [hblock, decode_appendIndexed_eq_none _ (by rw [kStaticTableSize]; omega)] at hread
  cases hread

theorem short_manyHeaders (k : Nat) :
    ∀ headers ∈ [(range k).map manyHeader, [manyHeader 0]], ∀ header ∈ headers,
      Short header := by
  have hshort : ∀ i, Short (manyHeader i) := by
    intro i
    constructor
    · exact Nat.one_lt_two_pow (by decide)
    · show 5 < 2 ^ 35
      norm_num
  intro headers hheaders header hheader
  rcases mem_cons.mp hheaders with rfl | hheaders
  · obtain ⟨i, -, rfl⟩ := mem_map.mp hheader
    exact hshort i
  · cases mem_singleton.mp hheaders
    cases mem_singleton.mp hheader
    exact hshort 0

/-- After more than `2 ^ 35` different headers, the first of them has an index that the decoder does
not take. -/
theorem exchange_index_too_long :
    (∀ headers ∈ [(range (2 ^ 35 + 66)).map manyHeader, [manyHeader 0]],
      ∀ header ∈ headers, header.name.length < 2 ^ 35 ∧ header.value.length < 2 ^ 35) ∧
    ¬List.Forall₂ RoundTrip [(range (2 ^ 35 + 66)).map manyHeader, [manyHeader 0]]
      (exchange (new (2 ^ 42)) (HpackDecoder.new (2 ^ 42))
        [(range (2 ^ 35 + 66)).map manyHeader, [manyHeader 0]]) :=
  ⟨short_manyHeaders _, not_roundTrip_manyHeaders le_rfl (by norm_num)⟩

end ServerLib.Http2

import ServerLib.BitTorrent.Bencoding

/-! What is encoded is parsed back. -/

namespace ServerLib.BitTorrent

open Lib Option

namespace BaseData

/-- Induction over a tree, with the hypothesis for every item and every value in it. -/
theorem induction {P : BaseData → Prop}
    (integer : ∀ data, P (.integer data)) (string : ∀ data, P (.string data))
    (list : ∀ datas, (∀ item ∈ datas, P item) → P (.list datas))
    (dictionary : ∀ datas, (∀ entry ∈ datas, P entry.2) → P (.dictionary datas)) :
    ∀ data, P data
  | .integer data => integer data
  | .string data => string data
  | .list datas => list datas fun item _ => induction integer string list dictionary item
  | .dictionary datas =>
    dictionary datas fun entry _ => induction integer string list dictionary entry.2
termination_by data => sizeOf data
decreasing_by
  · rename_i hmem
    have := List.sizeOf_lt_of_mem hmem
    simp only [BaseData.list.sizeOf_spec]
    omega
  · rename_i hmem
    have := List.sizeOf_lt_of_mem hmem
    obtain ⟨key, val⟩ := entry
    simp only [BaseData.dictionary.sizeOf_spec, Prod.mk.sizeOf_spec] at this ⊢
    omega

theorem distinctItems_iff (datas : List BaseData) :
    DistinctItems datas ↔ ∀ item ∈ datas, item.Distinct := by
  induction datas with
  | nil => simp [DistinctItems]
  | cons item rest ih => simp [DistinctItems, ih]

theorem distinctEntries_iff (datas : List (Bytes × BaseData)) :
    DistinctEntries datas ↔ ∀ entry ∈ datas, entry.2.Distinct := by
  induction datas with
  | nil => simp [DistinctEntries]
  | cons entry rest ih => simp [DistinctEntries, ih]

theorem sameEntries_iff (as bs : List (Bytes × BaseData)) :
    SameEntries as bs ↔ ∀ entry ∈ as, ∃ b, getVal bs entry.1 = some b ∧ entry.2.Same b := by
  induction as with
  | nil => simp [SameEntries]
  | cons entry rest ih => simp [SameEntries, ih]

theorem getVal_of_mem (hnodup : (datas.map Prod.fst).Nodup) (hmem : (key, val) ∈ datas) :
    getVal datas key = some val := by
  induction datas with
  | nil => cases hmem
  | cons entry rest ih =>
    rw [List.map_cons, List.nodup_cons] at hnodup
    rcases List.mem_cons.mp hmem with rfl | hmem
    · simp [getVal]
    · have hkey : entry.1 ≠ key := by
        intro heq
        exact hnodup.1 (heq ▸ List.mem_map_of_mem (f := Prod.fst) hmem)
      have := ih hnodup.2 hmem
      simpa [getVal, hkey] using this

theorem add_of_not_mem (h : key ∉ datas.map Prod.fst) (val : BaseData) :
    add datas key val = datas ++ [(key, val)] := by
  rw [add, if_neg]
  simpa using h

end BaseData

namespace BencodingDataConverter

open BaseData

/-! ### What is parsed back

The entries of a dictionary come back in the order of their keys. -/

mutual

def restored : BaseData → BaseData
  | .integer data => .integer data
  | .string data => .string data
  | .list datas => .list (restoredItems datas)
  | .dictionary datas => .dictionary ((restoredEntries datas).insertionSort keyLe)

def restoredItems : List BaseData → List BaseData
  | [] => []
  | item :: rest => restored item :: restoredItems rest

def restoredEntries : List (Bytes × BaseData) → List (Bytes × BaseData)
  | [] => []
  | (key, val) :: rest => (key, restored val) :: restoredEntries rest

end

variable (data : BaseData) (datas : List (Bytes × BaseData))

theorem restoredEntries_eq :
    restoredEntries datas = datas.map fun entry => (entry.1, restored entry.2) := by
  induction datas with
  | nil => rfl
  | cons entry rest ih => rw [restoredEntries, ih, List.map_cons]

theorem encodeEntries_eq :
    encodeEntries datas = datas.map fun entry => (entry.1, doEncode entry.2) := by
  induction datas with
  | nil => rfl
  | cons entry rest ih => rw [encodeEntries, ih, List.map_cons]

theorem insertionSort_map_entries {α β : Type} (f : α → β) (datas : List (Bytes × α)) :
    (datas.map fun entry => (entry.1, f entry.2)).insertionSort keyLe =
      (datas.insertionSort keyLe).map fun entry => (entry.1, f entry.2) :=
  (List.map_insertionSort (r := keyLe) (s := keyLe) (fun entry => (entry.1, f entry.2)) datas
    fun _ _ _ _ => Iff.rfl).symm

def encodeEntry (entry : Bytes × BaseData) : Bytes := encodeString entry.1 ++ doEncode entry.2

theorem doEncode_dictionary :
    doEncode (.dictionary datas) =
      'd'.toUInt8 :: ((datas.insertionSort keyLe).flatMap encodeEntry ++ ['e'.toUInt8]) := by
  rw [doEncode, encodeEntries_eq, insertionSort_map_entries, List.flatMap_map]
  rfl

theorem restored_dictionary :
    restored (.dictionary datas) =
      .dictionary ((datas.insertionSort keyLe).map fun entry => (entry.1, restored entry.2)) := by
  rw [restored, restoredEntries_eq, insertionSort_map_entries]

theorem sameItems_restoredItems {datas : List BaseData}
    (h : ∀ item ∈ datas, item.Same (restored item)) : SameItems datas (restoredItems datas) := by
  induction datas with
  | nil => trivial
  | cons item rest ih =>
    obtain ⟨hitem, hrest⟩ := List.forall_mem_cons.mp h
    exact ⟨hitem, ih hrest⟩

theorem same_restored (hdistinct : data.Distinct) : data.Same (restored data) := by
  induction data using BaseData.induction with
  | integer data | string data => exact rfl
  | list datas ih =>
    have hitems := (distinctItems_iff datas).mp hdistinct
    exact sameItems_restoredItems fun item hmem => ih item hmem (hitems item hmem)
  | dictionary datas ih =>
    obtain ⟨hnodup, hentries⟩ := hdistinct
    have hperm := List.perm_insertionSort keyLe datas
    rw [restored_dictionary]
    refine ⟨by simp, (sameEntries_iff _ _).mpr fun entry hmem => ⟨restored entry.2, ?_, ?_⟩⟩
    · apply getVal_of_mem
      · rw [List.map_map]
        exact (hperm.map Prod.fst).nodup_iff.mpr hnodup
      · exact List.mem_map_of_mem (f := fun entry => (entry.1, restored entry.2))
          (hperm.mem_iff.mpr hmem)
    · exact ih entry hmem ((distinctEntries_iff datas).mp hentries entry hmem)

theorem castInt_of_lt {n : Int} (h : 0 ≤ n) (hlt : n < 2 ^ 31) : castInt n = n := by
  rw [castInt, Int.bmod_eq_of_le (by omega) (by omega)]

theorem strtoll_signedDecimal (data : Int64) :
    strtoll (signedDecimal data.toInt) = some data.toInt := by
  have hread : readDecimal (signedDecimal data.toInt ++ []) = some (data.toInt, []) :=
    readDecimal_signedDecimal data.toInt (by simp)
  rw [List.append_nil] at hread
  have hlow := data.le_toInt
  have hhigh := data.toInt_lt
  rw [strtoll, converted, hread]
  exact if_pos ⟨decide_eq_true ⟨hlow, hhigh⟩, rfl⟩

variable {values : List BaseData}

theorem strtoull_decimal (h : n < 2 ^ 64) : strtoull (decimal n) = some n := by
  have hread : readDecimal (decimal n ++ []) = some ((n : Int), []) :=
    readDecimal_decimal n (by simp)
  rw [List.append_nil] at hread
  have hmod : ((n : Int) % 2 ^ 64).toNat = n := by omega
  rw [strtoull, converted, hread]
  simp only [Int.natAbs_natCast, h, decide_true, List.headD_nil, and_self, if_true,
    map_some, hmod]

theorem ne_of_mem_decimal (h : c ∈ decimal n) (hstop : isDigit stop = false) : c ≠ stop := by
  rintro rfl
  rw [isDigit_of_mem_decimal h] at hstop
  cases hstop

theorem ne_of_mem_signedDecimal (h : c ∈ signedDecimal value) : c ≠ 'e'.toUInt8 := by
  rw [signedDecimal] at h
  split at h
  · rcases List.mem_cons.mp h with rfl | h
    · decide
    · exact ne_of_mem_decimal h (by decide)
  · exact ne_of_mem_decimal h (by decide)

theorem signedDecimal_ne_nil (value : Int) : signedDecimal value ≠ [] := by
  rw [signedDecimal]
  split
  · exact List.cons_ne_nil _ _
  · exact decimal_ne_nil _

theorem takeWhile_take_stop {text : Bytes} (rest : Bytes) (htext : ∀ c ∈ text, c ≠ stop)
    (hn : text.length < n) : ((text ++ stop :: rest).take n).takeWhile (· ≠ stop) = text := by
  obtain ⟨k, hk⟩ : ∃ k, n - text.length = k + 1 := ⟨n - text.length - 1, by omega⟩
  rw [List.take_append, List.take_of_length_le (by omega), hk, List.take_succ_cons,
    List.takeWhile_append_of_pos fun c hc => by simpa using htext c hc,
    List.takeWhile_cons_of_neg (by simp), List.append_nil]

theorem parseInteger_signedDecimal (data : Int64) (rest : Bytes) {left : Int}
    (hleft : (signedDecimal data.toInt).length < left)
    (hsize : (signedDecimal data.toInt).length + 2 < 2 ^ 31) :
    parseInteger (signedDecimal data.toInt ++ 'e'.toUInt8 :: rest) left =
      (((signedDecimal data.toInt).length : Int) + 2, some (.integer data)) := by
  have hstr := takeWhile_take_stop rest (n := left.toNat)
    (fun c (hc : c ∈ signedDecimal data.toInt) => ne_of_mem_signedDecimal hc) (by omega)
  have hguard : ¬ (signedDecimal data.toInt = [] ∨ left ≤ (signedDecimal data.toInt).length) := by
    rintro (h | h)
    · exact signedDecimal_ne_nil _ h
    · omega
  unfold parseInteger
  simp only [hstr, if_neg hguard, strtoll_signedDecimal, Int64.ofInt_toInt]
  rw [castInt_of_lt (by omega) (by omega)]

theorem length_encodeString (s : Bytes) :
    (encodeString s).length = (decimal s.length).length + 1 + s.length := by
  rw [encodeString, List.length_append, List.length_cons]
  omega

theorem parseString_encodeString (s rest : Bytes) {left : Int}
    (hleft : (encodeString s).length ≤ left) (hsize : (encodeString s).length < 2 ^ 31) :
    parseString (encodeString s ++ rest) left =
      (((encodeString s).length : Int), some (.string s)) := by
  rw [length_encodeString] at hleft hsize
  have hstr := takeWhile_take_stop (s ++ rest) (n := left.toNat)
    (fun c hc => ne_of_mem_decimal (n := s.length) hc (by decide : isDigit ':'.toUInt8 = false))
    (by omega)
  have hlen : strtoull (decimal s.length) = some s.length := strtoull_decimal (by omega)
  have htext : ((decimal s.length ++ ':'.toUInt8 :: (s ++ rest)).drop
      ((decimal s.length).length + 1)).take s.length = s := by
    rw [List.drop_append, List.drop_of_length_le (by omega), Nat.add_sub_cancel_left,
      List.drop_succ_cons, List.drop_zero, List.nil_append, List.take_left]
  have hmem : encodeString s ++ rest = decimal s.length ++ ':'.toUInt8 :: (s ++ rest) := by
    simp [encodeString]
  rw [hmem]
  unfold parseString
  simp only [hstr, if_neg (decimal_ne_nil _), hlen,
    if_pos (by omega : (decimal s.length).length < left.toNat), htext]
  rw [if_neg (by omega), if_neg (by omega), castInt_of_lt (by omega) (by omega),
    length_encodeString]
  rfl

/-- A tree is parsed back from its encoding, whatever comes after it. -/
def Parses : Prop :=
  ∀ (fuel : Nat) (rest : Bytes) (left : Int), (doEncode data).length ≤ fuel →
    (doEncode data).length ≤ left → (doEncode data).length < 2 ^ 31 →
    doParse fuel (doEncode data ++ rest) left =
      (((doEncode data).length : Int), some (restored data))

theorem head_doEncode : ∃ c tail, doEncode data = c :: tail ∧ c ≠ 'e'.toUInt8 := by
  cases data with
  | integer data | list datas | dictionary datas => exact ⟨_, _, rfl, by decide⟩
  | string data =>
    obtain ⟨c, digits, hcons⟩ := List.exists_cons_of_ne_nil (decimal_ne_nil data.length)
    refine ⟨c, digits ++ ':'.toUInt8 :: data, ?_, ?_⟩
    · rw [doEncode, encodeString, hcons, List.cons_append]
    · exact ne_of_mem_decimal (hcons ▸ List.mem_cons_self) (by decide)

theorem length_doEncode_pos : 0 < (doEncode data).length := by
  obtain ⟨c, tail, hcons, -⟩ := head_doEncode data
  rw [hcons]
  exact Nat.succ_pos _

theorem headD_doEncode (rest : Bytes) : (doEncode data ++ rest).headD 0 ≠ 'e'.toUInt8 := by
  obtain ⟨c, tail, hcons, hne⟩ := head_doEncode data
  rw [hcons]
  exact hne

theorem parses_string (data : Bytes) : Parses (.string data) := by
  intro fuel rest left hfuel hleft hsize
  have hpos := length_doEncode_pos (.string data)
  obtain ⟨fuel, rfl⟩ : ∃ k, fuel = k + 1 := ⟨fuel - 1, by omega⟩
  have hdigit : isDigit ((encodeString data ++ rest).headD 0) = true := by
    obtain ⟨c, digits, hcons⟩ := List.exists_cons_of_ne_nil (decimal_ne_nil data.length)
    rw [encodeString, hcons]
    exact isDigit_of_mem_decimal (hcons ▸ List.mem_cons_self)
  simp only [doEncode] at hleft hsize ⊢
  rw [doParse]
  simp only [hdigit, if_true]
  exact parseString_encodeString data rest hleft hsize

theorem parses_of_body {data : BaseData} {c : UInt8} {body : Bytes}
    (hdata : doEncode data = c :: (body ++ ['e'.toUInt8]))
    (hbody : ∀ (fuel : Nat) (rest : Bytes) (left : Int), body.length < fuel →
      body.length + 2 ≤ left → body.length + 2 < 2 ^ 31 →
      doParse (fuel + 1) (c :: (body ++ 'e'.toUInt8 :: rest)) left =
        ((body.length : Int) + 2, some (restored data))) : Parses data := by
  intro fuel rest left hfuel hleft hsize
  have hlength : (doEncode data).length = body.length + 2 := by simp [hdata]
  rw [hlength] at hfuel hleft hsize
  obtain ⟨fuel, rfl⟩ : ∃ k, fuel = k + 1 := ⟨fuel - 1, by omega⟩
  rw [hlength, hdata, List.cons_append, List.append_assoc]
  exact hbody fuel rest left (by omega) hleft hsize

theorem parses_integer (data : Int64) : Parses (.integer data) := by
  refine parses_of_body rfl fun fuel rest left hfuel hleft hsize => ?_
  have hdigit : isDigit 'i'.toUInt8 = false := by decide
  rw [doParse]
  simp only [List.headD_cons, hdigit, Bool.false_eq_true, if_false, if_true, List.tail_cons]
  rw [parseInteger_signedDecimal data rest (by omega) hsize]
  rfl

theorem not_stops (data : BaseData) (rest : Bytes) {left : Int} (hleft : 0 ≤ left) :
    ¬(left < 0 ∨ (doEncode data ++ rest).headD 0 = 'e'.toUInt8) :=
  not_or.mpr ⟨Int.not_lt.mpr hleft, headD_doEncode data rest⟩

theorem parseList_encodeItems {items : List BaseData} (hitems : ∀ item ∈ items, Parses item)
    (datas : List BaseData) (fuel : Nat) (rest : Bytes) (left : Int)
    (hfuel : (encodeItems items).length < fuel) (hleft : (encodeItems items).length ≤ left)
    (hsize : (encodeItems items).length < 2 ^ 31) :
    parseList fuel (encodeItems items ++ 'e'.toUInt8 :: rest) left datas =
      some (((encodeItems items).length : Int), datas ++ restoredItems items) := by
  induction items generalizing datas fuel left with
  | nil =>
    obtain ⟨fuel, rfl⟩ : ∃ k, fuel = k + 1 := ⟨fuel - 1, by omega⟩
    rw [parseList, if_pos (.inr rfl)]
    simp [encodeItems, restoredItems]
  | cons item items ih =>
    have hlength : (encodeItems (item :: items)).length =
        (doEncode item).length + (encodeItems items).length := by
      rw [encodeItems, List.length_append]
    rw [hlength] at hfuel hleft hsize
    have hpos := length_doEncode_pos item
    obtain ⟨fuel, rfl⟩ : ∃ k, fuel = k + 1 := ⟨fuel - 1, by omega⟩
    obtain ⟨hitem, hitems⟩ := List.forall_mem_cons.mp hitems
    have hitem := hitem fuel (encodeItems items ++ 'e'.toUInt8 :: rest) left (by omega) (by omega)
      (by omega)
    have hrest := ih hitems (datas ++ [restored item]) fuel (left - (doEncode item).length)
      (by omega) (by omega) (by omega)
    rw [hlength, encodeItems, List.append_assoc, parseList,
      if_neg (not_stops item _ (by omega)), hitem]
    simp only [if_neg (Int.not_lt.mpr (Int.natCast_nonneg _)), Int.toNat_natCast, List.drop_left,
      hrest, map_some]
    simp [restoredItems]

theorem parseDictionary_encodeEntry (entries : List (Bytes × BaseData))
    (hentries : ∀ entry ∈ entries, Parses entry.2) (datas : List (Bytes × BaseData))
    (hnodup : (datas.map Prod.fst ++ entries.map Prod.fst).Nodup)
    (fuel : Nat) (rest : Bytes) (left : Int) (hfuel : (entries.flatMap encodeEntry).length < fuel)
    (hleft : (entries.flatMap encodeEntry).length ≤ left)
    (hsize : (entries.flatMap encodeEntry).length < 2 ^ 31) :
    parseDictionary fuel (entries.flatMap encodeEntry ++ 'e'.toUInt8 :: rest) left datas =
      some (((entries.flatMap encodeEntry).length : Int),
        datas ++ entries.map fun entry => (entry.1, restored entry.2)) := by
  induction entries generalizing datas fuel left with
  | nil =>
    obtain ⟨fuel, rfl⟩ : ∃ k, fuel = k + 1 := ⟨fuel - 1, by omega⟩
    rw [parseDictionary, if_pos (.inr rfl)]
    simp
  | cons entry entries ih =>
    obtain ⟨key, val⟩ := entry
    have hlength : (((key, val) :: entries).flatMap encodeEntry).length =
        (encodeString key).length + (doEncode val).length +
          (entries.flatMap encodeEntry).length := by
      rw [List.flatMap_cons, encodeEntry, List.length_append, List.length_append]
    rw [hlength] at hfuel hleft hsize
    have hpos : 0 < (encodeString key).length := length_doEncode_pos (.string key)
    obtain ⟨fuel, rfl⟩ : ∃ k, fuel = k + 1 := ⟨fuel - 1, by omega⟩
    have hkey := parses_string key fuel (doEncode val ++
      (entries.flatMap encodeEntry ++ 'e'.toUInt8 :: rest)) left
    rw [doEncode, restored] at hkey
    replace hkey := hkey (by omega) (by omega) (by omega)
    have hparses : Parses val := hentries (key, val) List.mem_cons_self
    have hval := hparses fuel (entries.flatMap encodeEntry ++ 'e'.toUInt8 :: rest)
      (left - (encodeString key).length) (by omega) (by omega) (by omega)
    have hnew : key ∉ datas.map Prod.fst := by
      intro hmem
      exact (List.nodup_append.mp hnodup).2.2 key hmem key List.mem_cons_self rfl
    have hrest := ih (List.forall_mem_cons.mp hentries).2 (datas ++ [(key, restored val)])
      (by simpa using hnodup) fuel (left - (encodeString key).length - (doEncode val).length)
      (by omega) (by omega) (by omega)
    have hgo := not_stops (.string key) (doEncode val ++
      (entries.flatMap encodeEntry ++ 'e'.toUInt8 :: rest)) (show 0 ≤ left by omega)
    rw [doEncode] at hgo
    rw [hlength, List.flatMap_cons, encodeEntry, List.append_assoc, List.append_assoc,
      parseDictionary, if_neg hgo, hkey]
    simp only [if_neg (Int.not_lt.mpr (Int.natCast_nonneg _)), Int.toNat_natCast, List.drop_left,
      hval, add_of_not_mem hnew, hrest, map_some]
    simp

theorem parses_list {datas : List BaseData} (hitems : ∀ item ∈ datas, Parses item) :
    Parses (.list datas) := by
  refine parses_of_body rfl fun fuel rest left hfuel hleft hsize => ?_
  have hdigit : isDigit 'l'.toUInt8 = false := by decide
  have hloop := parseList_encodeItems hitems [] fuel rest (left - 1) (by omega) (by omega)
    (by omega)
  rw [doParse]
  simp only [List.headD_cons, hdigit, Bool.false_eq_true, if_false, if_true, List.tail_cons,
    (by decide : 'l'.toUInt8 ≠ 'i'.toUInt8), hloop]
  rw [castInt_of_lt (by omega) (by omega)]
  rfl

theorem parses_dictionary {datas : List (Bytes × BaseData)}
    (hnodup : (datas.map Prod.fst).Nodup) (hentries : ∀ entry ∈ datas, Parses entry.2) :
    Parses (.dictionary datas) := by
  refine parses_of_body (doEncode_dictionary datas) fun fuel rest left hfuel hleft hsize => ?_
  have hperm := List.perm_insertionSort keyLe datas
  have hdigit : isDigit 'd'.toUInt8 = false := by decide
  have hloop := parseDictionary_encodeEntry (datas.insertionSort keyLe)
    (fun entry hmem => hentries entry (hperm.mem_iff.mp hmem)) []
    ((hperm.map Prod.fst).nodup_iff.mpr hnodup) fuel rest (left - 1) (by omega) (by omega)
    (by omega)
  rw [doParse]
  simp only [List.headD_cons, hdigit, Bool.false_eq_true, if_false, if_true, List.tail_cons,
    (by decide : 'd'.toUInt8 ≠ 'i'.toUInt8), (by decide : 'd'.toUInt8 ≠ 'l'.toUInt8), hloop]
  rw [castInt_of_lt (by omega) (by omega), restored_dictionary]
  rfl

theorem parses (hdistinct : data.Distinct) : Parses data := by
  induction data using BaseData.induction with
  | integer data => exact parses_integer data
  | string data => exact parses_string data
  | list datas ih =>
    have hitems := (distinctItems_iff datas).mp hdistinct
    exact parses_list fun item hmem => ih item hmem (hitems item hmem)
  | dictionary datas ih =>
    have hentries := (distinctEntries_iff datas).mp hdistinct.2
    exact parses_dictionary hdistinct.1 fun entry hmem => ih entry hmem (hentries entry hmem)

theorem parse_doEncode {data : BaseData} (hdistinct : data.Distinct)
    (hsize : (doEncode data).length < 2 ^ 31) (after : Bytes) :
    parse (doEncode data) after = some (restored data) := by
  rw [parse, parses data hdistinct _ after _ (Nat.le_succ _) le_rfl hsize]

/-! ### Sequences

After the last value `do_parse` is called with `begin` at `end`.  It reads the byte there, and takes
the start of a list or a dictionary for an empty one. -/

theorem doParse_end_of_opening (fuel : Nat)
    (h : after.headD 0 = 'l'.toUInt8 ∨ after.headD 0 = 'd'.toUInt8) :
    ∃ data, doParse (fuel + 2) after 0 = (2, some data) := by
  rcases h with h | h
  · refine ⟨.list [], ?_⟩
    rw [doParse]
    simp only [h, parseList]
    rfl
  · refine ⟨.dictionary [], ?_⟩
    rw [doParse]
    simp only [h, parseDictionary]
    rfl

theorem doParse_end (hl : after.headD 0 ≠ 'l'.toUInt8) (hd : after.headD 0 ≠ 'd'.toUInt8) :
    doParse fuel after 0 = failed := by
  cases fuel with
  | zero => rfl
  | succ fuel =>
    rw [doParse]
    split
    · simp [parseString]
    · split
      · simp [parseInteger]
      · rfl

theorem parseDatasFrom_flatMap (hdistinct : ∀ v ∈ values, v.Distinct)
    (hsize : ∀ v ∈ values, (doEncode v).length < 2 ^ 31) (after : Bytes)
    (hfuel : values.length ≤ fuel) :
    parseDatasFrom fuel (values.flatMap doEncode ++ after) (values.flatMap doEncode).length =
      values.map restored ++ parseDatasFrom (fuel - values.length) after 0 := by
  induction values generalizing fuel with
  | nil => simp
  | cons v values ih =>
    obtain ⟨fuel, rfl⟩ : ∃ k, fuel = k + 1 := ⟨fuel - 1, by simp at hfuel; omega⟩
    obtain ⟨hfirst, hdistinct⟩ := List.forall_mem_cons.mp hdistinct
    obtain ⟨hshort, hsize⟩ := List.forall_mem_cons.mp hsize
    have hv := parses v hfirst ((doEncode v ++ (values.flatMap doEncode ++ after)).length + 1)
      (values.flatMap doEncode ++ after) ((doEncode v).length + (values.flatMap doEncode).length)
      (by simp; omega) (by omega) hshort
    have hrest := ih hdistinct hsize (Nat.le_of_succ_le_succ hfuel)
    have hleft : (((doEncode v).length : Int) + (values.flatMap doEncode).length) -
        (doEncode v).length = (values.flatMap doEncode).length := by omega
    rw [List.flatMap_cons, List.append_assoc, List.length_append, Int.natCast_add,
      parseDatasFrom, hv]
    simp only [if_neg (Int.not_lt.mpr (Int.natCast_nonneg _)), Int.toNat_natCast, List.drop_left,
      hleft, hrest]
    simp

theorem length_le_flatMap (values : List BaseData) :
    values.length ≤ (values.flatMap doEncode).length := by
  induction values with
  | nil => exact le_rfl
  | cons v values ih =>
    have := length_doEncode_pos v
    rw [List.flatMap_cons, List.length_append, List.length_cons]
    omega

theorem forall₂_same_restored (hdistinct : ∀ v ∈ values, v.Distinct) :
    List.Forall₂ Same values (values.map restored) := by
  induction values with
  | nil => exact .nil
  | cons v values ih =>
    obtain ⟨hfirst, hdistinct⟩ := List.forall_mem_cons.mp hdistinct
    exact .cons (same_restored v hfirst) (ih hdistinct)

theorem parseDatas_flatMap (hdistinct : ∀ v ∈ values, v.Distinct)
    (hsize : ∀ v ∈ values, (doEncode v).length < 2 ^ 31) (after : Bytes) :
    List.Forall₂ Same values (parseDatas (values.flatMap doEncode) after) ↔
      after.headD 0 ≠ 'l'.toUInt8 ∧ after.headD 0 ≠ 'd'.toUInt8 := by
  have hlength := length_le_flatMap values
  have hfuel : values.length ≤ (values.flatMap doEncode ++ after).length := by
    rw [List.length_append]
    omega
  rw [parseDatas, parseDatasFrom_flatMap hdistinct hsize after (Nat.le_succ_of_le hfuel),
    Nat.succ_sub hfuel]
  rw [parseDatasFrom]
  by_cases hopen : after.headD 0 = 'l'.toUInt8 ∨ after.headD 0 = 'd'.toUInt8
  · obtain ⟨n, hn⟩ : ∃ k, after.length + 1 = k + 2 := by
      cases after with
      | nil => exact absurd hopen (by decide)
      | cons c rest => exact ⟨rest.length, rfl⟩
    obtain ⟨data, hparse⟩ := doParse_end_of_opening n hopen
    rw [hn, hparse]
    refine iff_of_false (fun h => ?_) (fun h => ?_)
    · have := h.length_eq
      simp at this
    · exact hopen.elim h.1 h.2
  · rw [not_or] at hopen
    rw [doParse_end hopen.1 hopen.2]
    exact iff_of_true (by simpa [failed] using forall₂_same_restored hdistinct) hopen

/-- Every tree is parsed back from its encoding.  A sequence of trees is parsed back from the
concatenation exactly if the byte after it opens neither a list nor a dictionary. -/
theorem parse_encode_and_parseDatas_iff (values : List BaseData)
    (hdistinct : ∀ v ∈ values, v.Distinct) (hsize : ∀ v ∈ values, (encode v).length < 2 ^ 31)
    (after : Bytes) :
    (∀ v ∈ values, ∃ w, parse (encode v) after = some w ∧ v.Same w) ∧
      (List.Forall₂ Same values (parseDatas (values.flatMap encode) after) ↔
        after.headD 0 ≠ 'l'.toUInt8 ∧ after.headD 0 ≠ 'd'.toUInt8) := by
  refine ⟨fun v hmem => ⟨restored v, ?_, ?_⟩, parseDatas_flatMap hdistinct hsize after⟩
  · exact parse_doEncode (hdistinct v hmem) (hsize v hmem) after
  · exact same_restored v (hdistinct v hmem)

def torrentValues : List BaseData :=
  [.dictionary [([98], .integer 7), ([97], .list [.string [], .integer (-1)])], .string [101]]

theorem parse_encode_and_parseDatas_torrentValues :
    (∀ v ∈ torrentValues, v.Distinct) ∧ (∀ v ∈ torrentValues, (encode v).length < 2 ^ 31) ∧
      List.Forall₂ Same torrentValues (parseDatas (torrentValues.flatMap encode) [0]) := by
  have hdistinct : ∀ v ∈ torrentValues, v.Distinct := by
    simp [torrentValues, Distinct, DistinctItems, DistinctEntries]
  have hsize : ∀ v ∈ torrentValues, (encode v).length < 2 ^ 31 := by decide +kernel
  exact ⟨hdistinct, hsize,
    (parse_encode_and_parseDatas_iff torrentValues hdistinct hsize [0]).2.mpr (by decide)⟩

/-- The text `i1e` and then the bytes `le` behind its end: a second value is reported. -/
theorem not_parseDatas_encode_opening :
    ¬ List.Forall₂ Same [.integer 1]
      (parseDatas (encode (.integer 1)) ['l'.toUInt8, 'e'.toUInt8]) :=
  fun h => absurd h.length_eq (by decide +kernel)

end BencodingDataConverter

end ServerLib.BitTorrent

import ServerLib.Http2.HpackExchange
import ServerLib.Http2.Session

/-! The size of the decoder's table against the limit that the session advertises.  The decoder
takes its limit from the blocks alone, so that the advertised one holds as long as no block raises
it. -/

namespace ServerLib.Http2

open Lib DynamicTable Option

/-- The table keeps to its own limit, which is at most `limit`. -/
structure DynamicTable.Within (limit : Nat) (t : DynamicTable) : Prop where
  size : t.size ≤ t.maxTableSize
  max : t.maxTableSize ≤ limit

variable {limit : Nat} {t : DynamicTable} {dec dec' : HpackDecoder}

theorem DynamicTable.size_popWhile_le (cond : DynamicTable → Bool) (n : Nat) (t : DynamicTable) :
    (t.popWhile cond n).size ≤ t.size := by
  induction n generalizing t with
  | zero => rfl
  | succ n ih =>
    rw [popWhile]
    split
    · have hpop : t.popBack.size ≤ t.size := by simp [popBack]
      exact (ih t.popBack).trans hpop
    · rfl

theorem DynamicTable.Within.addToDynamicTable (h : t.Within limit) (name value : List UInt8) :
    (t.addToDynamicTable name value).Within limit := by
  refine ⟨?_, by simpa using h.max⟩
  rw [maxTableSize_addToDynamicTable]
  by_cases hfits : 32 + name.length + value.length ≤ t.maxTableSize
  · rw [size_eq]
    exact weight_addToDynamicTable_le hfits
  · rw [DynamicTable.addToDynamicTable, if_pos (by omega)]
    exact (size_popWhile_le _ _ t).trans h.size

theorem DynamicTable.within_setMaxTableSize (t : DynamicTable) {newMaxSize : Nat}
    (h : newMaxSize ≤ limit) : (t.setMaxTableSize newMaxSize).Within limit := by
  have hmax : (t.setMaxTableSize newMaxSize).maxTableSize = newMaxSize :=
    maxTableSize_popWhile _ _ _
  refine ⟨?_, by omega⟩
  rw [hmax, size_eq, entries_setMaxTableSize]
  exact weight_fitting_le _ _ _

/-- No size update above `limit` is at the head of a block. -/
def modestHead (limit : Nat) (first : UInt8) (rest : List UInt8) : Bool :=
  first.toNat &&& 0xE0 ≠ 0x20 || (decodePrefixedInteger first 5 rest).all (·.1 ≤ limit)

/-- In its first `n` turns the loop of `decode` meets no size update above `limit`. -/
def modest (limit : Nat) : Nat → HpackDecoder → List UInt8 → Bool
  | n + 1, dec, first :: rest =>
    modestHead limit first rest &&
      (dec.decodeField first rest).all fun turn => modest limit n turn.2.2 turn.2.1
  | _, _, _ => true

theorem within_decodeField (h : dec.table.Within limit) (hhead : modestHead limit first rest)
    (hturn : dec.decodeField first rest = some (header, rest', dec')) :
    dec'.table.Within limit := by
  rw [HpackDecoder.decodeField] at hturn
  split_ifs at hturn with h80 h40 h00 h20
  · obtain ⟨index, -, hturn⟩ := bind_eq_some_iff.mp hturn
    obtain ⟨entry, -, hturn⟩ := bind_eq_some_iff.mp hturn
    cases hturn
    exact h
  · obtain ⟨name, -, hturn⟩ := bind_eq_some_iff.mp hturn
    obtain ⟨value, -, hturn⟩ := bind_eq_some_iff.mp hturn
    cases hturn
    exact h.addToDynamicTable _ _
  · obtain ⟨name, -, hturn⟩ := bind_eq_some_iff.mp hturn
    obtain ⟨value, -, hturn⟩ := bind_eq_some_iff.mp hturn
    cases hturn
    exact h
  · obtain ⟨update, hupdate, hturn⟩ := bind_eq_some_iff.mp hturn
    cases hturn
    apply within_setMaxTableSize
    simpa [modestHead, h20, hupdate] using hhead

theorem within_decodeFields (n : Nat) (block : List UInt8) (h : dec.table.Within limit)
    (hmodest : modest limit n dec block) : (dec.decodeFields n block).2.table.Within limit := by
  fun_induction HpackDecoder.decodeFields n dec block with
  | case1 | case2 | case3 => exact h
  | case4 n dec first rest header rest' dec' hturn later ih =>
    simp only [modest, hturn, all_some, Bool.and_eq_true] at hmodest
    exact ih (within_decodeField h hmodest.1 hturn) hmodest.2

def feed (dec : HpackDecoder) (block : List UInt8) : HpackDecoder := (dec.decode block).2

/-- After any blocks without a size update above the advertised limit, and any number of turns in
one more, the size of the table is that of its entries and keeps to the limit. -/
theorem table_within_advertised (blocks : List (List UInt8)) (block : List UInt8) (n : Nat)
    (hblocks : Along feed (fun dec block => modest localSettings.headerTableSize block.length dec
      block) (HpackDecoder.new 4096) blocks)
    (hblock : modest localSettings.headerTableSize n (run feed (HpackDecoder.new 4096) blocks)
      block) :
    let table := ((run feed (HpackDecoder.new 4096) blocks).decodeFields n block).2.table
    table.size = (table.entries.map DynamicEntry.size).sum ∧
      table.size ≤ localSettings.headerTableSize := by
  intro table
  have hnew : (HpackDecoder.new 4096).table.Within localSettings.headerTableSize :=
    ⟨Nat.zero_le _, le_rfl⟩
  have hrun := run_invariant (I := fun dec => dec.table.Within localSettings.headerTableSize)
    (fun dec block h hmodest => within_decodeFields _ block h hmodest) hnew hblocks
  have htable := within_decodeFields n block hrun hblock
  exact ⟨table.size_eq, htable.size.trans htable.max⟩

/-- A literal that is stored, and then a size update down to 0. -/
theorem table_within_advertised_update :
    let table := ((run feed (HpackDecoder.new 4096) [[0x40, 1, 97, 1, 98]]).decodeFields 1
      [0x20]).2.table
    table.size = (table.entries.map DynamicEntry.size).sum ∧
      table.size ≤ localSettings.headerTableSize :=
  table_within_advertised [[0x40, 1, 97, 1, 98]] [0x20] 1 (by decide) (by decide)

/-- A size update to 8192, and a literal with a value of 5000 bytes. -/
theorem not_table_within_advertised :
    localSettings.headerTableSize < (((Session.new true true true).hpackDecoder.decode
      ([0x3f, 0xe1, 0x3f, 0x40, 1, 97, 0x7f, 0x89, 0x26] ++
        List.replicate 5000 98)).2.table.size) := by
  decide +kernel

end ServerLib.Http2

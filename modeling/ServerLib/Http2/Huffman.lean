import ServerLib.Lib.Bits
import ServerLib.Lib.CodeTree
import Mathlib.Tactic.IntervalCases

/-! The Huffman code of `huffman_codec.cpp`.  The array of nodes that the source links by index is a
tree here, and the position in it is the subtree that is left.  A string that is encoded decodes to
itself: the code is prefix-free, and the bits that pad the last byte lie on the path of the
end-of-string symbol, too short to reach it. -/

namespace ServerLib.Http2

open Lib List

/-- An entry of `kHuffTable`.  The symbol -1 of the end of the string is `none`. -/
structure HuffSym where
  code : Nat
  bits : Nat
  symbol : Option UInt8

def kHuffTable : List HuffSym :=
  [⟨0x1ff8, 13, some 0⟩, ⟨0x7fffd8, 23, some 1⟩, ⟨0xfffffe2, 28, some 2⟩,
   ⟨0xfffffe3, 28, some 3⟩, ⟨0xfffffe4, 28, some 4⟩, ⟨0xfffffe5, 28, some 5⟩,
   ⟨0xfffffe6, 28, some 6⟩, ⟨0xfffffe7, 28, some 7⟩, ⟨0xfffffe8, 28, some 8⟩,
   ⟨0xffffea, 24, some 9⟩, ⟨0x3ffffffc, 30, some 10⟩, ⟨0xfffffe9, 28, some 11⟩,
   ⟨0xfffffea, 28, some 12⟩, ⟨0x3ffffffd, 30, some 13⟩, ⟨0xfffffeb, 28, some 14⟩,
   ⟨0xfffffec, 28, some 15⟩, ⟨0xfffffed, 28, some 16⟩, ⟨0xfffffee, 28, some 17⟩,
   ⟨0xfffffef, 28, some 18⟩, ⟨0xffffff0, 28, some 19⟩, ⟨0xffffff1, 28, some 20⟩,
   ⟨0xffffff2, 28, some 21⟩, ⟨0x3ffffffe, 30, some 22⟩, ⟨0xffffff3, 28, some 23⟩,
   ⟨0xffffff4, 28, some 24⟩, ⟨0xffffff5, 28, some 25⟩, ⟨0xffffff6, 28, some 26⟩,
   ⟨0xffffff7, 28, some 27⟩, ⟨0xffffff8, 28, some 28⟩, ⟨0xffffff9, 28, some 29⟩,
   ⟨0xffffffa, 28, some 30⟩, ⟨0xffffffb, 28, some 31⟩, ⟨0x14, 6, some 32⟩, ⟨0x3f8, 10, some 33⟩,
   ⟨0x3f9, 10, some 34⟩, ⟨0xffa, 12, some 35⟩, ⟨0x1ff9, 13, some 36⟩, ⟨0x15, 6, some 37⟩,
   ⟨0xf8, 8, some 38⟩, ⟨0x7fa, 11, some 39⟩, ⟨0x3fa, 10, some 40⟩, ⟨0x3fb, 10, some 41⟩,
   ⟨0xf9, 8, some 42⟩, ⟨0x7fb, 11, some 43⟩, ⟨0xfa, 8, some 44⟩, ⟨0x16, 6, some 45⟩,
   ⟨0x17, 6, some 46⟩, ⟨0x18, 6, some 47⟩, ⟨0x0, 5, some 48⟩, ⟨0x1, 5, some 49⟩,
   ⟨0x2, 5, some 50⟩, ⟨0x19, 6, some 51⟩, ⟨0x1a, 6, some 52⟩, ⟨0x1b, 6, some 53⟩,
   ⟨0x1c, 6, some 54⟩, ⟨0x1d, 6, some 55⟩, ⟨0x1e, 6, some 56⟩, ⟨0x1f, 6, some 57⟩,
   ⟨0x5c, 7, some 58⟩, ⟨0xfb, 8, some 59⟩, ⟨0x7ffc, 15, some 60⟩, ⟨0x20, 6, some 61⟩,
   ⟨0xffb, 12, some 62⟩, ⟨0x3fc, 10, some 63⟩, ⟨0x1ffa, 13, some 64⟩, ⟨0x21, 6, some 65⟩,
   ⟨0x5d, 7, some 66⟩, ⟨0x5e, 7, some 67⟩, ⟨0x5f, 7, some 68⟩, ⟨0x60, 7, some 69⟩,
   ⟨0x61, 7, some 70⟩, ⟨0x62, 7, some 71⟩, ⟨0x63, 7, some 72⟩, ⟨0x64, 7, some 73⟩,
   ⟨0x65, 7, some 74⟩, ⟨0x66, 7, some 75⟩, ⟨0x67, 7, some 76⟩, ⟨0x68, 7, some 77⟩,
   ⟨0x69, 7, some 78⟩, ⟨0x6a, 7, some 79⟩, ⟨0x6b, 7, some 80⟩, ⟨0x6c, 7, some 81⟩,
   ⟨0x6d, 7, some 82⟩, ⟨0x6e, 7, some 83⟩, ⟨0x6f, 7, some 84⟩, ⟨0x70, 7, some 85⟩,
   ⟨0x71, 7, some 86⟩, ⟨0x72, 7, some 87⟩, ⟨0xfc, 8, some 88⟩, ⟨0x73, 7, some 89⟩,
   ⟨0xfd, 8, some 90⟩, ⟨0x1ffb, 13, some 91⟩, ⟨0x7fff0, 19, some 92⟩, ⟨0x1ffc, 13, some 93⟩,
   ⟨0x3ffc, 14, some 94⟩, ⟨0x22, 6, some 95⟩, ⟨0x7ffd, 15, some 96⟩, ⟨0x3, 5, some 97⟩,
   ⟨0x23, 6, some 98⟩, ⟨0x4, 5, some 99⟩, ⟨0x24, 6, some 100⟩, ⟨0x5, 5, some 101⟩,
   ⟨0x25, 6, some 102⟩, ⟨0x26, 6, some 103⟩, ⟨0x27, 6, some 104⟩, ⟨0x6, 5, some 105⟩,
   ⟨0x74, 7, some 106⟩, ⟨0x75, 7, some 107⟩, ⟨0x28, 6, some 108⟩, ⟨0x29, 6, some 109⟩,
   ⟨0x2a, 6, some 110⟩, ⟨0x7, 5, some 111⟩, ⟨0x2b, 6, some 112⟩, ⟨0x76, 7, some 113⟩,
   ⟨0x2c, 6, some 114⟩, ⟨0x8, 5, some 115⟩, ⟨0x9, 5, some 116⟩, ⟨0x2d, 6, some 117⟩,
   ⟨0x77, 7, some 118⟩, ⟨0x78, 7, some 119⟩, ⟨0x79, 7, some 120⟩, ⟨0x7a, 7, some 121⟩,
   ⟨0x7b, 7, some 122⟩, ⟨0x7ffe, 15, some 123⟩, ⟨0x7fc, 11, some 124⟩, ⟨0x3ffd, 14, some 125⟩,
   ⟨0x1ffd, 13, some 126⟩, ⟨0xffffffc, 28, some 127⟩, ⟨0xfffe6, 20, some 128⟩,
   ⟨0x3fffd2, 22, some 129⟩, ⟨0xfffe7, 20, some 130⟩, ⟨0xfffe8, 20, some 131⟩,
   ⟨0x3fffd3, 22, some 132⟩, ⟨0x3fffd4, 22, some 133⟩, ⟨0x3fffd5, 22, some 134⟩,
   ⟨0x7fffd9, 23, some 135⟩, ⟨0x3fffd6, 22, some 136⟩, ⟨0x7fffda, 23, some 137⟩,
   ⟨0x7fffdb, 23, some 138⟩, ⟨0x7fffdc, 23, some 139⟩, ⟨0x7fffdd, 23, some 140⟩,
   ⟨0x7fffde, 23, some 141⟩, ⟨0xffffeb, 24, some 142⟩, ⟨0x7fffdf, 23, some 143⟩,
   ⟨0xffffec, 24, some 144⟩, ⟨0xffffed, 24, some 145⟩, ⟨0x3fffd7, 22, some 146⟩,
   ⟨0x7fffe0, 23, some 147⟩, ⟨0xffffee, 24, some 148⟩, ⟨0x7fffe1, 23, some 149⟩,
   ⟨0x7fffe2, 23, some 150⟩, ⟨0x7fffe3, 23, some 151⟩, ⟨0x7fffe4, 23, some 152⟩,
   ⟨0x1fffdc, 21, some 153⟩, ⟨0x3fffd8, 22, some 154⟩, ⟨0x7fffe5, 23, some 155⟩,
   ⟨0x3fffd9, 22, some 156⟩, ⟨0x7fffe6, 23, some 157⟩, ⟨0x7fffe7, 23, some 158⟩,
   ⟨0xffffef, 24, some 159⟩, ⟨0x3fffda, 22, some 160⟩, ⟨0x1fffdd, 21, some 161⟩,
   ⟨0xfffe9, 20, some 162⟩, ⟨0x3fffdb, 22, some 163⟩, ⟨0x3fffdc, 22, some 164⟩,
   ⟨0x7fffe8, 23, some 165⟩, ⟨0x7fffe9, 23, some 166⟩, ⟨0x1fffde, 21, some 167⟩,
   ⟨0x7fffea, 23, some 168⟩, ⟨0x3fffdd, 22, some 169⟩, ⟨0x3fffde, 22, some 170⟩,
   ⟨0xfffff0, 24, some 171⟩, ⟨0x1fffdf, 21, some 172⟩, ⟨0x3fffdf, 22, some 173⟩,
   ⟨0x7fffeb, 23, some 174⟩, ⟨0x7fffec, 23, some 175⟩, ⟨0x1fffe0, 21, some 176⟩,
   ⟨0x1fffe1, 21, some 177⟩, ⟨0x3fffe0, 22, some 178⟩, ⟨0x1fffe2, 21, some 179⟩,
   ⟨0x7fffed, 23, some 180⟩, ⟨0x3fffe1, 22, some 181⟩, ⟨0x7fffee, 23, some 182⟩,
   ⟨0x7fffef, 23, some 183⟩, ⟨0xfffea, 20, some 184⟩, ⟨0x3fffe2, 22, some 185⟩,
   ⟨0x3fffe3, 22, some 186⟩, ⟨0x3fffe4, 22, some 187⟩, ⟨0x7ffff0, 23, some 188⟩,
   ⟨0x3fffe5, 22, some 189⟩, ⟨0x3fffe6, 22, some 190⟩, ⟨0x7ffff1, 23, some 191⟩,
   ⟨0x3ffffe0, 26, some 192⟩, ⟨0x3ffffe1, 26, some 193⟩, ⟨0xfffeb, 20, some 194⟩,
   ⟨0x7fff1, 19, some 195⟩, ⟨0x3fffe7, 22, some 196⟩, ⟨0x7ffff2, 23, some 197⟩,
   ⟨0x3fffe8, 22, some 198⟩, ⟨0x1ffffec, 25, some 199⟩, ⟨0x3ffffe2, 26, some 200⟩,
   ⟨0x3ffffe3, 26, some 201⟩, ⟨0x3ffffe4, 26, some 202⟩, ⟨0x7ffffde, 27, some 203⟩,
   ⟨0x7ffffdf, 27, some 204⟩, ⟨0x3ffffe5, 26, some 205⟩, ⟨0xfffff1, 24, some 206⟩,
   ⟨0x1ffffed, 25, some 207⟩, ⟨0x7fff2, 19, some 208⟩, ⟨0x1fffe3, 21, some 209⟩,
   ⟨0x3ffffe6, 26, some 210⟩, ⟨0x7ffffe0, 27, some 211⟩, ⟨0x7ffffe1, 27, some 212⟩,
   ⟨0x3ffffe7, 26, some 213⟩, ⟨0x7ffffe2, 27, some 214⟩, ⟨0xfffff2, 24, some 215⟩,
   ⟨0x1fffe4, 21, some 216⟩, ⟨0x1fffe5, 21, some 217⟩, ⟨0x3ffffe8, 26, some 218⟩,
   ⟨0x3ffffe9, 26, some 219⟩, ⟨0xffffffd, 28, some 220⟩, ⟨0x7ffffe3, 27, some 221⟩,
   ⟨0x7ffffe4, 27, some 222⟩, ⟨0x7ffffe5, 27, some 223⟩, ⟨0xfffec, 20, some 224⟩,
   ⟨0xfffff3, 24, some 225⟩, ⟨0xfffed, 20, some 226⟩, ⟨0x1fffe6, 21, some 227⟩,
   ⟨0x3fffe9, 22, some 228⟩, ⟨0x1fffe7, 21, some 229⟩, ⟨0x1fffe8, 21, some 230⟩,
   ⟨0x7ffff3, 23, some 231⟩, ⟨0x3fffea, 22, some 232⟩, ⟨0x3fffeb, 22, some 233⟩,
   ⟨0x1ffffee, 25, some 234⟩, ⟨0x1ffffef, 25, some 235⟩, ⟨0xfffff4, 24, some 236⟩,
   ⟨0xfffff5, 24, some 237⟩, ⟨0x3ffffea, 26, some 238⟩, ⟨0x7ffff4, 23, some 239⟩,
   ⟨0x3ffffeb, 26, some 240⟩, ⟨0x7ffffe6, 27, some 241⟩, ⟨0x3ffffec, 26, some 242⟩,
   ⟨0x3ffffed, 26, some 243⟩, ⟨0x7ffffe7, 27, some 244⟩, ⟨0x7ffffe8, 27, some 245⟩,
   ⟨0x7ffffe9, 27, some 246⟩, ⟨0x7ffffea, 27, some 247⟩, ⟨0x7ffffeb, 27, some 248⟩,
   ⟨0xffffffe, 28, some 249⟩, ⟨0x7ffffec, 27, some 250⟩, ⟨0x7ffffed, 27, some 251⟩,
   ⟨0x7ffffee, 27, some 252⟩, ⟨0x7ffffef, 27, some 253⟩, ⟨0x7fffff0, 27, some 254⟩,
   ⟨0x3ffffee, 26, some 255⟩, ⟨0x3fffffff, 30, none⟩]

namespace HuffSym

/-- The code word, as the path that `HuffTree::insert` follows. -/
def path (e : HuffSym) : List Bool := bitsOf e.bits e.code

end HuffSym

/-- `build_tree`.  A node without a symbol is one with `kNoSymbol`, and `some none` stands for
`kEosSymbol`. -/
def buildTree : CodeTree (Option UInt8) :=
  (CodeTree.node none .absent .absent).ofTable (kHuffTable.map fun e => (e.path, e.symbol))

variable (b : UInt8)

/-- The entry of `get_encode_table` for a byte. -/
def encodeEntry : HuffSym :=
  (kHuffTable.find? fun e => e.symbol == some b).getD ⟨0, 0, some b⟩

/-- The loop in `huffman_encode` that takes whole bytes from the top of `bits`: the bytes, and the
number of bits that are left. -/
def drainBits (bits : Nat) : Nat → List UInt8 × Nat
  | nbits + 8 =>
    let rest := drainBits bits nbits
    (UInt8.ofNat ((bits >>> nbits) &&& 0xff) :: rest.1, rest.2)
  | nbits => ([], nbits)

/-- The rest of `huffman_encode` with the word `bits`, of which the low `nbits` bits are still to
be written. -/
def encodeLoop (bits nbits : Nat) : List UInt8 → List UInt8
  | [] =>
    if 0 < nbits then
      let bits := (bits <<< (8 - nbits)) % 2 ^ 64 ||| (0xff >>> nbits)
      [UInt8.ofNat (bits &&& 0xff)]
    else []
  | b :: data =>
    let entry := encodeEntry b
    let bits := (bits <<< entry.bits) % 2 ^ 64 ||| entry.code
    let drained := drainBits bits (nbits + entry.bits)
    drained.1 ++ encodeLoop bits drained.2 data

variable (data : List UInt8)

def huffmanEncode : List UInt8 := encodeLoop 0 0 data

/-- The loop of `huffman_decode` from `state` on, where `none` is the root: the symbols, and the
state at the end. -/
def decodeLoop (state : Option (CodeTree (Option UInt8))) :
    List Bool → Option (List UInt8 × Option (CodeTree (Option UInt8)))
  | [] => some ([], state)
  | bit :: rest =>
    let next := (state.getD buildTree).child bit
    if next.present then
      match next.symbol with
      | some (some symbol) => (decodeLoop none rest).map fun r => (symbol :: r.1, r.2)
      | some none => none
      | none =>
        if (next.child false).present || (next.child true).present then decodeLoop (some next) rest
        else none
    else none

/-- The loop of `huffman_decode` over the padding: from the state it follows ones up to the end of
the string. -/
def padded : CodeTree (Option UInt8) → Bool
  | .absent => false
  | .node (some none) _ _ => true
  | .node (some (some _)) _ _ => false
  | .node none _ child1 => padded child1

/-- The end of `huffman_decode`, after its loop has written `out` and stopped at `state`. -/
def finishDecode : List UInt8 × Option (CodeTree (Option UInt8)) → Option (List UInt8)
  | (out, none) => some out
  | (out, some state) => if padded state then some out else none

def huffmanDecode : Option (List UInt8) :=
  (decodeLoop none (bitsOfBytes data)).bind finishDecode

/-- The tree fits in the array of 4096 nodes, so `add_node` never fails. -/
theorem size_buildTree : buildTree.size ≤ 4096 := by decide +kernel

/-- The code is prefix-free, a code fits in its bits, every symbol has an entry, and the code word
of the end of the string is made of ones. -/
theorem kHuffTable_checked :
    CodeTree.prefixFree 30 (kHuffTable.map (·.path)) = true ∧
    (∀ e ∈ kHuffTable, 0 < e.bits ∧ e.bits ≤ 30 ∧ e.code < 2 ^ e.bits) ∧
    kHuffTable.map (·.symbol) = (range 256).map (some ∘ UInt8.ofNat) ++ [none] ∧
    ∀ e ∈ kHuffTable, e.symbol = none → e.path = replicate 30 true := by
  decide +kernel

theorem encodeEntry_spec : encodeEntry b ∈ kHuffTable ∧ (encodeEntry b).symbol = some b := by
  have hmem : some b ∈ kHuffTable.map (·.symbol) := by
    rw [kHuffTable_checked.2.2.1]
    refine mem_append_left _ (mem_map.mpr ⟨b.toNat, ?_, ?_⟩)
    · exact mem_range.mpr b.toNat_lt
    · simp
  obtain ⟨e, he, hsymbol⟩ := mem_map.mp hmem
  obtain ⟨e', he'⟩ : ∃ e', kHuffTable.find? (fun e => e.symbol == some b) = some e' := by
    rw [← Option.isSome_iff_exists, find?_isSome]
    exact ⟨e, he, by simp [hsymbol]⟩
  rw [encodeEntry, he', Option.getD_some]
  exact ⟨mem_of_find?_eq_some he', by simpa using find?_some he'⟩

theorem buildTree_leads (h : e ∈ kHuffTable) : buildTree.Leads e.path e.symbol := by
  have hclear : ∀ bits,
      (CodeTree.node none .absent .absent : CodeTree (Option UInt8)).Clear bits := by
    intro bits
    cases bits with
    | nil => trivial
    | cons bit bits => cases bit <;> exact ⟨rfl, CodeTree.clear_absent bits⟩
  have hfree : ((kHuffTable.map fun e => (e.path, e.symbol)).map Prod.fst).Pairwise
      CodeTree.Apart := by
    rw [map_map]
    exact CodeTree.pairwise_of_prefixFree 30 kHuffTable_checked.1
  exact CodeTree.leads_ofTable hfree (fun e _ => hclear e.1)
    (mem_map_of_mem (f := fun e => (e.path, e.symbol)) h)

theorem drainBits_spec (bits nbits : Nat) :
    bitsOf nbits bits =
      bitsOfBytes (drainBits bits nbits).1 ++ bitsOf (drainBits bits nbits).2 bits ∧
    (drainBits bits nbits).2 < 8 := by
  fun_induction drainBits bits nbits with
  | case1 nbits rest ih =>
    refine ⟨?_, ih.2⟩
    have hbyte : (bits >>> nbits) &&& 0xff = (bits >>> nbits) % 2 ^ 8 :=
      Nat.and_two_pow_sub_one_eq_mod _ 8
    rw [show nbits.succ.succ.succ.succ.succ.succ.succ.succ = 8 + nbits from Nat.add_comm nbits 8,
      bitsOf_add, ih.1, bitsOfBytes_cons, bitsOf_ofNat, hbyte,
      bitsOf_mod _ (Nat.le_refl 8), append_assoc]
  | case2 nbits hlt =>
    refine ⟨rfl, ?_⟩
    by_contra hle
    exact hlt (nbits - 8) (by omega)

/-- The bits of the output are those still to be written, the code words, and less than a byte of
ones. -/
theorem bitsOfBytes_encodeLoop (bits nbits : Nat) (hn : nbits < 8) (data : List UInt8) :
    ∃ pad < 8, bitsOfBytes (encodeLoop bits nbits data) =
      bitsOf nbits bits ++ (data.flatMap fun b => (encodeEntry b).path) ++
        replicate pad true := by
  induction data generalizing bits nbits with
  | nil =>
    rw [encodeLoop]
    split_ifs with hpos
    · refine ⟨8 - nbits, by omega, ?_⟩
      have hones : 0xff >>> nbits = 2 ^ (8 - nbits) - 1 := by
        interval_cases nbits <;> rfl
      have hlt : 0xff >>> nbits < 2 ^ (8 - nbits) := by
        rw [hones]
        exact Nat.sub_lt (Nat.two_pow_pos _) Nat.one_pos
      have hword := bitsOf_shiftLeft_or (v := bits) (w := 64)
        (show nbits + (8 - nbits) ≤ 64 by omega) hlt
      rw [show nbits + (8 - nbits) = 8 by omega] at hword
      have hbyte : ((bits <<< (8 - nbits)) % 2 ^ 64 ||| (0xff >>> nbits)) &&& 0xff =
          ((bits <<< (8 - nbits)) % 2 ^ 64 ||| (0xff >>> nbits)) % 2 ^ 8 :=
        Nat.and_two_pow_sub_one_eq_mod _ 8
      rw [bitsOfBytes_cons, bitsOf_ofNat, hbyte, bitsOf_mod _ (Nat.le_refl 8), hword, hones,
        bitsOf_two_pow_sub_one]
      simp
    · refine ⟨0, by decide, ?_⟩
      rw [show nbits = 0 by omega]
      rfl
  | cons b data ih =>
    obtain ⟨-, hbits, hcode⟩ := kHuffTable_checked.2.1 _ (encodeEntry_spec b).1
    obtain ⟨hdrain, hleft⟩ := drainBits_spec
      ((bits <<< (encodeEntry b).bits) % 2 ^ 64 ||| (encodeEntry b).code)
      (nbits + (encodeEntry b).bits)
    obtain ⟨pad, hpad, hrest⟩ := ih
      ((bits <<< (encodeEntry b).bits) % 2 ^ 64 ||| (encodeEntry b).code) _ hleft
    refine ⟨pad, hpad, ?_⟩
    rw [encodeLoop, bitsOfBytes_append, hrest, ← append_assoc, ← append_assoc, ← hdrain,
      bitsOf_shiftLeft_or (by omega) hcode, flatMap_cons, HuffSym.path, append_assoc,
      append_assoc, append_assoc, append_assoc]

theorem decodeLoop_append {path : List Bool} {b : UInt8}
    (h : (state.getD buildTree).Leads path (some b)) (hpath : path ≠ []) (rest : List Bool) :
    decodeLoop state (path ++ rest) =
      (decodeLoop none rest).map fun r => (b :: r.1, r.2) := by
  induction path generalizing state with
  | nil => contradiction
  | cons bit path ih =>
    obtain ⟨-, hleads⟩ := h
    rw [cons_append, decodeLoop, if_pos hleads.present]
    cases path with
    | nil =>
      rw [show ((state.getD buildTree).child bit).symbol = some (some b) from hleads]
      rfl
    | cons bit' path =>
      -- a node inside the path has a child, since the path goes on
      have hchild : ((((state.getD buildTree).child bit).child false).present ||
          (((state.getD buildTree).child bit).child true).present) = true := by
        have hpresent := hleads.2.present
        cases bit' <;> simp [hpresent]
      rw [hleads.1]
      rw [if_pos hchild]
      exact @ih (some ((state.getD buildTree).child bit)) hleads (cons_ne_nil _ _)

theorem decodeLoop_codes (rest : List Bool) :
    decodeLoop none ((data.flatMap fun b => (encodeEntry b).path) ++ rest) =
      (decodeLoop none rest).map fun r => (data ++ r.1, r.2) := by
  induction data with
  | nil => simp
  | cons b data ih =>
    have hne : (encodeEntry b).path ≠ [] := by
      have hpos := (kHuffTable_checked.2.1 _ (encodeEntry_spec b).1).1
      rw [← length_pos_iff, HuffSym.path, length_bitsOf]
      exact hpos
    have hleads : ((none : Option (CodeTree (Option UInt8))).getD buildTree).Leads
        (encodeEntry b).path (some b) := by
      rw [Option.getD_none, ← (encodeEntry_spec b).2]
      exact buildTree_leads (encodeEntry_spec b).1
    rw [flatMap_cons, append_assoc, decodeLoop_append hleads hne, ih, Option.map_map]
    rfl

theorem finishDecode_padding : ∀ pad < 30,
    (decodeLoop none (replicate pad true)).bind finishDecode = some [] := by
  decide +kernel

theorem eos_leads : buildTree.Leads (replicate 30 true) none := by
  have hmem : none ∈ kHuffTable.map (·.symbol) := by
    rw [kHuffTable_checked.2.2.1]
    simp
  obtain ⟨e, he, hsymbol⟩ := mem_map.mp hmem
  rw [← kHuffTable_checked.2.2.2 e he hsymbol, ← hsymbol]
  exact buildTree_leads he

theorem finishDecode_append (out : List UInt8) (state : Option (CodeTree (Option UInt8))) :
    finishDecode (data ++ out, state) = (finishDecode (out, state)).map (data ++ ·) := by
  cases state with
  | none => rfl
  | some state =>
    rw [finishDecode, finishDecode]
    split <;> rfl

/-- The bits of `x` are code words and a padding of ones that does not reach the end of the
string. -/
def Padded (x data : List UInt8) (pad : Nat) : Prop :=
  pad < 30 ∧
    bitsOfBytes x = (data.flatMap fun b => (encodeEntry b).path) ++ List.replicate pad true

theorem padded_huffmanEncode : ∃ pad < 8, Padded (huffmanEncode data) data pad := by
  obtain ⟨pad, hpad, hbits⟩ := bitsOfBytes_encodeLoop 0 0 (by decide) data
  exact ⟨pad, hpad, by omega, hbits⟩

variable {data}

theorem huffmanDecode_of_padded (h : Padded x data pad) : huffmanDecode x = some data := by
  have hfinish := finishDecode_padding pad h.1
  rw [huffmanDecode, h.2, decodeLoop_codes]
  cases hdecode : decodeLoop none (replicate pad true) with
  | none => simp [hdecode] at hfinish
  | some r =>
    rw [hdecode, Option.bind_some] at hfinish
    rw [Option.map_some, Option.bind_some, finishDecode_append, hfinish]
    simp

variable (data)

theorem huffmanDecode_huffmanEncode : huffmanDecode (huffmanEncode data) = some data := by
  obtain ⟨pad, -, h⟩ := padded_huffmanEncode data
  exact huffmanDecode_of_padded h

end ServerLib.Http2

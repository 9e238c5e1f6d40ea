import Mathlib.Data.List.Nodup
import ServerLib.Http2.Huffman

/-! Which strings `huffman_decode` accepts: code words, and after them up to 29 ones.  Encoding what
was decoded gives the string back exactly if fewer than eight of these ones are there. -/

namespace ServerLib.Http2

open Lib List Option

/-- The state of `huffman_decode` after it has read the bits `path` of a code word. -/
def stateAt (path : List Bool) : Option (CodeTree (Option UInt8)) :=
  if path = [] then none else some (buildTree.walk path)

@[simp] theorem getD_stateAt (path : List Bool) :
    (stateAt path).getD buildTree = buildTree.walk path := by
  cases path <;> simp [stateAt, CodeTree.walk]

theorem symbol_walk_nil : (buildTree.walk []).symbol = none := by
  rw [CodeTree.walk, foldl_nil]
  exact eos_leads.1

theorem exists_entry (h : (buildTree.walk path).symbol = some symbol) :
    ∃ e ∈ kHuffTable, e.path = path ∧ e.symbol = symbol := by
  rcases CodeTree.symbol_walk_ofTable h with hmem | hroot
  · obtain ⟨e, he, heq⟩ := mem_map.mp hmem
    exact ⟨e, he, Prod.mk.inj heq⟩
  · rw [CodeTree.symbol_walk_root] at hroot
    contradiction

theorem nodup_symbols : (kHuffTable.map (·.symbol)).Nodup := by
  rw [kHuffTable_checked.2.2.1]
  refine nodup_append.mpr ⟨List.Nodup.map_on ?_ nodup_range, by simp, by simp⟩
  intro i hi j hj h
  have hvalue := congrArg UInt8.toNat (some.inj h)
  simp at hi hj hvalue
  omega

theorem path_eq {b : UInt8} (h : (buildTree.walk path).symbol = some (some b)) :
    path = (encodeEntry b).path := by
  obtain ⟨e, he, rfl, hsymbol⟩ := exists_entry h
  obtain ⟨he', hsymbol'⟩ := encodeEntry_spec b
  rw [inj_on_of_nodup_map nodup_symbols he he' (hsymbol.trans hsymbol'.symm)]

theorem path_eq_ones (h : (buildTree.walk path).symbol = some none) :
    path = List.replicate 30 true := by
  obtain ⟨e, he, rfl, hsymbol⟩ := exists_entry h
  exact kHuffTable_checked.2.2.2 e he hsymbol

variable {x data : List UInt8} {path bits : List Bool} {pad : Nat}

theorem decodeLoop_reads (hpath : (buildTree.walk path).symbol = none)
    (h : decodeLoop (stateAt path) bits = some (data, state)) :
    ∃ tail, path ++ bits = (data.flatMap fun b => (encodeEntry b).path) ++ tail ∧
      state = stateAt tail ∧ (buildTree.walk tail).symbol = none := by
  induction bits generalizing path data with
  | nil =>
    obtain ⟨rfl, rfl⟩ : [] = data ∧ stateAt path = state := by simpa [decodeLoop] using h
    exact ⟨path, by simp, rfl, hpath⟩
  | cons bit bits ih =>
    have hchild : (buildTree.walk path).child bit = buildTree.walk (path ++ [bit]) := by
      simp [CodeTree.walk]
    simp only [decodeLoop, getD_stateAt, hchild] at h
    split at h
    · split at h
      next b hsymbol =>
        obtain ⟨⟨out, state'⟩, hrest, hout⟩ := map_eq_some_iff.mp h
        obtain ⟨rfl, rfl⟩ := Prod.mk.inj hout
        obtain ⟨tail, hbits, hstate⟩ := ih symbol_walk_nil hrest
        refine ⟨tail, ?_, hstate⟩
        have hword : path ++ [bit] = (encodeEntry b).path := path_eq hsymbol
        simp [← hword, ← hbits]
      next => contradiction
      next hsymbol =>
        split at h
        · have hstate : some (buildTree.walk (path ++ [bit])) = stateAt (path ++ [bit]) := by
            simp [stateAt]
          rw [hstate] at h
          simpa using ih hsymbol h
        · contradiction
    · contradiction

theorem exists_of_padded (h : padded tree = true) :
    ∃ k, (tree.walk (List.replicate k true)).symbol = some none := by
  fun_induction padded tree with
  | case1 => contradiction
  | case2 => exact ⟨0, rfl⟩
  | case3 => contradiction
  | case4 c0 c1 ih =>
    obtain ⟨k, hk⟩ := ih h
    exact ⟨k + 1, hk⟩

theorem padded_of_huffmanDecode (h : huffmanDecode x = some data) : ∃ pad, Padded x data pad := by
  obtain ⟨⟨out, state⟩, hloop, hfinish⟩ := bind_eq_some_iff.mp h
  obtain ⟨tail, hbits, rfl, hsymbol⟩ := decodeLoop_reads symbol_walk_nil hloop
  cases tail with
  | nil =>
    obtain rfl : out = data := by simpa [stateAt, finishDecode] using hfinish
    exact ⟨0, by decide, hbits⟩
  | cons bit tail =>
    obtain ⟨hpadded, rfl⟩ : padded (buildTree.walk (bit :: tail)) = true ∧ out = data := by
      simpa [stateAt, finishDecode] using hfinish
    -- ones lead from the state to the symbol of the end, so the tail is made of ones as well
    obtain ⟨k, hk⟩ := exists_of_padded hpadded
    rw [← CodeTree.walk_append] at hk
    obtain ⟨hlength, htail, -⟩ := append_eq_replicate_iff.mp (path_eq_ones hk)
    refine ⟨(bit :: tail).length, ?_, hbits.trans (by rw [← htail])⟩
    by_contra hlong
    obtain rfl : k = 0 := by
      simp at hlength hlong
      omega
    simp [hsymbol] at hk

theorem huffmanEncode_eq_iff (h : Padded x data pad) : huffmanEncode data = x ↔ pad < 8 := by
  obtain ⟨pad', hpad', h'⟩ := padded_huffmanEncode data
  have hlength := congrArg List.length h.2
  have hlength' := congrArg List.length h'.2
  simp only [length_bitsOfBytes, length_append, length_replicate] at hlength hlength'
  constructor
  · rintro rfl
    omega
  · intro hpad
    obtain rfl : pad = pad' := by omega
    exact bitsOfBytes_injective (h'.2.trans h.2.symm)

/-- A string that is encoded decodes to itself; and encoding what a string decodes to gives the
string back exactly if it is padded by less than a byte. -/
theorem huffman_inverse (s x : List UInt8) :
    huffmanDecode (huffmanEncode s) = some s ∧
    ((∀ data, huffmanDecode x = some data → huffmanEncode data = x) ↔
      ∀ data pad, Padded x data pad → pad < 8) := by
  refine ⟨huffmanDecode_huffmanEncode s, fun h data pad hx => ?_, fun h data hx => ?_⟩
  · exact (huffmanEncode_eq_iff hx).mp (h data (huffmanDecode_of_padded hx))
  · obtain ⟨pad, hpadded⟩ := padded_of_huffmanDecode hx
    exact (huffmanEncode_eq_iff hpadded).mpr (h data pad hpadded)

/-- A padding of eight ones is accepted, but never written. -/
theorem not_huffman_inverse : huffmanDecode [0xff] = some [] ∧ huffmanEncode [] ≠ [0xff] := by
  have hpadded : Padded [0xff] [] 8 := ⟨by decide, by decide⟩
  exact ⟨huffmanDecode_of_padded hpadded, by decide⟩

end ServerLib.Http2

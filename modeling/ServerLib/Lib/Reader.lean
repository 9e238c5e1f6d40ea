import Mathlib.Data.List.Basic
import Mathlib.Tactic.Ring

/-! Reading values off the front of a list of bytes: integers in network order, blocks with their
length before them, and integers of seven bits a byte.  `Reads` says that a reader takes back what
was written, whatever comes after it. -/

namespace ServerLib.Lib

open List

/-- A reader returns a value and the bytes after it. -/
abbrev Reader (α : Type) := List UInt8 → Option (α × List UInt8)

/-- The reader takes `bytes` for `a`. -/
def Reads {α : Type} (read : Reader α) (bytes : List UInt8) (a : α) : Prop :=
  ∀ rest, read (bytes ++ rest) = some (a, rest)

instance : Monad Reader := inferInstanceAs (Monad (StateT (List UInt8) Option))

section Sequences

variable {α β : Type}

variable {m : Reader α} {bytes : List UInt8}

theorem bind_eq_some {f : α → Reader β} {r : β × List UInt8} :
    (m >>= f) bytes = some r ↔ ∃ a rest, m bytes = some (a, rest) ∧ f a rest = some r := by
  have hbind : (m >>= f) bytes = (m bytes).bind fun x => f x.1 x.2 := rfl
  rw [hbind, Option.bind_eq_some_iff]
  constructor
  · rintro ⟨⟨a, rest⟩, hm, hf⟩
    exact ⟨a, rest, hm, hf⟩
  · rintro ⟨a, rest, hm, hf⟩
    exact ⟨(a, rest), hm, hf⟩

theorem reads_pure (a : α) : Reads (pure a) [] a := fun _ => rfl

theorem Reads.bind {f : α → Reader β} {a : α} {b : β} {bytes' : List UInt8} (hm : Reads m bytes a)
    (hf : Reads (f a) bytes' b) : Reads (m >>= f) (bytes ++ bytes') b := by
  intro rest
  rw [append_assoc]
  exact bind_eq_some.mpr ⟨a, bytes' ++ rest, hm _, hf rest⟩

theorem Reads.map (hm : Reads m bytes a) (f : α → β) :
    Reads (m >>= fun a => pure (f a)) bytes (f a) := by
  have h := hm.bind (f := fun a => pure (f a)) (reads_pure (f a))
  rwa [append_nil] at h

def readMany (read : Reader α) : Nat → Reader (List α)
  | 0 => pure []
  | count + 1 => do
    let a ← read
    let as ← readMany read count
    return a :: as

theorem reads_many {read : Reader α} (h : ∀ a ∈ as, Reads read (write a) a) :
    Reads (readMany read as.length) (as.flatMap write) as := by
  induction as with
  | nil => exact reads_pure []
  | cons a as ih =>
    obtain ⟨ha, has⟩ := forall_mem_cons.mp h
    exact ha.bind ((ih has).map _)

end Sequences

def readU8 : Reader UInt8
  | [] => none
  | b :: rest => some (b, rest)

theorem reads_u8 (b : UInt8) : Reads readU8 [b] b := fun _ => rfl

def writeU16 (v : UInt16) : List UInt8 := [UInt8.ofNat (v.toNat / 2 ^ 8), UInt8.ofNat v.toNat]

def readU16 : Reader UInt16
  | a :: b :: rest => some (UInt16.ofNat (a.toNat * 2 ^ 8 + b.toNat), rest)
  | _ => none

theorem reads_u16 (v : UInt16) : Reads readU16 (writeU16 v) v := by
  intro rest
  have hlt := v.toNat_lt
  have hvalue : v.toNat / 2 ^ 8 % 2 ^ 8 * 2 ^ 8 + v.toNat % 2 ^ 8 = v.toNat := by omega
  simp only [writeU16, cons_append, nil_append, readU16, UInt8.toNat_ofNat', hvalue,
    UInt16.ofNat_toNat]

def writeU32 (v : UInt32) : List UInt8 :=
  [UInt8.ofNat (v.toNat / 2 ^ 24), UInt8.ofNat (v.toNat / 2 ^ 16), UInt8.ofNat (v.toNat / 2 ^ 8),
    UInt8.ofNat v.toNat]

def readU32 : Reader UInt32
  | a :: b :: c :: d :: rest =>
    some (UInt32.ofNat (a.toNat * 2 ^ 24 + b.toNat * 2 ^ 16 + c.toNat * 2 ^ 8 + d.toNat), rest)
  | _ => none

theorem reads_u32 (v : UInt32) : Reads readU32 (writeU32 v) v := by
  intro rest
  have hlt := v.toNat_lt
  have hvalue : v.toNat / 2 ^ 24 % 2 ^ 8 * 2 ^ 24 + v.toNat / 2 ^ 16 % 2 ^ 8 * 2 ^ 16 +
      v.toNat / 2 ^ 8 % 2 ^ 8 * 2 ^ 8 + v.toNat % 2 ^ 8 = v.toNat := by omega
  simp only [writeU32, cons_append, nil_append, readU32, UInt8.toNat_ofNat', hvalue,
    UInt32.ofNat_toNat]

def writeU64 (v : UInt64) : List UInt8 :=
  writeU32 (UInt32.ofNat (v.toNat / 2 ^ 32)) ++ writeU32 (UInt32.ofNat v.toNat)

def readU64 : Reader UInt64 := do
  let high ← readU32
  let low ← readU32
  return UInt64.ofNat (high.toNat * 2 ^ 32 + low.toNat)

theorem reads_u64 (v : UInt64) : Reads readU64 (writeU64 v) v := by
  have hvalue : UInt64.ofNat ((UInt32.ofNat (v.toNat / 2 ^ 32)).toNat * 2 ^ 32 +
      (UInt32.ofNat v.toNat).toNat) = v := by
    have hlt := v.toNat_lt
    apply UInt64.toNat_inj.mp
    rw [UInt64.toNat_ofNat', UInt32.toNat_ofNat', UInt32.toNat_ofNat']
    omega
  have h : Reads readU64 (writeU64 v) _ := (reads_u32 _).bind ((reads_u32 _).map _)
  rwa [hvalue] at h

@[simp] theorem length_writeU16 (v : UInt16) : (writeU16 v).length = 2 := rfl

@[simp] theorem length_writeU32 (v : UInt32) : (writeU32 v).length = 4 := rfl

@[simp] theorem length_writeU64 (v : UInt64) : (writeU64 v).length = 8 := rfl

def writeBlock (bytes : List UInt8) : List UInt8 := writeU16 (UInt16.ofNat bytes.length) ++ bytes

def readBlock : Reader (List UInt8) := fun bytes =>
  match readU16 bytes with
  | none => none
  | some (length, rest) =>
    if length.toNat ≤ rest.length then some (rest.take length.toNat, rest.drop length.toNat)
    else none

theorem reads_block (h : bytes.length < 2 ^ 16) : Reads readBlock (writeBlock bytes) bytes := by
  intro rest
  have hlength : (UInt16.ofNat bytes.length).toNat = bytes.length := by
    rw [UInt16.toNat_ofNat', Nat.mod_eq_of_lt h]
  rw [writeBlock, append_assoc, readBlock, reads_u16]
  simp only [hlength, length_append, Nat.le_add_right, if_true, take_left, drop_left]

/-- The lower bits come first, and all bytes but the last have the upper bit.  There are at most
`limit` bytes. -/
def writeVar : Nat → Nat → List UInt8
  | 0, _ => []
  | limit + 1, v =>
    if v / 2 ^ 7 > 0 then UInt8.ofNat (v % 2 ^ 7 + 2 ^ 7) :: writeVar limit (v / 2 ^ 7)
    else [UInt8.ofNat (v % 2 ^ 7)]

/-- Reads on, with `value` so far. -/
def readVarFrom : Nat → Nat → Nat → Reader Nat
  | 0, _, _, _ => none
  | _ + 1, _, _, [] => none
  | limit + 1, value, multiplier, b :: rest =>
    if b.toNat < 2 ^ 7 then some (value + b.toNat % 2 ^ 7 * multiplier, rest)
    else readVarFrom limit (value + b.toNat % 2 ^ 7 * multiplier) (multiplier * 2 ^ 7) rest

/-- At most `limit` bytes are read. -/
def readVar (limit : Nat) : Reader Nat := readVarFrom limit 0 1

theorem readVarFrom_writeVar (hlimit : limit ≤ limit') (hpos : 0 < limit) (hv : v < 2 ^ (7 * limit))
    (value multiplier : Nat) (rest : List UInt8) :
    readVarFrom limit value multiplier (writeVar limit' v ++ rest) =
      some (value + v * multiplier, rest) := by
  induction limit generalizing limit' v value multiplier with
  | zero => omega
  | succ limit ih =>
    obtain ⟨limit', rfl⟩ : ∃ n, limit' = n + 1 := ⟨limit' - 1, by omega⟩
    rw [writeVar]
    split_ifs with hmore
    · have hbyte : (UInt8.ofNat (v % 2 ^ 7 + 2 ^ 7)).toNat = v % 2 ^ 7 + 2 ^ 7 := by
        rw [UInt8.toNat_ofNat']
        omega
      have hlow : (v % 2 ^ 7 + 2 ^ 7) % 2 ^ 7 = v % 2 ^ 7 := by omega
      have hv' : v / 2 ^ 7 < 2 ^ (7 * limit) := by
        rw [Nat.div_lt_iff_lt_mul (by decide), ← pow_add]
        exact hv
      have hpos' : 0 < limit := by
        rcases Nat.eq_zero_or_pos limit with rfl | h
        · omega
        · exact h
      rw [cons_append, readVarFrom, hbyte, if_neg (by omega), ih (by omega) hpos' hv', hlow]
      congr 2
      have hsplit : v = v % 2 ^ 7 + v / 2 ^ 7 * 2 ^ 7 := by omega
      calc value + v % 2 ^ 7 * multiplier + v / 2 ^ 7 * (multiplier * 2 ^ 7)
          = value + (v % 2 ^ 7 + v / 2 ^ 7 * 2 ^ 7) * multiplier := by ring
        _ = value + v * multiplier := by rw [← hsplit]
    · have hsmall : v < 2 ^ 7 := by omega
      have hbyte : (UInt8.ofNat (v % 2 ^ 7)).toNat = v := by
        rw [UInt8.toNat_ofNat']
        omega
      rw [cons_append, nil_append, readVarFrom, hbyte, if_pos hsmall,
        Nat.mod_eq_of_lt hsmall]

theorem reads_var (hlimit : limit ≤ limit') (hpos : 0 < limit) (hv : v < 2 ^ (7 * limit)) :
    Reads (readVar limit) (writeVar limit' v) v := by
  intro rest
  rw [readVar, readVarFrom_writeVar hlimit hpos hv]
  simp

end ServerLib.Lib

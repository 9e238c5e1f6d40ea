import Mathlib.Data.Nat.Bitwise
import Mathlib.Tactic.Linarith

/-! Numbers as lists of bits, with the most significant bit first, and the packing of such lists
into bytes.  A packer keeps the bits that do not fill a byte yet in the low bits of a machine
word. -/

namespace ServerLib.Lib

def bitsOf : Nat → Nat → List Bool
  | 0, _ => []
  | n + 1, v => v.testBit n :: bitsOf n v

variable (n : Nat) (v : Nat)

@[simp] theorem bitsOf_zero : bitsOf 0 v = [] := rfl

theorem bitsOf_succ : bitsOf (n + 1) v = v.testBit n :: bitsOf n v := rfl

@[simp] theorem length_bitsOf : (bitsOf n v).length = n := by
  induction n with
  | zero => rfl
  | succ n ih => simp [bitsOf_succ, ih]

theorem bitsOf_congr {n v v' : Nat} (h : ∀ i < n, v.testBit i = v'.testBit i) :
    bitsOf n v = bitsOf n v' := by
  induction n with
  | zero => rfl
  | succ n ih =>
    rw [bitsOf_succ, bitsOf_succ, h n (Nat.lt_succ_self n),
      ih fun i hi => h i (Nat.lt_succ_of_lt hi)]

theorem bitsOf_add (n' v : Nat) : bitsOf (n + n') v = bitsOf n (v >>> n') ++ bitsOf n' v := by
  induction n with
  | zero => simp
  | succ n ih =>
    rw [Nat.succ_add, bitsOf_succ, ih, bitsOf_succ, Nat.testBit_shiftRight, Nat.add_comm n' n,
      List.cons_append]

theorem bitsOf_mod {n k : Nat} (h : n ≤ k) : bitsOf n (v % 2 ^ k) = bitsOf n v := by
  apply bitsOf_congr
  intro i hi
  rw [Nat.testBit_mod_two_pow, decide_eq_true (Nat.lt_of_lt_of_le hi h), Bool.true_and]

theorem bitsOf_shiftLeft_or {n n' w v c : Nat} (hw : n + n' ≤ w) (hc : c < 2 ^ n') :
    bitsOf (n + n') ((v <<< n') % 2 ^ w ||| c) = bitsOf n v ++ bitsOf n' c := by
  rw [bitsOf_add]
  congr 1
  · apply bitsOf_congr
    intro i hi
    have hlt : c.testBit (n' + i) = false :=
      Nat.testBit_lt_two_pow (Nat.lt_of_lt_of_le hc (Nat.pow_le_pow_right (by decide) (by omega)))
    rw [Nat.testBit_shiftRight, Nat.testBit_or, Nat.testBit_mod_two_pow, Nat.testBit_shiftLeft, hlt]
    simp [show n' + i < w by omega]
  · apply bitsOf_congr
    intro i hi
    rw [Nat.testBit_or, Nat.testBit_mod_two_pow, Nat.testBit_shiftLeft]
    simp [Nat.not_le.mpr hi]

theorem bitsOf_two_pow_sub_one : bitsOf n (2 ^ n - 1) = List.replicate n true := by
  have h : ∀ k, k ≤ n → bitsOf k (2 ^ n - 1) = List.replicate k true := by
    intro k hk
    induction k with
    | zero => rfl
    | succ k ih =>
      rw [bitsOf_succ, ih (Nat.le_of_succ_le hk), Nat.testBit_two_pow_sub_one,
        decide_eq_true (Nat.lt_of_succ_le hk), List.replicate_succ]
  exact h n le_rfl

def bitsOfBytes (bytes : List UInt8) : List Bool := bytes.flatMap fun b => bitsOf 8 b.toNat

@[simp] theorem bitsOfBytes_nil : bitsOfBytes [] = [] := rfl

@[simp] theorem bitsOfBytes_cons (b : UInt8) (bytes : List UInt8) :
    bitsOfBytes (b :: bytes) = bitsOf 8 b.toNat ++ bitsOfBytes bytes := rfl

@[simp] theorem bitsOfBytes_append (bytes bytes' : List UInt8) :
    bitsOfBytes (bytes ++ bytes') = bitsOfBytes bytes ++ bitsOfBytes bytes' :=
  List.flatMap_append

@[simp] theorem length_bitsOfBytes (bytes : List UInt8) :
    (bitsOfBytes bytes).length = 8 * bytes.length := by
  induction bytes with
  | nil => rfl
  | cons b bytes ih =>
    simp [ih]
    omega

theorem bitsOfBytes_injective : Function.Injective bitsOfBytes := by
  have hvalue : ∀ v < 2 ^ 8, (bitsOf 8 v).foldl (fun v b => 2 * v + b.toNat) 0 = v := by
    decide +kernel
  intro bytes bytes' h
  induction bytes generalizing bytes' with
  | nil => cases bytes' <;> simp_all [bitsOf]
  | cons b bytes ih =>
    cases bytes' with
    | nil => simp [bitsOf] at h
    | cons b' bytes' =>
      rw [bitsOfBytes_cons, bitsOfBytes_cons] at h
      obtain ⟨hb, hrest⟩ := List.append_inj h (by simp)
      have hb' : b.toNat = b'.toNat := by
        rw [← hvalue _ b.toNat_lt, hb, hvalue _ b'.toNat_lt]
      rw [UInt8.toNat_inj.mp hb', ih hrest]

theorem bitsOf_ofNat : bitsOf 8 (UInt8.ofNat v).toNat = bitsOf 8 v := by
  rw [UInt8.toNat_ofNat']
  exact bitsOf_mod v (Nat.le_refl 8)

end ServerLib.Lib

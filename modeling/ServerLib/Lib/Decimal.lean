import Mathlib.Data.List.TakeWhile
import Mathlib.Tactic.Ring

/-! Decimal numbers as text. -/

namespace ServerLib.Lib

open List UInt8

def isDigit (c : UInt8) : Bool := '0'.toUInt8 ≤ c ∧ c ≤ '9'.toUInt8

def digitsValue (digits : List UInt8) : Nat :=
  digits.foldl (fun value c => value * 10 + (c.toNat - 48)) 0

/-- The last digits of a number, at most `limit` of them. -/
def decimalDigits : Nat → Nat → List UInt8
  | 0, _ => []
  | limit + 1, n =>
    (if n < 10 then [] else decimalDigits limit (n / 10)) ++ [UInt8.ofNat (48 + n % 10)]

variable (n : Nat)

def decimal : List UInt8 := decimalDigits (n + 1) n

theorem decimalDigits_eq {limit limit' n : Nat} (h : n < limit) (h' : n < limit') :
    decimalDigits limit n = decimalDigits limit' n := by
  induction limit generalizing limit' n with
  | zero => omega
  | succ limit ih =>
    obtain ⟨limit', rfl⟩ : ∃ k, limit' = k + 1 := ⟨limit' - 1, by omega⟩
    rw [decimalDigits, decimalDigits]
    split
    · rfl
    · have hrest : decimalDigits limit (n / 10) = decimalDigits limit' (n / 10) :=
        ih (by omega) (by omega)
      rw [hrest]

theorem decimal_eq :
    decimal n = (if n < 10 then [] else decimal (n / 10)) ++ [UInt8.ofNat (48 + n % 10)] := by
  rw [decimal, decimalDigits]
  split
  · rfl
  · rw [decimal, decimalDigits_eq (by omega) (Nat.lt_succ_self _)]

theorem toNat_ofDigit : (UInt8.ofNat (48 + n % 10)).toNat = 48 + n % 10 := by
  rw [toNat_ofNat']
  omega

theorem isDigit_ofDigit : isDigit (UInt8.ofNat (48 + n % 10)) := by
  have hlow : (48 : UInt8) ≤ UInt8.ofNat (48 + n % 10) := by
    rw [le_iff_toNat_le, toNat_ofDigit]
    exact Nat.le_add_right 48 _
  have hhigh : UInt8.ofNat (48 + n % 10) ≤ (57 : UInt8) := by
    rw [le_iff_toNat_le, toNat_ofDigit]
    change _ ≤ 57
    omega
  exact decide_eq_true ⟨hlow, hhigh⟩

theorem decimal_ne_nil : decimal n ≠ [] := by
  rw [decimal_eq]
  simp

variable {c : UInt8} {rest : List UInt8}

theorem isDigit_of_mem_decimal {n : Nat} (h : c ∈ decimal n) : isDigit c := by
  induction n using Nat.strong_induction_on with
  | _ n ih =>
    rw [decimal_eq] at h
    rcases mem_append.mp h with h | h
    · split at h
      · cases h
      · exact ih (n / 10) (by omega) h
    · rw [mem_singleton.mp h]
      exact isDigit_ofDigit n

theorem digitsValue_append_singleton (digits : List UInt8) (c : UInt8) :
    digitsValue (digits ++ [c]) = digitsValue digits * 10 + (c.toNat - 48) := by
  simp [digitsValue]

theorem digitsValue_decimal : digitsValue (decimal n) = n := by
  induction n using Nat.strong_induction_on with
  | _ n ih =>
    rw [decimal_eq, digitsValue_append_singleton, toNat_ofDigit]
    split
    · simp only [digitsValue, foldl_nil]
      omega
    · rw [ih (n / 10) (by omega)]
      omega

def isSpace (c : UInt8) : Bool := c = 32 ∨ (9 ≤ c ∧ c ≤ 13)

/-- What is read after a sign: the value of the digits and the text after them. -/
def readDigits (s : List UInt8) : Option (Nat × List UInt8) :=
  if s.takeWhile isDigit = [] then none
  else some (digitsValue (s.takeWhile isDigit), s.dropWhile isDigit)

/-- Space is skipped, and there may be a sign.  There is no number without digits. -/
def readDecimal (s : List UInt8) : Option (Int × List UInt8) :=
  match s.dropWhile isSpace with
  | [] => none
  | c :: rest =>
    if c = '-'.toUInt8 then (readDigits rest).map fun (value, rest) => (-value, rest)
    else
      let unsigned := if c = '+'.toUInt8 then rest else c :: rest
      (readDigits unsigned).map fun (value, rest) => (value, rest)

theorem readDigits_decimal (hrest : ∀ c ∈ rest.head?, isDigit c = false) :
    readDigits (decimal n ++ rest) = some (n, rest) := by
  have htake : rest.takeWhile isDigit = [] ∧ rest.dropWhile isDigit = rest := by
    cases rest with
    | nil => exact ⟨rfl, rfl⟩
    | cons c rest =>
      have hc := hrest c rfl
      simp [hc]
  rw [readDigits, takeWhile_append_of_pos fun c hc => isDigit_of_mem_decimal hc, htake.1,
    append_nil, if_neg (decimal_ne_nil n), digitsValue_decimal,
    dropWhile_append_of_pos fun c hc => isDigit_of_mem_decimal hc, htake.2]

theorem readDigits_of_all (hne : digits ≠ []) (h : digits.all isDigit) :
    readDigits digits = some (digitsValue digits, []) := by
  have hall : ∀ c ∈ digits, isDigit c := all_eq_true.mp h
  have htake : digits.takeWhile isDigit = digits := takeWhile_eq_self_iff.mpr hall
  have hdrop : digits.dropWhile isDigit = [] := dropWhile_eq_nil_iff.mpr hall
  rw [readDigits, htake, if_neg hne, hdrop]

theorem readDigits_cons_of_not (h : isDigit c = false) (rest : List UInt8) :
    readDigits (c :: rest) = none := by
  rw [readDigits, takeWhile_cons_of_neg (by simp [h]), if_pos rfl]

def signedDecimal (value : Int) : List UInt8 :=
  if value < 0 then '-'.toUInt8 :: decimal value.natAbs else decimal value.natAbs

theorem not_isSpace_of_isDigit (h : isDigit c) : isSpace c = false := by
  have hc : 48 ≤ c.toNat := le_iff_toNat_le.mp (of_decide_eq_true h).1
  refine decide_eq_false fun hspace => ?_
  rcases hspace with rfl | ⟨_, hhigh⟩
  · exact absurd hc (by decide)
  · have hhigh : c.toNat ≤ 13 := le_iff_toNat_le.mp hhigh
    omega

theorem readDecimal_of_digits (h : isDigit c) (rest : List UInt8) :
    readDecimal (c :: rest) =
      (readDigits (c :: rest)).map fun (value, rest) => ((value : Int), rest) := by
  have hminus : c ≠ '-'.toUInt8 := by
    rintro rfl
    exact absurd h (by decide)
  have hplus : c ≠ '+'.toUInt8 := by
    rintro rfl
    exact absurd h (by decide)
  rw [readDecimal, dropWhile_cons_of_neg (by simp [not_isSpace_of_isDigit h])]
  simp only [if_neg hminus, if_neg hplus]

theorem readDecimal_minus (rest : List UInt8) :
    readDecimal ('-'.toUInt8 :: rest) =
      (readDigits rest).map fun (value, rest) => (-(value : Int), rest) := by
  have hspace : isSpace '-'.toUInt8 = false := by decide
  rw [readDecimal, dropWhile_cons_of_neg (by simp [hspace])]
  exact if_pos rfl

theorem readDecimal_decimal (hrest : ∀ c ∈ rest.head?, isDigit c = false) :
    readDecimal (decimal n ++ rest) = some ((n : Int), rest) := by
  obtain ⟨c, digits, hcons⟩ := exists_cons_of_ne_nil (decimal_ne_nil n)
  have hdigit : isDigit c := isDigit_of_mem_decimal (hcons ▸ mem_cons_self)
  have hread := readDigits_decimal n hrest
  rw [hcons, cons_append] at hread ⊢
  rw [readDecimal_of_digits hdigit, hread]
  rfl

theorem readDecimal_signedDecimal (value : Int) (hrest : ∀ c ∈ rest.head?, isDigit c = false) :
    readDecimal (signedDecimal value ++ rest) = some (value, rest) := by
  rw [signedDecimal]
  split_ifs with hneg
  · rw [cons_append, readDecimal_minus, readDigits_decimal _ hrest, Option.map_some]
    simp only [Int.ofNat_natAbs_of_nonpos (Int.le_of_lt hneg), Int.neg_neg]
  · rw [readDecimal_decimal _ hrest, Int.natAbs_of_nonneg (Int.not_lt.mp hneg)]

end ServerLib.Lib

import Mathlib.Data.List.Basic

/-! Texts and a stream of bytes that is added to them without carry, from a place in the stream
on. -/

namespace ServerLib.Lib

/-- Every byte of the text with that of the stream at its place, the first at `n`. -/
def mask (stream : Nat → UInt8) : Nat → List UInt8 → List UInt8
  | _, [] => []
  | n, b :: rest => (b ^^^ stream n) :: mask stream (n + 1) rest

variable (stream : Nat → UInt8)

variable (n : Nat) (text : List UInt8)

@[simp] theorem mask_nil : mask stream n [] = [] := rfl

@[simp] theorem length_mask : (mask stream n text).length = text.length := by
  induction text generalizing n with
  | nil => rfl
  | cons b rest ih => simp [mask, ih]

theorem mask_mask : mask stream n (mask stream n text) = text := by
  induction text generalizing n with
  | nil => rfl
  | cons b rest ih => rw [mask, mask, ih, UInt8.xor_assoc, UInt8.xor_self, UInt8.xor_zero]

theorem mask_append (text' : List UInt8) :
    mask stream n (text ++ text') = mask stream n text ++ mask stream (n + text.length) text' := by
  induction text generalizing n with
  | nil => simp
  | cons b rest ih =>
    rw [List.cons_append, mask, mask, ih, List.cons_append, List.length_cons,
      Nat.add_right_comm n 1, Nat.add_assoc]

theorem mask_zero : mask (fun _ => 0) n text = text := by
  induction text generalizing n with
  | nil => rfl
  | cons b rest ih => rw [mask, ih, UInt8.xor_zero]

end ServerLib.Lib

import Mathlib.Data.List.Basic

/-! Writing and reading slices of a list at an offset, as with a file. -/

namespace ServerLib.Lib

variable {α : Type}

/-- A write behind the end leaves a gap that is filled.  A write of nothing changes nothing. -/
def writeAt (filler : α) (content : List α) (offset : Nat) (data : List α) : List α :=
  if data.isEmpty then content
  else
    content.take offset ++ List.replicate (offset - content.length) filler ++ data ++
      content.drop (offset + data.length)

def readAt (content : List α) (offset length : Nat) : Option (List α) :=
  if ((content.drop offset).take length).length = length then
    some ((content.drop offset).take length)
  else none

section

variable {content data : List α}

theorem length_take_append_replicate (filler : α) (content : List α) (offset : Nat) :
    (content.take offset ++ List.replicate (offset - content.length) filler).length = offset := by
  rw [List.length_append, List.length_take, List.length_replicate]
  omega

theorem getElem?_writeAt_inside (hlow : offset ≤ k) (hhigh : k < offset + data.length) :
    (writeAt filler content offset data)[k]? = data[k - offset]? := by
  have hdata : data.isEmpty = false := by
    rw [List.isEmpty_eq_false_iff]
    rintro rfl
    rw [List.length_nil] at hhigh
    omega
  rw [writeAt, hdata, if_neg Bool.false_ne_true, List.append_assoc,
    List.getElem?_append_right (by rw [length_take_append_replicate]; exact hlow),
    length_take_append_replicate, List.getElem?_append_left (by omega)]

theorem getElem?_writeAt_outside (hout : k < offset ∨ offset + data.length ≤ k)
    (hk : k < content.length) : (writeAt filler content offset data)[k]? = content[k]? := by
  rw [writeAt]
  split
  · rfl
  rcases hout with hout | hout
  · rw [List.append_assoc, List.append_assoc, List.getElem?_append_left
      (by rw [List.length_take]; omega), List.getElem?_take_of_lt hout]
  · have hlength : (content.take offset ++ List.replicate (offset - content.length) filler ++
        data).length = offset + data.length := by
      rw [List.length_append, length_take_append_replicate]
    rw [List.getElem?_append_right (by omega), hlength, List.getElem?_drop]
    congr 1
    omega

theorem length_writeAt (h : offset + data.length ≤ content.length) :
    (writeAt filler content offset data).length = content.length := by
  rw [writeAt]
  split
  · rfl
  · rw [List.length_append, List.length_append, length_take_append_replicate, List.length_drop]
    omega

theorem readAt_eq_some (hlength : part.length = length)
    (h : ∀ k < length, content[offset + k]? = part[k]?) :
    readAt content offset length = some part := by
  have hpart : (content.drop offset).take length = part := by
    apply List.ext_getElem?
    intro k
    rw [List.getElem?_take]
    split_ifs with hk
    · rw [List.getElem?_drop, h k hk]
    · rw [List.getElem?_eq_none (by omega)]
  rw [readAt, hpart, if_pos hlength]

end

end ServerLib.Lib

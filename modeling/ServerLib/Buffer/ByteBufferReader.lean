import Mathlib.Tactic.Ring
import ServerLib.Lib.Scan

/-! `ByteBufferReader`: a reader over buffers that lie one after the other. -/

namespace ServerLib.Buffer

open Lib List

abbrev Bytes := List UInt8

def castInt (n : Nat) : Int :=
  if n % 2 ^ 32 < 2 ^ 31 then (n % 2 ^ 32 : Nat) else (n % 2 ^ 32 : Nat) - 2 ^ 32

theorem castInt_zero : castInt 0 = 0 := rfl

structure Position where
  bufferIndex : Nat := 0
  bufferOffset : Nat := 0
  offset : Nat := 0

section Reading

variable (buffers : List Bytes)

def totalBytes : Nat := buffers.flatten.length

def remainingBytes (p : Position) : Nat := totalBytes buffers - p.offset

def currentBuffer (p : Position) : Option Bytes := buffers[p.bufferIndex]?

def peekChar (p : Position) : UInt8 :=
  match currentBuffer buffers p with
  | none => 0
  | some buffer => buffer.getD p.bufferOffset 0

def advanceOver : List Bytes → Nat → Position → Position
  | [], _, p => p
  | buffer :: later, bytes, p =>
    if bytes = 0 then p
    else if bytes < buffer.length - p.bufferOffset then
      { p with bufferOffset := p.bufferOffset + bytes }
    else
      advanceOver later (bytes - (buffer.length - p.bufferOffset))
        { p with bufferIndex := p.bufferIndex + 1, bufferOffset := 0 }

def advance (bytes : Nat) (p : Position) : Position :=
  let bytes := min bytes (remainingBytes buffers p)
  advanceOver (buffers.drop p.bufferIndex) bytes { p with offset := p.offset + bytes }

/-- The loop of `read`, with `left` bytes to go.  A turn copies one byte at least. -/
def copy : Nat → Nat → Bytes → Position → Bytes × Position
  | 0, _, copied, p => (copied, p)
  | fuel + 1, left, copied, p =>
    if left = 0 then (copied, p)
    else
      match currentBuffer buffers p with
      | none => (copied, p)
      | some buffer =>
        let chunk := min (buffer.length - p.bufferOffset) left
        copy fuel (left - chunk) (copied ++ (buffer.drop p.bufferOffset).take chunk)
          (advance buffers chunk p)

/-- What is returned, what is copied to `dest`, and the position after it. -/
def read (bytes : Nat) (p : Position) : Int × Bytes × Position :=
  if bytes = 0 then (0, [], p)
  else
    let bytes := min bytes (remainingBytes buffers p)
    let copied := copy buffers bytes bytes [] p
    (castInt copied.1.length, copied)

/-- The loop of `read_line`, with the line so far.  A turn reads one byte at least. -/
def readLineFrom : Nat → Bytes → Scan Position Int Bytes
  | 0, _, p => .failed (-2) p
  | fuel + 1, line, p =>
    if remainingBytes buffers p = 0 then .failed (-2) p
    else
      let ch := peekChar buffers p
      let next := advance buffers 1 p
      if ch = '\n'.toUInt8 then .done line next
      else if ch = '\r'.toUInt8 then
        if remainingBytes buffers next = 0 then .failed (-2) next
        else if peekChar buffers next = '\n'.toUInt8 then .done line (advance buffers 1 next)
        else .failed (-1) next
      else readLineFrom fuel (line ++ [ch]) next

/-- It fails with a negative return value. -/
def readLine : Scan Position Int Bytes := fun p =>
  readLineFrom buffers (remainingBytes buffers p) [] p

end Reading

structure ByteBufferReader where
  buffers : List Bytes := []
  position : Position := {}

namespace ByteBufferReader

def addBuffer (reader : ByteBufferReader) (buffer : Bytes) : ByteBufferReader :=
  if buffer = [] then reader else { reader with buffers := reader.buffers ++ [buffer] }

/-- What is not read yet is copied to one new buffer. -/
def discardReadBytes (reader : ByteBufferReader) : ByteBufferReader :=
  if reader.position.offset = 0 then reader
  else if totalBytes reader.buffers ≤ reader.position.offset then {}
  else
    addBuffer {}
      (read reader.buffers (remainingBytes reader.buffers reader.position) reader.position).2.1

end ByteBufferReader

/-- An offset in the first of the buffers. -/
def OffsetIn : List Bytes → Nat → Prop
  | [], offset => offset = 0
  | buffer :: _, offset => offset < buffer.length

/-- The position is in the buffers after `past`, and `bytes` lie before it. -/
structure Located (buffers past now : List Bytes) (p : Position) (bytes : Bytes) : Prop where
  split : buffers = past ++ now
  index : p.bufferIndex = past.length
  inside : OffsetIn now p.bufferOffset
  rest : now.flatten.drop p.bufferOffset = bytes

/-- `bytes` are not read yet.  No buffer is empty, and the three counters of the position
agree. -/
def Ahead (buffers : List Bytes) (p : Position) (bytes : Bytes) : Prop :=
  (∀ buffer ∈ buffers, buffer ≠ []) ∧
    ∃ past now, Located buffers past now p bytes ∧
      p.offset = past.flatten.length + p.bufferOffset

variable {buffers past now : List Bytes} {p : Position} {bytes : Bytes}

theorem OffsetIn.le (h : OffsetIn now p.bufferOffset) : p.bufferOffset ≤ now.flatten.length := by
  cases now with
  | nil => exact Nat.le_of_eq h
  | cons buffer later =>
    rw [flatten_cons, length_append]
    exact (Nat.le_of_lt h).trans (Nat.le_add_right _ _)

theorem Ahead.remainingBytes_eq (h : Ahead buffers p bytes) :
    remainingBytes buffers p = bytes.length := by
  obtain ⟨-, past, now, hp, hoffset⟩ := h
  rw [remainingBytes, totalBytes, hp.split, flatten_append, length_append, hoffset,
    ← hp.rest, length_drop]
  omega

theorem Located.exists_cons (h : Located buffers past now p bytes) (hbytes : bytes ≠ []) :
    ∃ buffer later, now = buffer :: later ∧ currentBuffer buffers p = some buffer ∧
      p.bufferOffset < buffer.length ∧ bytes = buffer.drop p.bufferOffset ++ later.flatten := by
  obtain ⟨rfl, hindex, hinside, rfl⟩ := h
  cases now with
  | nil => simp at hbytes
  | cons buffer later =>
    refine ⟨buffer, later, rfl, ?_, hinside, ?_⟩
    · rw [currentBuffer, hindex]
      simp
    · rw [flatten_cons, drop_append_of_le_length (Nat.le_of_lt hinside)]

theorem Ahead.peekChar_eq (h : Ahead buffers p (b :: bytes)) : peekChar buffers p = b := by
  obtain ⟨-, past, now, hp, -⟩ := h
  obtain ⟨buffer, later, -, hcurrent, hlt, hbytes⟩ := hp.exists_cons (cons_ne_nil b bytes)
  rw [drop_eq_getElem_cons hlt, cons_append, cons.injEq] at hbytes
  simp only [peekChar, hcurrent]
  rw [getD_eq_getElem?_getD, getElem?_eq_getElem hlt, Option.getD_some, hbytes.1]

theorem Ahead.peekChar_nil (h : Ahead buffers p []) : peekChar buffers p = 0 := by
  obtain ⟨-, past, now, ⟨rfl, hindex, hinside, hrest⟩, -⟩ := h
  cases now with
  | nil => simp [peekChar, currentBuffer, hindex]
  | cons buffer later =>
    change p.bufferOffset < buffer.length at hinside
    have hlength := congrArg length hrest
    simp only [flatten_cons, length_drop, length_append, length_nil] at hlength
    omega

theorem Ahead.peekChar_eq_headD (h : Ahead buffers p bytes) :
    peekChar buffers p = bytes.headD 0 := by
  cases bytes with
  | nil => exact h.peekChar_nil
  | cons b bytes => exact h.peekChar_eq

theorem offset_advanceOver (now : List Bytes) (n : Nat) (p : Position) :
    (advanceOver now n p).offset = p.offset := by
  fun_induction advanceOver now n p with
  | case1 | case2 | case3 => rfl
  | case4 buffer later n p hzero hge ih => exact ih

theorem located_advanceOver (hbuffers : ∀ buffer ∈ buffers, buffer ≠ [])
    (h : Located buffers past now p bytes) (hn : n ≤ bytes.length) :
    ∃ past' now', Located buffers past' now' (advanceOver now n p) (bytes.drop n) ∧
      past'.flatten.length + (advanceOver now n p).bufferOffset =
        past.flatten.length + p.bufferOffset + n := by
  fun_induction advanceOver now n p generalizing past bytes with
  | case1 n p =>
    have hnil : bytes = [] := by rw [← h.rest]; simp
    subst hnil
    obtain rfl : n = 0 := Nat.le_zero.mp hn
    exact ⟨past, [], h, rfl⟩
  | case2 buffer later p => exact ⟨past, buffer :: later, h, rfl⟩
  | case3 buffer later n p hzero hlt =>
    -- the position stays in the buffer
    obtain ⟨hsplit, hindex, hinside, hrest⟩ := h
    refine ⟨past, buffer :: later, ⟨hsplit, hindex, ?_, ?_⟩, (Nat.add_assoc _ _ _).symm⟩
    · change p.bufferOffset + n < buffer.length
      omega
    · rw [← hrest, drop_drop]
  | case4 buffer later n p hzero hge ih =>
    -- the buffer is left behind
    obtain ⟨hsplit, hindex, hinside, hrest⟩ := h
    change p.bufferOffset < buffer.length at hinside
    rw [flatten_cons, drop_append_of_le_length (Nat.le_of_lt hinside)] at hrest
    have hdrop : (buffer.drop p.bufferOffset).length = buffer.length - p.bufferOffset :=
      length_drop
    have hlater : OffsetIn later 0 := by
      cases later with
      | nil => rfl
      | cons next later =>
        exact length_pos_of_ne_nil (hbuffers next (by rw [hsplit]; simp))
    have hnext : Located buffers (past ++ [buffer]) later
        { p with bufferIndex := p.bufferIndex + 1, bufferOffset := 0 } later.flatten := by
      refine ⟨?_, ?_, hlater, rfl⟩
      · rw [hsplit, append_assoc, singleton_append]
      · rw [length_append, hindex, length_singleton]
    rw [← hrest, length_append, hdrop] at hn
    obtain ⟨past', now', hlocated, hcount⟩ := ih hnext (by omega)
    refine ⟨past', now', ?_, ?_⟩
    · rw [← hrest, drop_append, drop_of_length_le (by omega), nil_append, hdrop]
      exact hlocated
    · rw [hcount, flatten_append, length_append, flatten_singleton]
      dsimp only
      omega

theorem Ahead.advance (h : Ahead buffers p bytes) (n : Nat) :
    Ahead buffers (advance buffers n p) (bytes.drop n) := by
  have hremain := h.remainingBytes_eq
  obtain ⟨hbuffers, past, now, hp, hoffset⟩ := h
  have hdrop : buffers.drop p.bufferIndex = now := by
    rw [hp.split, hp.index, drop_left]
  have hmin : bytes.drop (min n bytes.length) = bytes.drop n := drop_eq_drop_min.symm
  have hp' : Located buffers past now
      { p with offset := p.offset + min n bytes.length } bytes :=
    ⟨hp.split, hp.index, hp.inside, hp.rest⟩
  obtain ⟨past', now', hlocated, hcount⟩ :=
    located_advanceOver hbuffers hp' (Nat.min_le_right n bytes.length)
  rw [Buffer.advance, hremain, hdrop]
  refine ⟨hbuffers, past', now', hmin ▸ hlocated, ?_⟩
  rw [offset_advanceOver, hcount]
  dsimp only
  omega

theorem Ahead.next (h : Ahead buffers p (b :: bytes)) :
    Ahead buffers (Buffer.advance buffers 1 p) bytes := h.advance 1

theorem copy_ahead (h : Ahead buffers p bytes) (hleft : left ≤ bytes.length) (hfuel : left ≤ fuel)
    (copied : Bytes) :
    ∃ p', copy buffers fuel left copied p = (copied ++ bytes.take left, p') ∧
      Ahead buffers p' (bytes.drop left) := by
  induction fuel generalizing left copied p bytes with
  | zero =>
    obtain rfl : left = 0 := Nat.le_zero.mp hfuel
    exact ⟨p, by simp [copy], h⟩
  | succ fuel ih =>
    rw [copy]
    split_ifs with hzero
    · subst hzero
      exact ⟨p, by simp, h⟩
    have hbytes : bytes ≠ [] := ne_nil_of_length_pos (by omega)
    have hnext := h
    obtain ⟨-, past, now, hp, -⟩ := h
    obtain ⟨buffer, later, -, hcurrent, hlt, hsplit⟩ := hp.exists_cons hbytes
    have hdrop : (buffer.drop p.bufferOffset).length = buffer.length - p.bufferOffset :=
      length_drop
    simp only [hcurrent]
    generalize hchunk : min (buffer.length - p.bufferOffset) left = chunk
    have htake : (buffer.drop p.bufferOffset).take chunk = bytes.take chunk := by
      rw [hsplit, take_append_of_le_length (by omega)]
    have hleft' : left - chunk ≤ (bytes.drop chunk).length := by
      rw [length_drop]
      omega
    obtain ⟨p', hcopy, hp'⟩ := ih (hnext.advance chunk) hleft' (by omega)
      (copied ++ bytes.take chunk)
    have hsum : chunk + (left - chunk) = left := by omega
    refine ⟨p', ?_, ?_⟩
    · rw [htake, hcopy, append_assoc, ← take_add, hsum]
    · rw [drop_drop, hsum] at hp'
      exact hp'

theorem read_ahead (h : Ahead buffers p bytes) (n : Nat) :
    ∃ p', read buffers n p = (castInt (min n bytes.length), bytes.take n, p') ∧
      Ahead buffers p' (bytes.drop n) := by
  rw [read]
  split_ifs with hzero
  · subst hzero
    exact ⟨p, by rw [Nat.zero_min, castInt_zero, take_zero], h⟩
  obtain ⟨p', hcopy, hp'⟩ :=
    copy_ahead h (Nat.min_le_right n bytes.length) le_rfl []
  have htake : bytes.take (min n bytes.length) = bytes.take n :=
    take_eq_take_min.symm
  have hdrop : bytes.drop (min n bytes.length) = bytes.drop n :=
    drop_eq_drop_min.symm
  rw [hdrop] at hp'
  refine ⟨p', ?_, hp'⟩
  simp only [h.remainingBytes_eq, hcopy, nil_append, htake, length_take]

def crlf : Bytes := ['\r'.toUInt8, '\n'.toUInt8]

def OneLine (text : Bytes) : Prop := ∀ b ∈ text, b ≠ '\r'.toUInt8 ∧ b ≠ '\n'.toUInt8

instance (text : Bytes) : Decidable (OneLine text) :=
  inferInstanceAs (Decidable (∀ b ∈ text, _))

/-- The return value of `read_line` when the line is not complete. -/
def lineMore (ret : Int) : Bool := ret = -2

theorem readLineFrom_cons (h : Ahead buffers p (b :: bytes)) (fuel : Nat) (line : Bytes) :
    readLineFrom buffers (fuel + 1) line p =
      if b = '\n'.toUInt8 then .done line (Buffer.advance buffers 1 p)
      else if b = '\r'.toUInt8 then
        if bytes = [] then .failed (-2) (Buffer.advance buffers 1 p)
        else if peekChar buffers (Buffer.advance buffers 1 p) = '\n'.toUInt8 then
          .done line (Buffer.advance buffers 1 (Buffer.advance buffers 1 p))
        else .failed (-1) (Buffer.advance buffers 1 p)
      else readLineFrom buffers fuel (line ++ [b]) (Buffer.advance buffers 1 p) := by
  rw [readLineFrom]
  simp only [h.remainingBytes_eq, h.next.remainingBytes_eq, h.peekChar_eq, length_cons,
    Nat.add_one_ne_zero, if_false, length_eq_zero_iff]

theorem readLineFrom_line {text : Bytes} (htext : OneLine text)
    (h : Ahead buffers p (text ++ (crlf ++ bytes)))
    (hfuel : (text ++ (crlf ++ bytes)).length ≤ fuel) (line : Bytes) :
    ∃ p', readLineFrom buffers fuel line p = .done (line ++ text) p' ∧ Ahead buffers p' bytes := by
  induction text generalizing fuel line p with
  | nil =>
    obtain ⟨fuel, rfl⟩ : ∃ k, fuel = k + 1 := ⟨fuel - 1, by simp [crlf] at hfuel; omega⟩
    have hcr : Ahead buffers p ('\r'.toUInt8 :: '\n'.toUInt8 :: bytes) := h
    refine ⟨_, ?_, hcr.next.next⟩
    rw [readLineFrom_cons hcr, if_neg (by decide), if_pos rfl, if_neg (cons_ne_nil _ _),
      hcr.next.peekChar_eq, if_pos rfl, append_nil]
  | cons b text ih =>
    obtain ⟨fuel, rfl⟩ : ∃ k, fuel = k + 1 := ⟨fuel - 1, by simp at hfuel; omega⟩
    obtain ⟨⟨hcr, hlf⟩, htext⟩ := forall_mem_cons.mp htext
    rw [cons_append] at h hfuel
    obtain ⟨p', hread, hp'⟩ := ih htext h.next (Nat.le_of_succ_le_succ hfuel) (line ++ [b])
    refine ⟨p', ?_, hp'⟩
    rw [readLineFrom_cons h, if_neg hlf, if_neg hcr, hread, append_assoc,
      singleton_append]

theorem readLineFrom_part {text front : Bytes} (htext : OneLine text)
    (hfront : front <+: text ++ crlf) (hne : front ≠ text ++ crlf) (h : Ahead buffers p front)
    (fuel : Nat) (line : Bytes) : (readLineFrom buffers fuel line p).AsksMore lineMore := by
  induction fuel generalizing text front line p with
  | zero => exact ⟨-2, p, rfl, rfl⟩
  | succ fuel ih =>
    cases front with
    | nil =>
      refine ⟨-2, p, ?_, rfl⟩
      rw [readLineFrom, h.remainingBytes_eq]
      exact if_pos rfl
    | cons b front =>
      rw [readLineFrom_cons h]
      cases text with
      | nil =>
        -- the carriage return alone
        have hb : b = '\r'.toUInt8 ∧ front = [] := by
          rw [nil_append, crlf, cons_prefix_cons] at hfront
          refine ⟨hfront.1, ?_⟩
          rcases prefix_cons_iff.mp hfront.2 with rfl | ⟨last, rfl, hlast⟩
          · rfl
          · rw [prefix_nil.mp hlast, hfront.1] at hne
            exact absurd rfl hne
        obtain ⟨rfl, rfl⟩ := hb
        rw [if_neg (by decide), if_pos rfl, if_pos rfl]
        exact ⟨-2, _, rfl, rfl⟩
      | cons c text =>
        rw [cons_append, cons_prefix_cons] at hfront
        obtain ⟨rfl, hfront⟩ := hfront
        obtain ⟨⟨hcr, hlf⟩, htext⟩ := forall_mem_cons.mp htext
        rw [if_neg hlf, if_neg hcr]
        refine ih htext hfront ?_ h.next (line ++ [b])
        rintro rfl
        exact hne rfl

theorem meets_readLine {text : Bytes} (htext : OneLine text) (n : Nat) :
    Meets (Ahead buffers) lineMore n (readLine buffers) (text ++ crlf) (.value text) where
  whole {p rest} h _ := by
    rw [append_assoc] at h
    have hfuel : (text ++ (crlf ++ rest)).length ≤ remainingBytes buffers p :=
      Nat.le_of_eq h.remainingBytes_eq.symm
    obtain ⟨p', hread, hp'⟩ := readLineFrom_line htext h hfuel []
    exact ⟨p', hread, hp'⟩
  early _ _ _ h _ hfront hne := readLineFrom_part htext hfront hne h _ []

theorem agrees_readLineFrom (fuel : Nat) (line : Bytes) :
    Agrees (Ahead buffers₁) (Ahead buffers₂) (readLineFrom buffers₁ fuel line)
      (readLineFrom buffers₂ fuel line) := by
  intro p₁ p₂ tokens h₁ h₂
  induction fuel generalizing line p₁ p₂ tokens with
  | zero => exact .failed tokens suffix_rfl h₁ h₂
  | succ fuel ih =>
    cases tokens with
    | nil =>
      rw [readLineFrom, readLineFrom, h₁.remainingBytes_eq, h₂.remainingBytes_eq]
      exact .failed [] suffix_rfl h₁ h₂
    | cons b tokens =>
      rw [readLineFrom_cons h₁, readLineFrom_cons h₂]
      split
      · exact .done tokens (suffix_cons b tokens) h₁.next h₂.next
      split
      · cases tokens with
        | nil => exact .failed [] (suffix_cons b []) h₁.next h₂.next
        | cons c tokens =>
          rw [if_neg (cons_ne_nil _ _), if_neg (cons_ne_nil _ _),
            h₁.next.peekChar_eq, h₂.next.peekChar_eq]
          split
          · exact .done tokens ((suffix_cons c tokens).trans (suffix_cons b _))
              h₁.next.next h₂.next.next
          · exact .failed (c :: tokens) (suffix_cons b _) h₁.next h₂.next
      · exact (ih (line ++ [b]) h₁.next h₂.next).mono (suffix_cons b tokens)

theorem agrees_readLine :
    Agrees (Ahead buffers₁) (Ahead buffers₂) (readLine buffers₁) (readLine buffers₂) := by
  intro p₁ p₂ tokens h₁ h₂
  rw [readLine, readLine, h₁.remainingBytes_eq, h₂.remainingBytes_eq]
  exact agrees_readLineFrom tokens.length [] h₁ h₂

theorem ahead_start (hbytes : bytes ≠ []) : Ahead [bytes] {} bytes :=
  ⟨by simpa using hbytes, [], [bytes],
    ⟨rfl, rfl, length_pos_of_ne_nil hbytes, by simp⟩, rfl⟩

theorem ahead_nil : Ahead [] {} [] := ⟨by simp, [], [], ⟨rfl, rfl, rfl, rfl⟩, rfl⟩

theorem Ahead.offset_le (h : Ahead buffers p bytes) : p.offset ≤ buffers.flatten.length := by
  obtain ⟨-, past, now, hp, hoffset⟩ := h
  have hle := hp.inside.le
  rw [hp.split, flatten_append, length_append, hoffset]
  omega

theorem Ahead.discardReadBytes_eq (h : Ahead buffers p bytes) (hoffset : p.offset ≠ 0) :
    ByteBufferReader.discardReadBytes ⟨buffers, p⟩ = ByteBufferReader.addBuffer {} bytes := by
  have hremain := h.remainingBytes_eq
  rw [ByteBufferReader.discardReadBytes, if_neg hoffset]
  split_ifs with hend
  · have hnil : bytes = [] := by
      rw [remainingBytes] at hremain
      exact eq_nil_of_length_eq_zero (by dsimp only at hend; omega)
    rw [hnil]
    rfl
  · obtain ⟨p', hread, -⟩ := read_ahead h bytes.length
    rw [hremain, hread, take_length]

theorem ahead_addBuffer_start (bytes : Bytes) :
    Ahead (ByteBufferReader.addBuffer {} bytes).buffers
      (ByteBufferReader.addBuffer {} bytes).position bytes := by
  rw [ByteBufferReader.addBuffer]
  split_ifs with hnil
  · rw [hnil]
    exact ahead_nil
  · exact ahead_start hnil

theorem Ahead.discardReadBytes (h : Ahead buffers p bytes) :
    Ahead (ByteBufferReader.discardReadBytes ⟨buffers, p⟩).buffers
      (ByteBufferReader.discardReadBytes ⟨buffers, p⟩).position bytes := by
  by_cases hoffset : p.offset = 0
  · rw [ByteBufferReader.discardReadBytes, if_pos hoffset]
    exact h
  · rw [h.discardReadBytes_eq hoffset]
    exact ahead_addBuffer_start bytes

end ServerLib.Buffer

import Mathlib.Data.List.Forall2
import ServerLib.Buffer.ByteBufferReader
import ServerLib.Lib.Simulation

/-! The operations of a `ByteBufferReader` with its mark, and the same operations on one flat
sequence of bytes with a cursor. -/

namespace ServerLib.Buffer

open Lib List

/-- The loop of `read_line` with all that it leaves: what is returned, the line and the
position.  A turn reads one byte at least. -/
def pushLineFrom (buffers : List Bytes) : Nat → Bytes → Position → Int × Bytes × Position
  | 0, line, p => (-2, line, p)
  | fuel + 1, line, p =>
    if remainingBytes buffers p = 0 then (-2, line, p)
    else
      let ch := peekChar buffers p
      let next := advance buffers 1 p
      if ch = '\n'.toUInt8 then (0, line, next)
      else if ch = '\r'.toUInt8 then
        if remainingBytes buffers next = 0 then (-2, line, next)
        else if peekChar buffers next = '\n'.toUInt8 then (0, line, advance buffers 1 next)
        else (-1, line, next)
      else pushLineFrom buffers fuel (line ++ [ch]) next

structure MarkedReader extends ByteBufferReader where
  mark : Position := {}

namespace MarkedReader

def addBuffer (reader : MarkedReader) (buffer : Bytes) : MarkedReader :=
  { reader with toByteBufferReader := reader.toByteBufferReader.addBuffer buffer }

def ofBuffers (buffers : List Bytes) : MarkedReader := buffers.foldl addBuffer {}

def discardReadBytes (reader : MarkedReader) : MarkedReader :=
  if reader.position.offset = 0 then reader
  else { toByteBufferReader := reader.toByteBufferReader.discardReadBytes }

def moveTo (reader : MarkedReader) (position : Position) : MarkedReader := { reader with position }

end MarkedReader

/-- The operations.  A position is restored by its place among those taken since the last
`discard_read_bytes`. -/
inductive ReaderCall
  | peekChar
  | readChar
  | read (bytes : Nat)
  | readLine (line : Bytes)
  | mark
  | rollback
  | position
  | restore (place : Nat)
  | discardReadBytes
  | addBuffer (buffer : Bytes)
  | remainingBytes

inductive ReaderAnswer
  | done
  | char (ch : UInt8)
  | read (ret : Int) (dest : Bytes)
  | line (ret : Int) (line : Bytes)
  | bytes (n : Nat)

/-- A reader and the positions that its user has taken. -/
structure ReaderUse where
  reader : MarkedReader := {}
  positions : List Position := []

namespace ReaderUse

def step (use : ReaderUse) : ReaderCall → ReaderAnswer × ReaderUse
  | .peekChar => (.char (peekChar use.reader.buffers use.reader.position), use)
  | .readChar =>
    (.char (peekChar use.reader.buffers use.reader.position),
      { use with
        reader := use.reader.moveTo (advance use.reader.buffers 1 use.reader.position) })
  | .read bytes =>
    let (ret, dest, position) := read use.reader.buffers bytes use.reader.position
    (.read ret dest, { use with reader := use.reader.moveTo position })
  | .readLine line =>
    let (ret, line, position) := pushLineFrom use.reader.buffers
      (remainingBytes use.reader.buffers use.reader.position) line use.reader.position
    (.line ret line, { use with reader := use.reader.moveTo position })
  | .mark => (.done, { use with reader := { use.reader with mark := use.reader.position } })
  | .rollback => (.done, { use with reader := use.reader.moveTo use.reader.mark })
  | .position =>
    (.bytes use.reader.position.offset,
      { use with positions := use.positions ++ [use.reader.position] })
  | .restore place =>
    match use.positions[place]? with
    | none => (.done, use)
    | some position => (.done, { use with reader := use.reader.moveTo position })
  | .discardReadBytes => (.done, { reader := use.reader.discardReadBytes, positions := [] })
  | .addBuffer buffer => (.done, { use with reader := use.reader.addBuffer buffer })
  | .remainingBytes => (.bytes (remainingBytes use.reader.buffers use.reader.position), use)

end ReaderUse

/-- A sequence of bytes with a cursor, a mark and the positions taken, all counted from the start
of the sequence. -/
structure FlatUse where
  bytes : Bytes := []
  cursor : Nat := 0
  mark : Nat := 0
  positions : List Nat := []

/-- What `read_line` makes of the bytes ahead: its return value, what it adds to the line, and how
many bytes it takes. -/
def flatLine : Bytes → Int × Bytes × Nat
  | [] => (-2, [], 0)
  | b :: ahead =>
    if b = '\n'.toUInt8 then (0, [], 1)
    else if b = '\r'.toUInt8 then
      if ahead = [] then (-2, [], 1)
      else if ahead.headD 0 = '\n'.toUInt8 then (0, [], 2)
      else (-1, [], 1)
    else
      let (ret, line, taken) := flatLine ahead
      (ret, b :: line, taken + 1)

namespace FlatUse

variable (use : FlatUse)

def ahead : Bytes := use.bytes.drop use.cursor

def forward (bytes : Nat) : FlatUse :=
  { use with cursor := use.cursor + min bytes use.ahead.length }

def step : ReaderCall → ReaderAnswer × FlatUse
  | .peekChar => (.char (use.ahead.headD 0), use)
  | .readChar => (.char (use.ahead.headD 0), use.forward 1)
  | .read bytes =>
    (.read (castInt (min bytes use.ahead.length)) (use.ahead.take bytes), use.forward bytes)
  | .readLine line =>
    (.line (flatLine use.ahead).1 (line ++ (flatLine use.ahead).2.1),
      use.forward (flatLine use.ahead).2.2)
  | .mark => (.done, { use with mark := use.cursor })
  | .rollback => (.done, { use with cursor := use.mark })
  | .position => (.bytes use.cursor, { use with positions := use.positions ++ [use.cursor] })
  | .restore place =>
    match use.positions[place]? with
    | none => (.done, use)
    | some position => (.done, { use with cursor := position })
  | .discardReadBytes =>
    -- what is before the cursor goes, and with it the mark
    (.done, if use.cursor = 0 then { use with positions := [] } else { bytes := use.ahead })
  | .addBuffer buffer => (.done, { use with bytes := use.bytes ++ buffer })
  | .remainingBytes => (.bytes use.ahead.length, use)

end FlatUse

/-- `p` is the place `n` of the buffers taken as one sequence. -/
def Placed (buffers : List Bytes) (p : Position) (n : Nat) : Prop :=
  Ahead buffers p (buffers.flatten.drop n) ∧ p.offset = n

theorem Ahead.placed (h : Ahead buffers p bytes) :
    Placed buffers p p.offset ∧ bytes = buffers.flatten.drop p.offset := by
  have hbytes : bytes = buffers.flatten.drop p.offset := by
    obtain ⟨-, past, now, hp, hoffset⟩ := h
    rw [← hp.rest, hp.split, flatten_append, hoffset, drop_append,
      drop_of_length_le (Nat.le_add_right _ _), nil_append, Nat.add_sub_cancel_left]
  exact ⟨⟨hbytes ▸ h, rfl⟩, hbytes⟩

theorem Placed.forward (h : Placed buffers p n)
    (hahead : Ahead buffers p' ((buffers.flatten.drop n).drop m)) :
    Placed buffers p' (n + min m (buffers.flatten.drop n).length) := by
  obtain ⟨hplaced, hbytes⟩ := hahead.placed
  have hle := h.1.offset_le
  have hle' := hahead.offset_le
  have hlength := congrArg length hbytes
  rw [h.2] at hle
  rw [length_drop, length_drop, length_drop] at hlength
  have hoffset : p'.offset = n + min m (buffers.flatten.drop n).length := by
    rw [length_drop]
    omega
  rw [hoffset] at hplaced
  exact hplaced

theorem Ahead.append (h : Ahead buffers p bytes) {buffer : Bytes} (hne : buffer ≠ []) :
    Ahead (buffers ++ [buffer]) p (bytes ++ buffer) := by
  obtain ⟨hbuffers, past, now, ⟨hsplit, hindex, hinside, hrest⟩, hoffset⟩ := h
  refine ⟨?_, past, now ++ [buffer], ⟨?_, hindex, ?_, ?_⟩, hoffset⟩
  · simpa [or_imp, forall_and] using ⟨hbuffers, hne⟩
  · rw [hsplit, append_assoc]
  · cases now with
    | nil =>
      rw [show p.bufferOffset = 0 from hinside]
      exact length_pos_of_ne_nil hne
    | cons first later => exact hinside
  · rw [flatten_append, flatten_singleton, drop_append_of_le_length hinside.le,
      hrest]

theorem Placed.append (h : Placed buffers p n) {buffer : Bytes} (hne : buffer ≠ []) :
    Placed (buffers ++ [buffer]) p n := by
  have hle := h.1.offset_le
  rw [h.2] at hle
  refine ⟨?_, h.2⟩
  rw [flatten_append, flatten_singleton, drop_append_of_le_length hle]
  exact h.1.append hne

section Lines

variable {bytes : Bytes}

theorem pushLineFrom_cons (h : Ahead buffers p (b :: bytes)) (fuel : Nat) (line : Bytes) :
    pushLineFrom buffers (fuel + 1) line p =
      if b = '\n'.toUInt8 then (0, line, advance buffers 1 p)
      else if b = '\r'.toUInt8 then
        if bytes = [] then (-2, line, advance buffers 1 p)
        else if bytes.headD 0 = '\n'.toUInt8 then
          (0, line, advance buffers 1 (advance buffers 1 p))
        else (-1, line, advance buffers 1 p)
      else pushLineFrom buffers fuel (line ++ [b]) (advance buffers 1 p) := by
  rw [pushLineFrom]
  simp only [h.remainingBytes_eq, h.next.remainingBytes_eq, h.peekChar_eq,
    h.next.peekChar_eq_headD, length_cons, Nat.add_one_ne_zero, if_false,
    length_eq_zero_iff]

theorem pushLineFrom_ahead (h : Ahead buffers p bytes) (hfuel : bytes.length ≤ fuel)
    (line : Bytes) :
    ∃ p', pushLineFrom buffers fuel line p =
        ((flatLine bytes).1, line ++ (flatLine bytes).2.1, p') ∧
      Ahead buffers p' (bytes.drop (flatLine bytes).2.2) := by
  induction bytes generalizing fuel line p with
  | nil =>
    refine ⟨p, ?_, h⟩
    cases fuel with
    | zero => simp [pushLineFrom, flatLine]
    | succ fuel => simp [pushLineFrom, flatLine, h.remainingBytes_eq]
  | cons b bytes ih =>
    obtain ⟨fuel, rfl⟩ : ∃ k, fuel = k + 1 := ⟨fuel - 1, by simp at hfuel; omega⟩
    rw [pushLineFrom_cons h, flatLine]
    split
    · exact ⟨_, by rw [append_nil], h.next⟩
    split
    · split
      · exact ⟨_, by rw [append_nil], h.next⟩
      · split
        · exact ⟨_, by rw [append_nil], h.next.advance 1⟩
        · exact ⟨_, by rw [append_nil], h.next⟩
    · obtain ⟨p', hpush, hp'⟩ := ih h.next (Nat.le_of_succ_le_succ hfuel) (line ++ [b])
      refine ⟨p', ?_, hp'⟩
      rw [hpush, append_assoc, singleton_append]

end Lines

structure Flattens (use : ReaderUse) (flat : FlatUse) : Prop where
  bytes : use.reader.buffers.flatten = flat.bytes
  cursor : Placed use.reader.buffers use.reader.position flat.cursor
  mark : Placed use.reader.buffers use.reader.mark flat.mark
  positions : List.Forall₂ (Placed use.reader.buffers) use.positions flat.positions

theorem flattens_empty : Flattens {} {} :=
  ⟨rfl, ⟨ahead_nil, rfl⟩, ⟨ahead_nil, rfl⟩, .nil⟩

namespace Flattens

variable (h : Flattens use flat)

include h

theorem ahead : Ahead use.reader.buffers use.reader.position flat.ahead := by
  rw [FlatUse.ahead, ← h.bytes]
  exact h.cursor.1

theorem moveTo (hp : Placed use.reader.buffers p n) :
    Flattens { use with reader := use.reader.moveTo p } { flat with cursor := n } :=
  ⟨h.bytes, hp, h.mark, h.positions⟩

theorem forward (hp : Ahead use.reader.buffers p (flat.ahead.drop n)) :
    Flattens { use with reader := use.reader.moveTo p } (flat.forward n) := by
  refine h.moveTo ?_
  rw [FlatUse.ahead, ← h.bytes] at hp ⊢
  exact h.cursor.forward hp

theorem addBuffer (buffer : Bytes) :
    Flattens { use with reader := use.reader.addBuffer buffer }
      { flat with bytes := flat.bytes ++ buffer } := by
  by_cases hempty : buffer = []
  · subst hempty
    rw [append_nil]
    simp [MarkedReader.addBuffer, ByteBufferReader.addBuffer]
    exact h
  · obtain ⟨hbytes, hcursor, hmark, hpositions⟩ := h
    have hbuffers : (use.reader.addBuffer buffer).buffers = use.reader.buffers ++ [buffer] := by
      simp [MarkedReader.addBuffer, ByteBufferReader.addBuffer, hempty]
    have hposition : (use.reader.addBuffer buffer).position = use.reader.position := by
      simp [MarkedReader.addBuffer, ByteBufferReader.addBuffer, hempty]
    refine ⟨?_, ?_, ?_, ?_⟩ <;> dsimp only <;> rw [hbuffers]
    · rw [flatten_append, hbytes, flatten_singleton]
    · rw [hposition]
      exact hcursor.append hempty
    · exact hmark.append hempty
    · exact hpositions.imp fun _ _ hp => hp.append hempty

theorem discardReadBytes :
    Flattens { reader := use.reader.discardReadBytes, positions := [] }
      (if flat.cursor = 0 then { flat with positions := [] } else { bytes := flat.ahead }) := by
  have hoffset := h.cursor.2
  by_cases hzero : flat.cursor = 0
  · rw [if_pos hzero, MarkedReader.discardReadBytes, if_pos (hoffset.trans hzero)]
    exact ⟨h.bytes, h.cursor, h.mark, .nil⟩
  · have hne : use.reader.position.offset ≠ 0 := hoffset ▸ hzero
    rw [if_neg hzero, MarkedReader.discardReadBytes, if_neg hne]
    rw [h.ahead.discardReadBytes_eq hne]
    exact flattens_empty.addBuffer flat.ahead

theorem restore (place : Nat) :
    (use.step (.restore place)).1 = (flat.step (.restore place)).1 ∧
      Flattens (use.step (.restore place)).2 (flat.step (.restore place)).2 := by
  have hplaces := h.positions
  have hlength := hplaces.length_eq
  rw [ReaderUse.step, FlatUse.step]
  by_cases hlt : place < use.positions.length
  · rw [getElem?_eq_getElem hlt, getElem?_eq_getElem (hlength ▸ hlt)]
    exact ⟨rfl, h.moveTo (hplaces.get hlt (hlength ▸ hlt))⟩
  · rw [getElem?_eq_none (not_lt.mp hlt), getElem?_eq_none (hlength ▸ not_lt.mp hlt)]
    exact ⟨rfl, h⟩

end Flattens

theorem simulates_step : Simulates ReaderUse.step FlatUse.step Flattens := by
  intro use flat call h
  have hahead := h.ahead
  cases call with
  | peekChar => exact ⟨congrArg ReaderAnswer.char hahead.peekChar_eq_headD, h⟩
  | readChar =>
    exact ⟨congrArg ReaderAnswer.char hahead.peekChar_eq_headD, h.forward (hahead.advance 1)⟩
  | read bytes =>
    obtain ⟨p', hread, hp'⟩ := read_ahead hahead bytes
    simp only [ReaderUse.step, FlatUse.step, hread]
    exact ⟨trivial, h.forward hp'⟩
  | readLine line =>
    obtain ⟨p', hpush, hp'⟩ := pushLineFrom_ahead hahead le_rfl line
    simp only [ReaderUse.step, FlatUse.step, hahead.remainingBytes_eq, hpush]
    exact ⟨trivial, h.forward hp'⟩
  | mark => exact ⟨rfl, ⟨h.bytes, h.cursor, h.cursor, h.positions⟩⟩
  | rollback => exact ⟨rfl, h.moveTo h.mark⟩
  | position =>
    have hpositions := rel_append h.positions (List.Forall₂.cons h.cursor .nil)
    exact ⟨congrArg ReaderAnswer.bytes h.cursor.2, ⟨h.bytes, h.cursor, h.mark, hpositions⟩⟩
  | restore place => exact h.restore place
  | discardReadBytes => exact ⟨rfl, h.discardReadBytes⟩
  | addBuffer buffer => exact ⟨rfl, h.addBuffer buffer⟩
  | remainingBytes => exact ⟨congrArg ReaderAnswer.bytes hahead.remainingBytes_eq, h⟩

theorem flattens_ofBuffers (buffers : List Bytes) :
    Flattens { reader := .ofBuffers buffers } { bytes := buffers.flatten } := by
  have hfold : ∀ (reader : MarkedReader) (bytes : Bytes), Flattens { reader } { bytes } →
      Flattens { reader := buffers.foldl .addBuffer reader }
        { bytes := bytes ++ buffers.flatten } := by
    induction buffers with
    | nil =>
      intro reader bytes h
      rw [flatten_nil, append_nil]
      exact h
    | cons buffer buffers ih =>
      intro reader bytes h
      rw [flatten_cons, ← append_assoc]
      exact ih _ _ (h.addBuffer buffer)
  exact hfold {} [] flattens_empty

/-- Readers of buffers that are the same bytes give the same answers, those of the flat
sequence. -/
theorem answers_eq_of_flatten_eq {buffers buffers' : List Bytes}
    (h : buffers.flatten = buffers'.flatten) (calls : List ReaderCall) :
    answers ReaderUse.step { reader := .ofBuffers buffers } calls =
        answers FlatUse.step { bytes := buffers.flatten } calls ∧
      answers ReaderUse.step { reader := .ofBuffers buffers } calls =
        answers ReaderUse.step { reader := .ofBuffers buffers' } calls := by
  have hflat := simulates_step.answers_eq (flattens_ofBuffers buffers) calls
  have hflat' := simulates_step.answers_eq (flattens_ofBuffers buffers') calls
  exact ⟨hflat, by rw [hflat, hflat', h]⟩

/-- The end of a line lies in two buffers. -/
theorem answers_eq_two_chunkings :
    answers ReaderUse.step { reader := .ofBuffers [[65], [], [13], [10, 66]] }
        [.mark, .readLine [], .position, .read 1, .discardReadBytes, .rollback, .peekChar] =
      answers FlatUse.step { bytes := [65, 13, 10, 66] }
        [.mark, .readLine [], .position, .read 1, .discardReadBytes, .rollback, .peekChar] ∧
    answers ReaderUse.step { reader := .ofBuffers [[65], [], [13], [10, 66]] }
        [.mark, .readLine [], .position, .read 1, .discardReadBytes, .rollback, .peekChar] =
      answers ReaderUse.step { reader := .ofBuffers [[65, 13, 10], [66]] }
        [.mark, .readLine [], .position, .read 1, .discardReadBytes, .rollback, .peekChar] :=
  answers_eq_of_flatten_eq rfl _

end ServerLib.Buffer

import ServerLib.Http1.Chunked

/-!
Chunked bodies, read byte by byte.  The state of the reader after a stream does not depend on how
the stream arrives.  The bodies of the grammar end in the state `done` with their last byte.
-/

namespace ServerLib.Http1

open Lib List

/-- Where a stream is: in the line of a size (`ext` behind a semicolon, with the mark that the last
byte was one), in a chunk, in the line end after it, or among the trailers.  In `stuck` a carriage
return is not followed by a line feed. -/
inductive Scan where
  | size (digits : Bytes)
  | ext (digits : Bytes) (atSemicolon : Bool)
  | sizeCr (digits : Bytes)
  | data (remain : Nat)
  | awaitCr
  | awaitLf
  | lineStart
  | lineStartCr
  | inLine
  | inLineCr
  | stuck
  | done
  | error
deriving DecidableEq

namespace Scan

def verdict : Scan → ChunkState
  | done => .completed
  | error => .invalidChunk
  | _ => .needMore

def sized (digits : Bytes) : Scan :=
  if digits = [] ∨ hexValue digits > maxChunkSize then error
  else if hexValue digits = 0 then lineStart
  else data (hexValue digits)

def sizeByte (digits : Bytes) (c : UInt8) : Scan :=
  if c = cr then sizeCr digits
  else if isxdigit c then
    if digits.length ≥ maxSizeBufLength then error else size (digits ++ [c])
  else if c = semicolon then ext digits true
  else error

def lineByte (c : UInt8) : Scan := if c = cr then lineStartCr else inLine

def byte (c : UInt8) : Scan → Scan
  | size digits => sizeByte digits c
  | ext digits _ => if c = cr then sizeCr digits else ext digits (c = semicolon)
  | sizeCr digits => if c = lf then sized digits else stuck
  | data remain => if remain - 1 = 0 then awaitCr else data (remain - 1)
  | awaitCr => if c = cr then awaitLf else error
  | awaitLf => if c = lf then size [] else stuck
  | lineStart => lineByte c
  | lineStartCr => if c = lf then done else lineByte c
  | inLine => if c = cr then inLineCr else inLine
  | inLineCr => if c = lf then lineStart else lineByte c
  | stuck => stuck
  | done => done
  | error => error

def isData : Scan → Bool
  | data _ => true
  | _ => false

end Scan

structure Decoder where
  scan : Scan
  body : Bytes

namespace Decoder

def initial : Decoder := { scan := .size [], body := [] }

/-- The bytes of the chunks are kept, up to a limit. -/
def byte (limit : Nat) (decoder : Decoder) (c : UInt8) : Decoder :=
  if decoder.scan.isData then
    if decoder.body.length + 1 > limit then { decoder with scan := .error }
    else { scan := decoder.scan.byte c, body := decoder.body ++ [c] }
  else { decoder with scan := decoder.scan.byte c }

variable (limit : Nat) (decoder : Decoder)

def segment (bytes : Bytes) : Decoder :=
  run (byte limit) decoder bytes

theorem segment_cons (c : UInt8) (bytes : Bytes) :
    segment limit decoder (c :: bytes) = segment limit (byte limit decoder c) bytes := rfl

theorem segment_append (bytes bytes' : Bytes) :
    segment limit decoder (bytes ++ bytes') = segment limit (segment limit decoder bytes) bytes' :=
  run_append _ _ _ _

theorem run_segment (segments : List Bytes) :
    run (segment limit) decoder segments = segment limit decoder segments.flatten := by
  induction segments generalizing decoder with
  | nil => rfl
  | cons bytes segments ih =>
    rw [run_cons, ih, flatten_cons, segment_append]

theorem segment_final {limit : Nat} {decoder : Decoder}
    (h : decoder.scan = .done ∨ decoder.scan = .error ∨ decoder.scan = .stuck) (bytes : Bytes) :
    segment limit decoder bytes = decoder := by
  have hbyte : ∀ c, byte limit decoder c = decoder := by
    intro c
    obtain ⟨scan, body⟩ := decoder
    rcases h with h | h | h
    all_goals
      subst h
      rfl
  induction bytes with
  | nil => rfl
  | cons c bytes ih => rw [segment_cons, hbyte, ih]

end Decoder

/-- The line of a size: its digits and extensions, which begin with a semicolon, perhaps after
white space. -/
structure SizeLine where
  digits : Bytes
  blanks : Bytes
  ext : Bytes
  digits_ne : digits ≠ []
  digits_hex : ∀ c ∈ digits, isxdigit c = true
  blanks_ows : ∀ c ∈ blanks, isHeaderOws c = true
  ext_wf : (ext = [] ∧ blanks = []) ∨ ext.head? = some semicolon
  ext_line : cr ∉ ext ∧ lf ∉ ext

structure Chunk where
  line : SizeLine
  data : Bytes
  size_eq : hexValue line.digits = data.length
  data_ne : data ≠ []

structure ChunkedBody where
  chunks : List Chunk
  last : SizeLine
  last_zero : ∀ c ∈ last.digits, c = '0'.toUInt8
  trailers : List Bytes
  trailers_line : ∀ line ∈ trailers, line ≠ [] ∧ cr ∉ line ∧ lf ∉ line

def crlf : Bytes := [cr, lf]

def SizeLine.wire (line : SizeLine) : Bytes := line.digits ++ line.blanks ++ line.ext ++ crlf

def Chunk.wire (chunk : Chunk) : Bytes := chunk.line.wire ++ chunk.data ++ crlf

namespace ChunkedBody

def data (body : ChunkedBody) : Bytes := body.chunks.flatMap Chunk.data

variable (body : ChunkedBody)

/-- All but the empty line at the end. -/
def front : Bytes :=
  body.chunks.flatMap Chunk.wire ++ body.last.wire ++ body.trailers.flatMap (· ++ crlf)

def wire : Bytes := body.front ++ crlf

/-- The sizes are within the limits of the parser. -/
def Within (limit : Nat) (body : ChunkedBody) : Prop :=
  (∀ chunk ∈ body.chunks, chunk.line.digits.length ≤ maxSizeBufLength ∧
      chunk.data.length ≤ maxChunkSize) ∧
    body.last.digits.length ≤ maxSizeBufLength ∧ body.data.length ≤ limit

instance (limit : Nat) (body : ChunkedBody) : Decidable (body.Within limit) :=
  inferInstanceAs (Decidable (_ ∧ _ ∧ _))

def Tight : Prop :=
  (∀ chunk ∈ body.chunks, chunk.line.blanks = []) ∧ body.last.blanks = []

instance (body : ChunkedBody) : Decidable body.Tight := inferInstanceAs (Decidable (_ ∧ _))

end ChunkedBody

namespace Decoder

variable {body : Bytes}

variable {digits bytes : Bytes} {chunked : ChunkedBody}

theorem segment_step {scan : Scan} (h : scan.isData = false) (c : UInt8) (bytes : Bytes) :
    segment limit { scan, body } (c :: bytes) =
      segment limit { scan := scan.byte c, body } bytes := by
  rw [segment_cons, byte]
  simp [h]

theorem segment_digits (hhex : ∀ c ∈ more, isxdigit c = true)
    (hlength : (digits ++ more).length ≤ maxSizeBufLength) :
    segment limit { scan := .size digits, body } more =
      { scan := .size (digits ++ more), body } := by
  induction more generalizing digits with
  | nil => rw [append_nil]; rfl
  | cons c more ih =>
    have hc : c ≠ cr := by
      rintro rfl
      exact absurd (hhex cr (by simp)) (by decide)
    have hroom : ¬digits.length ≥ maxSizeBufLength := by
      simp only [length_append, length_cons] at hlength
      omega
    rw [segment_step rfl, Scan.byte, Scan.sizeByte, if_neg hc, if_pos (hhex c (by simp)),
      if_neg hroom, ih (fun d hd => hhex d (mem_cons_of_mem _ hd)) (by simpa using hlength),
      append_assoc, singleton_append]

theorem segment_ext (atSemicolon : Bool) (hmore : cr ∉ more) :
    segment limit { scan := .ext digits atSemicolon, body } more =
      { scan := .ext digits (more.getLast?.elim atSemicolon (· = semicolon)), body } := by
  induction more generalizing atSemicolon with
  | nil => rfl
  | cons c more ih =>
    rw [mem_cons, not_or] at hmore
    rw [segment_step rfl, Scan.byte, if_neg (Ne.symm hmore.1), ih _ hmore.2, getLast?_cons]
    cases more.getLast? <;> rfl

theorem segment_sizeLine (line : SizeLine) (htight : line.blanks = [])
    (hlength : line.digits.length ≤ maxSizeBufLength) :
    segment limit { scan := .size [], body } line.wire =
      { scan := Scan.sized line.digits, body } := by
  have hdigits : segment limit { scan := .size [], body } line.digits =
      { scan := .size ([] ++ line.digits), body } :=
    segment_digits line.digits_hex (by simpa using hlength)
  rw [SizeLine.wire, htight, append_nil, segment_append, segment_append, hdigits,
    nil_append]
  rcases line.ext_wf with h | h
  · rw [h.1]
    rfl
  · obtain ⟨more, hmore⟩ : ∃ more, line.ext = semicolon :: more := by
      cases hext : line.ext with
      | nil => rw [hext] at h; cases h
      | cons c more =>
        rw [hext] at h
        exact ⟨more, by rw [Option.some.inj h]⟩
    have hcr : cr ∉ more := by
      have hline := line.ext_line.1
      rw [hmore, mem_cons, not_or] at hline
      exact hline.2
    have hfirst : segment limit { scan := .size line.digits, body } (semicolon :: more) =
        segment limit { scan := .ext line.digits true, body } more := rfl
    rw [hmore, hfirst, segment_ext true hcr]
    rfl

theorem segment_data {n : Nat} (hpos : 0 < n) (hlength : bytes.length ≤ n)
    (hlimit : body.length + bytes.length ≤ limit) :
    segment limit { scan := .data n, body } bytes =
      { scan := if n - bytes.length = 0 then .awaitCr else .data (n - bytes.length)
        body := body ++ bytes } := by
  induction bytes generalizing n body with
  | nil => rw [length_nil, Nat.sub_zero, if_neg (by omega), append_nil]; rfl
  | cons c bytes ih =>
    simp only [length_cons] at hlength hlimit ⊢
    have hbyte : byte limit { scan := .data n, body } c =
        { scan := if n - 1 = 0 then .awaitCr else .data (n - 1), body := body ++ [c] } := by
      simp only [byte, Scan.isData, if_true, if_neg (show ¬body.length + 1 > limit by omega),
        Scan.byte]
    rw [segment_cons, hbyte]
    by_cases hn : n - 1 = 0
    · have hbytes : bytes = [] := length_eq_zero_iff.mp (by omega)
      subst hbytes
      rw [if_pos hn, length_nil, if_pos (by omega)]
      rfl
    · rw [if_neg hn, ih (by omega) (by omega) (by simp; omega), append_assoc,
        singleton_append, show n - 1 - bytes.length = n - (bytes.length + 1) by omega]

theorem segment_data_error {n : Nat} (hlength : bytes.length ≤ n) (hne : bytes ≠ [])
    (hlimit : limit < body.length + bytes.length) :
    (segment limit { scan := .data n, body } bytes).scan = .error := by
  induction bytes generalizing n body with
  | nil => exact absurd rfl hne
  | cons c bytes ih =>
    simp only [length_cons] at hlength hlimit
    rw [segment_cons]
    by_cases hfull : body.length + 1 > limit
    · have hbyte : byte limit { scan := .data n, body } c = { scan := .error, body } := by
        simp only [byte, Scan.isData, if_true, if_pos hfull]
      rw [hbyte, segment_final (.inr (.inl rfl))]
    · have hbytes : bytes ≠ [] := by
        rintro rfl
        simp only [length_nil] at hlimit
        omega
      have hbyte : byte limit { scan := .data n, body } c =
          { scan := .data (n - 1), body := body ++ [c] } := by
        simp only [byte, Scan.isData, if_true, if_neg hfull, Scan.byte,
          if_neg (show ¬n - 1 = 0 by omega)]
      rw [hbyte]
      exact ih (by omega) hbytes (by simp only [length_append, length_singleton]; omega)

theorem segment_chunk (chunk : Chunk) (htight : chunk.line.blanks = [])
    (hdigits : chunk.line.digits.length ≤ maxSizeBufLength)
    (hsize : chunk.data.length ≤ maxChunkSize) (hlimit : body.length + chunk.data.length ≤ limit) :
    segment limit { scan := .size [], body } chunk.wire =
      { scan := .size [], body := body ++ chunk.data } := by
  have hpos := length_pos_iff.mpr chunk.data_ne
  have hsized : Scan.sized chunk.line.digits = .data chunk.data.length := by
    unfold Scan.sized
    rw [chunk.size_eq, if_neg, if_neg (by omega)]
    rintro (h | h)
    · exact chunk.line.digits_ne h
    · omega
  rw [Chunk.wire, segment_append, segment_append, segment_sizeLine _ htight hdigits, hsized,
    segment_data hpos le_rfl hlimit, if_pos (Nat.sub_self _)]
  rfl

theorem segment_chunks (chunks : List Chunk)
    (htight : ∀ chunk ∈ chunks, chunk.line.blanks = [])
    (hsizes : ∀ chunk ∈ chunks, chunk.line.digits.length ≤ maxSizeBufLength ∧
      chunk.data.length ≤ maxChunkSize)
    (hlimit : body.length + (chunks.flatMap Chunk.data).length ≤ limit) :
    segment limit { scan := .size [], body } (chunks.flatMap Chunk.wire) =
      { scan := .size [], body := body ++ chunks.flatMap Chunk.data } := by
  induction chunks generalizing body with
  | nil => rw [flatMap_nil, flatMap_nil, append_nil]; rfl
  | cons chunk chunks ih =>
    rw [flatMap_cons, length_append] at hlimit
    obtain ⟨hblanks, htight⟩ := forall_mem_cons.mp htight
    obtain ⟨⟨hdigits, hsize⟩, hsizes⟩ := forall_mem_cons.mp hsizes
    rw [flatMap_cons, flatMap_cons, segment_append,
      segment_chunk chunk hblanks hdigits hsize (by omega),
      ih htight hsizes (by rw [length_append]; omega), append_assoc]

theorem hexValue_zeros (h : ∀ c ∈ digits, c = '0'.toUInt8) : hexValue digits = 0 := by
  unfold hexValue
  induction digits with
  | nil => rfl
  | cons c digits ih =>
    obtain ⟨hc, h⟩ := forall_mem_cons.mp h
    rw [foldl_cons, hc]
    exact ih h

theorem segment_inLine (hline : cr ∉ line) :
    segment limit { scan := .inLine, body } line = { scan := .inLine, body } := by
  induction line with
  | nil => rfl
  | cons c line ih =>
    rw [mem_cons, not_or] at hline
    rw [segment_step rfl, Scan.byte, if_neg (Ne.symm hline.1), ih hline.2]

theorem segment_lineStart {line : Bytes} (hne : line ≠ []) (hline : cr ∉ line) :
    segment limit { scan := .lineStart, body } line = { scan := .inLine, body } := by
  cases line with
  | nil => exact absurd rfl hne
  | cons c line =>
    rw [mem_cons, not_or] at hline
    rw [segment_step rfl, Scan.byte, Scan.lineByte, if_neg (Ne.symm hline.1),
      segment_inLine hline.2]

theorem segment_trailers (trailers : List Bytes)
    (h : ∀ line ∈ trailers, line ≠ [] ∧ cr ∉ line ∧ lf ∉ line) :
    segment limit { scan := .lineStart, body } (trailers.flatMap (· ++ crlf)) =
      { scan := .lineStart, body } := by
  induction trailers with
  | nil => rfl
  | cons line trailers ih =>
    obtain ⟨⟨hne, hcr, -⟩, h⟩ := forall_mem_cons.mp h
    have hend : segment limit { scan := .inLine, body } crlf = { scan := .lineStart, body } := rfl
    rw [flatMap_cons, segment_append, segment_append, segment_lineStart hne hcr, hend,
      ih h]

theorem segment_front (hwithin : chunked.Within limit) (htight : chunked.Tight) :
    segment limit initial chunked.front = { scan := .lineStart, body := chunked.data } := by
  obtain ⟨hsizes, hlast, hlimit⟩ := hwithin
  have hsized : Scan.sized chunked.last.digits = .lineStart := by
    unfold Scan.sized
    rw [hexValue_zeros chunked.last_zero, if_neg, if_pos rfl]
    rintro (h | h)
    · exact chunked.last.digits_ne h
    · exact absurd h (by decide)
  rw [ChunkedBody.front, segment_append, segment_append, initial,
    segment_chunks chunked.chunks htight.1 hsizes
      (by rw [length_nil, Nat.zero_add]; exact hlimit), nil_append,
    segment_sizeLine _ htight.2 hlast, hsized, segment_trailers _ chunked.trailers_line]
  rfl

theorem segment_wire (hwithin : chunked.Within limit) (htight : chunked.Tight) :
    segment limit initial chunked.wire = { scan := .done, body := chunked.data } := by
  rw [ChunkedBody.wire, segment_append, segment_front hwithin htight]
  rfl

theorem verdict_segment_before_end (hwithin : chunked.Within limit) (htight : chunked.Tight)
    (hpart : bytes <+: chunked.wire) (hne : bytes ≠ chunked.wire) :
    (segment limit initial bytes).scan.verdict = .needMore := by
  -- The bytes can be continued to all but the last one, and no answer before that is final.
  obtain ⟨rest, hrest⟩ : bytes <+: chunked.front ++ [cr] := by
    have hwire : chunked.wire = (chunked.front ++ [cr]) ++ [lf] := by
      simp [ChunkedBody.wire, crlf]
    rw [hwire] at hpart hne
    exact (prefix_concat_iff.mp hpart).resolve_left hne
  have hfront : (segment limit initial (chunked.front ++ [cr])).scan = .lineStartCr := by
    rw [segment_append, segment_front hwithin htight]
    rfl
  rw [← hrest, segment_append] at hfront
  cases hscan : (segment limit initial bytes).scan with
  | done =>
    rw [segment_final (.inl hscan), hscan] at hfront
    cases hfront
  | error =>
    rw [segment_final (.inr (.inl hscan)), hscan] at hfront
    cases hfront
  | _ => rfl

end Decoder

end ServerLib.Http1

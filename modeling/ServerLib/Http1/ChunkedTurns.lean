import ServerLib.Lib.Delimiter
import ServerLib.Http1.ChunkScan

/-!
The loop of the parser of chunked bodies against the reader: each iteration reads as many bytes as
the reader does, or it ends the call with bytes that stand for where the reader is.
-/

namespace ServerLib.Http1

open Lib List Option

namespace ChunkedContentParser

variable (parser : ChunkedContentParser)

def scanOf : Scan :=
  match parser.phase with
  | .readSize => .size parser.sizeBuf
  | .readData => .data parser.remainBytes
  | .readDataCrlf => .awaitCr
  | .readTrailer => .lineStart
  | .done => .done
  | .error => .error

/-- The parser has the bytes that the reader has, unless there was an error. -/
def Held (decoder : Decoder) : Prop :=
  decoder.scan ≠ .error →
    parser.totalBytes = decoder.body.length ∧ parser.content = decoder.body

/-- The loop is where the reader is. -/
structure Level (decoder : Decoder) : Prop where
  scan : decoder.scan = parser.scanOf
  sizeBuf : parser.phase = .readData ∨ parser.phase = .readDataCrlf → parser.sizeBuf = []
  remain : parser.phase = .readData → 0 < parser.remainBytes
  held : parser.Held decoder

/-- What a call keeps stands for the state of the reader.  Among the trailers it keeps nothing, and
in an extension it keeps the last byte. -/
def Keeps : Scan → Prop
  | .size digits =>
    parser.phase = .readSize ∧ parser.sizeBuf = digits ∧ parser.pendingBuffer = []
  | .ext digits atSemicolon =>
    parser.phase = .readSize ∧ parser.sizeBuf = digits ∧
      ∃ c, parser.pendingBuffer = [c] ∧ (atSemicolon = true → c = semicolon)
  | .sizeCr digits =>
    parser.phase = .readSize ∧ parser.sizeBuf = digits ∧ parser.pendingBuffer = [cr]
  | .data remain =>
    parser.phase = .readData ∧ parser.remainBytes = remain ∧ 0 < remain ∧ parser.sizeBuf = [] ∧
      parser.pendingBuffer = []
  | .awaitCr => parser.phase = .readDataCrlf ∧ parser.sizeBuf = [] ∧ parser.pendingBuffer = []
  | .awaitLf => parser.phase = .readDataCrlf ∧ parser.sizeBuf = [] ∧ parser.pendingBuffer = [cr]
  | .lineStart | .lineStartCr | .inLine | .inLineCr =>
    parser.phase = .readTrailer ∧ parser.pendingBuffer = []
  | .stuck =>
    (parser.phase = .readSize ∨ parser.phase = .readDataCrlf ∧ parser.sizeBuf = []) ∧
      ∃ c rest, parser.pendingBuffer = cr :: c :: rest ∧ c ≠ lf
  | .done => parser.phase = .done
  | .error => parser.phase = .error

/-- The parser after a call and the reader. -/
def Follows (decoder : Decoder) : Prop :=
  parser.Keeps decoder.scan ∧ parser.Held decoder

/-- An iteration from the bytes `data` on: it ends level with the reader, with fewer bytes left, or
with bytes that stand for where the reader is at the end. -/
def TurnOk (limit : Nat) (decoder : Decoder) (data : Bytes) : Turn → Prop
  | .next parser data' =>
    (∃ decoder', parser.Level decoder' ∧
        decoder.segment limit data = decoder'.segment limit data') ∧
      (parser.phase = .error ∨ data'.length < data.length)
  | .wait parser data' =>
    Follows { parser with pendingBuffer := data' } (decoder.segment limit data) ∧
      (decoder.segment limit data).scan.verdict = .needMore

variable {parser : ChunkedContentParser} {body data : Bytes}

theorem turnOk_error (hphase : parser.phase = .error)
    (h : (decoder.segment limit data).scan = .error) :
    TurnOk limit decoder data (.next parser data') := by
  refine ⟨⟨decoder.segment limit data, ⟨?_, ?_, ?_, ?_⟩, ?_⟩, .inl hphase⟩
  · rw [h, scanOf, hphase]
  · rw [hphase]
    simp
  · rw [hphase]
    simp
  · exact fun hne => absurd h hne
  · rw [Decoder.segment_final (.inr (.inl h))]

theorem level_sized (hheld : parser.Held { scan := .size parser.sizeBuf, body }) :
    parser.sized.Level { scan := Scan.sized parser.sizeBuf, body } := by
  obtain ⟨htotal, hcontent⟩ := hheld (by simp)
  unfold sized Scan.sized
  split
  · exact ⟨rfl, by simp, by simp, fun h => absurd rfl h⟩
  · by_cases hzero : hexValue parser.sizeBuf = 0
    · rw [if_pos hzero, if_pos hzero]
      exact ⟨rfl, by simp, by simp, fun _ => ⟨htotal, hcontent⟩⟩
    · rw [if_neg hzero, if_neg hzero]
      exact ⟨rfl, by simp, fun _ => Nat.pos_of_ne_zero hzero, fun _ => ⟨htotal, hcontent⟩⟩

theorem segment_stuck (hscan : scan.byte c = .stuck) (hdata : scan.isData = false) :
    Decoder.segment limit { scan, body } (c :: data) = { scan := .stuck, body } := by
  rw [Decoder.segment_step hdata, hscan, Decoder.segment_final (.inr (.inr rfl))]

section

variable (hphase : parser.phase = .readSize)
  (hheld : parser.Held { scan := .size parser.sizeBuf, body })

include hphase hheld

theorem level_readSize : parser.Level { scan := .size parser.sizeBuf, body } := by
  refine ⟨?_, ?_, ?_, hheld⟩
  · rw [scanOf, hphase]
  · simp [hphase]
  · simp [hphase]

theorem turnOk_size_cr :
    TurnOk limit { scan := .size parser.sizeBuf, body } (cr :: data)
      (if data.head? = some lf then .next parser.sized data.tail
        else .wait parser (cr :: data)) := by
  have hheld' := hheld (by simp)
  have hstep : Decoder.segment limit { scan := .size parser.sizeBuf, body } (cr :: data) =
      Decoder.segment limit { scan := .sizeCr parser.sizeBuf, body } data := rfl
  cases data with
  | nil => exact ⟨⟨⟨hphase, rfl, rfl⟩, fun _ => hheld'⟩, rfl⟩
  | cons c data =>
    by_cases hc : c = lf
    · subst hc
      exact ⟨⟨_, level_sized hheld, rfl⟩, .inr (Nat.lt_succ_of_lt (Nat.lt_succ_self _))⟩
    · have hstuck : (Scan.sizeCr parser.sizeBuf).byte c = .stuck := if_neg hc
      rw [if_neg (by simpa using hc), TurnOk, hstep, segment_stuck hstuck rfl]
      exact ⟨⟨⟨.inl hphase, c, data, rfl, hc⟩, fun _ => hheld'⟩, rfl⟩

theorem turnOk_size_digit (hcr : ch ≠ cr) (hhex : isxdigit ch = true) :
    TurnOk limit { scan := .size parser.sizeBuf, body } (ch :: data)
      (if parser.sizeBuf.length ≥ maxSizeBufLength then .next { parser with phase := .error } data
        else .next { parser with sizeBuf := parser.sizeBuf ++ [ch] } data) := by
  have hstep : Decoder.segment limit { scan := .size parser.sizeBuf, body } (ch :: data) =
      Decoder.segment limit { scan := Scan.sizeByte parser.sizeBuf ch, body } data := rfl
  rw [Scan.sizeByte, if_neg hcr, if_pos hhex] at hstep
  split_ifs with hfull
  · rw [if_pos hfull] at hstep
    apply turnOk_error rfl
    rw [hstep, Decoder.segment_final (.inr (.inl rfl))]
  · rw [if_neg hfull] at hstep
    have hlevel : Level { parser with sizeBuf := parser.sizeBuf ++ [ch] }
        { scan := .size (parser.sizeBuf ++ [ch]), body } :=
      level_readSize hphase fun _ => hheld (by simp)
    exact ⟨⟨_, hlevel, hstep⟩, .inr (by simp)⟩

theorem turnOk_size_ext :
    TurnOk limit { scan := .size parser.sizeBuf, body } (semicolon :: data)
      (if cr ∈ data then .next parser (data.dropWhile (· ≠ cr))
        else .wait parser [(semicolon :: data).getLast (cons_ne_nil semicolon data)]) := by
  have hstep : Decoder.segment limit { scan := .size parser.sizeBuf, body } (semicolon :: data) =
      Decoder.segment limit { scan := .ext parser.sizeBuf true, body } data := rfl
  split_ifs with hmem
  · obtain ⟨first, last, rfl, hfirst⟩ := eq_append_cons_of_mem hmem
    rw [dropWhile_append_cons hfirst]
    refine ⟨⟨_, level_readSize hphase hheld, ?_⟩, .inr ?_⟩
    · rw [hstep, Decoder.segment_append, Decoder.segment_ext _ hfirst]
      rfl
    · simp only [length_cons, length_append]
      omega
  · rw [TurnOk, hstep, Decoder.segment_ext _ hmem]
    refine ⟨⟨⟨hphase, rfl, _, rfl, ?_⟩, fun _ => hheld (by simp)⟩, rfl⟩
    intro hlast
    rw [getLast_eq_iff_getLast?_eq_some, getLast?_cons]
    cases hdata : data.getLast? with
    | none => rfl
    | some c =>
      rw [hdata] at hlast
      exact congrArg some (of_decide_eq_true hlast)

theorem turnOk_readSize (hne : data ≠ []) :
    TurnOk limit { scan := .size parser.sizeBuf, body } data (parser.readSize data) := by
  cases data with
  | nil => exact absurd rfl hne
  | cons ch data =>
    rw [readSize]
    split
    · rename_i hcr
      subst hcr
      exact turnOk_size_cr hphase hheld
    · rename_i hcr
      split
      · rename_i hhex
        exact turnOk_size_digit hphase hheld hcr hhex
      rename_i hhex
      split
      · rename_i hsemicolon
        subst hsemicolon
        exact turnOk_size_ext hphase hheld
      · rename_i hsemicolon
        apply turnOk_error rfl
        rw [Decoder.segment_step rfl, Scan.byte, Scan.sizeByte, if_neg hcr, if_neg hhex,
          if_neg hsemicolon, Decoder.segment_final (.inr (.inl rfl))]

end

theorem content_written (parser : ChunkedContentParser) (bytes : Bytes) :
    (parser.written bytes).content = parser.content ++ bytes := by
  unfold written content
  split
  all_goals
    rename_i h
    rw [h]
    rfl

theorem content_spilled (parser : ChunkedContentParser) :
    parser.spilled.content = parser.content := by
  unfold spilled content
  split_ifs with h
  · rw [h.1]
    rfl
  · rfl

theorem level_spilled (h : parser.Level decoder) : parser.spilled.Level decoder := by
  have hcontent := content_spilled parser
  unfold spilled at hcontent ⊢
  split_ifs with hspill
  · rw [if_pos hspill] at hcontent
    exact ⟨h.scan, h.sizeBuf, h.remain, fun hne => ⟨(h.held hne).1, hcontent.trans (h.held hne).2⟩⟩
  · exact h

@[simp] theorem written_fields (parser : ChunkedContentParser) (bytes : Bytes) :
    (parser.written bytes).phase = parser.phase ∧
      (parser.written bytes).totalBytes = parser.totalBytes ∧
      (parser.written bytes).remainBytes = parser.remainBytes ∧
      (parser.written bytes).sizeBuf = parser.sizeBuf := by
  unfold written
  split <;> exact ⟨rfl, rfl, rfl, rfl⟩

theorem turnOk_readData (hsize : parser.sizeBuf = []) (hremain : 0 < parser.remainBytes)
    (hheld : parser.Held { scan := .data parser.remainBytes, body }) (hne : data ≠ []) :
    TurnOk limit { scan := .data parser.remainBytes, body } data (parser.readData limit data) := by
  obtain ⟨htotal, hcontent⟩ := hheld (by simp)
  have hpos := length_pos_iff.mpr hne
  unfold readData
  generalize htoRead : min data.length parser.remainBytes = toRead
  have htake : (data.take toRead).length = toRead := by
    rw [length_take]
    omega
  obtain ⟨-, hwtotal, hwremain, hwsize⟩ := written_fields parser (data.take toRead)
  have hdata : Decoder.segment limit { scan := .data parser.remainBytes, body } data =
      (Decoder.segment limit { scan := .data parser.remainBytes, body } (data.take toRead)).segment
        limit (data.drop toRead) := by
    rw [← Decoder.segment_append, take_append_drop]
  dsimp only at htotal hcontent ⊢
  rw [hwtotal, hwremain]
  split
  · rename_i hfull
    have herror : (Decoder.segment limit { scan := .data parser.remainBytes, body }
        (data.take toRead)).scan = .error := by
      apply Decoder.segment_data_error
      · omega
      · exact ne_nil_of_length_pos (by omega)
      · omega
    apply turnOk_error rfl
    rw [hdata, Decoder.segment_final (.inr (.inl herror)), herror]
  · rename_i hroom
    have hread : Decoder.segment limit { scan := .data parser.remainBytes, body }
        (data.take toRead) =
        { scan := if parser.remainBytes - (data.take toRead).length = 0 then .awaitCr
            else .data (parser.remainBytes - (data.take toRead).length)
          body := body ++ data.take toRead } :=
      Decoder.segment_data hremain (by omega) (by omega)
    rw [htake] at hread
    refine ⟨⟨_, level_spilled ⟨?_, ?_, ?_, ?_⟩, hdata.trans (by rw [hread])⟩, .inr ?_⟩
    · rw [scanOf]
      by_cases hzero : parser.remainBytes - toRead = 0 <;> simp [hzero]
    · exact fun _ => hwsize.trans hsize
    · dsimp only
      split
      · simp
      · intro _
        omega
    · intro _
      rw [htotal, length_append, htake]
      exact ⟨rfl, (content_written _ _).trans (by rw [hcontent])⟩
    · rw [length_drop]
      omega

theorem turnOk_readDataCrlf (hphase : parser.phase = .readDataCrlf) (hsize : parser.sizeBuf = [])
    (hheld : parser.Held { scan := .awaitCr, body }) (hne : data ≠ []) :
    TurnOk limit { scan := .awaitCr, body } data (parser.readDataCrlf data) := by
  have hheld' := hheld (by simp)
  cases data with
  | nil => exact absurd rfl hne
  | cons c data =>
    unfold readDataCrlf
    rw [head?_cons, tail_cons]
    by_cases hc : c = cr
    · subst hc
      have hstep : Decoder.segment limit { scan := .awaitCr, body } (cr :: data) =
          Decoder.segment limit { scan := .awaitLf, body } data := rfl
      cases data with
      | nil => exact ⟨⟨⟨hphase, hsize, rfl⟩, fun _ => hheld'⟩, rfl⟩
      | cons d data =>
        by_cases hd : d = lf
        · subst hd
          have hlevel : Level { parser with phase := .readSize } { scan := .size [], body } := by
            rw [← hsize]
            exact level_readSize rfl fun _ => hheld'
          exact ⟨⟨_, hlevel, rfl⟩, .inr (Nat.lt_succ_of_lt (Nat.lt_succ_self _))⟩
        · have hstuck : Scan.awaitLf.byte d = .stuck := if_neg hd
          rw [if_neg (by simpa using hd), if_pos rfl, TurnOk, hstep, segment_stuck hstuck rfl]
          exact ⟨⟨⟨.inr ⟨hphase, hsize⟩, d, data, rfl, hd⟩, fun _ => hheld'⟩, rfl⟩
    · rw [if_neg (by simpa using fun h => absurd h hc), if_neg (by simpa using hc)]
      apply turnOk_error rfl
      rw [Decoder.segment_step rfl, Scan.byte, if_neg hc,
        Decoder.segment_final (.inr (.inl rfl))]

theorem level_readTrailer (hphase : parser.phase = .readTrailer)
    (hheld : parser.Held { scan := .lineStart, body }) :
    parser.Level { scan := .lineStart, body } := by
  refine ⟨?_, ?_, ?_, hheld⟩
  · rw [scanOf, hphase]
  · simp [hphase]
  · simp [hphase]

theorem segment_lineCr (hscan : scan = .lineStartCr ∨ scan = .inLineCr) (hc : c ≠ lf) :
    Decoder.segment limit { scan, body } (c :: data) =
      Decoder.segment limit { scan := .lineStart, body } (c :: data) := by
  rcases hscan with rfl | rfl
  all_goals
    rw [Decoder.segment_step rfl, Scan.byte, if_neg hc]
    rfl

theorem turnOk_afterCr (hphase : parser.phase = .readTrailer)
    (hheld : parser.Held { scan := .lineStart, body })
    (hscan : scan = .lineStartCr ∧ more.head? ≠ some lf ∨ scan = .inLineCr)
    (hstep : Decoder.segment limit { scan := .lineStart, body } data =
      Decoder.segment limit { scan, body } more) (hlength : more.length < data.length) :
    TurnOk limit { scan := .lineStart, body } data
      (if afterLine (cr :: more) = [] then .wait parser []
        else .next parser (afterLine (cr :: more))) := by
  have hheld' := hheld (by simp)
  by_cases hmore : more.head? = some lf
  · obtain ⟨rest, rfl⟩ : ∃ rest, more = lf :: rest := by
      cases more with
      | nil => cases hmore
      | cons c rest => exact ⟨rest, by rw [some.inj hmore]⟩
    obtain rfl := hscan.resolve_left fun h => h.2 hmore
    have hrest : afterLine (cr :: lf :: rest) = rest := rfl
    have hline : Decoder.segment limit { scan := .inLineCr, body } (lf :: rest) =
        Decoder.segment limit { scan := .lineStart, body } rest := rfl
    rw [hrest]
    split_ifs with hnil
    · subst hnil
      rw [TurnOk, hstep]
      exact ⟨⟨⟨hphase, rfl⟩, fun _ => hheld'⟩, rfl⟩
    · refine ⟨⟨_, level_readTrailer hphase hheld, hstep.trans hline⟩, .inr ?_⟩
      rw [length_cons] at hlength
      omega
  · have hrest : afterLine (cr :: more) = more := by
      rw [afterLine, if_pos rfl, if_neg hmore]
    rw [hrest]
    cases more with
    | nil =>
      rw [if_pos rfl, TurnOk, hstep]
      rcases hscan with ⟨rfl, -⟩ | rfl <;> exact ⟨⟨⟨hphase, rfl⟩, fun _ => hheld'⟩, rfl⟩
    | cons c more =>
      have hc : c ≠ lf := fun hc => hmore (by rw [hc]; rfl)
      rw [if_neg (cons_ne_nil c more)]
      refine ⟨⟨_, level_readTrailer hphase hheld, ?_⟩, .inr hlength⟩
      rw [hstep, segment_lineCr (hscan.imp And.left id) hc]

theorem turnOk_readTrailer (hphase : parser.phase = .readTrailer)
    (hheld : parser.Held { scan := .lineStart, body }) (hne : data ≠ []) :
    TurnOk limit { scan := .lineStart, body } data (parser.readTrailer data) := by
  have hheld' := hheld (by simp)
  unfold readTrailer
  by_cases hend : data.head? = some cr ∧ data.tail.head? = some lf
  · rw [if_pos hend]
    obtain ⟨rest, rfl⟩ : ∃ rest, data = cr :: lf :: rest := by
      match data, hend with
      | c :: d :: rest, ⟨hc, hd⟩ =>
        exact ⟨rest, by rw [some.inj hc, some.inj (show some d = _ from hd)]⟩
    have hlevel : Level { parser with phase := .done } { scan := .done, body } :=
      ⟨rfl, by simp, by simp, fun _ => hheld'⟩
    exact ⟨⟨_, hlevel, rfl⟩, .inr (Nat.lt_succ_of_lt (Nat.lt_succ_self _))⟩
  · rw [if_neg hend]
    generalize hparser : ({ parser with
      trailerChecksum := parser.trailerChecksum ++ lowered (data.takeWhile (· ≠ cr)) } :
      ChunkedContentParser) = parser'
    have hphase' : parser'.phase = .readTrailer := by
      rw [← hparser]
      exact hphase
    have hheld'' : parser'.Held { scan := .lineStart, body } := by
      rw [← hparser]
      exact fun _ => hheld'
    by_cases hmem : cr ∈ data
    · obtain ⟨line, more, rfl, hline⟩ := eq_append_cons_of_mem hmem
      rw [dropWhile_append_cons hline]
      have hlength : more.length < (line ++ cr :: more).length := by
        simp only [length_append, length_cons]
        omega
      cases line with
      | nil =>
        exact turnOk_afterCr hphase' hheld'' (.inl ⟨rfl, fun h => hend ⟨rfl, h⟩⟩) rfl hlength
      | cons c line =>
        refine turnOk_afterCr hphase' hheld'' (.inr rfl) ?_ hlength
        rw [Decoder.segment_append, Decoder.segment_lineStart (cons_ne_nil c line) hline]
        rfl
    · have hdrop : data.dropWhile (· ≠ cr) = [] := by
        rw [dropWhile_eq_nil_iff]
        intro c hc
        rw [decide_eq_true_eq]
        rintro rfl
        exact hmem hc
      rw [hdrop, if_pos (show afterLine [] = [] from rfl), TurnOk,
        Decoder.segment_lineStart hne hmem]
      exact ⟨⟨⟨hphase', rfl⟩, fun _ => hheld'' (by simp)⟩, rfl⟩

theorem turnOk_turn (hlevel : parser.Level decoder) (hne : data ≠ [])
    (hdone : parser.phase ≠ .done) (herror : parser.phase ≠ .error) :
    TurnOk limit decoder data (parser.turn limit data) := by
  obtain ⟨scan, body⟩ := decoder
  obtain ⟨hscan, hsize, hremain, hheld⟩ := hlevel
  subst hscan
  unfold turn scanOf at *
  cases hphase : parser.phase with
  | readSize =>
    rw [hphase] at hheld
    exact turnOk_readSize hphase hheld hne
  | readData =>
    rw [hphase] at hheld
    exact turnOk_readData (hsize (.inl hphase)) (hremain hphase) hheld hne
  | readDataCrlf =>
    rw [hphase] at hheld
    exact turnOk_readDataCrlf hphase (hsize (.inr hphase)) hheld hne
  | readTrailer =>
    rw [hphase] at hheld
    exact turnOk_readTrailer hphase hheld hne
  | done => exact absurd hphase hdone
  | error => exact absurd hphase herror

end ChunkedContentParser

end ServerLib.Http1

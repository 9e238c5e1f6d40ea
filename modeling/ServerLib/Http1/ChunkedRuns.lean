import ServerLib.Http1.ChunkedTurns

/-!
The parser of chunked bodies over whole runs.  The parser keeps up with the reader as long as the
stream is not cut behind a byte of an extension other than a semicolon, nor around the carriage
return in the lines of the trailers.
-/

namespace ServerLib.Http1

open Lib

namespace ChunkedContentParser

variable {parser : ChunkedContentParser}

theorem follows_of_level (h : parser.Level decoder) :
    Follows { parser with pendingBuffer := [] } decoder := by
  obtain ⟨scan, body⟩ := decoder
  obtain ⟨hscan, hsize, hremain, hheld⟩ := h
  subst hscan
  refine ⟨?_, hheld⟩
  unfold scanOf
  cases hphase : parser.phase with
  | readSize => exact ⟨rfl, rfl, rfl⟩
  | readData => exact ⟨rfl, rfl, hremain hphase, hsize (.inl hphase), rfl⟩
  | readDataCrlf => exact ⟨rfl, hsize (.inr hphase), rfl⟩
  | readTrailer => exact ⟨rfl, rfl⟩
  | done | error => rfl

theorem finish_of_level (h : parser.Level decoder) (data : Bytes) :
    parser.finish data = (decoder.scan.verdict, { parser with pendingBuffer := data }) := by
  rw [h.scan]
  unfold finish scanOf
  cases parser.phase <;> rfl

theorem follows_of_final (limit : Nat) (h : parser.Level decoder)
    (hfinal : parser.phase = .done ∨ parser.phase = .error) (data : Bytes) :
    decoder.segment limit data = decoder ∧
      Follows { parser with pendingBuffer := data } decoder := by
  have hscan := h.scan
  unfold scanOf at hscan
  rcases hfinal with hphase | hphase
  · rw [hphase] at hscan
    refine ⟨Decoder.segment_final (.inl hscan) data, ?_, h.held⟩
    rw [hscan]
    exact hphase
  · rw [hphase] at hscan
    refine ⟨Decoder.segment_final (.inr (.inl hscan)) data, ?_, h.held⟩
    rw [hscan]
    exact hphase

theorem feedLoop_final (hfinal : parser.phase = .done ∨ parser.phase = .error) (fuel : Nat)
    (data : Bytes) : feedLoop limit fuel parser data = parser.finish data := by
  cases fuel with
  | zero => rfl
  | succ fuel => rw [feedLoop, if_pos (.inr hfinal)]

theorem follows_feedLoop (limit : Nat) (h : parser.Level decoder) (hfuel : data.length < fuel) :
    (feedLoop limit fuel parser data).1 = (decoder.segment limit data).scan.verdict ∧
      (feedLoop limit fuel parser data).2.Follows (decoder.segment limit data) := by
  have hend : ∀ {parser : ChunkedContentParser} {decoder : Decoder} (fuel : Nat) (data : Bytes),
      parser.Level decoder → parser.phase = .done ∨ parser.phase = .error →
      (feedLoop limit fuel parser data).1 = (decoder.segment limit data).scan.verdict ∧
        (feedLoop limit fuel parser data).2.Follows (decoder.segment limit data) := by
    intro parser decoder fuel data h hfinal
    obtain ⟨hsegment, hfollows⟩ := follows_of_final limit h hfinal data
    rw [feedLoop_final hfinal, finish_of_level h, hsegment]
    exact ⟨rfl, hfollows⟩
  induction fuel generalizing parser decoder data with
  | zero => omega
  | succ fuel ih =>
    by_cases hfinal : parser.phase = .done ∨ parser.phase = .error
    · exact hend _ data h hfinal
    rw [feedLoop]
    split_ifs with hstop
    · obtain rfl := hstop.resolve_right hfinal
      rw [finish_of_level h]
      exact ⟨rfl, follows_of_level h⟩
    · rw [not_or, not_or] at hstop
      have hturn : TurnOk limit decoder data (parser.turn limit data) :=
        turnOk_turn h hstop.1 hstop.2.1 hstop.2.2
      cases hresult : parser.turn limit data with
      | wait parser' data' =>
        rw [hresult] at hturn
        exact ⟨hturn.2.symm, hturn.1⟩
      | next parser' data' =>
        rw [hresult] at hturn
        obtain ⟨⟨decoder', hlevel, hsegment⟩, hless⟩ := hturn
        rw [hsegment]
        rcases hless with hphase | hless
        · exact hend fuel data' hlevel (.inr hphase)
        · exact ih hlevel (by omega)

/-- Where a stream may be cut, in view of the bytes to come.  (After its end, the parser has to be
called with something.) -/
def safeCut (next : Bytes) : Scan → Bool
  | .ext _ atSemicolon => atSemicolon
  | .inLine => next.head? ≠ some cr
  | .lineStartCr | .inLineCr => next.head? ≠ some lf
  | .done | .error => next ≠ []
  | _ => true

theorem level_of_follows (h : parser.Follows decoder) :
    parser.Level { scan := parser.scanOf, body := decoder.body } := by
  obtain ⟨scan, body⟩ := decoder
  obtain ⟨hkeeps, hheld⟩ := h
  refine ⟨rfl, ?_, ?_, ?_⟩
  · cases scan with
    | data remain => exact fun _ => hkeeps.2.2.2.1
    | awaitCr | awaitLf => exact fun _ => hkeeps.2.1
    | stuck =>
      rcases hkeeps.1 with hphase | ⟨-, hsize⟩
      · simp [hphase]
      · exact fun _ => hsize
    | done | error => simp [show parser.phase = _ from hkeeps]
    | _ => simp [hkeeps.1]
  · cases scan with
    | data remain =>
      obtain ⟨-, hremain, hpos, -⟩ := hkeeps
      intro _
      omega
    | stuck => rcases hkeeps.1 with hphase | ⟨hphase, -⟩ <;> simp [hphase]
    | done | error => simp [show parser.phase = _ from hkeeps]
    | _ => simp [hkeeps.1]
  · intro herror
    refine hheld fun hscan => herror ?_
    cases hscan
    rw [scanOf, show parser.phase = _ from hkeeps]

/-- The bytes that were kept bring the loop to where the reader is. -/
theorem resume (h : parser.Follows decoder) (hsafe : safeCut next decoder.scan)
    (hne : parser.pendingBuffer ++ next ≠ []) :
    Decoder.segment limit { scan := parser.scanOf, body := decoder.body }
        (parser.pendingBuffer ++ next) =
      decoder.segment limit next := by
  obtain ⟨scan, body⟩ := decoder
  obtain ⟨hkeeps, -⟩ := h
  unfold scanOf
  cases scan with
  | size digits | sizeCr digits =>
    obtain ⟨hphase, hsize, hpending⟩ := hkeeps
    rw [hphase, hsize, hpending]
    rfl
  | ext digits atSemicolon =>
    obtain ⟨hphase, hsize, c, hpending, hc⟩ := hkeeps
    have hmark : atSemicolon := hsafe
    subst hmark
    rw [hphase, hsize, hpending, hc rfl]
    rfl
  | data remain =>
    obtain ⟨hphase, hremain, -, -, hpending⟩ := hkeeps
    rw [hphase, hremain, hpending]
    rfl
  | awaitCr | awaitLf =>
    obtain ⟨hphase, -, hpending⟩ := hkeeps
    rw [hphase, hpending]
    rfl
  | lineStart =>
    obtain ⟨hphase, hpending⟩ := hkeeps
    rw [hphase, hpending]
    rfl
  | lineStartCr | inLineCr =>
    obtain ⟨hphase, hpending⟩ := hkeeps
    rw [hpending] at hne
    rw [hphase, hpending]
    cases next with
    | nil => exact absurd rfl hne
    | cons c next =>
      exact (segment_lineCr (by simp) (by simpa [safeCut] using hsafe)).symm
  | inLine =>
    obtain ⟨hphase, hpending⟩ := hkeeps
    rw [hpending] at hne
    rw [hphase, hpending]
    cases next with
    | nil => exact absurd rfl hne
    | cons c next =>
      have hc : c ≠ cr := by simpa [safeCut] using hsafe
      rw [List.nil_append, Decoder.segment_step rfl, Decoder.segment_step rfl, Scan.byte, Scan.byte,
        Scan.lineByte, if_neg hc, if_neg hc]
  | stuck =>
    obtain ⟨hphase, c, rest, hpending, hc⟩ := hkeeps
    have hend : Decoder.segment limit { scan := .stuck, body } next = { scan := .stuck, body } :=
      Decoder.segment_final (.inr (.inr rfl)) next
    rw [hpending, hend]
    rcases hphase with hphase | ⟨hphase, -⟩
    · have hstuck : (Scan.sizeCr parser.sizeBuf).byte c = .stuck := if_neg hc
      rw [hphase]
      change Decoder.segment limit { scan := .sizeCr parser.sizeBuf, body } (c :: _) = _
      exact segment_stuck hstuck rfl
    · have hstuck : Scan.awaitLf.byte c = .stuck := if_neg hc
      rw [hphase]
      change Decoder.segment limit { scan := .awaitLf, body } (c :: _) = _
      exact segment_stuck hstuck rfl
  | done =>
    rw [show parser.phase = .done from hkeeps, Decoder.segment_final (.inl rfl),
      Decoder.segment_final (.inl rfl)]
  | error =>
    rw [show parser.phase = .error from hkeeps, Decoder.segment_final (.inr (.inl rfl)),
      Decoder.segment_final (.inr (.inl rfl))]

theorem scan_of_verdict_invalid {scan : Scan} (h : scan.verdict = .invalidChunk) :
    scan = .error := by
  cases scan <;> first | rfl | cases h

theorem follows_parseChunked {next : Bytes} (h : parser.Follows decoder)
    (hsafe : safeCut next decoder.scan) :
    (parser.parseChunked limit next).1 = (decoder.segment limit next).scan.verdict ∧
      (parser.parseChunked limit next).2.Follows (decoder.segment limit next) := by
  unfold parseChunked
  dsimp only
  split
  · rename_i hnil
    obtain ⟨hpending, rfl⟩ := List.append_eq_nil_iff.mp hnil
    refine ⟨?_, ?_⟩
    · change _ = decoder.scan.verdict
      cases hscan : decoder.scan with
      | done | error =>
        rw [hscan] at hsafe
        cases hsafe
      | _ => rfl
    · rw [List.append_nil]
      exact h
  · rename_i hne
    have hlevel := level_of_follows h
    have hlevel' : Level { parser with pendingBuffer := parser.pendingBuffer ++ next }
        { scan := parser.scanOf, body := decoder.body } :=
      ⟨hlevel.scan, hlevel.sizeBuf, hlevel.remain, hlevel.held⟩
    have hfuel := Nat.lt_succ_self (parser.pendingBuffer ++ next).length
    have hloop := follows_feedLoop limit hlevel' hfuel
    rw [resume h hsafe hne] at hloop
    split_ifs with hinvalid
    · refine ⟨hloop.1, ?_, ?_⟩
      · have herror := scan_of_verdict_invalid (hloop.1.symm.trans hinvalid)
        have hkeeps := hloop.2.1
        rw [herror] at hkeeps ⊢
        exact hkeeps
      · exact fun hscan => absurd (scan_of_verdict_invalid (hloop.1.symm.trans hinvalid)) hscan
    · exact hloop

end ChunkedContentParser

def feedChunked (limit : Nat) (fed : ChunkState × ChunkedContentParser) (segment : Bytes) :
    ChunkState × ChunkedContentParser :=
  fed.2.parseChunked limit segment

def noneFed : ChunkState × ChunkedContentParser := (.needMore, ChunkedContentParser.initial)

def SafeCuts (limit : Nat) (segments : List Bytes) : Prop :=
  Along (Decoder.segment limit)
    (fun decoder next => ChunkedContentParser.safeCut next decoder.scan = true) Decoder.initial
    segments

instance (limit : Nat) (segments : List Bytes) : Decidable (SafeCuts limit segments) :=
  inferInstanceAs (Decidable (Along _ _ _ _))

theorem follows_run {segments : List Bytes} (h : SafeCuts limit segments) :
    (run (feedChunked limit) noneFed segments).1 =
        (Decoder.initial.segment limit segments.flatten).scan.verdict ∧
      (run (feedChunked limit) noneFed segments).2.Follows
        (Decoder.initial.segment limit segments.flatten) := by
  induction segments using List.reverseRecOn with
  | nil =>
    exact ⟨rfl, ⟨rfl, rfl, rfl⟩, fun _ => ⟨rfl, rfl⟩⟩
  | append_singleton segments segment ih =>
    rw [SafeCuts, along_append, Decoder.run_segment] at h
    obtain ⟨hfirst, hlast⟩ := h
    rw [run_append, run_cons, run_nil, List.flatten_append, List.flatten_singleton,
      Decoder.segment_append]
    exact ChunkedContentParser.follows_parseChunked (ih hfirst).2 hlast.1

/-- With safe cuts, the parser asks for more up to the last byte of a body without white space in
front of its extensions, and then has its data.  For any other stream the answer and, unless it is
an error, the data up to there do not depend on the safe cuts either. -/
theorem parseChunked_segments (limit : Nat) :
    (∀ (body : ChunkedBody) (segments : List Bytes), body.Within limit → body.Tight →
        SafeCuts limit segments → segments.flatten <+: body.wire →
        (segments.flatten ≠ body.wire →
            (run (feedChunked limit) noneFed segments).1 = .needMore) ∧
          (segments.flatten = body.wire →
            (run (feedChunked limit) noneFed segments).1 = .completed ∧
              (run (feedChunked limit) noneFed segments).2.content = body.data)) ∧
      ∀ segments segments' : List Bytes, segments.flatten = segments'.flatten →
        SafeCuts limit segments → SafeCuts limit segments' →
        (run (feedChunked limit) noneFed segments).1 =
            (run (feedChunked limit) noneFed segments').1 ∧
          ((run (feedChunked limit) noneFed segments).1 ≠ .invalidChunk →
            (run (feedChunked limit) noneFed segments).2.content =
              (run (feedChunked limit) noneFed segments').2.content) := by
  refine ⟨fun body segments hwithin htight hsafe hpart => ⟨fun hne => ?_, fun heq => ?_⟩,
    fun segments segments' heq hsafe hsafe' => ?_⟩
  · rw [(follows_run hsafe).1]
    exact Decoder.verdict_segment_before_end hwithin htight hpart hne
  · obtain ⟨hanswer, -, hheld⟩ := follows_run hsafe
    rw [heq, Decoder.segment_wire hwithin htight] at hanswer hheld
    exact ⟨hanswer, (hheld (by simp)).2⟩
  · obtain ⟨hanswer, -, hheld⟩ := follows_run hsafe
    obtain ⟨hanswer', -, hheld'⟩ := follows_run hsafe'
    rw [← heq] at hanswer' hheld'
    refine ⟨hanswer.trans hanswer'.symm, fun hvalid => ?_⟩
    have hscan : (Decoder.initial.segment limit segments.flatten).scan ≠ .error := by
      intro herror
      rw [hanswer, herror] at hvalid
      exact hvalid rfl
    rw [(hheld hscan).2, (hheld' hscan).2]

def helloBody : ChunkedBody :=
  { chunks :=
      [{ line :=
          { digits := text "5"
            blanks := []
            ext := text ";a=b"
            digits_ne := by decide +kernel
            digits_hex := by decide +kernel
            blanks_ows := by decide +kernel
            ext_wf := by decide +kernel
            ext_line := by decide +kernel }
         data := text "hello"
         size_eq := by decide +kernel
         data_ne := by decide +kernel }]
    last :=
      { digits := text "0"
        blanks := []
        ext := []
        digits_ne := by decide +kernel
        digits_hex := by decide +kernel
        blanks_ows := by decide +kernel
        ext_wf := by decide +kernel
        ext_line := by decide +kernel }
    last_zero := by decide +kernel
    trailers := [text "x: y"]
    trailers_line := by decide +kernel }

def helloSegments : List Bytes :=
  [text "5;", text "a=b\r", text "\nhel", text "lo\r", text "\n0\r\nx:", text " y\r\n\r\n"]

theorem parseChunked_helloSegments :
    (run (feedChunked 100) noneFed helloSegments).1 = .completed ∧
      (run (feedChunked 100) noneFed helloSegments).2.content = text "hello" :=
  ((parseChunked_segments 100).1 helloBody helloSegments (by decide) (by decide)
    (by decide +kernel) ⟨[], by decide +kernel⟩).2 (by decide +kernel)

/-- The last byte of an extension is read again as a digit, and a line feed that begins a segment
is taken for a trailer.  White space in front of an extension is an error. -/
theorem not_parseChunked_segments :
    (run (feedChunked 100) noneFed [text "5;a\r\nhello\r\n0\r\n\r\n"]).1 = .completed ∧
      (run (feedChunked 100) noneFed [text "5;a", text "\r\nhello\r\n0\r\n\r\n"]).1 = .needMore ∧
      (run (feedChunked 100) noneFed [text "5;a\r\nhello\r\n0\r\n\r", text "\n"]).1 = .needMore ∧
      (run (feedChunked 100) noneFed [text "5 ;a\r\nhello\r\n0\r\n\r\n"]).1 = .invalidChunk := by
  decide +kernel

end ServerLib.Http1

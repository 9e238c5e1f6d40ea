import ServerLib.Http1.Reading

/-!
The framing of a request.  The parser looks only at the last value of a key, so that an accepted
request can have lines that say something else about its length.
-/

namespace ServerLib.Http1

open Lib Option

/-- The number that a content length stands for. -/
def lengthValue (value : Bytes) : Option Nat :=
  if trimmed value = [] ∨ (trimmed value).all isDigit = false then none
  else some (digitsValue (trimmed value))

/-- The codings in a value; empty list elements do not count. -/
def codings (value : Bytes) : List Bytes := (tokens value).filter (· ≠ [])

def lengths (lines : List Line) : List Bytes := valuesOf Slot.contentLength.name lines

def encodings (lines : List Line) : List Bytes := valuesOf Slot.transferEncoding.name lines

/-- All content lengths carry the same number, there is none together with a transfer encoding,
and the last one of all transfer codings is `chunked`. -/
def Unambiguous (lines : List Line) : Prop :=
  (∀ value ∈ lengths lines, lengthValue value ≠ none ∧
      ∀ value' ∈ lengths lines, lengthValue value' = lengthValue value) ∧
    (lengths lines = [] ∨ encodings lines = []) ∧
    (encodings lines ≠ [] →
      ((encodings lines).flatMap codings).getLast?.map lowered = some (text "chunked"))

instance (lines : List Line) : Decidable (Unambiguous lines) :=
  inferInstanceAs (Decidable (_ ∧ _ ∧ _))

/-- The earlier content lengths carry the number of the last one, and in the last transfer
encoding nothing follows `chunked`. -/
def Settled (lines : List Line) : Prop :=
  (∀ value ∈ lengths lines, lengthValue value = (lengths lines).getLast?.bind lengthValue) ∧
    (encodings lines ≠ [] →
      ((encodings lines).getLast?.bind fun value => (codings value).getLast?).map lowered =
        some (text "chunked"))

instance (lines : List Line) : Decidable (Settled lines) := inferInstanceAs (Decidable (_ ∧ _))

def Framed (lines : List Line) : Prop :=
  (∀ value ∈ (lengths lines).getLast?, lengthValue value ≠ none) ∧
    (lengths lines = [] ∨ encodings lines = []) ∧
    ∀ value ∈ (encodings lines).getLast?, transferEncodingHasChunked value = true

theorem parseContentLengthHeader_missing (h : parseContentLengthHeader headers = .missing) :
    headers.getHeader Slot.contentLength.name = none := by
  unfold parseContentLengthHeader at h
  split at h
  · assumption
  · repeat' split at h
    all_goals cases h

theorem parseContentLengthHeader_valid (h : parseContentLengthHeader headers = .valid length) :
    ∃ value, headers.getHeader Slot.contentLength.name = some value ∧
      lengthValue value = some length := by
  unfold parseContentLengthHeader at h
  split at h
  · cases h
  rename_i value hvalue
  refine ⟨value, hvalue, ?_⟩
  split at h
  · cases h
  · rename_i hdigits
    split at h
    · rw [lengthValue, if_neg hdigits, ContentLength.valid.inj h]
    · cases h

theorem framed_of_lengths_nil (hlengths : lengths lines = [])
    (h : ∀ value ∈ (encodings lines).getLast?, transferEncodingHasChunked value) :
    Framed lines := by
  refine ⟨fun value hvalue => ?_, .inl hlengths, h⟩
  rw [hlengths] at hvalue
  cases hvalue

theorem framed_of_encodings_nil (hencodings : encodings lines = [])
    (h : ∀ value ∈ (lengths lines).getLast?, lengthValue value ≠ none) : Framed lines := by
  refine ⟨h, .inr hencodings, fun value hvalue => ?_⟩
  rw [hencodings] at hvalue
  cases hvalue

theorem framed_of_nil (hlengths : lengths lines = []) (hencodings : encodings lines = []) :
    Framed lines := by
  apply framed_of_lengths_nil hlengths
  intro value hvalue
  rw [hencodings] at hvalue
  cases hvalue

theorem framed_of_accepted (hkeys : ∀ line ∈ lines, line.1 ≠ [])
    (hheaders : packet.headers = run Headers.addLine Headers.empty lines)
    (h : 0 ≤ (parseFraming limits packet buff).result) : Framed lines := by
  have hlength : packet.headers.getHeader Slot.contentLength.name = (lengths lines).getLast? := by
    rw [hheaders, Headers.getHeader_run lines hkeys]
    rfl
  have hencoding : packet.headers.getHeader Slot.transferEncoding.name =
      (encodings lines).getLast? := by
    rw [hheaders, Headers.getHeader_run lines hkeys]
    rfl
  unfold parseFraming at h
  split at h
  · rename_i hrelated
    rw [hheaders, Headers.bodyRelatedHeaderPresent_run] at hrelated
    exact framed_of_nil (hrelated .contentLength rfl) (hrelated .transferEncoding rfl)
  · split at h
    · exact absurd (show (0 : Int) ≤ -1 from h) (by decide)
    · exact absurd (show (0 : Int) ≤ -1 from h) (by decide)
    · rename_i value hmissing hvalue
      have hlengths := parseContentLengthHeader_missing hmissing
      rw [hlength, List.getLast?_eq_none_iff] at hlengths
      apply framed_of_lengths_nil hlengths
      split_ifs at h with hchunked
      · rw [Packet.isChunked, hvalue] at hchunked
        rw [← hencoding, hvalue]
        intro value' hvalue'
        cases hvalue'
        exact hchunked
      · exact absurd (show (0 : Int) ≤ -1 from h) (by decide)
    · rename_i length hvalid hnone
      obtain ⟨value, hvalue, hnumber⟩ := parseContentLengthHeader_valid hvalid
      rw [hencoding, List.getLast?_eq_none_iff] at hnone
      apply framed_of_encodings_nil hnone
      rw [← hlength, hvalue]
      intro value' hvalue'
      cases hvalue'
      rw [hnumber]
      exact some_ne_none _
    · rename_i hmissing hnone
      have hlengths := parseContentLengthHeader_missing hmissing
      rw [hlength, List.getLast?_eq_none_iff] at hlengths
      rw [hencoding, List.getLast?_eq_none_iff] at hnone
      exact framed_of_nil hlengths hnone

theorem codings_ne_nil (h : transferEncodingHasChunked value) : codings value ≠ [] := by
  obtain ⟨token, htoken, hchunked⟩ := List.any_eq_true.mp h
  have hne : token ≠ [] := by
    rintro rfl
    exact absurd hchunked (by decide)
  apply List.ne_nil_of_mem (a := token)
  rw [codings, List.mem_filter]
  exact ⟨htoken, decide_eq_true hne⟩

theorem getLast?_flatMap_codings {values : List Bytes}
    (h : ∀ value ∈ values.getLast?, transferEncodingHasChunked value) :
    (values.flatMap codings).getLast? =
      values.getLast?.bind fun value => (codings value).getLast? := by
  induction values using List.reverseRecOn with
  | nil => rfl
  | append_singleton values value _ =>
    rw [List.getLast?_append, List.getLast?_singleton, some_or] at h ⊢
    have hne := codings_ne_nil (h value rfl)
    obtain ⟨last, hlast⟩ := ne_none_iff_exists'.mp (mt List.getLast?_eq_none_iff.mp hne)
    rw [List.flatMap_append, List.flatMap_singleton, List.getLast?_append, bind_some, hlast,
      some_or]

theorem unambiguous_iff_settled (h : Framed lines) : Unambiguous lines ↔ Settled lines := by
  obtain ⟨hlength, hboth, hchunked⟩ := h
  rw [Unambiguous, Settled, getLast?_flatMap_codings hchunked]
  refine ⟨fun ⟨hlengths, _, hcodings⟩ => ⟨?_, hcodings⟩,
    fun ⟨hlengths, hcodings⟩ => ⟨?_, hboth, hcodings⟩⟩
  · intro value hvalue
    obtain ⟨last, hlast⟩ := ne_none_iff_exists'.mp
      (mt List.getLast?_eq_none_iff.mp (List.ne_nil_of_mem hvalue))
    rw [hlast, bind_some]
    exact (hlengths last (List.mem_of_getLast? hlast)).2 value hvalue
  · intro value hvalue
    obtain ⟨last, hlast⟩ := ne_none_iff_exists'.mp
      (mt List.getLast?_eq_none_iff.mp (List.ne_nil_of_mem hvalue))
    have hnumber := hlengths value hvalue
    rw [hlast, bind_some] at hnumber
    refine ⟨?_, fun value' hvalue' => ?_⟩
    · rw [hnumber]
      exact hlength last hlast
    · rw [hlengths value' hvalue', hlengths value hvalue]

def Verdict (result : Int) : Prop := 0 ≤ result ∨ result = -1 ∨ result = -2

/-- What the framing leaves of the head. -/
structure KeepsHead (packet : Packet) (parsed : Parsed) : Prop where
  headerState : parsed.packet.headerState = packet.headerState
  headers : parsed.packet.headers = packet.headers
  verdict : Verdict parsed.result

theorem keepsHead_parseLength (limits : Limits) (packet : Packet) (length : Nat) (buff : Input) :
    KeepsHead packet (parseLength limits packet length buff) := by
  unfold parseLength spoolBody
  dsimp only
  repeat' split
  all_goals exact ⟨rfl, rfl, by simp [Verdict]⟩

theorem keepsHead_parseFraming (limits : Limits) (packet : Packet) (buff : Input) :
    KeepsHead packet (parseFraming limits packet buff) := by
  unfold parseFraming
  split
  · exact ⟨rfl, rfl, .inl Int.one_nonneg⟩
  split
  · exact ⟨rfl, rfl, .inr (.inl rfl)⟩
  · exact ⟨rfl, rfl, .inr (.inl rfl)⟩
  · split
    · exact ⟨rfl, rfl, .inl Int.one_nonneg⟩
    · exact ⟨rfl, rfl, .inr (.inl rfl)⟩
  · obtain ⟨hstate, hheaders, hverdict⟩ := keepsHead_parseLength limits _ _ buff
    exact ⟨hstate, hheaders, hverdict⟩
  · exact keepsHead_parseLength limits packet 0 buff

/-- What the end of a call has to do with the stream so far. -/
structure Accords (stream : Bytes) (parsed : Parsed) : Prop where
  reading : Reading stream parsed.packet parsed.buff
  verdict : Verdict parsed.result
  framed : 0 ≤ parsed.result → ∃ lines, headLines stream = some lines ∧ Framed lines

theorem accords_of_error (h : Reading stream packet buff) (hresult : result = -1 ∨ result = -2) :
    Accords stream { result, packet, buff } := by
  refine ⟨h, .inr hresult, fun haccept => ?_⟩
  change 0 ≤ result at haccept
  omega

theorem accords_parse (h : Reading stream packet buff) :
    Accords stream (packet.parse limits buff) := by
  unfold Packet.parse
  split
  · exact accords_of_error h (.inr rfl)
  dsimp only
  have hstage : ∀ stage : Stage, stage = (if packet.isHeaderDone then { ok := true, packet, buff }
      else parseHeader limits packet buff) → Reading stream stage.packet stage.buff ∧ (stage.ok →
        stage.packet.headerState = .tooLong ∨ stage.packet.headerState = .headerEndLines) := by
    rintro stage rfl
    split_ifs with hdone
    · exact ⟨h, fun _ => .inr (of_decide_eq_true hdone)⟩
    · exact ⟨reading_parseHeader h, headerState_parseHeader⟩
  have hstage := hstage _ rfl
  generalize (if packet.isHeaderDone then { ok := true, packet, buff }
    else parseHeader limits packet buff) = stage at hstage
  obtain ⟨hreading, hstate⟩ := hstage
  split
  · exact accords_of_error hreading (.inl rfl)
  split
  · exact accords_of_error hreading (.inr rfl)
  rename_i hok hlong
  have hend := (hstate (by simpa using hok)).resolve_left hlong
  have hdone : stage.packet.isHeaderDone := decide_eq_true hend
  have hkeeps := keepsHead_parseFraming limits stage.packet stage.buff
  rw [Reading, hend] at hreading
  obtain ⟨lines, hlines, hheaders⟩ := hreading
  obtain ⟨rest, -, hrest⟩ := bind_eq_some_iff.mp hlines
  rw [if_pos hdone]
  refine ⟨?_, hkeeps.verdict, fun haccept =>
    ⟨lines, hlines, framed_of_accepted (fieldLines_key hrest) hheaders haccept⟩⟩
  rw [Reading, hkeeps.headerState, hend]
  exact ⟨lines, hlines, hkeeps.headers.trans hheaders⟩

theorem accords_run (limits : Limits) (packet : Packet) (segments : List Bytes) :
    Accords segments.flatten (run (feed limits) (start packet) segments) := by
  induction segments using List.reverseRecOn with
  | nil => exact accords_of_error ⟨rfl, rfl⟩ (.inl rfl)
  | append_singleton segments segment ih =>
    rw [run_append, run_cons, run_nil, List.flatten_append, List.flatten_singleton]
    exact accords_parse (ih.reading.append segment)

/-- The framing of the accepted requests is unambiguous, and requests whose framing is ambiguous are
rejected, exactly if the lines of an accepted request are settled. -/
theorem unambiguous_iff_accepted_settled (limits : Limits) (packet : Packet)
    (segments : List Bytes) :
    (0 ≤ (run (feed limits) (start packet) segments).result →
        headLines segments.flatten ≠ none) ∧
      ∀ lines, headLines segments.flatten = some lines →
        (((0 ≤ (run (feed limits) (start packet) segments).result → Unambiguous lines) ∧
            (¬Unambiguous lines →
              (run (feed limits) (start packet) segments).result = -1 ∨
                (run (feed limits) (start packet) segments).result = -2)) ↔
          (0 ≤ (run (feed limits) (start packet) segments).result → Settled lines)) := by
  have hrun := accords_run limits packet segments
  have hframed : ∀ lines, headLines segments.flatten = some lines →
      0 ≤ (run (feed limits) (start packet) segments).result → Framed lines := by
    intro lines hlines haccept
    obtain ⟨lines', hlines', hframed⟩ := hrun.framed haccept
    cases hlines.symm.trans hlines'
    exact hframed
  refine ⟨fun h hnone => ?_, fun lines hlines => ⟨fun h haccept => ?_, fun h => ⟨?_, ?_⟩⟩⟩
  · obtain ⟨lines, hlines, -⟩ := hrun.framed h
    rw [hnone] at hlines
    cases hlines
  · exact (unambiguous_iff_settled (hframed lines hlines haccept)).mp (h.1 haccept)
  · intro haccept
    exact (unambiguous_iff_settled (hframed lines hlines haccept)).mpr (h haccept)
  · intro hambiguous
    refine hrun.verdict.resolve_left fun haccept => hambiguous ?_
    exact (unambiguous_iff_settled (hframed lines hlines haccept)).mpr (h haccept)

def defaultLimits : Limits :=
  { maxHeaderLength := 1024 * 1024, clientMaxContentLength := 5 * 1024 * 1024 }

def postSegments : List Bytes :=
  [text "POST /a HTTP/1.1\r\nHost: b\r\nContent-Le",
    text "ngth: 2\r\nCONTENT-LENGTH:02 \r\n\r\nhi"]

/-- Two lengths that mean the same. -/
theorem unambiguous_postSegments :
    ∃ lines, headLines postSegments.flatten = some lines ∧
      (run (feed defaultLimits) (start Packet.initial) postSegments).result = 1 ∧
      Unambiguous lines := by
  have hlines : headLines postSegments.flatten = some
      [(text "Host", text "b"), (text "Content-Length", text "2"),
        (text "CONTENT-LENGTH", text "02 ")] := by decide +kernel
  have hresult : (run (feed defaultLimits) (start Packet.initial) postSegments).result = 1 := by
    decide +kernel
  refine ⟨_, hlines, hresult, ?_⟩
  obtain ⟨-, hiff⟩ :=
    unambiguous_iff_accepted_settled defaultLimits Packet.initial postSegments
  refine ((hiff _ hlines).mpr fun _ => by decide +kernel).1 ?_
  rw [hresult]
  decide

def twoLengths : Bytes :=
  text "POST / HTTP/1.1\r\nContent-Length: 5\r\nContent-Length: 0\r\n\r\nhello"

/-- Two lengths, of which the last one is taken. -/
theorem not_unambiguous_twoLengths :
    ∃ lines, headLines twoLengths = some lines ∧ ¬Unambiguous lines ∧
      (run (feed defaultLimits) (start Packet.initial) [twoLengths]).result = 1 :=
  ⟨[(text "Content-Length", text "5"), (text "Content-Length", text "0")], by decide +kernel⟩

end ServerLib.Http1

import ServerLib.Lib.Delimiter
import ServerLib.Http1.Packet

/-!
Segments.  The bytes of a request arrive in segments, and the parser is called after each of them
with the bytes it has left over and the new ones.  In every state, the bytes that are left over are
the stream after what the earlier stages have read, and a complete head has stored the lines of the
stream.
-/

namespace ServerLib.Http1

open Lib Option

def afterLf : Bytes → Option Bytes
  | c :: rest => if c = lf then some rest else none
  | [] => none

/-- The header lines up to the empty one; `line` is the line that has begun. -/
def fieldLines (line : Bytes) : Bytes → Option (List Line)
  | [] => none
  | c :: data =>
    if c = lf then
      match headerLine line with
      | none => none
      | some none => some []
      | some (some headerLine) => (fieldLines [] data).map (headerLine :: ·)
    else fieldLines (line ++ [c]) data

def restAt : HeaderState → Bytes → Option Bytes
  | .init, stream => some stream
  | .methodGap, stream => afterFirst space stream
  | .urlGap, stream => (afterFirst space stream).bind (afterFirst space)
  | .versionNewline, stream =>
    (((afterFirst space stream).bind (afterFirst space)).bind (afterFirst cr)).bind afterLf
  | _, _ => none

def headLines (stream : Bytes) : Option (List Line) :=
  (restAt .versionNewline stream).bind (fieldLines [])

variable {packet : Packet}

theorem afterLf_append (h : afterLf s = some rest) (t : Bytes) :
    afterLf (s ++ t) = some (rest ++ t) := by
  cases s with
  | nil => cases h
  | cons c s =>
    rw [afterLf] at h
    rw [List.cons_append, afterLf]
    split at h
    · rename_i hc
      rw [if_pos hc, ← some.inj h]
    · cases h

theorem afterLf_of_getElem (h : s[0]? = some lf) : afterLf s = some (s.drop 1) := by
  cases s with
  | nil => cases h
  | cons c s => rw [afterLf, if_pos (some.inj h), List.drop_one, List.tail_cons]

theorem restAt_append (h : restAt state s = some rest) (t : Bytes) :
    restAt state (s ++ t) = some (rest ++ t) := by
  cases state with
  | tooLong | headerEndLines => cases h
  | init => rw [restAt, ← some.inj h]
  | methodGap => exact afterFirst_append h t
  | urlGap =>
    obtain ⟨s₁, h₁, h₂⟩ := bind_eq_some_iff.mp h
    rw [restAt, afterFirst_append h₁, bind_some, afterFirst_append h₂]
  | versionNewline =>
    obtain ⟨s₃, h₃, h₄⟩ := bind_eq_some_iff.mp h
    obtain ⟨s₂, h₂, h₃⟩ := bind_eq_some_iff.mp h₃
    obtain ⟨s₁, h₁, h₂⟩ := bind_eq_some_iff.mp h₂
    rw [restAt, afterFirst_append h₁, bind_some, afterFirst_append h₂, bind_some,
      afterFirst_append h₃, bind_some, afterLf_append h₄]

theorem fieldLines_append (h : fieldLines line s = some lines) (t : Bytes) :
    fieldLines line (s ++ t) = some lines := by
  fun_induction fieldLines line s generalizing lines with
  | case1 | case2 => cases h
  | case3 line data hline =>
    rw [List.cons_append, fieldLines, if_pos rfl, hline]
    exact h
  | case4 line data parsed hline ih =>
    obtain ⟨rest, hrest, rfl⟩ := map_eq_some_iff.mp h
    rw [List.cons_append, fieldLines, if_pos rfl, hline]
    exact map_eq_some_iff.mpr ⟨rest, ih hrest, rfl⟩
  | case5 line c data hc ih =>
    rw [List.cons_append, fieldLines, if_neg hc]
    exact ih h

theorem headLines_append (h : headLines s = some lines) (t : Bytes) :
    headLines (s ++ t) = some lines := by
  obtain ⟨rest, hrest, hlines⟩ := bind_eq_some_iff.mp h
  rw [headLines, restAt_append hrest, bind_some, fieldLines_append hlines]

theorem headerLine_key (h : headerLine line = some (some parsed)) : parsed.1 ≠ [] := by
  unfold headerLine at h
  split at h
  · cases h
  split at h
  · cases h
  split at h
  · cases h
  rename_i hempty hcolon
  rw [not_or] at hcolon
  cases some.inj h
  cases line with
  | nil => exact absurd rfl hempty
  | cons c line =>
    cases line with
    | nil => exact absurd rfl hempty
    | cons d line =>
      have hc : c ≠ colon := fun hc => hcolon.2 (congrArg some hc)
      simp [hc]

theorem fieldLines_key (h : fieldLines line s = some lines) : ∀ parsed ∈ lines, parsed.1 ≠ [] := by
  fun_induction fieldLines line s generalizing lines with
  | case1 | case2 => cases h
  | case3 line data hline =>
    cases h
    exact nofun
  | case4 line data parsed hline ih =>
    obtain ⟨rest, hrest, rfl⟩ := map_eq_some_iff.mp h
    exact List.forall_mem_cons.mpr ⟨headerLine_key hline, ih hrest⟩
  | case5 line c data hc ih => exact ih h

/-- A property of a stage that holds when the stage is skipped, when its reading succeeds and when
it fails, and of every head that is too long. -/
theorem stageOf_rule {I : Packet → Input → Prop} {read : Packet → Input → Stage}
    (hlong : ∀ (packet : Packet) (buff : Input), I { packet with headerState := .tooLong } buff)
    (hok : packet.headerState = here → (read packet buff).ok →
      I { (read packet buff).packet with headerState := next } (read packet buff).buff)
    (hfail : packet.headerState = here → (read packet buff).ok = false →
      I (read packet buff).packet buff) (h : I packet buff) :
    I (stageOf limits here next read packet buff).packet
      (stageOf limits here next read packet buff).buff := by
  have hcheck : ∀ packet buff, I packet buff →
      I (checkLength limits packet buff).packet (checkLength limits packet buff).buff := by
    intro packet buff h
    unfold checkLength
    split
    · exact hlong _ _
    · exact h
  unfold stageOf
  split
  · rename_i hstate
    split_ifs with hread
    · exact hcheck _ _ (hok hstate hread)
    · exact hfail hstate (Bool.eq_false_iff.mpr hread)
  · exact hcheck _ _ h

theorem Stage.andThen_rule {I : Packet → Input → Prop} {stage : Stage}
    (h : I stage.packet stage.buff)
    (hnext : ∀ packet buff, I packet buff → I (next packet buff).packet (next packet buff).buff) :
    I (stage.andThen next).packet (stage.andThen next).buff := by
  unfold Stage.andThen
  split
  · exact hnext _ _ h
  · exact h

theorem checkLength_ok (h : (checkLength limits packet buff).ok) :
    checkLength limits packet buff = { ok := true, packet, buff } := by
  unfold checkLength at h ⊢
  split at h
  · cases h
  · rename_i hlength
    rw [if_neg hlength]

theorem headerState_stageOf {read : Packet → Input → Stage}
    (h : (stageOf limits here next read packet buff).ok) :
    (stageOf limits here next read packet buff).packet.headerState =
      if packet.headerState = here then next else packet.headerState := by
  unfold stageOf at h ⊢
  split at h
  · rename_i hstate
    split at h
    · rename_i hread
      rw [if_pos hstate, if_pos hread, if_pos hstate, checkLength_ok h]
    · cases h
  · rename_i hstate
    rw [if_neg hstate, if_neg hstate, checkLength_ok h]

theorem Stage.ok_andThen {stage : Stage} (h : (stage.andThen next).ok) :
    stage.ok ∧ stage.andThen next = next stage.packet stage.buff := by
  unfold Stage.andThen at h ⊢
  split_ifs at h with hok
  · exact ⟨hok, by rw [if_pos hok]⟩
  · exact absurd h hok

theorem headerState_parseHeader (h : (parseHeader limits packet buff).ok) :
    (parseHeader limits packet buff).packet.headerState = .tooLong ∨
      (parseHeader limits packet buff).packet.headerState = .headerEndLines := by
  unfold parseHeader at h ⊢
  obtain ⟨h₃, e₄⟩ := Stage.ok_andThen h
  obtain ⟨h₂, e₃⟩ := Stage.ok_andThen h₃
  obtain ⟨h₁, e₂⟩ := Stage.ok_andThen h₂
  rw [e₄] at h ⊢
  rw [headerState_stageOf h]
  rw [e₃] at h₃ ⊢
  rw [headerState_stageOf h₃]
  rw [e₂] at h₂ ⊢
  rw [headerState_stageOf h₂, headerState_stageOf h₁]
  cases packet.headerState <;> simp

/-- What the reading has taken is followed by the bytes after it; a reading that fails changes
nothing. -/
structure Stage.Reads (after : Bytes → Option Bytes) (packet : Packet) (buff : Input)
    (stage : Stage) : Prop where
  ok : stage.ok = true →
    after buff.readable = some stage.buff.readable ∧ stage.packet.headers = packet.headers
  fail : stage.ok = false → stage.packet = packet

theorem reads_parseMethod (packet : Packet) (buff : Input) :
    (packet.parseMethod buff).Reads (afterFirst space) packet buff := by
  unfold Packet.parseMethod
  cases hread : readMethod buff.readable with
  | none => exact ⟨nofun, fun _ => rfl⟩
  | some found =>
    refine ⟨fun _ => ⟨?_, rfl⟩, nofun⟩
    unfold readMethod at hread
    dsimp only at hread
    split_ifs at hread with hmem
    obtain ⟨method, -, rfl⟩ := map_eq_some_iff.mp hread
    exact afterFirst_eq_drop (not_not.mp fun hspace => hmem (.inl hspace))

theorem reads_parseTarget (limits : Limits) (packet : Packet) (buff : Input) :
    (packet.parseTarget limits buff).Reads (afterFirst space) packet buff := by
  unfold Packet.parseTarget
  cases hread : parseUrl limits.maxHeaderLength buff.offset buff.readable with
  | none => exact ⟨nofun, fun _ => rfl⟩
  | some target =>
    refine ⟨fun _ => ⟨?_, rfl⟩, nofun⟩
    unfold parseUrl at hread
    dsimp only at hread
    split at hread
    · cases hread
    · rename_i hmem
      exact afterFirst_eq_drop (not_not.mp fun hspace => hmem (.inl hspace))

theorem reads_parseVersion (packet : Packet) (buff : Input) :
    (packet.parseVersion buff).Reads (fun s => (afterFirst cr s).bind afterLf) packet buff := by
  unfold Packet.parseVersion
  cases hread : readVersion buff.readable with
  | none => exact ⟨nofun, fun _ => rfl⟩
  | some found =>
    refine ⟨fun _ => ⟨?_, rfl⟩, nofun⟩
    unfold readVersion at hread
    dsimp only at hread
    split_ifs at hread with hmem
    simp only [not_or, not_not] at hmem
    obtain ⟨version, -, rfl⟩ := map_eq_some_iff.mp hread
    obtain ⟨hcr, -, -, -, hlf⟩ := hmem
    rw [afterFirst_eq_drop hcr, bind_some, afterLf_of_getElem]
    · rw [List.drop_drop]
      rfl
    · rw [List.getElem?_drop]
      exact hlf

theorem ok_readLines (h : (readLines limits packet offset line data).ok) :
    ∃ lines, fieldLines line data = some lines ∧
      (readLines limits packet offset line data).packet = run Packet.addLine packet lines := by
  fun_induction readLines limits packet offset line data with
  | case1 | case2 | case3 => cases h
  | case4 packet offset line data hlength hline =>
    refine ⟨[], ?_, rfl⟩
    rw [fieldLines, if_pos rfl, hline]
  | case5 packet offset line data hlength parsed hline ih =>
    obtain ⟨lines, hlines, hpacket⟩ := ih h
    refine ⟨parsed :: lines, ?_, hpacket⟩
    rw [fieldLines, if_pos rfl, hline]
    dsimp only
    rw [hlines, map_some]
  | case6 packet offset line c data hc ih =>
    rw [fieldLines, if_neg hc]
    exact ih h

theorem addLine_head (packet : Packet) (line : Line) :
    (packet.addLine line).headerState = packet.headerState ∧
      (packet.addLine line).headers = packet.headers.addLine line := by
  unfold Packet.addLine Packet.noteConnectionHeader
  repeat' split
  all_goals exact ⟨rfl, rfl⟩

theorem headers_run_addLine (packet : Packet) (lines : List Line) :
    (run Packet.addLine packet lines).headers = run Headers.addLine packet.headers lines := by
  induction lines generalizing packet with
  | nil => rfl
  | cons line lines ih => rw [run_cons, run_cons, ih, (addLine_head packet line).2]

theorem headerState_readLines (limits : Limits) (packet : Packet) (offset : Nat)
    (line data : Bytes) :
    (readLines limits packet offset line data).packet.headerState = packet.headerState := by
  fun_induction readLines limits packet offset line data with
  | case1 | case2 | case3 | case4 => rfl
  | case5 _ _ _ _ _ _ _ ih => rw [ih, (addLine_head _ _).1]
  | case6 _ _ _ _ _ _ ih => exact ih

/-- What a packet and the bytes left over have to do with the stream so far. -/
def Reading (stream : Bytes) (packet : Packet) (buff : Input) : Prop :=
  match packet.headerState with
  | .tooLong => True
  | .headerEndLines => ∃ lines, headLines stream = some lines ∧
      packet.headers = run Headers.addLine Headers.empty lines
  | state => restAt state stream = some buff.readable ∧ packet.headers = Headers.empty

section Stages

variable {limits : Limits}

theorem reading_tooLong (packet : Packet) (buff : Input) :
    Reading stream { packet with headerState := .tooLong } buff := trivial

theorem reading_iff (hstate : packet.headerState = state)
    (hopen : state ≠ .tooLong ∧ state ≠ .headerEndLines) :
    Reading stream packet buff ↔
      restAt state stream = some buff.readable ∧ packet.headers = Headers.empty := by
  rw [Reading, hstate]
  cases state with
  | tooLong => exact absurd rfl hopen.1
  | headerEndLines => exact absurd rfl hopen.2
  | _ => rfl

section

variable (h : Reading stream packet buff)
include h

theorem reading_stage {here next : HeaderState} {read : Packet → Input → Stage}
    (hreads : (read packet buff).Reads after packet buff)
    (hafter : restAt next stream = (restAt here stream).bind after)
    (hhere : here ≠ .tooLong ∧ here ≠ .headerEndLines)
    (hnext : next ≠ .tooLong ∧ next ≠ .headerEndLines) :
    Reading stream (stageOf limits here next read packet buff).packet
      (stageOf limits here next read packet buff).buff := by
  apply stageOf_rule reading_tooLong
  · intro hstate hok
    obtain ⟨hrest, hheaders⟩ := hreads.ok hok
    obtain ⟨hstream, hempty⟩ := (reading_iff hstate hhere).mp h
    refine (reading_iff rfl hnext).mpr ⟨?_, hheaders.trans hempty⟩
    rw [hafter, hstream, bind_some, hrest]
  · intro _ hfail
    rw [hreads.fail hfail]
    exact h
  · exact h

theorem reading_keysStage :
    Reading stream
      (stageOf limits .versionNewline .headerEndLines (Packet.parseHeaderKeys limits)
        packet buff).packet
      (stageOf limits .versionNewline .headerEndLines (Packet.parseHeaderKeys limits)
        packet buff).buff := by
  apply stageOf_rule reading_tooLong
  · intro hstate hok
    rw [Reading, hstate] at h
    unfold Packet.parseHeaderKeys at hok ⊢
    dsimp only at hok ⊢
    split_ifs at hok with hread
    · obtain ⟨lines, hlines, hpacket⟩ := ok_readLines hread
      rw [if_pos hread]
      refine ⟨lines, ?_, ?_⟩
      · rw [headLines, h.1, bind_some, hlines]
      · rw [hpacket, headers_run_addLine, h.2]
    · exact absurd hok hread
  · intro hstate hfail
    rw [Reading, hstate] at h
    unfold Packet.parseHeaderKeys at hfail ⊢
    dsimp only at hfail ⊢
    split_ifs at hfail with hread
    · rw [hread] at hfail
      cases hfail
    · rw [if_neg hread, Reading]
      rw [headerState_readLines, hstate]
      exact ⟨h.1, rfl⟩
  · exact h

theorem reading_parseHeader :
    Reading stream (parseHeader limits packet buff).packet
      (parseHeader limits packet buff).buff := by
  apply Stage.andThen_rule _ fun _ _ => reading_keysStage
  apply Stage.andThen_rule _ fun packet buff h => reading_stage h (reads_parseVersion packet buff)
    (by rw [restAt, restAt, bind_assoc]) (by decide) (by decide)
  apply Stage.andThen_rule _ fun packet buff h => reading_stage h
    (reads_parseTarget limits packet buff) rfl (by decide) (by decide)
  exact reading_stage h (reads_parseMethod packet buff) rfl (by decide) (by decide)

end

end Stages

/-- The next segment arrives: it is appended to the bytes left over, and the parser is called. -/
def feed (limits : Limits) (parsed : Parsed) (segment : Bytes) : Parsed :=
  parsed.packet.parse limits (Input.ofBytes (parsed.buff.readable ++ segment))

def start (packet : Packet) : Parsed :=
  { result := -1, packet := packet.reset, buff := Input.ofBytes [] }

theorem Reading.append (h : Reading stream packet buff) (segment : Bytes) :
    Reading (stream ++ segment) packet (Input.ofBytes (buff.readable ++ segment)) := by
  unfold Reading at h ⊢
  cases hstate : packet.headerState with
  | tooLong => trivial
  | headerEndLines =>
    rw [hstate] at h
    obtain ⟨lines, hlines, hheaders⟩ := h
    exact ⟨lines, headLines_append hlines _, hheaders⟩
  | _ =>
    rw [hstate] at h
    exact ⟨restAt_append h.1 _, h.2⟩

end ServerLib.Http1

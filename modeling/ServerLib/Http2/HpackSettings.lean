import ServerLib.Http2.Effect
import ServerLib.Http2.HpackExchange

/-! The header blocks of a session and the decoder of the peer.  SETTINGS change the limit of the
encoder's table, and no block says so, so the peer's decoder keeps the limit that it starts with.
It can follow as long as the encoder's table fits in there. -/

namespace ServerLib.Http2

open Lib DynamicTable HpackEncoder HpackDecoder List

namespace HpackDecoder

/-- What a decoder reads from blocks that come one after the other. -/
def decodeAll (dec : HpackDecoder) : List (List UInt8) → List (Option (List HpackHeaderField))
  | [] => []
  | block :: blocks => (dec.decode block).1 :: (dec.decode block).2.decodeAll blocks

def after (dec : HpackDecoder) (blocks : List (List UInt8)) : HpackDecoder :=
  run (fun dec block => (dec.decode block).2) dec blocks

theorem decodeAll_append (dec : HpackDecoder) (blocks : List (List UInt8)) (block : List UInt8) :
    dec.decodeAll (blocks ++ [block]) =
      dec.decodeAll blocks ++ [((dec.after blocks).decode block).1] := by
  induction blocks generalizing dec with
  | nil => rfl
  | cons b blocks ih =>
    rw [cons_append, decodeAll, decodeAll, ih, cons_append]
    rfl

end HpackDecoder

def defaultTableSize : Nat := 4096

def Lower (name : List UInt8) : Prop := lowercase name = name

instance (name : List UInt8) : Decidable (Lower name) :=
  inferInstanceAs (Decidable (lowercase name = name))

/-- The decoder's table covers that of the encoder, and under `low` its names are in lower case. -/
structure Synced (low : Prop) (enc : HpackEncoder) (dec : HpackDecoder) : Prop where
  covers : Covers SameEntry enc.table.entries dec.table.entries
  maxTableSize : dec.table.maxTableSize = defaultTableSize
  weight : weight DynamicEntry.size dec.table.entries ≤ defaultTableSize
  lower : low → ∀ e ∈ dec.table.entries, Lower e.name

/-- A header that a peer can follow: its strings are short, and the encoder's table fits in the
peer's after it. -/
def Follows (enc : HpackEncoder) (header : HpackHeaderField) : Prop :=
  Short header ∧ (enc.next header).table.size ≤ defaultTableSize

instance (enc : HpackEncoder) (header : HpackHeaderField) : Decidable (Follows enc header) :=
  inferInstanceAs (Decidable ((_ ∧ _) ∧ _))

theorem lower_kStaticTable : ∀ e ∈ kStaticTable, Lower e.name := by decide +kernel

variable {dec : HpackDecoder}

theorem lower_lookupIndex (hlower : ∀ e ∈ dec.table.entries, Lower e.name)
    (h : dec.lookupIndex index = some found) : Lower found.name := by
  rw [lookupIndex] at h
  split at h
  · contradiction
  split at h
  · exact lower_kStaticTable found (mem_of_getElem? h)
  · obtain ⟨e, he, rfl⟩ := Option.map_eq_some_iff.mp h
    exact hlower e (mem_of_getElem? he)

theorem Sent.synced (hsent : Sent enc dec header entry enc' dec') (hsame : SameHeader header entry)
    (hroom : enc'.table.size ≤ defaultTableSize) (hname : low → Lower entry.name)
    (h : Synced low enc dec) : Synced low enc' dec' := by
  have hmax := hsent.maxTableSize.2.trans h.maxTableSize
  have hcovers := hsent.covers hsame (by rw [h.maxTableSize]; exact hroom) h.covers
  cases hsent with
  | same => exact ⟨hcovers, hmax, h.weight, h.lower⟩
  | added hfits =>
    rw [size_eq, entries_addToDynamicTable hfits, weight_cons,
      DynamicEntry.size_new, hsame.1.length_eq, hsame.2] at hroom
    have hfits' : 32 + entry.name.length + entry.value.length ≤ dec.table.maxTableSize := by
      rw [h.maxTableSize]
      omega
    refine ⟨hcovers, hmax, ?_, fun hlow e he => ?_⟩
    · rw [← h.maxTableSize]
      exact weight_addToDynamicTable_le hfits'
    · rw [entries_addToDynamicTable hfits'] at he
      rcases mem_cons.mp he with rfl | he
      · exact hname hlow
      · exact h.lower hlow e (mem_of_mem_fitting he)

theorem Synced.decode (h : Synced low enc dec) (hfollows : Along next Follows enc headers)
    (hlow : low → ∀ header ∈ headers, Lower header.name) :
    ∃ read, (dec.decode (enc.encodeHeaders headers).1).1 = some read ∧
      List.Forall₂ (fun h h' => SameHeader h h' ∧ (low → h' = h)) headers read ∧
      Synced low (enc.encodeHeaders headers).2 (dec.decode (enc.encodeHeaders headers).1).2 := by
  have hlower : Along next (fun _ header => low → Lower header.name) enc headers :=
    along_of_forall_mem (fun header hheader hlow' => hlow hlow' header hheader) enc
  refine decodeFields_encodeHeaders (I := Synced low)
    (S := fun enc header => Follows enc header ∧ (low → Lower header.name)) ?_
    (fun _ _ hS => hS.1.1) ?_ h (hfollows.and hlower) le_rfl
  · intro enc dec h
    refine ⟨h.covers, Nat.le_trans h.covers.length_le (length_entries_le ?_)⟩
    exact Nat.le_trans h.weight (by decide)
  · intro enc dec header entry dec' h hS hsame hfrom hsent
    have hname : low → Lower entry.name := by
      intro hlow
      rcases hfrom with heq | ⟨index, found, hfound, heq⟩
      · rw [heq]
        exact hS.2 hlow
      · rw [← heq]
        exact lower_lookupIndex (h.lower hlow) hfound
    refine ⟨⟨hsame, fun hlow => ?_⟩, hsent.synced hsame hS.1.2 hname h⟩
    have hnames : lowercase header.name = lowercase entry.name := hsame.1
    rw [hS.2 hlow, hname hlow] at hnames
    cases header
    cases entry
    cases hnames
    cases hsame.2
    rfl

theorem Synced.setMaxTableSize (h : Synced low enc dec) (size : Nat) :
    Synced low (enc.setMaxTableSize size) dec := by
  refine ⟨?_, h.maxTableSize, h.weight, h.lower⟩
  rw [HpackEncoder.setMaxTableSize, entries_setMaxTableSize]
  exact h.covers.of_fitting size

theorem Synced.imp (himp : low' → low) (h : Synced low enc dec) : Synced low' enc dec :=
  ⟨h.covers, h.maxTableSize, h.weight, fun hlow => h.lower (himp hlow)⟩

/-- The header list that a call sends. -/
def Call.headers? : Call → Option (List HpackHeaderField)
  | .sendHeaders streamId headers _ => if streamId = 0 then none else some headers
  | .sendSimpleResponse streamId status contentType body =>
    if streamId = 0 then none else some (Session.simpleHeaders status contentType body)
  | _ => none

/-- The header lists of the calls. -/
def sentLists (log : List Event) : List (List HpackHeaderField) :=
  log.filterMap fun
    | .called c => c.headers?
    | _ => none

/-- The blocks of the HEADERS frames that are written. -/
def sentBlocks (log : List Event) : List (List UInt8) :=
  log.filterMap fun
    | .wrote f => if f.type = .headers then some f.payload else none
    | _ => none

variable (lists : List (List HpackHeaderField)) (blocks : List (List UInt8))

def LowerNames : Prop := ∀ headers ∈ lists, ∀ header ∈ headers, Lower header.name

def peerReads : List (Option (List HpackHeaderField)) :=
  (HpackDecoder.new defaultTableSize).decodeAll blocks

def peer : HpackDecoder := (HpackDecoder.new defaultTableSize).after blocks

/-- The peer reads the header list that has been sent, up to the case of its names, and exactly so
under `low`. -/
def Arrives (low : Prop) (sent : List HpackHeaderField) (read : Option (List HpackHeaderField)) :
    Prop :=
  ∃ headers, read = some headers ∧
    List.Forall₂ (fun h h' => SameHeader h h' ∧ (low → h' = h)) sent headers

/-- The peer has read all blocks and can follow the encoder. -/
structure InSync (enc : HpackEncoder) : Prop where
  synced : Synced (LowerNames lists) enc (peer blocks)
  arrives : List.Forall₂ (Arrives (LowerNames lists)) lists (peerReads blocks)

section

variable {lists : List (List HpackHeaderField)} {blocks : List (List UInt8)}

theorem InSync.encodeHeaders (h : InSync lists blocks enc)
    (hfollows : Along next Follows enc headers) :
    InSync (lists ++ [headers]) (blocks ++ [(enc.encodeHeaders headers).1])
      (enc.encodeHeaders headers).2 := by
  have hbefore : LowerNames (lists ++ [headers]) → LowerNames lists :=
    fun hlow headers' hmem => hlow headers' (mem_append_left _ hmem)
  have hlast : LowerNames (lists ++ [headers]) → ∀ header ∈ headers, Lower header.name :=
    fun hlow => hlow headers (mem_append_right _ mem_cons_self)
  obtain ⟨read, hread, hall, hnext⟩ := (h.synced.imp hbefore).decode hfollows hlast
  constructor
  · rw [peer, HpackDecoder.after, run_append]
    exact hnext
  · rw [peerReads, HpackDecoder.decodeAll_append]
    refine rel_append ?_ (List.Forall₂.cons ⟨read, hread, hall⟩ List.Forall₂.nil)
    refine h.arrives.imp fun sent read' ⟨headers', hread', hall'⟩ => ⟨headers', hread', ?_⟩
    exact hall'.imp fun _ _ hsame => ⟨hsame.1, fun hlow => hsame.2 (hbefore hlow)⟩

theorem InSync.setMaxTableSize (h : InSync lists blocks enc) (size : Nat) :
    InSync lists blocks (enc.setMaxTableSize size) :=
  ⟨h.synced.setMaxTableSize size, h.arrives⟩

end

theorem sentLists_append (log log' : List Event) :
    sentLists (log ++ log') = sentLists log ++ sentLists log' :=
  filterMap_append

theorem sentBlocks_append (log log' : List Event) :
    sentBlocks (log ++ log') = sentBlocks log ++ sentBlocks log' :=
  filterMap_append

namespace Session

/-- The peer has read the blocks of the session and can follow its encoder. -/
def Followed (s : Session) : Prop :=
  InSync (sentLists s.log) (sentBlocks s.log) s.hpackEncoder

/-- The encoder is the same, no header list is to be sent and no block has been sent. -/
structure SameBlocks (s s' : Session) : Prop where
  encoder : s'.hpackEncoder = s.hpackEncoder
  lists : sentLists s'.log = sentLists s.log
  blocks : sentBlocks s'.log = sentBlocks s.log

theorem SameBlocks.trans {s s' s'' : Session} (h : SameBlocks s s') (h' : SameBlocks s' s'') :
    SameBlocks s s'' :=
  ⟨h'.encoder.trans h.encoder, h'.lists.trans h.lists, h'.blocks.trans h.blocks⟩

theorem SameBlocks.followed {s s' : Session} (h : SameBlocks s s') (hs : s.Followed) :
    s'.Followed := by
  rw [Followed, h.encoder, h.lists, h.blocks]
  exact hs

theorem SameBlocks.of_events {s s' : Session} (hencoder : s'.hpackEncoder = s.hpackEncoder)
    (hlog : s'.log = s.log ++ events)
    (h : ∀ e ∈ events, sentLists [e] = [] ∧ sentBlocks [e] = []) : SameBlocks s s' := by
  have hlists : sentLists events = [] := filterMap_eq_nil_iff.mpr fun e he => by
    simpa [sentLists] using (h e he).1
  have hblocks : sentBlocks events = [] := filterMap_eq_nil_iff.mpr fun e he => by
    simpa [sentBlocks] using (h e he).2
  refine ⟨hencoder, ?_, ?_⟩
  · rw [hlog, sentLists_append, hlists, append_nil]
  · rw [hlog, sentBlocks_append, hblocks, append_nil]

theorem Quiet.sameBlocks {s s' : Session} (h : Quiet s s') : SameBlocks s s' := by
  obtain ⟨events, hlog, hquiet⟩ := h.log
  refine .of_events h.encoder hlog fun e he => ?_
  have hquiet := hquiet e he
  cases e with
  | wrote f =>
    have htype : f.type ≠ .headers := (of_decide_eq_true hquiet).2
    simp [sentLists, sentBlocks, htype]
  | received | called => cases hquiet
  | _ => exact ⟨rfl, rfl⟩

variable (s : Session)

theorem sameBlocks_emit {e : Event} (he : sentLists [e] = [] ∧ sentBlocks [e] = []) :
    SameBlocks s (s.emit e) :=
  .of_events rfl rfl (forall_mem_singleton.mpr he)

theorem sendRule_sameBlocks : SendRule SameBlocks where
  trans := SameBlocks.trans
  quiet := Quiet.sameBlocks
  still hencoder _ _ hlog _ := ⟨hencoder, by rw [hlog], by rw [hlog]⟩
  frame s f hf _ := sameBlocks_emit s ⟨rfl, by simp [sentBlocks, hf]⟩
  bytes {s streamId _ _} _ endStream _ := by
    refine .of_events rfl rfl fun e he => ?_
    obtain ⟨f, hf, rfl⟩ := mem_map.mp he
    have htype := (mem_dataFrames streamId endStream hf).1
    simp [sentLists, sentBlocks, htype]

variable {s}

theorem followed_applySettings (payload : List UInt8) (hs : s.Followed) :
    (applySettings payload s).Followed := by
  have hclose : ∀ (s : Session) error, SameBlocks s
      (s.sendFrame (FrameCodec.makeGoaway error s.lastStreamId)).close := fun s error =>
    (sameBlocks_emit s ⟨rfl, rfl⟩).trans (sameBlocks_emit _ ⟨rfl, rfl⟩)
  fun_induction applySettings payload s with
  | case1 _ _ _ _ _ _ _ _ value _ ih => exact ih (InSync.setMaxTableSize hs value)
  | case4 | case6 => exact (hclose _ _).followed hs
  | case10 => exact hs
  | _ =>
    rename_i ih
    exact ih hs

/-- The list that the call has brought is sent. -/
theorem followed_sendHeaders {lists : List (List HpackHeaderField)} (endStream : Bool)
    (hid : streamId ≠ 0) (hfollows : Along next Follows s.hpackEncoder headers)
    (hlists : sentLists s.log = lists ++ [headers])
    (hs : InSync lists (sentBlocks s.log) s.hpackEncoder) :
    (s.sendHeaders streamId headers endStream).Followed := by
  rw [sendHeaders, if_neg hid]
  refine (sendRule_sameBlocks.endIf _ streamId endStream).followed ?_
  have hsent := hs.encodeHeaders hfollows
  rw [← hlists] at hsent
  rw [Followed, sendFrame, emit, sentLists_append, sentBlocks_append]
  exact (append_nil (sentLists s.log)).symm ▸ hsent

/-- The peer can follow each header that the step sends. -/
def InRoom (s : Session) : Label → Prop
  | .call c => Along next Follows s.hpackEncoder (c.headers?.getD [])
  | _ => True

instance (s : Session) : (l : Label) → Decidable (InRoom s l)
  | .call _ => inferInstanceAs (Decidable (Along _ _ _ _))
  | .recv _ => isTrue trivial
  | .ret => isTrue trivial

theorem followed_call {s : Session}
    (hfollows : Along next Follows s.hpackEncoder (c.headers?.getD [])) (hs : s.Followed) :
    (s.call c).Followed := by
  have hlists : sentLists (s.emit (.called c)).log = sentLists s.log ++ c.headers?.toList := by
    rw [emit, sentLists_append]
    cases hc : c.headers? <;> simp [sentLists, hc]
  have hblocks : sentBlocks (s.emit (.called c)).log = sentBlocks s.log := by
    rw [emit, sentBlocks_append]
    exact append_nil _
  have hcalled : c.headers? = none → (s.emit (.called c)).Followed := by
    intro hnone
    rw [Followed, hlists, hblocks, hnone]
    exact (append_nil (sentLists s.log)).symm ▸ hs
  have hencoder : (s.emit (.called c)).hpackEncoder = s.hpackEncoder := rfl
  rw [Followed, ← hblocks, ← hencoder] at hs
  rw [← hencoder] at hfollows
  unfold call
  generalize s.emit (.called c) = s' at *
  cases c with
  | onPrefaceReceived => exact (quiet_onPrefaceReceived _).sameBlocks.followed (hcalled rfl)
  | sendHeaders streamId headers endStream =>
    dsimp only
    by_cases hid : streamId = 0
    · rw [Session.sendHeaders, if_pos hid]
      exact hcalled (if_pos hid)
    · rw [Call.headers?, if_neg hid] at hfollows hlists
      exact followed_sendHeaders endStream hid hfollows hlists hs
  | sendData => exact (sendRule_sameBlocks.sendData _ _ _ _).followed (hcalled rfl)
  | sendDataBuffer =>
    dsimp only
    rw [sendDataBuffer_eq_sendData]
    exact (sendRule_sameBlocks.sendData _ _ _ _).followed (hcalled rfl)
  | sendSimpleResponse streamId status contentType body =>
    dsimp only
    rw [sendSimpleResponse]
    split
    · rename_i hid
      exact hcalled (if_pos hid)
    rename_i hid
    rw [Call.headers?, if_neg hid] at hfollows hlists
    split
    · exact followed_sendHeaders _ hid hfollows hlists hs
    · refine (sendRule_sameBlocks.sendData _ _ _ _).followed ?_
      exact followed_sendHeaders _ hid hfollows hlists hs
  | sendRstStream => exact (sendRule_sameBlocks.sendRstStream _ _ _).followed (hcalled rfl)
  | sendGoaway error => exact (quiet_sendGoaway _ error).sameBlocks.followed (hcalled rfl)
  | closeGracefully => exact (sendRule_sameBlocks.closeGracefully _).followed (hcalled rfl)

theorem followed_step (s : Session) (l : Label) (hs : s.Followed) (hroom : InRoom s l) :
    (step s l).Followed := by
  cases stepped s l with
  | idle h =>
    rw [h]
    exact hs
  | call c hlabel h =>
    subst hlabel
    rw [h]
    exact followed_call hroom hs
  | ret _ h => exact h.sameBlocks.followed hs
  | frame f _ _ h =>
    have hreceived : (s.receive f).Followed :=
      ((sameBlocks_emit s ⟨rfl, rfl⟩).trans ⟨rfl, rfl, rfl⟩).followed hs
    cases h with
    | quiet h | opened _ _ h | idle _ _ h | removed h | connectionOverflow _ _ _ h =>
      exact h.sameBlocks.followed hreceived
    | settings _ h =>
      refine h.sameBlocks.followed ?_
      rw [applyPeerSettings]
      split
      · exact hreceived
      · exact followed_applySettings _ hreceived
    | connectionWindow _ _ _ h | streamWindow _ _ _ _ _ h =>
      rw [h]
      exact (sendRule_sameBlocks.flushPendingWrites _).followed hreceived

theorem followed_new (headersBridge dataBridge goawayBridge : Bool) :
    (new headersBridge dataBridge goawayBridge).Followed := by
  refine ⟨⟨.nil _ _, rfl, Nat.zero_le _, fun _ e he => ?_⟩, List.Forall₂.nil⟩
  exact absurd he not_mem_nil

/-- The decoder of the peer, which starts with the default limit, reads from the HEADERS frames all
header lists that the session is asked to send, whatever SETTINGS come in between, as long as the
encoder's table never outgrows that limit.  It reads them exactly if their names are in lower
case. -/
theorem blocks_arrive (headersBridge dataBridge goawayBridge : Bool) (ls : List Label)
    (hroom : Along step InRoom (new headersBridge dataBridge goawayBridge) ls) :
    let log := (run step (new headersBridge dataBridge goawayBridge) ls).log
    List.Forall₂ (Arrives (LowerNames (sentLists log))) (sentLists log)
      (peerReads (sentBlocks log)) :=
  (run_invariant followed_step (followed_new headersBridge dataBridge goawayBridge) hroom).arrives

/-- A header before and after the limit grows, and once more after it has shrunk to nothing. -/
theorem blocks_arrive_resized :
    let log := (run step (new true true true)
      [.recv ⟨.settings, flagNone, 0, []⟩, .call (.sendHeaders 1 [field "x-id" "7"] true),
        .recv ⟨.settings, flagNone, 0, appendSetting 1 8192⟩,
        .call (.sendHeaders 3 [field "x-id" "7"] true),
        .recv ⟨.settings, flagNone, 0, appendSetting 1 0⟩,
        .call (.sendHeaders 5 [field "x-id" "7"] true)]).log
    List.Forall₂ (Arrives (LowerNames (sentLists log))) (sentLists log)
      (peerReads (sentBlocks log)) :=
  blocks_arrive true true true _ (by decide +kernel)

def twice (header : HpackHeaderField) : List Label :=
  [.recv ⟨.settings, flagNone, 0, appendSetting 1 8192⟩, .call (.sendHeaders 1 [header] false),
    .call (.sendHeaders 1 [header] false)]

theorem sent_twice (header : HpackHeaderField) :
    let enc := (HpackEncoder.new 4096).setMaxTableSize 8192
    let log := (run step (new true true true) (twice header)).log
    sentLists log = [[header], [header]] ∧
      sentBlocks log = [(enc.encodeHeaders [header]).1,
        ((enc.encodeHeaders [header]).2.encodeHeaders [header]).1] :=
  ⟨rfl, rfl⟩

theorem entries_decode_large (enc : HpackEncoder) (dec : HpackDecoder) (value : List UInt8)
    (henc : enc.table.entries = []) (hdec : dec.table.entries = [])
    (hlarge : dec.table.maxTableSize < 32 + (ascii "a").length + value.length)
    (hvalue : value.length < 2 ^ 35) :
    (dec.decode (enc.encodeHeaders [⟨ascii "a", value⟩]).1).2.table.entries = [] := by
  obtain ⟨entry, dec', hreads, hsame, -, hsent⟩ :=
    @reads_encodeHeader dec ⟨ascii "a", value⟩ enc (by rw [henc]; exact .nil _ _)
      (by simp [henc]) (show 1 < 2 ^ 35 by norm_num) hvalue
  obtain ⟨n, -, hdecode⟩ := @Reads.decodeFields _ _ _ _ [] _ hreads le_rfl
  have hempty : dec'.table.entries = [] := by
    generalize (enc.encodeHeader _ _).2 = enc' at hsent
    cases hsent with
    | same => exact hdec
    | added =>
      have hname := hsame.1.length_eq
      have hval := congrArg length hsame.2
      dsimp only at hname hval
      rw [addToDynamicTable, if_pos (by omega), hdec]
      exact hdec
  rw [encodeHeaders, decode]
  dsimp only [encodeHeaders]
  rw [hdecode]
  cases n <;> exact hempty

theorem decode_appendIndexed_empty (h : dec.table.entries = []) :
    (dec.decode (appendIndexed 62)).1 = none := by
  have hblock : appendIndexed 62 = [0xBE] := rfl
  have hfield : dec.decodeField 0xBE [] = none := by
    have hindex : decodePrefixedInteger 0xBE 7 [] = some (62, []) := rfl
    rw [decodeField, if_pos (by decide), hindex]
    simp [lookupIndex, kStaticTableSize, h]
  rw [hblock, decode, length_singleton, decodeFields, hfield]

/-- The header comes back as an index that the decoder's empty table does not have. -/
theorem not_arrives_twice (hlow : 4096 < 33 + value.length) (hhigh : 33 + value.length ≤ 8192) :
    let log := (run step (new true true true) (twice ⟨ascii "a", value⟩)).log
    ¬List.Forall₂ (Arrives False) (sentLists log) (peerReads (sentBlocks log)) := by
  intro log hall
  set enc := (HpackEncoder.new 4096).setMaxTableSize 8192 with henc
  obtain ⟨hlists, hblocks⟩ := sent_twice ⟨ascii "a", value⟩
  have hfits : 32 + (ascii "a").length + value.length ≤ enc.table.maxTableSize := hhigh
  have hindex : (enc.next ⟨ascii "a", value⟩).findDynamicTableIndex (ascii "a") value = 62 := by
    rw [next_eq_add rfl hfits, findDynamicTableIndex,
      entries_addToDynamicTable hfits, findIndex, findIdx?_cons]
    simp [DynamicEntry.new, strEqCaseInsensitive_iff, kStaticTableSize]
  have hblock := encodeHeaders_indexed hindex (by decide)
  have hempty := entries_decode_large enc (HpackDecoder.new 4096) value rfl rfl hlow (by omega)
  have hnext : (enc.encodeHeaders [⟨ascii "a", value⟩]).2 = enc.next ⟨ascii "a", value⟩ :=
    encodeHeaders_snd enc [⟨ascii "a", value⟩]
  rw [hlists, hblocks, peerReads, ← henc, hnext, hblock] at hall
  simp only [decodeAll, forall₂_cons] at hall
  obtain ⟨-, ⟨headers, hread, -⟩, -⟩ := hall
  rw [defaultTableSize, decode_appendIndexed_empty hempty] at hread
  cases hread

/-- The limit grows to 8192, and a header of 4129 bytes is sent twice. -/
theorem blocks_lost_after_growth :
    let log := (run step (new true true true) (twice ⟨ascii "a", replicate 4096 0⟩)).log
    ¬List.Forall₂ (Arrives False) (sentLists log) (peerReads (sentBlocks log)) :=
  not_arrives_twice (by rw [length_replicate]; decide) (by rw [length_replicate]; decide)

end Session

end ServerLib.Http2

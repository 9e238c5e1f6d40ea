import Mathlib.Data.List.Forall2
import ServerLib.Rpc.Wire

/-! What is written to the stream is read from it. -/

namespace ServerLib.Rpc

open Lib List Option

/-- The header that is read: it has the size of the body for that of the payload. -/
def FrameHeader.written (header : FrameHeader) (bodySize : UInt32) : FrameHeader :=
  { header with payloadSize := bodySize }

theorem length_writeHeader (h8 : ∀ v, (u8 v).length = 1) (h16 : ∀ v, (u16 v).length = 2)
    (h32 : ∀ v, (u32 v).length = 4) (h64 : ∀ v, (u64 v).length = 8) (header : FrameHeader)
    (bodySize : UInt32) : (writeHeader u8 u16 u32 u64 header bodySize).length = headerSize := by
  simp [writeHeader, h8, h16, h32, h64, headerSize]

section

variable (header : FrameHeader) (bodySize : UInt32)

theorem length_headerToBytes : (headerToBytes header bodySize).length = headerSize :=
  length_writeHeader (fun _ => rfl) length_writeU16 length_writeU32 length_writeU64 header bodySize

/-- The fields of `lead` as they are written. -/
def Lead.ofHeader : Lead :=
  { kind := header.kind.code
    serialization := header.serialization.code
    compression := header.compression.code
    status := header.status.code
    encryption := header.encryption.code.toUInt16
    bodySize }

def leadBytes : Bytes :=
  [header.kind.code] ++ ([header.serialization.code] ++ ([header.compression.code] ++
    (writeU16 header.status.code ++ (writeU16 header.encryption.code.toUInt16 ++
      writeU32 bodySize))))

theorem reads_lead : Reads readLead (leadBytes header bodySize) (.ofHeader header bodySize) := by
  refine (reads_u8 _).bind ?_
  refine (reads_u8 _).bind ?_
  refine (reads_u8 _).bind ?_
  refine (reads_u16 _).bind ?_
  refine (reads_u16 _).bind ?_
  exact (reads_u32 _).map _

def fieldBytes : Bytes :=
  writeU64 header.requestId ++ (writeU32 header.service ++ (writeU32 header.method ++
    (writeU32 bodySize ++ (writeU64 header.sessionId ++ (writeU64 header.peerServiceId ++
      (writeU64 header.authToken ++ (writeU32 header.flags ++ (writeU64 header.nonce ++
        (writeU64 header.coroutineId ++ writeU32 header.keyId)))))))))

theorem reads_header : Reads (readHeader (.ofHeader header bodySize)) (fieldBytes header bodySize)
      (header.written bodySize) := by
  have hcode : header.encryption.code.toUInt16.toUInt8 = header.encryption.code := by simp
  have h : Reads (readHeader (.ofHeader header bodySize)) (fieldBytes header bodySize)
      { header.written bodySize with
        encryption := ⟨header.encryption.code.toUInt16.toUInt8⟩ } := by
    refine (reads_u64 _).bind ?_
    refine (reads_u32 _).bind ?_
    refine (reads_u32 _).bind ?_
    refine (reads_u32 _).bind ?_
    refine (reads_u64 _).bind ?_
    refine (reads_u64 _).bind ?_
    refine (reads_u64 _).bind ?_
    refine (reads_u32 _).bind ?_
    refine (reads_u64 _).bind ?_
    refine (reads_u64 _).bind ?_
    exact (reads_u32 _).map _
  rwa [hcode] at h

theorem headerToBytes_eq : headerToBytes header bodySize = writeU32 magic ++
        ([version] ++ (leadBytes header bodySize ++ fieldBytes header bodySize)) := by
  simp only [headerToBytes, writeHeader, leadBytes, fieldBytes, append_assoc,
    flatten_cons, flatten_nil, append_nil]

end

theorem decodeFrame_headerToBytes (hsize : ¬ options.maxFrameSize < bodySize) (header : FrameHeader)
    (part : Bytes) :
    decodeFrame (headerToBytes header bodySize ++ part) options =
      if part.length < bodySize.toNat then .error .needMore
      else
        (openBody options (header.written bodySize) (part.take bodySize.toNat)).map fun payload =>
          (⟨header.written bodySize, payload⟩, headerSize + bodySize.toNat) := by
  have hlength : (headerToBytes header bodySize ++ part).length = headerSize + part.length := by
    rw [length_append, length_headerToBytes]
  have hmagic : readU32 (headerToBytes header bodySize ++ part) =
      some (magic, [version] ++
        (leadBytes header bodySize ++ (fieldBytes header bodySize ++ part))) := by
    rw [headerToBytes_eq, append_assoc, reads_u32, append_assoc, append_assoc]
  have hversion := reads_u8 version
    (leadBytes header bodySize ++ (fieldBytes header bodySize ++ part))
  have hlead := reads_lead header bodySize (fieldBytes header bodySize ++ part)
  have hheader := reads_header header bodySize part
  rw [decodeFrame, hlength, hmagic, if_neg (by omega)]
  simp only [hversion, hlead, ne_eq, not_true_eq_false, if_false]
  rw [decodeFields, hheader]
  change (if options.maxFrameSize < bodySize then _ else _) = _
  rw [if_neg hsize]
  by_cases hpart : part.length < bodySize.toNat
  · rw [if_pos hpart]
    exact if_pos (Nat.add_lt_add_left hpart _)
  · rw [if_neg hpart]
    exact if_neg fun h => hpart (Nat.lt_of_add_lt_add_left h)

inductive Packet
  | message (message : Message)
  | response (response : Response)

namespace Packet

def header : Packet → FrameHeader
  | message m => m.header
  | response r => r.header

def payload : Packet → Bytes
  | message m => m.payload
  | response r => r.payload

variable (options : EncodeOptions)

def encode : Packet → Option Bytes
  | message m => encodeMessage m options
  | response r => encodeResponse r options

def encodeToBuffer : Packet → Option Bytes
  | message m => encodeMessageToBuffer m options
  | response r => encodeResponseToBuffer r options

/-- The frame gives back the packet, but for what is not written. -/
def Restored (frame : DecodedFrame) : Packet → Prop
  | message m =>
    toMessage frame =
      { m with connectionId := 0, route := { m.route with name := "" }, metadata := [] }
  | response r =>
    toResponse frame = { r with connectionId := 0, error := "", metadata := [] }

variable (packet : Packet)

theorem restored_written (bodySize : UInt32) :
    packet.Restored ⟨packet.header.written bodySize, packet.payload⟩ := by
  cases packet with
  | message m | response r => exact rfl

theorem encodeToBuffer_eq (options : EncodeOptions) :
    packet.encodeToBuffer options = packet.encode options := by
  cases packet with
  | message m =>
    rw [encodeToBuffer, encodeMessageToBuffer, encodeFrameToBuffer, headerToBuffer_eq]
    rfl
  | response r =>
    rw [encodeToBuffer, encodeResponseToBuffer, encodeFrameToBuffer, headerToBuffer_eq]
    rfl

theorem encode_eq_some {packet : Packet} {options : EncodeOptions}
    (h : packet.encode options = some frame) :
    ∃ body, encodeBody options packet.header packet.payload = some body ∧
      frame = headerToBytes packet.header (UInt32.ofNat body.length) ++ body := by
  have hmap : (encodeBody options packet.header packet.payload).map (fun body =>
      headerToBytes packet.header (UInt32.ofNat body.length) ++ body) = some frame := by
    cases packet with
    | message m | response r => exact h
  obtain ⟨body, hbody, rfl⟩ := map_eq_some_iff.mp hmap
  exact ⟨body, hbody, rfl⟩

def KeepsLength : Prop :=
  ∀ body, encodeBody options packet.header packet.payload = some body →
    body.length = packet.payload.length

/-- The body is not longer than the decoder allows. -/
def Fits (maxFrameSize : UInt32) (packet : Packet) : Prop :=
  ∀ body, encodeBody options packet.header packet.payload = some body →
    body.length ≤ maxFrameSize.toNat

end Packet

/-- `next`, called as long as it gives frames. -/
def pullFrame (options : DecodeOptions) : Pull Unit UInt8 DecodedFrame := fun _ buffer =>
  match (FrameStreamDecoder.mk options buffer).next with
  | (.error _, _) => none
  | (.ok frame, decoder) => some (frame, (), decoder.buffer)

/-- All packets come out, in order, and nothing is left. -/
def Received (options : DecodeOptions) (packets : List Packet) (segments : List Bytes) : Prop :=
  let stream := run (feed (pullFrame options)) ⟨(), [], []⟩ segments
  List.Forall₂ (fun packet frame => packet.Restored frame) packets stream.out ∧
    stream.buffer = []

section Stream

variable {packet : Packet}

/-- The callbacks undo each other. -/
def Inverse (encrypt decrypt : Cipher) : Prop :=
  ∀ context x y, encrypt context x = some y → decrypt context y = some x

theorem length_of_encodeBody (h : encodeBody options header payload = some body) :
    body.length < 2 ^ 32 := by
  rw [encodeBody] at h
  split at h
  · cases h
  rename_i hlength
  split at h
  · cases h
    omega
  · split at h
    · cases h
    · exact of_decide_eq_true (filter_eq_some_iff.mp h).2

theorem openBody_of_encodeBody (hinverse : Inverse encrypt decrypt)
    (h : encodeBody ⟨some encrypt⟩ header payload = some body) :
    openBody ⟨maxFrameSize, some decrypt⟩ (header.written (UInt32.ofNat body.length)) body =
      if body.length = payload.length then .ok payload else .error .malformed := by
  have hsize : (header.written (UInt32.ofNat body.length)).payloadSize.toNat = body.length := by
    change (UInt32.ofNat body.length).toNat = _
    rw [UInt32.toNat_ofNat', Nat.mod_eq_of_lt (length_of_encodeBody h)]
  have hcontext : (header.written (UInt32.ofNat body.length)).context = header.context := rfl
  have hkind : (header.written (UInt32.ofNat body.length)).encryption = header.encryption := rfl
  rw [openBody, hsize, hcontext, hkind]
  rw [encodeBody] at h
  split at h
  · cases h
  split_ifs at h with hnone
  · cases h
    rw [if_pos hnone, if_neg (by simp), if_pos rfl]
  have hplain : decrypt header.context body = some payload :=
    hinverse _ _ _ (filter_eq_some_iff.mp h).1
  rw [if_neg hnone]
  simp only [hplain]
  by_cases heq : body.length = payload.length
  · rw [if_neg (by simp [heq]), if_pos heq]
  · rw [if_pos (fun h => heq h.symm), if_neg heq]

theorem drop_headerToBytes (header : FrameHeader) (bodySize : UInt32) (part : Bytes) (n : Nat) :
    (headerToBytes header bodySize ++ part).drop (headerSize + n) = part.drop n := by
  rw [← drop_drop, ← length_headerToBytes header bodySize, drop_left]

theorem pullFrame_of_error {options : DecodeOptions} {buffer : Bytes}
    (h : decodeFrame buffer options = .error error) : pullFrame options () buffer = none := by
  simp only [pullFrame, FrameStreamDecoder.next, h]

theorem pullFrame_of_ok (h : decodeFrame buffer options = .ok (frame, consumed)) :
    pullFrame options () buffer = some (frame, (), buffer.drop consumed) := by
  simp only [pullFrame, FrameStreamDecoder.next, h]

section

variable (hinverse : Inverse encrypt decrypt)
  (hbody : encodeBody ⟨some encrypt⟩ packet.header packet.payload = some body)
  (hfits : packet.Fits ⟨some encrypt⟩ maxFrameSize)

include hinverse hbody hfits

theorem pullFrame_headerToBytes (part : Bytes) (hpart : ∃ later, part <+: body ++ later) :
    pullFrame ⟨maxFrameSize, some decrypt⟩ ()
        (headerToBytes packet.header (UInt32.ofNat body.length) ++ part) =
      if body.length ≤ part.length ∧ body.length = packet.payload.length then
        some (⟨packet.header.written (UInt32.ofNat body.length), packet.payload⟩, (),
          part.drop body.length)
      else none := by
  have hsize : (UInt32.ofNat body.length).toNat = body.length := by
    rw [UInt32.toNat_ofNat', Nat.mod_eq_of_lt (length_of_encodeBody hbody)]
  have hmax : ¬ (DecodeOptions.mk maxFrameSize (some decrypt)).maxFrameSize <
      UInt32.ofNat body.length := by
    rw [UInt32.lt_iff_toNat_lt, hsize]
    exact Nat.not_lt.mpr (hfits body hbody)
  have hdecode := decodeFrame_headerToBytes hmax packet.header part
  rw [hsize] at hdecode
  by_cases hlength : part.length < body.length
  · rw [if_pos hlength] at hdecode
    rw [pullFrame_of_error hdecode, if_neg fun h => Nat.not_le.mpr hlength h.1]
  have htake : part.take body.length = body := by
    obtain ⟨later, hpart⟩ := hpart
    have hfront : body <+: part :=
      prefix_of_prefix_length_le (prefix_append body later) hpart
        (Nat.not_lt.mp hlength)
    exact (prefix_iff_eq_take.mp hfront).symm
  rw [if_neg hlength, htake, openBody_of_encodeBody hinverse hbody] at hdecode
  by_cases heq : body.length = packet.payload.length
  · rw [if_pos heq] at hdecode
    rw [pullFrame_of_ok hdecode, if_pos ⟨Nat.not_lt.mp hlength, heq⟩, drop_headerToBytes]
  · rw [if_neg heq] at hdecode
    rw [pullFrame_of_error hdecode, if_neg fun h => heq h.2]

theorem pullFrame_part {front : Bytes}
    (hfront : front <+: headerToBytes packet.header (UInt32.ofNat body.length) ++ body)
    (hne : front ≠ headerToBytes packet.header (UInt32.ofNat body.length) ++ body) :
    pullFrame ⟨maxFrameSize, some decrypt⟩ () front = none := by
  obtain ⟨later, hlater⟩ := hfront
  rcases front_cases hlater with ⟨hpart, hpartne⟩ | ⟨part, rfl, rfl⟩
  · have hlength : front.length < headerSize := by
      have hle := hpart.length_le
      have hlt : front.length ≠ _ := fun h => hpartne (hpart.eq_of_length h)
      rw [length_headerToBytes] at hle hlt
      omega
    have hdecode : decodeFrame front ⟨maxFrameSize, some decrypt⟩ = .error .needMore := by
      rw [decodeFrame, if_pos hlength]
    exact pullFrame_of_error hdecode
  · rw [pullFrame_headerToBytes hinverse hbody hfits part ⟨[], by simp⟩, if_neg]
    rintro ⟨hlength, -⟩
    have hnil : later = [] := by
      rw [length_append] at hlength
      exact eq_nil_of_length_eq_zero (by omega)
    subst hnil
    exact hne (by simp)

theorem carries_frame (hkeeps : body.length = packet.payload.length) :
    Carries (pullFrame ⟨maxFrameSize, some decrypt⟩) ()
      (headerToBytes packet.header (UInt32.ofNat body.length) ++ body)
      ⟨packet.header.written (UInt32.ofNat body.length), packet.payload⟩ () where
  nonempty := by
    refine ne_nil_of_length_pos ?_
    rw [length_append, length_headerToBytes]
    exact Nat.add_pos_left (by decide) _
  whole rest := by
    rw [append_assoc,
      pullFrame_headerToBytes hinverse hbody hfits (body ++ rest) ⟨rest, prefix_rfl⟩,
      if_pos ⟨by simp, hkeeps⟩, drop_left]
  early _ hfront hne := pullFrame_part hinverse hbody hfits hfront hne

theorem delivers_stop (hkeeps : body.length ≠ packet.payload.length) (later : Bytes) :
    Delivers (pullFrame ⟨maxFrameSize, some decrypt⟩) ()
      (headerToBytes packet.header (UInt32.ofNat body.length) ++ body ++ later) [] ()
      (headerToBytes packet.header (UInt32.ofNat body.length) ++ body ++ later) := by
  refine .stop fun front hfront => ?_
  obtain ⟨rest, hrest⟩ := hfront
  rcases front_cases hrest with ⟨hpart, hpartne⟩ | ⟨part, rfl, rfl⟩
  · exact pullFrame_part hinverse hbody hfits hpart hpartne
  · rw [append_assoc, pullFrame_headerToBytes hinverse hbody hfits (body ++ part)
      ⟨part, prefix_rfl⟩, if_neg fun h => hkeeps h.2]

end

/-- The frames of the packets up to the first that does not keep its length. -/
theorem delivers_packets (hinverse : Inverse encrypt decrypt) {packets : List Packet}
    {frames : List Bytes}
    (hwritten : List.Forall₂ (fun packet frame => packet.encode ⟨some encrypt⟩ = some frame)
      packets frames) (hfits : ∀ packet ∈ packets, packet.Fits ⟨some encrypt⟩ maxFrameSize) :
    ∃ out left, Delivers (pullFrame ⟨maxFrameSize, some decrypt⟩) () frames.flatten out () left ∧
      ((∀ packet ∈ packets, packet.KeepsLength ⟨some encrypt⟩) →
        List.Forall₂ (fun packet frame => packet.Restored frame) packets out ∧ left = []) ∧
      (out.length = packets.length → ∀ packet ∈ packets, packet.KeepsLength ⟨some encrypt⟩) := by
  induction hwritten with
  | nil =>
    refine ⟨[], [], .stop fun front hfront => ?_, fun _ => ⟨.nil, rfl⟩, by simp⟩
    rw [prefix_nil.mp hfront]
    exact pullFrame_of_error rfl
  | @cons packet frame packets frames hframe _ ih =>
    obtain ⟨body, hbody, rfl⟩ := Packet.encode_eq_some hframe
    obtain ⟨hfit, hfits⟩ := forall_mem_cons.mp hfits
    have hkeepsIff : packet.KeepsLength ⟨some encrypt⟩ ↔ body.length = packet.payload.length := by
      constructor
      · exact fun h => h body hbody
      · intro h body' hbody'
        rw [hbody] at hbody'
        cases hbody'
        exact h
    rw [flatten_cons]
    by_cases hkeeps : body.length = packet.payload.length
    · obtain ⟨out, left, hlater, hall, hback⟩ := ih hfits
      refine ⟨_, left, .frame (carries_frame hinverse hbody hfit hkeeps) hlater, ?_, ?_⟩
      · intro h
        obtain ⟨hout, hleft⟩ := hall (forall_mem_cons.mp h).2
        exact ⟨.cons (packet.restored_written _) hout, hleft⟩
      · intro hlength p hp
        rcases mem_cons.mp hp with rfl | hp
        · exact hkeepsIff.mpr hkeeps
        · exact hback (Nat.succ.inj hlength) p hp
    · refine ⟨[], _, delivers_stop hinverse hbody hfit hkeeps _, ?_, ?_⟩
      · intro h
        exact absurd (hkeepsIff.mp (h packet mem_cons_self)) hkeeps
      · intro hlength
        cases hlength

end Stream

/-- Both overloads write the same frames.  However these are cut into segments, all packets come
back exactly if no encrypted body differs in length from its payload. -/
theorem sameFrames_and_received_iff {encrypt decrypt : Cipher} (hinverse : Inverse encrypt decrypt)
    (maxFrameSize : UInt32) (packets : List Packet) (frames segments : List Bytes)
    (hwritten : List.Forall₂ (fun packet frame => packet.encode ⟨some encrypt⟩ = some frame)
      packets frames) (hfits : ∀ packet ∈ packets, packet.Fits ⟨some encrypt⟩ maxFrameSize)
    (hsegments : segments.flatten = frames.flatten) :
    (∀ packet ∈ packets,
      packet.encodeToBuffer ⟨some encrypt⟩ = packet.encode ⟨some encrypt⟩) ∧
    (Received ⟨maxFrameSize, some decrypt⟩ packets segments ↔
      ∀ packet ∈ packets, packet.KeepsLength ⟨some encrypt⟩) := by
  refine ⟨fun packet _ => packet.encodeToBuffer_eq _, ?_⟩
  obtain ⟨out, left, hdelivers, hall, hback⟩ := delivers_packets hinverse hwritten hfits
  rw [← hsegments] at hdelivers
  rw [Received, run_feed_start hdelivers]
  constructor
  · rintro ⟨hout, -⟩
    exact hback hout.length_eq.symm
  · exact hall

def plainCall : Packet := .message { requestId := 7, payload := [1, 2, 3] }

def sealedCall : Packet :=
  .message { requestId := 8, encryption := .aes128Gcm, nonce := 5, payload := [1] }

/-- A cipher that keeps the length. -/
def invertedCipher : Cipher := fun _ bytes => some (bytes.map (~~~ ·))

/-- Two frames, one of them encrypted, in segments that end elsewhere. -/
theorem received_calls :
    Received ⟨64, some invertedCipher⟩ [plainCall, sealedCall]
      [(headerToBytes plainCall.header 3).take 50,
        (headerToBytes plainCall.header 3).drop 50 ++ [1, 2, 3] ++
          headerToBytes sealedCall.header 1, [254]] :=
  (@sameFrames_and_received_iff invertedCipher invertedCipher
    (fun _ _ _ h => by cases h; simp [invertedCipher, Function.comp_def]) 64 [plainCall, sealedCall]
    [headerToBytes plainCall.header 3 ++ [1, 2, 3], headerToBytes sealedCall.header 1 ++ [254]] _
    (.cons rfl (.cons (by decide +kernel) .nil))
    (by
      intro packet hmem body hbody
      rcases mem_pair.mp hmem with rfl | rfl <;> cases hbody <;> decide)
    (by decide +kernel)).2.mpr (by
      intro packet hmem body hbody
      rcases mem_pair.mp hmem with rfl | rfl <;> cases hbody <;> rfl)

/-- A cipher with a byte in front of the text. -/
def markedCipher : Cipher := fun _ plain => some (0 :: plain)

def unmarkedCipher : Cipher := fun _ sealed => some sealed.tail

/-- A cipher that makes the text longer. -/
theorem not_received_sealedCall :
    Inverse markedCipher unmarkedCipher ∧
      sealedCall.encode ⟨some markedCipher⟩ =
        some (headerToBytes sealedCall.header 2 ++ [0, 1]) ∧
      sealedCall.Fits ⟨some markedCipher⟩ 64 ∧
      ¬ Received ⟨64, some unmarkedCipher⟩ [sealedCall]
        [headerToBytes sealedCall.header 2 ++ [0, 1]] := by
  refine ⟨fun _ _ _ h => by cases h; rfl, rfl, ?_, ?_⟩
  · intro body hbody
    cases hbody
    decide
  · have hout : (run (feed (pullFrame ⟨64, some unmarkedCipher⟩)) ⟨(), [], []⟩
        [headerToBytes sealedCall.header 2 ++ [0, 1]]).out = [] := by
      decide +kernel
    rintro ⟨hall, -⟩
    rw [hout] at hall
    cases hall

end ServerLib.Rpc

import ServerLib.Ssh.Framing

/-! Choices of algorithms with which no packet comes out. -/

namespace ServerLib.Ssh

open Lib SshCipherContext SshCipher List

namespace SshPacketCodec

theorem received_eq_nil
    (h : ∀ front, front <+: chunks.flatten → nextPacket p (r, seq) front = none) :
    received p r seq chunks = [] := by
  rw [received, run_feed_start (.stop h)]

theorem nextPacket_of_gcm_ctr (hactive : r.active) (hother : r.isChacha20 = false)
    (hin : r.inboundCipher = some c') (hmode : c'.mode = .gcm) (hout : r.outboundCipher = some o)
    (hmode' : o.mode = .ctr) (buf : Bytes) : nextPacket p (r, seq) buf = none := by
  suffices hpeek : peekLength p r seq buf = none by
    rw [nextPacket_eq hactive, hpeek, Option.bind_none]
  have haead : r.isAead = false := by
    rw [isAead_eq hactive hout, hmode']
    rfl
  rw [peekLength, hother, haead, if_neg Bool.false_ne_true, if_neg Bool.false_ne_true]
  split_ifs with hlong
  · rfl
  · have hlen : 4 ≤ (buf.take (max r.blockSize 4)).length := by
      rw [length_take]
      omega
    rw [tryDecryptPacketLength_eq hactive hin seq hlen]
    simp only [decryptLength, hmode, Option.bind_none]

/-- Zero for a packet of the length that it says. -/
def lengthByte (_key data : Bytes) : UInt8 :=
  match readU32 (data.drop 4) with
  | some (len, rest) => if len = UInt32.ofNat rest.length then 0 else 1
  | none => 1

/-- A library that encrypts nothing, and whose codes depend on the length. -/
def bareLibrary : Primitives := Primitives.bare 0 lengthByte

variable {data key : Bytes}

theorem lengthByte_eq_zero :
    lengthByte key data = 0 ↔
      ∃ rest, readU32 (data.drop 4) = some (UInt32.ofNat rest.length, rest) := by
  rw [lengthByte]
  split
  · rename_i len rest hread
    constructor
    · intro h
      split_ifs at h with hlen
      · exact ⟨rest, hlen ▸ hread⟩
      · exact absurd h (by decide)
    · rintro ⟨rest', hread'⟩
      cases hread.symm.trans hread'
      exact if_pos rfl
  · rename_i hread
    constructor
    · intro h
      exact absurd h (by decide)
    · rintro ⟨rest, hread'⟩
      cases hread.symm.trans hread'

theorem compute_bareLibrary (mac : SshMac) (data : Bytes) :
    mac.compute bareLibrary seq data = replicate mac.digestSize
      (lengthByte mac.key (seqBytes seq ++ data)) := rfl

theorem lengthByte_eq_zero_iff :
    lengthByte key (seqBytes seq ++ data) = 0 ↔
      ∃ rest, readU32 data = some (UInt32.ofNat rest.length, rest) := by
  rw [lengthByte_eq_zero, seqBytes, drop_left' (length_writeU32 seq)]

theorem compute_packet (mac : SshMac) (blockSize : Nat) (payload : Bytes) :
    mac.compute bareLibrary seq (writeU32 (UInt32.ofNat (packetLength blockSize payload)) ++
      packetBody blockSize payload) = replicate mac.digestSize 0 := by
  have hzero : lengthByte mac.key (seqBytes seq ++
      (writeU32 (UInt32.ofNat (packetLength blockSize payload)) ++
        packetBody blockSize payload)) = 0 := by
    refine lengthByte_eq_zero_iff.mpr ⟨packetBody blockSize payload, ?_⟩
    rw [readU32_writeU32_append, length_packetBody]
  rw [compute_bareLibrary, hzero]

theorem lengthByte_of_part {plain : Bytes} (body : Bytes) (hlen : body.length < 2 ^ 32)
    (hpart : plain <+: writeU32 (UInt32.ofNat body.length) ++ body)
    (hne : plain.length ≠ 4 + body.length) : lengthByte key (seqBytes seq ++ plain) ≠ 0 := by
  intro hzero
  obtain ⟨rest, hread⟩ := lengthByte_eq_zero_iff.mp hzero
  obtain ⟨more, hmore⟩ := hpart
  have hwhole := readU32_append hread more
  rw [hmore, readU32_writeU32_append] at hwhole
  obtain ⟨hsame, hbody⟩ := Prod.mk.inj (Option.some.inj hwhole)
  have hrest : rest.length ≤ body.length := by
    rw [hbody, length_append]
    omega
  have heq : body.length = rest.length := by
    have hnat := congrArg UInt32.toNat hsame
    rwa [UInt32.toNat_ofNat', UInt32.toNat_ofNat', Nat.mod_eq_of_lt hlen,
      Nat.mod_eq_of_lt (by omega)] at hnat
  have hplain := length_of_readU32 hread
  omega

section ShortCodes

variable {mac : SshMac}

theorem encode_bareLibrary (h : CtrLink s r c c' mac) (payload : Bytes) :
    (encode bareLibrary s seq payload).1 =
      writeU32 (UInt32.ofNat (packetLength 16 payload)) ++ packetBody 16 payload ++
        replicate mac.digestSize 0 := by
  have hplain := plaintext_of_active h.senderActive payload
  rw [h.blockSize_sender] at hplain
  rw [h.encode_eq, hplain, compute_packet]
  exact congrArg (· ++ replicate mac.digestSize (0 : UInt8)) (mask_zero _ _)

theorem nextPacket_of_short_code (h : CtrLink s r c c' mac) (hpos : 0 < r.macSize)
    (hshort : r.macSize < mac.digestSize) {payload text front : Bytes}
    (hlen : packetLength 16 payload < 2 ^ 32)
    (hfirst : (encode bareLibrary s seq payload).1 <+: text) (hfront : front <+: text) :
    nextPacket bareLibrary (r, seq) front = none := by
  refine nextPacket_stops h.receiverActive hfirst (h.peekLength_encode payload) ?_ hfront
  intro _
  rw [UInt32.toNat_ofNat', Nat.mod_eq_of_lt hlen, h.trailer_receiver]
  generalize hX : writeU32 (UInt32.ofNat (packetLength 16 payload)) ++ packetBody 16 payload = X
  have hXlen : X.length = 4 + packetLength 16 payload := by
    rw [← hX, length_append, length_writeU32, length_packetBody]
  -- the packet, and only a part of its code
  have htake : text.take (4 + packetLength 16 payload + r.macSize) =
      X ++ replicate r.macSize 0 := by
    obtain ⟨more, rfl⟩ := hfirst
    rw [encode_bareLibrary h, hX, append_assoc, ← hXlen, take_length_add_append,
      take_append_of_le_length (by rw [length_replicate]; omega), take_replicate,
      Nat.min_eq_left hshort.le]
  have hdata : (X ++ replicate r.macSize (0 : UInt8)).length = X.length + r.macSize := by
    rw [length_append, length_replicate]
  rw [htake, decode_of_mac h.receiverActive h.receiverOther h.isAead_receiver
    (by rw [hdata]; omega)]
  cases hdec : (r.decryptPacket bareLibrary seq (X ++ replicate r.macSize 0)).1 with
  | none => rfl
  | some plain =>
    exfalso
    obtain ⟨hle, hplain, hcode⟩ := decryptPacket_of_not_isAead h.receiverActive
      h.inbound (congrArg CipherMode.isAead h.mode') h.keyed' h.inboundMac hdec
    rw [hdata] at hle hplain hcode
    have hcut : X.length + r.macSize - mac.digestSize ≤ X.length := by omega
    have hplain' : plain = X.take (X.length + r.macSize - mac.digestSize) :=
      hplain.trans ((mask_zero _ _).trans (take_append_of_le_length hcut))
    have hzero : (0 : UInt8) ∈ (X ++ replicate r.macSize 0).drop
        (X.length + r.macSize - mac.digestSize) := by
      rw [drop_append_of_le_length hcut]
      exact mem_append_right _ (mem_replicate.mpr ⟨by omega, rfl⟩)
    rw [← hcode, compute_bareLibrary] at hzero
    refine lengthByte_of_part (packetBody 16 payload) ?_ ?_ ?_ (eq_of_mem_replicate hzero).symm
    · rwa [length_packetBody]
    · rw [length_packetBody, hX, hplain']
      exact take_prefix _ _
    · rw [length_packetBody, hplain', length_take, ← hXlen]
      omega

end ShortCodes

theorem decode_of_not_decrypted (hactive : ctx.active) (hchacha : ctx.isChacha20)
    (h : (ctx.decryptPacket p seq data).1 = none) : (decode p ctx seq data).1 = none := by
  rw [decode]
  split
  · rfl
  · rw [if_pos hactive, if_pos hchacha]
    exact congrArg (Option.bind · stripPadding) h

theorem bareTag_ne_drop {text : Bytes} (h : 4 ≤ text.length) :
    Aead.bareTag text ≠ Aead.bareTag (text.drop 4) := by
  intro heq
  have hbyte := (replicate_inj.mp heq).2.resolve_left (by decide)
  have hnat := congrArg UInt8.toNat hbyte
  rw [UInt8.toNat_ofNat', UInt8.toNat_ofNat', length_drop] at hnat
  omega

theorem ne_bareTag_of_zero_mem {text tag : Bytes} (h : (0 : UInt8) ∈ tag) :
    tag ≠ Aead.bareTag text := by
  rintro rfl
  have hnat := congrArg UInt8.toNat (eq_of_mem_replicate h)
  rw [UInt8.toNat_ofNat', UInt8.toNat_zero] at hnat
  omega

theorem zero_mem_of_packetBody {payload text tag : Bytes} (h : packetBody 8 payload = text ++ tag)
    (hpos : 0 < tag.length) : (0 : UInt8) ∈ tag := by
  have hbounds := calculatePadding_bounds (.inl rfl) payload.length
  obtain ⟨k, hk⟩ : ∃ k, calculatePadding payload.length 8 = k + 1 := ⟨_, (Nat.sub_add_cancel
    (Nat.le_trans (by decide) hbounds.1)).symm⟩
  have hlast : (packetBody 8 payload).getLast? = some 0 := by
    rw [packetBody, hk, replicate_succ', ← append_assoc, ← cons_append,
      getLast?_concat]
  have hne : tag ≠ [] := ne_nil_of_length_pos hpos
  rw [h, getLast?_append_of_ne_nil _ hne] at hlast
  exact mem_of_getLast? hlast

/-- ChaCha20 from the sender to the receiver. -/
structure ChachaLink (s r : SshCipherContext) (c c' : SshCipher) : Prop
    extends Link s r c c' .chacha where
  sender : s.isChacha20
  receiver : r.isChacha20
  key : c'.key.length = 64
  reply : r.tagSize = 0 ∨ r.tagSize = tagLength

namespace ChachaLink

variable (h : ChachaLink s r c c')

include h

theorem encode_bareLibrary (payload : Bytes) :
    (encode bareLibrary s seq payload).1 =
      writeU32 (UInt32.ofNat (packetLength 8 payload)) ++
        (packetBody 8 payload ++ Aead.bareTag (packetBody 8 payload)) := by
  have haead : s.isAead = true := by
    rw [isAead_eq h.senderActive h.outbound, h.mode]
    rfl
  have hblock : s.blockSize = 8 := by
    rw [blockSize_eq h.senderActive h.outbound, h.mode]
    rfl
  have hdrop : (writeU32 (UInt32.ofNat (packetLength 8 payload)) ++
      packetBody 8 payload).drop 4 = packetBody 8 payload :=
    drop_left' (length_writeU32 _)
  simp only [encode, encryptedPart, plaintext_of_active h.senderActive, h.senderActive, haead,
    h.sender, hblock,
    if_true, hdrop, encryptPacket, h.outbound, h.mode, CipherMode.isAead,
    length_packetBody, encryptAead, append_assoc]
  exact congrArg (· ++ _) (mask_zero _ _)

theorem k2_ne_nil : c'.k2 ≠ [] := by
  rw [k2, h.key, if_neg (Nat.lt_irrefl _)]
  intro hnil
  have hlen := congrArg length hnil
  rw [length_take, h.key] at hlen
  cases hlen

theorem peekLength_encode (payload : Bytes) :
    peekLength bareLibrary r seq (encode bareLibrary s seq payload).1 =
      some (UInt32.ofNat (packetLength 8 payload)) := by
  have htag : r.tagSize ≤ tagLength := by
    rcases h.reply with hreply | hreply
    · rw [hreply]
      exact Nat.zero_le _
    · exact hreply.le
  rw [tagLength] at htag
  have htake : (writeU32 (UInt32.ofNat (packetLength 8 payload)) ++ (packetBody 8 payload ++
      Aead.bareTag (packetBody 8 payload))).take 4 =
      writeU32 (UInt32.ofNat (packetLength 8 payload)) :=
    take_left' (length_writeU32 _)
  have hlen : 4 + r.tagSize ≤ (writeU32 (UInt32.ofNat (packetLength 8 payload)) ++
      (packetBody 8 payload ++ Aead.bareTag (packetBody 8 payload))).length := by
    rw [length_append, length_append, length_writeU32, length_packetBody]
    have hbare : (Aead.bareTag (packetBody 8 payload)).length = tagLength :=
      length_replicate
    rw [hbare, tagLength]
    omega
  have hread : readU32 (writeU32 (UInt32.ofNat (packetLength 8 payload))) =
      some (UInt32.ofNat (packetLength 8 payload), []) := reads_u32 _ []
  have hdecrypt : c'.decryptLength bareLibrary
      (writeU32 (UInt32.ofNat (packetLength 8 payload))) seq =
      some (writeU32 (UInt32.ofNat (packetLength 8 payload))) := by
    simp only [decryptLength, h.mode', length_writeU32, Nat.lt_irrefl, h.k2_ne_nil,
      or_self, if_false]
    exact congrArg some (mask_zero _ _)
  rw [h.encode_bareLibrary, peekLength, if_pos h.receiver, if_neg (Nat.not_lt.mpr hlen),
    tryDecryptPacketLength_eq h.receiverActive h.inbound seq (by omega),
    if_pos h.receiver, htake, hdecrypt, Option.bind_some, hread]
  rfl

theorem trailer_receiver : trailer r = r.tagSize := by
  rw [trailer, if_pos h.receiver]

/-- The length that is in front of the text is looked for in the text. -/
theorem decryptPacket_eq_none (data : Bytes)
    (htag : ∀ text tag : Bytes, data.drop 4 = text ++ tag → tag.length = tagLength →
      4 ≤ text.length → tag ≠ Aead.bareTag (text.drop 4)) :
    (r.decryptPacket bareLibrary seq data).1 = none := by
  simp only [decryptPacket, h.receiverActive, h.inbound, h.mode',
    CipherMode.isAead, if_true, decryptWithTag, h.receiver, CipherMode.tagSize,
    decryptAead]
  split
  · rfl
  · split
    · rfl
    · rename_i hlong hshort
      rw [not_or, not_not] at hshort
      exact if_neg (htag _ _ (take_append_drop _ _).symm hshort.2 (Nat.le_of_not_lt hshort.1))

theorem nextPacket_eq_none {payload text front : Bytes} (hlen : packetLength 8 payload < 2 ^ 32)
    (hfirst : (encode bareLibrary s seq payload).1 <+: text) (hfront : front <+: text) :
    nextPacket bareLibrary (r, seq) front = none := by
  refine nextPacket_stops h.receiverActive hfirst (h.peekLength_encode payload) ?_ hfront
  intro _
  rw [UInt32.toNat_ofNat', Nat.mod_eq_of_lt hlen, h.trailer_receiver]
  refine decode_of_not_decrypted h.receiverActive h.receiver (h.decryptPacket_eq_none _ ?_)
  have hdrop : (text.take (4 + packetLength 8 payload + r.tagSize)).drop 4 =
      (packetBody 8 payload ++ Aead.bareTag (packetBody 8 payload)).take
        (packetLength 8 payload + r.tagSize) := by
    obtain ⟨more, rfl⟩ := hfirst
    have hle : packetLength 8 payload + r.tagSize ≤
        (packetBody 8 payload ++ Aead.bareTag (packetBody 8 payload)).length := by
      rw [length_append, length_packetBody, Aead.bareTag, length_replicate]
      rcases h.reply with hreply | hreply <;> omega
    rw [h.encode_bareLibrary, append_assoc, drop_take,
      drop_left' (length_writeU32 _), Nat.add_assoc, Nat.add_sub_cancel_left,
      take_append_of_le_length hle]
  intro text tag htext htaglen hlong
  rw [hdrop] at htext
  rcases h.reply with hreply | hreply
  · -- the end of the padding is taken for the tag
    rw [hreply, Nat.add_zero, take_left' (length_packetBody 8 payload)] at htext
    exact ne_bareTag_of_zero_mem (zero_mem_of_packetBody htext (by rw [htaglen]; decide))
  · rw [hreply, take_of_length_le] at htext
    · obtain ⟨rfl, rfl⟩ := append_inj' htext (by rw [htaglen]; exact length_replicate)
      exact bareTag_ne_drop hlong
    · rw [length_append, length_packetBody, Aead.bareTag, length_replicate]

end ChachaLink

end SshPacketCodec

end ServerLib.Ssh

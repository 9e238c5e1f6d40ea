import ServerLib.Ssh.PacketCodec

/-! Where a packet ends, and which packets come out. -/

namespace ServerLib.Ssh

open Lib SshCipher SshCipherContext List

namespace SshPacketCodec

variable {ctx : SshCipherContext}

variable (p) in
/-- The length that is read off the front of the bytes, as soon as there are enough of them. -/
def peekLength (ctx : SshCipherContext) (seq : UInt32) (buf : Bytes) : Option UInt32 :=
  if ctx.isChacha20 then
    if buf.length < 4 + ctx.tagSize then none else ctx.tryDecryptPacketLength p seq buf
  else if ctx.isAead then (readU32 buf).map Prod.fst
  else if buf.length < max ctx.blockSize 4 then none
  else ctx.tryDecryptPacketLength p seq (buf.take (max ctx.blockSize 4))

def trailer (ctx : SshCipherContext) : Nat :=
  if ctx.isChacha20 then ctx.tagSize else if ctx.isAead then ctx.tagSize else ctx.macSize

theorem tryParse_of_active (hactive : ctx.active) (buf : Bytes) :
    tryParse p ctx seq buf = withLength buf (trailer ctx) (peekLength p ctx seq buf) := by
  rw [tryParse, if_pos hactive, trailer, peekLength]
  split
  · split
    · rfl
    · rfl
  · split
    · rfl
    · dsimp only
      split <;> rfl

variable {bytes buf payload : Bytes} {blockSize : Nat}

theorem length_of_readU32 {rest : Bytes} {v : UInt32} (h : readU32 bytes = some (v, rest)) :
    bytes.length = 4 + rest.length := by
  match bytes, h with
  | a :: b :: c :: d :: bytes, h =>
    cases h
    simp only [length_cons]
    omega

theorem readU32_append {rest : Bytes} {v : UInt32} (h : readU32 bytes = some (v, rest))
    (more : Bytes) : readU32 (bytes ++ more) = some (v, rest ++ more) := by
  match bytes, h with
  | a :: b :: c :: d :: bytes, h =>
    cases h
    rfl

theorem tryDecryptPacketLength_append (hchacha : ctx.isChacha20) (hlen : 4 ≤ buf.length)
    (more : Bytes) :
    ctx.tryDecryptPacketLength p seq (buf ++ more) = ctx.tryDecryptPacketLength p seq buf := by
  have hlen' : 4 ≤ (buf ++ more).length := by
    rw [length_append]
    omega
  simp only [tryDecryptPacketLength, hchacha, if_true, hlen, hlen',
    take_append_of_le_length hlen]

theorem peekLength_append (h : peekLength p ctx seq buf = some len) (more : Bytes) :
    peekLength p ctx seq (buf ++ more) = some len := by
  rw [peekLength] at h ⊢
  rw [length_append]
  split at h
  · rename_i hchacha
    rw [if_pos hchacha]
    split at h
    · cases h
    · rw [if_neg (by omega), tryDecryptPacketLength_append hchacha (by omega), h]
  · rename_i hchacha
    rw [if_neg hchacha]
    split at h
    · rename_i haead
      obtain ⟨⟨v, rest⟩, hread, rfl⟩ := Option.map_eq_some_iff.mp h
      rw [if_pos haead, readU32_append hread]
      rfl
    · rename_i haead
      rw [if_neg haead]
      split at h
      · cases h
      · rw [if_neg (by omega), take_append_of_le_length (by omega), h]

theorem peekLength_of_front {front text : Bytes} (hfront : front <+: text)
    (h : peekLength p ctx seq front = some len) : peekLength p ctx seq text = some len := by
  obtain ⟨more, rfl⟩ := hfront
  exact peekLength_append h more

section

variable (hactive : ctx.active)
include hactive

theorem nextPacket_eq (buf : Bytes) :
    nextPacket p (ctx, seq) buf = (peekLength p ctx seq buf).bind fun len =>
      if len.toNat ≤ sshMaxPacketSize ∧ 4 + len.toNat + trailer ctx ≤ buf.length then
        let decoded := decode p ctx seq (buf.take (4 + len.toNat + trailer ctx))
        decoded.1.map (·, (decoded.2, seq + 1), buf.drop (4 + len.toNat + trailer ctx))
      else none := by
  rw [nextPacket, tryParse_of_active hactive]
  cases peekLength p ctx seq buf with
  | none => rfl
  | some len =>
    rw [withLength, Option.bind_some]
    by_cases hlong : len.toNat > sshMaxPacketSize
    · rw [if_pos hlong, if_neg fun h => absurd h.1 (Nat.not_le.mpr hlong)]
    by_cases hshort : buf.length < 4 + len.toNat + trailer ctx
    · rw [if_neg hlong, if_pos hshort, if_neg fun h => absurd h.2 (Nat.not_le.mpr hshort)]
    · rw [if_neg hlong, if_neg hshort, if_pos ⟨Nat.le_of_not_lt hlong, Nat.le_of_not_lt hshort⟩]
      dsimp only
      generalize decode p ctx seq (buf.take (4 + len.toNat + trailer ctx)) = decoded
      obtain ⟨_ | payload, ctx'⟩ := decoded <;> rfl

theorem nextPacket_nil : nextPacket p (ctx, seq) [] = none := by
  rw [nextPacket_eq hactive, Option.bind_eq_none_iff]
  intro len _
  rw [if_neg (by simp)]

theorem carries_packet {text : Bytes} (h : peekLength p ctx seq text = some len)
    (hfits : len.toNat ≤ sshMaxPacketSize) (hlen : text.length = 4 + len.toNat + trailer ctx)
    (hdecode : decode p ctx seq text = (some payload, ctx')) :
    Carries (nextPacket p) (ctx, seq) text payload (ctx', seq + 1) where
  nonempty := by
    rintro rfl
    rw [length_nil] at hlen
    omega
  whole := by
    intro rest
    have hwhole : 4 + len.toNat + trailer ctx ≤ (text ++ rest).length := by
      rw [length_append]
      omega
    rw [nextPacket_eq hactive, peekLength_append h rest, Option.bind_some, if_pos ⟨hfits, hwhole⟩,
      ← hlen, take_left, hdecode, drop_left]
    rfl
  early := by
    intro front hfront hne
    rw [nextPacket_eq hactive, Option.bind_eq_none_iff]
    intro len' hpeek
    obtain rfl : len' = len :=
      Option.some.inj ((peekLength_of_front hfront hpeek).symm.trans h)
    refine if_neg fun hwhole => hne (hfront.eq_of_length_le ?_)
    rw [hlen]
    exact hwhole.2

theorem nextPacket_stops {first text front : Bytes}
    (hfirst : first <+: text) (h : peekLength p ctx seq first = some len)
    (hfail : len.toNat ≤ sshMaxPacketSize →
      (decode p ctx seq (text.take (4 + len.toNat + trailer ctx))).1 = none)
    (hfront : front <+: text) : nextPacket p (ctx, seq) front = none := by
  rw [nextPacket_eq hactive, Option.bind_eq_none_iff]
  intro len' hpeek
  obtain rfl : len' = len := Option.some.inj
    ((peekLength_of_front hfront hpeek).symm.trans (peekLength_of_front hfirst h))
  split_ifs with hwhole
  · have hnone := hfail hwhole.1
    obtain ⟨more, rfl⟩ := hfront
    rw [take_append_of_le_length hwhole.2] at hnone
    exact Option.map_eq_none_iff.mpr hnone
  · rfl

end

/-- The length of the packet for a payload, without the four bytes of the length itself. -/
def packetLength (blockSize : Nat) (payload : Bytes) : Nat :=
  1 + payload.length + calculatePadding payload.length blockSize

def packetBody (blockSize : Nat) (payload : Bytes) : Bytes :=
  UInt8.ofNat (calculatePadding payload.length blockSize) ::
    (payload ++ List.replicate (calculatePadding payload.length blockSize) 0)

theorem calculatePadding_bounds (h : blockSize = 8 ∨ blockSize = 16) (payloadLen : Nat) :
    4 ≤ calculatePadding payloadLen blockSize ∧ calculatePadding payloadLen blockSize ≤ 19 := by
  rw [calculatePadding, kMinPadding, kMaxPadding]
  rcases h with rfl | rfl <;> split <;> split <;> omega

theorem packetLength_add_four (h : blockSize = 8 ∨ blockSize = 16) (payload : Bytes) :
    16 ≤ 4 + packetLength blockSize payload := by
  rw [packetLength, calculatePadding, kMinPadding, kMaxPadding]
  rcases h with rfl | rfl <;> split <;> split <;> omega

theorem toNat_packetLength (h : packetLength blockSize payload ≤ sshMaxPacketSize) :
    (UInt32.ofNat (packetLength blockSize payload)).toNat = packetLength blockSize payload := by
  rw [sshMaxPacketSize] at h
  rw [UInt32.toNat_ofNat']
  omega

theorem plaintext_of_active (hactive : ctx.active) (payload : Bytes) :
    plaintext ctx payload = writeU32 (UInt32.ofNat (packetLength ctx.blockSize payload)) ++
      packetBody ctx.blockSize payload := by
  rw [plaintext, if_pos hactive]
  rfl

@[simp] theorem length_packetBody (blockSize : Nat) (payload : Bytes) :
    (packetBody blockSize payload).length = packetLength blockSize payload := by
  rw [packetBody, packetLength, length_cons, length_append, length_replicate]
  omega

theorem blockSize_cases (ctx : SshCipherContext) : ctx.blockSize = 8 ∨ ctx.blockSize = 16 := by
  rw [SshCipherContext.blockSize]
  cases ctx.outboundCipher with
  | none => simp
  | some c =>
    cases hmode : c.mode <;> simp [hmode, CipherMode.blockSize]

theorem dvd_packetLength (h : blockSize = 8 ∨ blockSize = 16) (payload : Bytes) :
    blockSize ∣ 4 + packetLength blockSize payload := by
  rw [packetLength, calculatePadding, kMinPadding, kMaxPadding]
  rcases h with rfl | rfl <;> split <;> split <;> omega

theorem length_plaintext (ctx : SshCipherContext) (payload : Bytes) :
    (plaintext ctx payload).length = 4 + packetLength ctx.blockSize payload := by
  rw [plaintext, packetLength]
  split <;> simp <;> omega

/-- The number of bytes of padding, and what `encode` encrypts as whole blocks. -/
structure Padded (ctx : SshCipherContext) (payload : Bytes) : Prop where
  padding : ∃ n, 4 ≤ n ∧ n ≤ 255 ∧ (plaintext ctx payload).length = 4 + (1 + payload.length + n)
  blocks : ctx.blockSize ∣ (encryptedPart ctx payload).length

/-- The length is counted into the blocks, also where it is not encrypted with them. -/
theorem padded_iff (ctx : SshCipherContext) (payload : Bytes) :
    Padded ctx payload ↔ ¬ctx.isAead := by
  have hsize := blockSize_cases ctx
  have hbounds := calculatePadding_bounds hsize payload.length
  have hblocks := dvd_packetLength hsize payload
  have hlength := length_plaintext ctx payload
  constructor
  · rintro ⟨-, h⟩ haead
    rw [encryptedPart, if_pos haead, length_drop, hlength, Nat.add_sub_cancel_left] at h
    rcases hsize with hsize | hsize <;> rw [hsize] at h hblocks <;> omega
  · intro haead
    refine ⟨⟨_, hbounds.1, by omega, hlength⟩, ?_⟩
    rwa [encryptedPart, if_neg haead, hlength]

/-- AES-GCM: 12 bytes for an empty payload. -/
theorem not_padded_gcm :
    ¬Padded
      { active := true
        serverCipher := some { alg := .aes128Gcm, key := replicate 16 7, iv := replicate 12 1 } }
      [] :=
  fun h => absurd h.blocks (by decide)

theorem stripPadding_packetBody (h : blockSize = 8 ∨ blockSize = 16) (payload : Bytes) :
    stripPadding (packetBody blockSize payload) = some payload := by
  have hbounds := calculatePadding_bounds h payload.length
  have hbyte : (UInt8.ofNat (calculatePadding payload.length blockSize)).toNat =
      calculatePadding payload.length blockSize := by
    rw [UInt8.toNat_ofNat']
    omega
  rw [packetBody, stripPadding, hbyte, length_append, length_replicate,
    if_neg (by omega), Nat.add_sub_cancel, take_left]

theorem readU32_writeU32_append (len : UInt32) (rest : Bytes) :
    readU32 (writeU32 len ++ rest) = some (len, rest) :=
  reads_u32 len rest

theorem payloadOf_packet (h : blockSize = 8 ∨ blockSize = 16)
    (hfits : packetLength blockSize payload ≤ sshMaxPacketSize) :
    payloadOf (writeU32 (UInt32.ofNat (packetLength blockSize payload)) ++
      packetBody blockSize payload) = some payload := by
  simp only [payloadOf, readU32_writeU32_append, Option.bind_eq_bind, Option.bind_some,
    length_packetBody, toNat_packetLength hfits, hfits, and_self, guard_true,
    stripPadding_packetBody h]
  rfl

theorem readU32_of_length (h : 4 ≤ bytes.length) : ∃ v rest, readU32 bytes = some (v, rest) := by
  match bytes, h with
  | a :: b :: c :: d :: rest, _ => exact ⟨_, rest, rfl⟩

theorem decode_of_mac (hactive : ctx.active) (hother : ctx.isChacha20 = false)
    (haead : ctx.isAead = false) (hlen : 4 + ctx.macSize ≤ data.length) :
    decode p ctx seq data =
      ((ctx.decryptPacket p seq data).1.bind payloadOf, (ctx.decryptPacket p seq data).2) := by
  obtain ⟨v, rest, hread⟩ := readU32_of_length (Nat.le_trans (Nat.le_add_right _ _) hlen)
  simp only [decode, hread, hactive, hother, haead, if_true, Bool.false_eq_true, if_false,
    if_neg (Nat.not_lt.mpr hlen)]

/-- The sender's cipher and the receiver's for the packets from one to the other. -/
structure Link (s r : SshCipherContext) (c c' : SshCipher) (mode₀ : CipherMode) : Prop where
  senderActive : s.active
  outbound : s.outboundCipher = some c
  receiverActive : r.active
  inbound : r.inboundCipher = some c'
  mode : c.mode = mode₀
  mode' : c'.mode = mode₀

/-- The sender and the receiver are at the same place in the stream, and the receiver's own packets
are in counter mode, too. -/
structure CtrLink (s r : SshCipherContext) (c c' : SshCipher) (mac : SshMac) : Prop
    extends Link s r c c' .ctr where
  senderOther : s.isChacha20 = false
  outboundMac : s.outboundMac = some mac
  receiverOther : r.isChacha20 = false
  inboundMac : r.inboundMac = some mac
  reply : ∃ o, r.outboundCipher = some o ∧ o.mode = .ctr
  keyed : c.key ≠ []
  key : c'.key = c.key
  iv : c'.iv = c.iv
  place : c'.decPos = c.encPos

section Ctr

variable {s r : SshCipherContext} {mac : SshMac}

theorem encode_of_ctr (hactive : s.active) (hother : s.isChacha20 = false)
    (hout : s.outboundCipher = some c) (hmac : s.outboundMac = some mac) (hmode : c.mode = .ctr)
    (hkey : c.key ≠ []) (payload : Bytes) :
    encode p s seq payload =
      (mask (p.aesCtr c.key c.iv) c.encPos (plaintext s payload) ++
          mac.compute p seq (plaintext s payload),
        s.setCipher s.weAreServer
          { c with encPos := c.encPos + (plaintext s payload).length }) := by
  have haead : s.isAead = false := by
    rw [isAead_eq hactive hout, hmode]
    rfl
  simp only [encode, encryptedPart, hactive, haead, hother, if_true, Bool.false_eq_true, if_false,
    encryptPacket, hout, hmac, hmode, CipherMode.isAead, encrypt,
    if_neg hkey, Option.elim_some]

theorem decryptPacket_of_ctr (hactive : r.active) (hin : r.inboundCipher = some c')
    (hmac : r.inboundMac = some mac) (hmode : c'.mode = .ctr) (hkey : c'.key ≠ [])
    {plain : Bytes} (hne : plain ≠ []) :
    r.decryptPacket p seq
        (mask (p.aesCtr c'.key c'.iv) c'.decPos plain ++ mac.compute p seq plain) =
      (some plain,
        r.setCipher (!r.weAreServer) { c' with decPos := c'.decPos + plain.length }) := by
  have hverify : mac.verify p seq plain (mac.compute p seq plain) := rfl
  have htake : (mask (p.aesCtr c'.key c'.iv) c'.decPos plain ++ mac.compute p seq plain).take
      plain.length = mask (p.aesCtr c'.key c'.iv) c'.decPos plain :=
    take_left' (length_mask _ _ _)
  have hdrop : (mask (p.aesCtr c'.key c'.iv) c'.decPos plain ++ mac.compute p seq plain).drop
      plain.length = mac.compute p seq plain :=
    drop_left' (length_mask _ _ _)
  simp only [decryptPacket, hactive, if_true, hin, hmac, hmode, CipherMode.isAead,
    Bool.false_eq_true, if_false, Option.elim_some, length_append, SshMac.length_compute,
    Nat.add_sub_cancel, htake, hdrop, decrypt, if_neg hkey, mask_mask, length_mask,
    if_neg hne, Option.mem_some_iff, forall_eq', hverify,
    if_neg (Nat.not_lt.mpr (Nat.le_add_left _ _))]

theorem tryDecryptPacketLength_of_ctr (hactive : r.active) (hother : r.isChacha20 = false)
    (hin : r.inboundCipher = some c') (hmode : c'.mode = .ctr) (hkey : c'.key ≠ [])
    (len : UInt32) (rest : Bytes) :
    r.tryDecryptPacketLength p seq
      (mask (p.aesCtr c'.key c'.iv) c'.decPos (writeU32 len) ++ rest) = some len := by
  have hlen : 4 ≤ (mask (p.aesCtr c'.key c'.iv) c'.decPos (writeU32 len) ++ rest).length := by
    rw [length_append, length_mask, length_writeU32]
    omega
  have htake : (mask (p.aesCtr c'.key c'.iv) c'.decPos (writeU32 len) ++ rest).take 4 =
      mask (p.aesCtr c'.key c'.iv) c'.decPos (writeU32 len) :=
    take_left' (by rw [length_mask, length_writeU32])
  have hread : readU32 (writeU32 len) = some (len, []) := by
    have h := reads_u32 len []
    rwa [append_nil] at h
  rw [tryDecryptPacketLength_eq hactive hin seq hlen, hother]
  simp only [decryptLength, hmode, hkey, Nat.not_lt.mpr hlen, Bool.false_eq_true,
    if_false, or_self, htake, mask_mask, Option.bind_some, hread, Option.map_some]

theorem CtrLink.next (h : CtrLink s r c c' mac) (k : Nat) :
    CtrLink (s.setCipher s.weAreServer { c with encPos := c.encPos + k })
      (r.setCipher (!r.weAreServer) { c' with decPos := c'.decPos + k })
      { c with encPos := c.encPos + k } { c' with decPos := c'.decPos + k } mac where
  senderActive := by simpa using h.senderActive
  senderOther := by simpa using h.senderOther
  outbound := by simp [SshCipherContext.outboundCipher]
  outboundMac := by simpa [SshCipherContext.outboundMac] using h.outboundMac
  receiverActive := by simpa using h.receiverActive
  receiverOther := by simpa using h.receiverOther
  inbound := by simp [SshCipherContext.inboundCipher]
  inboundMac := by simpa [SshCipherContext.inboundMac] using h.inboundMac
  reply := by simpa [SshCipherContext.outboundCipher] using h.reply
  mode := h.mode
  mode' := h.mode'
  keyed := h.keyed
  key := h.key
  iv := h.iv
  place := congrArg (· + k) h.place

namespace CtrLink

variable (h : CtrLink s r c c' mac)

include h

theorem blockSize_sender : s.blockSize = 16 := by
  rw [blockSize_eq h.senderActive h.outbound, h.mode]
  rfl

theorem keyed' : c'.key ≠ [] := h.key.trans_ne h.keyed

theorem isAead_receiver : r.isAead = false := by
  obtain ⟨o, hout, hmode⟩ := h.reply
  rw [isAead_eq h.receiverActive hout, hmode]
  rfl

theorem blockSize_receiver : r.blockSize = 16 := by
  obtain ⟨o, hout, hmode⟩ := h.reply
  rw [blockSize_eq h.receiverActive hout, hmode]
  rfl

theorem trailer_receiver : trailer r = r.macSize := by
  rw [trailer, h.receiverOther, h.isAead_receiver]
  rfl

theorem encode_eq (payload : Bytes) :
    encode p s seq payload =
      (mask (p.aesCtr c'.key c'.iv) c'.decPos (plaintext s payload) ++
          mac.compute p seq (plaintext s payload),
        s.setCipher s.weAreServer
          { c with encPos := c.encPos + (plaintext s payload).length }) := by
  rw [encode_of_ctr h.senderActive h.senderOther h.outbound h.outboundMac h.mode h.keyed, h.key,
    h.iv, h.place]

theorem peekLength_encode (payload : Bytes) :
    peekLength p r seq (encode p s seq payload).1 =
      some (UInt32.ofNat (packetLength 16 payload)) := by
  have hlong : 12 ≤ packetLength 16 payload := by
    have halign := packetLength_add_four (.inr rfl) payload
    omega
  rw [h.encode_eq, peekLength, h.receiverOther, h.isAead_receiver, h.blockSize_receiver,
    plaintext_of_active h.senderActive, h.blockSize_sender, mask_append, append_assoc,
    if_neg Bool.false_ne_true, if_neg Bool.false_ne_true, if_neg, take_append,
    take_of_length_le]
  · exact tryDecryptPacketLength_of_ctr h.receiverActive h.receiverOther h.inbound h.mode' h.keyed'
      _ _
  · rw [length_mask, length_writeU32]
    decide
  · simp only [length_append, length_mask, length_writeU32, length_packetBody]
    omega

theorem carries_encode (hmac : r.macSize = mac.digestSize)
    (hfits : packetLength 16 payload ≤ sshMaxPacketSize) :
    Carries (nextPacket p) (r, seq) (encode p s seq payload).1 payload
      (r.setCipher (!r.weAreServer)
        { c' with decPos := c'.decPos + (plaintext s payload).length }, seq + 1) := by
  have hlen : (UInt32.ofNat (packetLength 16 payload)).toNat = packetLength 16 payload :=
    toNat_packetLength hfits
  have hplain := plaintext_of_active h.senderActive payload
  rw [h.blockSize_sender] at hplain
  refine carries_packet h.receiverActive (h.peekLength_encode payload) (hlen.symm ▸ hfits) ?_ ?_
  · rw [h.encode_eq, h.trailer_receiver, hmac, hlen, hplain]
    simp only [length_append, length_mask, length_writeU32, length_packetBody,
      SshMac.length_compute]
  · rw [h.encode_eq, decode_of_mac h.receiverActive h.receiverOther h.isAead_receiver,
      decryptPacket_of_ctr h.receiverActive h.inbound h.inboundMac h.mode' h.keyed']
    · rw [Option.bind_some, hplain, payloadOf_packet (.inr rfl) hfits]
    · rw [hplain]
      exact cons_ne_nil _ _
    · rw [hmac, hplain]
      simp only [length_append, length_mask, length_writeU32, length_packetBody,
        SshMac.length_compute]
      omega

end CtrLink

end Ctr

/-- The sender and the receiver have the same key, and the receiver's own packets have tags of the
same size. -/
structure GcmLink (s r : SshCipherContext) (c c' : SshCipher) : Prop
    extends Link s r c c' .gcm where
  senderOther : s.isChacha20 = false
  receiverOther : r.isChacha20 = false
  reply : ∃ o, r.outboundCipher = some o ∧ o.mode = .gcm
  key : c'.key = c.key
  iv : c'.iv = c.iv

namespace GcmLink

variable (h : GcmLink s r c c')

include h

theorem isAead_sender : s.isAead = true := by
  rw [isAead_eq h.senderActive h.outbound, h.mode]
  rfl

theorem blockSize_sender : s.blockSize = 16 := by
  rw [blockSize_eq h.senderActive h.outbound, h.mode]
  rfl

theorem isAead_receiver : r.isAead = true := by
  obtain ⟨o, hout, hmode⟩ := h.reply
  rw [isAead_eq h.receiverActive hout, hmode]
  rfl

theorem trailer_receiver : trailer r = tagLength := by
  obtain ⟨o, hout, hmode⟩ := h.reply
  rw [trailer, h.receiverOther, h.isAead_receiver, tagSize_eq h.receiverActive hout, hmode]
  rfl

theorem encode_eq (payload : Bytes) :
    encode p s seq payload =
      (writeU32 (UInt32.ofNat (packetLength 16 payload)) ++
        c'.encryptAead p (writeU32 (UInt32.ofNat (packetLength 16 payload)))
          (packetBody 16 payload) seq, s) := by
  have hsame : c.encryptAead p (writeU32 (UInt32.ofNat (packetLength 16 payload)))
      (packetBody 16 payload) seq = c'.encryptAead p
        (writeU32 (UInt32.ofNat (packetLength 16 payload))) (packetBody 16 payload) seq := by
    simp only [encryptAead, gcmNonce, h.mode, h.mode', h.key, h.iv]
  have htake : (writeU32 (UInt32.ofNat (packetLength 16 payload)) ++
      packetBody 16 payload).take 4 = writeU32 (UInt32.ofNat (packetLength 16 payload)) :=
    take_left' (length_writeU32 _)
  have hdrop : (writeU32 (UInt32.ofNat (packetLength 16 payload)) ++
      packetBody 16 payload).drop 4 = packetBody 16 payload :=
    drop_left' (length_writeU32 _)
  simp only [encode, encryptedPart, plaintext_of_active h.senderActive, h.senderActive,
    h.isAead_sender, h.senderOther, h.blockSize_sender, if_true, Bool.false_eq_true, if_false,
    htake, hdrop, encryptPacket, h.outbound, h.mode, CipherMode.isAead, length_packetBody, hsame]

theorem peekLength_encode (payload : Bytes) :
    peekLength p r seq (encode p s seq payload).1 =
      some (UInt32.ofNat (packetLength 16 payload)) := by
  rw [h.encode_eq, peekLength, h.receiverOther, h.isAead_receiver, if_neg Bool.false_ne_true,
    if_pos rfl, readU32_writeU32_append]
  rfl

theorem encryptAead_eq (aad data : Bytes) :
    c'.encryptAead p aad data seq =
      (p.aesGcm.encrypt c'.key (c'.gcmNonce seq) aad data).1 ++
        (p.aesGcm.encrypt c'.key (c'.gcmNonce seq) aad data).2 := by
  simp only [encryptAead, h.mode']

theorem length_encryptAead (aad data : Bytes) :
    (c'.encryptAead p aad data seq).length = data.length + tagLength := by
  rw [h.encryptAead_eq, length_append, p.aesGcm.length_text, p.aesGcm.length_tag]

theorem decryptPacket_append {text tag : Bytes} (htag : tag.length = tagLength) :
    r.decryptPacket p seq (text ++ tag) =
      (p.aesGcm.decrypt c'.key (c'.gcmNonce seq) (writeU32 (UInt32.ofNat text.length)) text tag,
        r) := by
  have hlong : ¬ text.length + tagLength < tagLength := by omega
  simp only [decryptPacket, h.receiverActive, h.inbound, h.mode',
    decryptWithTag, h.receiverOther, CipherMode.isAead, CipherMode.tagSize,
    if_true, Bool.false_eq_true, if_false, length_append, htag, if_neg hlong,
    Nat.add_sub_cancel,
    take_left, drop_left, decryptAead, ne_eq, not_true_eq_false]

theorem decryptPacket_encryptAead (data : Bytes) :
    r.decryptPacket p seq (c'.encryptAead p (writeU32 (UInt32.ofNat data.length)) data seq) =
      (some data, r) := by
  rw [h.encryptAead_eq, h.decryptPacket_append (p.aesGcm.length_tag _ _ _ _),
    p.aesGcm.length_text, p.aesGcm.decrypt_encrypt]

theorem carries_encode (hfits : packetLength 16 payload ≤ sshMaxPacketSize) :
    Carries (nextPacket p) (r, seq) (encode p s seq payload).1 payload (r, seq + 1) := by
  have hlen : (UInt32.ofNat (packetLength 16 payload)).toNat = packetLength 16 payload :=
    toNat_packetLength hfits
  refine carries_packet h.receiverActive (h.peekLength_encode payload) (hlen.symm ▸ hfits) ?_ ?_
  · rw [h.encode_eq, h.trailer_receiver, hlen, length_append, length_writeU32,
      h.length_encryptAead, length_packetBody, Nat.add_assoc]
  · have hdecrypt : r.decryptPacket p seq (c'.encryptAead p
        (writeU32 (UInt32.ofNat (packetLength 16 payload))) (packetBody 16 payload) seq) =
        (some (packetBody 16 payload), r) := by
      rw [← length_packetBody 16 payload]
      exact h.decryptPacket_encryptAead _
    simp only [h.encode_eq, decode, readU32_writeU32_append, h.receiverActive, h.receiverOther,
      h.isAead_receiver, if_true, Bool.false_eq_true, if_false, hlen,
      if_neg (Nat.not_lt.mpr hfits), hdecrypt, Option.bind_some,
      stripPadding_packetBody (.inr rfl)]

end GcmLink

end SshPacketCodec

end ServerLib.Ssh

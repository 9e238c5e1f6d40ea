import Mathlib.Data.List.TakeWhile
import ServerLib.Ssh.Packets

/-! Payloads through both sides: which choices of algorithms bring them to the peer. -/

namespace ServerLib.Ssh

open Lib SshCipherContext List Option

namespace SshPacketCodec

variable {data payload buf : Bytes} {ctx : SshCipherContext}

theorem length_decryptWithTag (h : ctx.decryptWithTag p c seq data = some plain) :
    plain.length ≤ data.length := by
  have haead : ∀ aad text tag, c.decryptAead p aad text tag seq = some plain →
      plain.length ≤ text.length := by
    intro aad text tag hdec
    rw [SshCipher.decryptAead] at hdec
    split at hdec
    · split at hdec
      · cases hdec
      · exact (p.aesGcm.length_decrypt _ _ _ _ _ _ hdec).le
    · split at hdec
      · cases hdec
      · rw [p.chacha20Poly1305.length_decrypt _ _ _ _ _ _ hdec, length_drop]
        omega
    · cases hdec
  rw [decryptWithTag] at h
  split at h
  · split at h
    · cases h
    · have hle := haead _ _ _ h
      rw [length_take, length_drop] at hle
      omega
  · split at h
    · cases h
    · have hle := haead _ _ _ h
      rw [length_take] at hle
      omega

theorem length_decryptPacket (h : (ctx.decryptPacket p seq data).1 = some plain) :
    plain.length ≤ data.length := by
  rw [decryptPacket] at h
  split at h
  · split at h
    · cases h
      exact le_rfl
    · rename_i c _
      split at h
      · exact length_decryptWithTag h
      dsimp only at h
      have hdecrypt : ∀ text : Bytes, (c.decrypt p text).1.length ≤ text.length := by
        intro text
        rw [SshCipher.decrypt]
        split
        · exact Nat.zero_le _
        · exact (length_mask _ _ _).le
      split at h
      · cases h
      split at h
      · cases h
      split at h
      · cases h
        refine (hdecrypt _).trans ?_
        rw [length_take]
        omega
      · cases h
  · cases h
    exact le_rfl

theorem length_stripPadding {text : Bytes} (h : stripPadding text = some payload) :
    payload.length ≤ text.length := by
  cases text with
  | nil => cases h
  | cons paddingLen rest =>
    rw [stripPadding] at h
    split at h
    · cases h
    · cases h
      rw [length_take, length_cons]
      omega

theorem length_payloadOf {text : Bytes} (h : payloadOf text = some payload) :
    payload.length ≤ text.length := by
  obtain ⟨⟨v, rest⟩, hread, h⟩ := bind_eq_some_iff.mp h
  obtain ⟨_, _, hstrip⟩ := bind_eq_some_iff.mp h
  have hle := length_stripPadding hstrip
  have hlen := length_of_readU32 hread
  omega

theorem length_decode (h : (decode p ctx seq data).1 = some payload) :
    payload.length ≤ data.length := by
  rw [decode] at h
  split at h
  · cases h
  rename_i v rest hread
  have hrest : rest.length ≤ data.length := by
    have hlen := length_of_readU32 hread
    omega
  split at h
  · split at h
    · obtain ⟨plain, hplain, h⟩ := bind_eq_some_iff.mp h
      exact (length_stripPadding h).trans (length_decryptPacket hplain)
    · split at h
      · split at h
        · cases h
        · obtain ⟨plain, hplain, h⟩ := bind_eq_some_iff.mp h
          exact (length_stripPadding h).trans ((length_decryptPacket hplain).trans hrest)
      · split at h
        · cases h
        · obtain ⟨plain, hplain, h⟩ := bind_eq_some_iff.mp h
          exact (length_payloadOf h).trans (length_decryptPacket hplain)
  · split at h
    · cases h
    · refine (length_stripPadding h).trans ?_
      rw [length_take]
      omega

theorem tagSize_le (ctx : SshCipherContext) : ctx.tagSize ≤ 64 := by
  rw [tagSize]
  split
  · cases ctx.outboundCipher with
    | none => exact Nat.zero_le _
    | some c =>
      rw [elim_some]
      cases c.mode <;> decide
  · exact Nat.zero_le _

theorem macSize_le (ctx : SshCipherContext) : ctx.macSize ≤ 64 := by
  rw [macSize]
  split
  · cases ctx.outboundMac with
    | none => exact Nat.zero_le _
    | some mac =>
      rw [elim_some, SshMac.digestSize]
      cases mac.alg <;> decide
  · exact Nat.zero_le _

theorem withLength_complete (h : withLength buf t len = .complete total) :
    total ≤ 4 + sshMaxPacketSize + t := by
  cases len with
  | none => cases h
  | some len =>
    rw [withLength] at h
    split at h
    · cases h
    · split at h
      · cases h
      · cases h
        omega

theorem tryParse_complete (h : tryParse p ctx seq buf = .complete total) :
    total ≤ 4 + sshMaxPacketSize + 64 := by
  have htag := tagSize_le ctx
  have hmac := macSize_le ctx
  rw [tryParse] at h
  split at h
  · split at h
    · split at h
      · cases h
      · have hle := withLength_complete h
        omega
    · split at h
      · have hle := withLength_complete h
        omega
      · dsimp only at h
        split at h
        · cases h
        · have hle := withLength_complete h
          omega
  · have hle := withLength_complete h
    omega

theorem length_nextPacket {s s' : SshCipherContext × UInt32} {rest : Bytes}
    (h : nextPacket p s buf = some (payload, s', rest)) :
    payload.length ≤ 4 + sshMaxPacketSize + 64 := by
  obtain ⟨ctx, seq⟩ := s
  rw [nextPacket] at h
  split at h
  · rename_i total hparse
    split at h
    · rename_i payload' ctx' hdecode
      cases h
      have hlen := length_decode (congrArg Prod.fst hdecode)
      rw [length_take] at hlen
      have htotal := tryParse_complete hparse
      omega
    · cases h
  · cases h

theorem received_ne_of_huge (hmem : payload ∈ payloads) (hhuge : 2 ^ 32 ≤ 24 + payload.length) :
    received p ctx seq chunks ≠ payloads := by
  intro heq
  have hall : ∀ payload ∈ received p ctx seq chunks,
      payload.length ≤ 4 + sshMaxPacketSize + 64 :=
    forall_out_run (fun _ _ _ _ _ h => length_nextPacket h) chunks
  have hle := hall payload (heq ▸ hmem)
  rw [sshMaxPacketSize] at hle
  omega

/-- The same class of cipher both ways, and codes of one size. -/
def Linked (s r : SshCipherContext) : Prop :=
  (∃ c c' mac, CtrLink s r c c' mac ∧ r.macSize = mac.digestSize) ∨ ∃ c c', GcmLink s r c c'

/-- The packet is not longer than the receiver allows. -/
def Fits (payload : Bytes) : Prop := packetLength 16 payload ≤ sshMaxPacketSize

instance (payload : Bytes) : Decidable (Fits payload) :=
  inferInstanceAs (Decidable (_ ≤ _))

namespace Linked

theorem receiverActive (h : Linked s r) : r.active := by
  rcases h with ⟨c, c', mac, h, hmac⟩ | ⟨c, c', h⟩ <;> exact h.receiverActive

theorem peekLength_encode (h : Linked s r) (payload : Bytes) :
    peekLength p r seq (encode p s seq payload).1 =
      some (UInt32.ofNat (packetLength 16 payload)) := by
  rcases h with ⟨c, c', mac, h, hmac⟩ | ⟨c, c', h⟩ <;> exact h.peekLength_encode payload

theorem carries_encode (h : Linked s r) (p : Primitives) (seq : UInt32) (hfits : Fits payload) :
    ∃ r', Carries (nextPacket p) (r, seq) (encode p s seq payload).1 payload (r', seq + 1) ∧
      Linked (encode p s seq payload).2 r' := by
  rcases h with ⟨c, c', mac, h, hmac⟩ | ⟨c, c', h⟩
  · refine ⟨_, h.carries_encode hmac hfits, ?_⟩
    rw [h.encode_eq]
    refine .inl ⟨_, _, mac, h.next _, ?_⟩
    simpa [macSize, outboundMac] using hmac
  · refine ⟨r, h.carries_encode hfits, .inr ⟨c, c', ?_⟩⟩
    rw [h.encode_eq]
    exact h

theorem delivers_encodeAll (h : Linked s r) (p : Primitives) (seq : UInt32)
    (hlen : ∀ payload ∈ payloads, packetLength 16 payload < 2 ^ 32) :
    ∃ state left, Delivers (nextPacket p) (r, seq) (encodeAll p s seq payloads)
      (payloads.takeWhile Fits) state left := by
  induction payloads generalizing s r seq with
  | nil =>
    refine ⟨(r, seq), [], .stop fun front hfront => ?_⟩
    rw [prefix_nil.mp hfront]
    exact nextPacket_nil h.receiverActive
  | cons payload payloads ih =>
    rw [encodeAll]
    by_cases hfits : Fits payload
    · rw [takeWhile_cons, if_pos (decide_eq_true hfits)]
      obtain ⟨r', hcarries, hlinked⟩ := h.carries_encode p seq hfits
      obtain ⟨state, left, hlater⟩ := ih hlinked (seq + 1) fun payload' hmem =>
        hlen payload' (mem_cons_of_mem _ hmem)
      exact ⟨state, left, .frame hcarries hlater⟩
    · rw [takeWhile_cons, if_neg (by simpa using hfits)]
      refine ⟨(r, seq), _, .stop fun front hfront => ?_⟩
      refine nextPacket_stops h.receiverActive (prefix_append _ _)
        (h.peekLength_encode payload) (fun hle => absurd ?_ hfits) hfront
      rwa [UInt32.toNat_ofNat', Nat.mod_eq_of_lt (hlen payload mem_cons_self)] at hle

theorem received_encodeAll_iff (h : Linked s r)
    (hchunks : chunks.flatten = encodeAll p s seq payloads) :
    received p r seq chunks = payloads ↔ ∀ payload ∈ payloads, Fits payload := by
  by_cases hlen : ∀ payload ∈ payloads, packetLength 16 payload < 2 ^ 32
  · obtain ⟨state, left, hdelivers⟩ := h.delivers_encodeAll p seq hlen
    rw [← hchunks] at hdelivers
    rw [received, run_feed_start hdelivers, takeWhile_eq_self_iff]
    simp only [decide_eq_true_eq]
  · obtain ⟨payload, hmem, hhuge⟩ : ∃ payload ∈ payloads, 2 ^ 32 ≤ packetLength 16 payload := by
      simpa using hlen
    have hbounds := calculatePadding_bounds (.inr rfl) payload.length
    rw [packetLength] at hhuge
    refine iff_of_false (received_ne_of_huge hmem (by omega)) fun hall => ?_
    have hfits := hall payload hmem
    rw [Fits, packetLength, sshMaxPacketSize] at hfits
    omega

end Linked

end SshPacketCodec

end ServerLib.Ssh

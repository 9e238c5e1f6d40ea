import ServerLib.Ssh.Agreement
import ServerLib.Ssh.Mismatch

/-! The choices of algorithms that bring payloads to the peer, among all that can be negotiated. -/

namespace ServerLib.Ssh

open Lib SshCipherContext List

namespace SshPacketCodec

/-- The names that were negotiated are those of these algorithms. -/
structure Chosen (registry : SshAlgorithmRegistry) (n : SshNegotiatedAlgorithms)
    (algs : Bool → CipherAlg) (macs : Bool → MacAlg) : Prop where
  cipher : ∀ d, registry.createCipher (n.cipherName d) = some (algs d)
  mac : ∀ d, registry.createMac (n.macName d) = some (macs d)

theorem macName_ne_nil {peer : NameLists} (h : negotiate our peer = some n) (d : Bool) :
    n.macName d ≠ [] := by
  have hne : ∀ {names : List Text} {list name : Text},
      negotiateNameList names list = some name → name ≠ [] := by
    intro names list name hname
    exact ne_nil_of_mem_splitNameList (by simpa using List.find?_some hname)
  simp only [negotiate, Option.bind_eq_bind, Option.bind_eq_some_iff, Option.pure_def,
    Option.some.injEq] at h
  obtain ⟨_, _, _, _, _, _, _, _, _, hclient, _, hserver, _, _, _, _, rfl⟩ := h
  cases d with
  | false => exact hne hclient
  | true => exact hne hserver

theorem exists_chosen {peer : NameLists} (h : negotiate our peer = some n)
    (hknown : n.Known (.defaults zlib)) : ∃ algs macs, Chosen (.defaults zlib) n algs macs := by
  obtain ⟨algs, halgs⟩ := Classical.skolem.mp fun d =>
    SshAlgorithmRegistry.createCipher_of_mem (hknown.cipher d)
  obtain ⟨macs, hmacs⟩ := Classical.skolem.mp fun d =>
    SshAlgorithmRegistry.createMac_of_mem (hknown.mac d) (macName_ne_nil h d)
  exact ⟨algs, macs, halgs, hmacs⟩

section Activated

variable {registry : SshAlgorithmRegistry}

theorem name_of_createCipher (h : registry.createCipher name = some alg) : alg.name = name := by
  rw [SshAlgorithmRegistry.createCipher] at h
  split at h
  · simpa using List.find?_some h
  · cases h

theorem mode_eq_chacha_iff (alg : CipherAlg) :
    alg.mode = .chacha ↔ alg.name = CipherAlg.chacha20Poly1305.name := by
  cases alg <;> decide +kernel

namespace Chosen

variable (h : Chosen registry n algs macs) (before : SshCipherContext) (secrets : Secrets)
  (weAreServer : Bool)

include h

theorem active : (before.activate p n secrets weAreServer (some registry)).active := by
  rw [activate_of_created (h.cipher false) (h.cipher true)]

theorem weAreServer_eq :
    (before.activate p n secrets weAreServer (some registry)).weAreServer = weAreServer := by
  rw [activate_of_created (h.cipher false) (h.cipher true)]

theorem isChacha20_iff :
    (before.activate p n secrets weAreServer (some registry)).isChacha20 = true ↔
      ∃ d, (algs d).mode = .chacha := by
  rw [activate_of_created (h.cipher false) (h.cipher true), decide_eq_true_iff]
  rw [Bool.exists_bool, mode_eq_chacha_iff, mode_eq_chacha_iff,
    name_of_createCipher (h.cipher false), name_of_createCipher (h.cipher true)]
  rfl

theorem cipher_eq (d : Bool) :
    (before.activate p n secrets weAreServer (some registry)).cipher d =
      some (n.newCipher p secrets d (algs d)) := by
  rw [activate_cipher (h.cipher false) (h.cipher true)]
  cases d with
  | false | true => rfl

theorem mac_eq (hctr : (algs false).mode.isAead = false) (d : Bool) :
    (before.activate p n secrets weAreServer (some registry)).mac d =
      some (n.newMac p secrets d (macs d)) := by
  rw [activate_mac (h.cipher false) (h.cipher true) hctr, h.mac, h.mac]
  rfl

theorem outboundCipher_eq :
    (before.activate p n secrets weAreServer (some registry)).outboundCipher =
      some (n.newCipher p secrets weAreServer (algs weAreServer)) := by
  rw [outboundCipher, h.weAreServer_eq, h.cipher_eq]

theorem inboundCipher_eq :
    (before.activate p n secrets weAreServer (some registry)).inboundCipher =
      some (n.newCipher p secrets (!weAreServer) (algs !weAreServer)) := by
  rw [inboundCipher, h.weAreServer_eq, h.cipher_eq]

theorem outboundMac_eq (hctr : (algs false).mode.isAead = false) :
    (before.activate p n secrets weAreServer (some registry)).outboundMac =
      some (n.newMac p secrets weAreServer (macs weAreServer)) := by
  rw [outboundMac, h.weAreServer_eq, h.mac_eq before secrets _ hctr]

theorem inboundMac_eq (hctr : (algs false).mode.isAead = false) :
    (before.activate p n secrets weAreServer (some registry)).inboundMac =
      some (n.newMac p secrets (!weAreServer) (macs !weAreServer)) := by
  rw [inboundMac, h.weAreServer_eq, h.mac_eq before secrets _ hctr]

theorem isChacha20_eq_false (hne : ∀ d, (algs d).mode ≠ .chacha) :
    (before.activate p n secrets weAreServer (some registry)).isChacha20 = false := by
  rw [← Bool.not_eq_true, h.isChacha20_iff]
  rintro ⟨d, hd⟩
  exact hne d hd

/-! The server sends if `fromServer` is true, otherwise the client. -/

variable (before' : SshCipherContext) (fromServer : Bool)

theorem link (hmode : (algs fromServer).mode = mode) :
    Link (before.activate p n secrets fromServer (some registry))
      (before'.activate p n secrets (!fromServer) (some registry))
      (n.newCipher p secrets fromServer (algs fromServer))
      (n.newCipher p secrets fromServer (algs fromServer)) mode where
  senderActive := h.active _ _ _
  outbound := h.outboundCipher_eq _ _ _
  receiverActive := h.active _ _ _
  inbound := by rw [h.inboundCipher_eq, Bool.not_not]
  mode := hmode
  mode' := hmode

theorem ctrLink (hctr : ∀ d, (algs d).mode = .ctr) :
    CtrLink (before.activate p n secrets fromServer (some registry))
      (before'.activate p n secrets (!fromServer) (some registry))
      (n.newCipher p secrets fromServer (algs fromServer))
      (n.newCipher p secrets fromServer (algs fromServer))
      (n.newMac p secrets fromServer (macs fromServer)) := by
  have hne : ∀ d, (algs d).mode ≠ .chacha := fun d => (hctr d).trans_ne nofun
  have haead : (algs false).mode.isAead = false := by
    rw [hctr false]
    rfl
  exact {
    toLink := h.link _ _ _ _ (hctr _)
    senderOther := h.isChacha20_eq_false _ _ _ hne
    outboundMac := h.outboundMac_eq _ _ _ haead
    receiverOther := h.isChacha20_eq_false _ _ _ hne
    inboundMac := by rw [h.inboundMac_eq _ _ _ haead, Bool.not_not]
    reply := ⟨_, h.outboundCipher_eq _ _ _, hctr _⟩
    keyed := n.newCipher_key_ne_nil
    key := rfl
    iv := rfl
    place := rfl }

theorem gcmLink (hgcm : ∀ d, (algs d).mode = .gcm) :
    GcmLink (before.activate p n secrets fromServer (some registry))
      (before'.activate p n secrets (!fromServer) (some registry))
      (n.newCipher p secrets fromServer (algs fromServer))
      (n.newCipher p secrets fromServer (algs fromServer)) := by
  have hne : ∀ d, (algs d).mode ≠ .chacha := fun d => (hgcm d).trans_ne nofun
  exact {
    toLink := h.link _ _ _ _ (hgcm _)
    senderOther := h.isChacha20_eq_false _ _ _ hne
    receiverOther := h.isChacha20_eq_false _ _ _ hne
    reply := ⟨_, h.outboundCipher_eq _ _ _, hgcm _⟩
    key := rfl
    iv := rfl }

theorem chachaLink (hchacha : (algs fromServer).mode = .chacha) :
    ChachaLink (before.activate p n secrets fromServer (some registry))
      (before'.activate p n secrets (!fromServer) (some registry))
      (n.newCipher p secrets fromServer (algs fromServer))
      (n.newCipher p secrets fromServer (algs fromServer)) := by
  have hkey : (algs fromServer).keySize = 64 := by
    cases halg : algs fromServer <;> rw [halg] at hchacha <;> first | rfl | cases hchacha
  exact {
    toLink := h.link _ _ _ _ hchacha
    sender := (h.isChacha20_iff _ _ _).mpr ⟨_, hchacha⟩
    receiver := (h.isChacha20_iff _ _ _).mpr ⟨_, hchacha⟩
    key := (length_deriveKey _ _ _ _ _).trans hkey
    reply := by
      rw [tagSize_eq (h.active _ _ _) (h.outboundCipher_eq _ _ _)]
      cases (n.newCipher p secrets (!fromServer) (algs !fromServer)).mode with
      | chacha | gcm => exact .inr rfl
      | ctr => exact .inl rfl }

theorem macSize_eq (hctr : ∀ d, (algs d).mode = .ctr) :
    (before'.activate p n secrets weAreServer (some registry)).macSize =
      (macs weAreServer).digestSize := by
  have haead : (algs false).mode.isAead = false := by
    rw [hctr false]
    rfl
  rw [SshCipherContext.macSize_eq (h.active _ _ _) (h.outboundMac_eq _ _ _ haead)]
  rfl

end Chosen

end Activated

/-- GCM both ways, or counter mode both ways with codes of one size. -/
def Matched (registry : SshAlgorithmRegistry) (n : SshNegotiatedAlgorithms) : Prop :=
  (∀ d, (registry.createCipher (n.cipherName d)).map CipherAlg.mode = some .gcm) ∨
    (∀ d, (registry.createCipher (n.cipherName d)).map CipherAlg.mode = some .ctr) ∧
      (registry.createMac n.clientToServerMacName).map MacAlg.digestSize =
        (registry.createMac n.serverToClientMacName).map MacAlg.digestSize

instance (registry : SshAlgorithmRegistry) (n : SshNegotiatedAlgorithms) :
    Decidable (Matched registry n) :=
  inferInstanceAs (Decidable (_ ∨ _))

/-- Whatever the library, the secrets, the direction and the chunks, the payloads come out. -/
def Recovered (registry : SshAlgorithmRegistry) (n : SshNegotiatedAlgorithms)
    (client server : SshCipherContext) (payloads : List Bytes) : Prop :=
  ∀ (p : Primitives) (secrets : Secrets) (fromServer : Bool) (seq : UInt32) (chunks : List Bytes),
    chunks.flatten = encodeAll p ((if fromServer then server else client).activate p n secrets
        fromServer (some registry)) seq payloads →
      received p ((if fromServer then client else server).activate p n secrets (!fromServer)
        (some registry)) seq chunks = payloads

def Broken (algs : Bool → CipherAlg) (macs : Bool → MacAlg) (d : Bool) : Prop :=
  (algs d).mode = .chacha ∨
    ((∀ d', (algs d').mode ≠ .chacha) ∧ (algs d).mode = .gcm ∧ (algs !d).mode = .ctr) ∨
    (∀ d', (algs d').mode = .ctr) ∧ (macs !d).digestSize < (macs d).digestSize

section

variable (h : Chosen registry n algs macs)
include h

theorem Chosen.matched_iff :
    Matched registry n ↔ (∀ d, (algs d).mode = .gcm) ∨
      (∀ d, (algs d).mode = .ctr) ∧ (macs false).digestSize = (macs true).digestSize := by
  have hclient : registry.createMac n.clientToServerMacName = some (macs false) := h.mac false
  have hserver : registry.createMac n.serverToClientMacName = some (macs true) := h.mac true
  simp only [Matched, h.cipher, hclient, hserver, Option.map_some, Option.some.injEq]

theorem Chosen.exists_broken (hnot : ¬ Matched registry n) : ∃ d, Broken algs macs d := by
  rw [h.matched_iff] at hnot
  simp only [Broken, Bool.forall_bool, Bool.exists_bool, Bool.not_false, Bool.not_true] at hnot ⊢
  cases hclient : (algs false).mode <;> cases hserver : (algs true).mode <;>
    simp only [hclient, hserver, ne_eq, reduceCtorEq, not_true_eq_false, not_false_eq_true,
      and_self, and_true, true_and, and_false, false_and, or_false, false_or, or_true] at hnot ⊢
  omega

theorem Chosen.linked (hmatched : Matched registry n)
    (p : Primitives) (secrets : Secrets) (before before' : SshCipherContext) (fromServer : Bool) :
    Linked (before.activate p n secrets fromServer (some registry))
      (before'.activate p n secrets (!fromServer) (some registry)) := by
  rcases h.matched_iff.mp hmatched with hgcm | ⟨hctr, hsizes⟩
  · exact .inr ⟨_, _, h.gcmLink before secrets before' fromServer hgcm⟩
  · refine .inl ⟨_, _, _, h.ctrLink before secrets before' fromServer hctr, ?_⟩
    rw [h.macSize_eq _ _ _ hctr]
    cases fromServer with
    | false => exact hsizes.symm
    | true => exact hsizes

theorem Chosen.received_of_broken (hbroken : Broken algs macs fromServer) (secrets : Secrets)
    (before before' : SshCipherContext)
    (hchunks : chunks.flatten = encodeAll bareLibrary (before.activate bareLibrary n secrets
      fromServer (some registry)) seq (payload :: payloads)) :
    received bareLibrary (before'.activate bareLibrary n secrets (!fromServer) (some registry)) seq
      chunks ≠ payload :: payloads := by
  by_cases hhuge : 2 ^ 32 ≤ 24 + payload.length
  · exact received_ne_of_huge mem_cons_self hhuge
  have hlen : ∀ {blockSize}, blockSize = 8 ∨ blockSize = 16 →
      packetLength blockSize payload < 2 ^ 32 := by
    intro blockSize hblock
    have hbounds := calculatePadding_bounds hblock payload.length
    rw [packetLength]
    omega
  have hfirst : (encode bareLibrary (before.activate bareLibrary n secrets fromServer
      (some registry)) seq payload).1 <+: chunks.flatten := by
    rw [hchunks, encodeAll]
    exact prefix_append _ _
  rw [received_eq_nil]
  · exact (cons_ne_nil _ _).symm
  · intro front hfront
    rcases hbroken with hchacha | ⟨hother, hgcm, hctr⟩ | ⟨hctr, hsizes⟩
    · exact (h.chachaLink before secrets before' fromServer hchacha).nextPacket_eq_none
        (hlen (.inl rfl)) hfirst hfront
    · refine nextPacket_of_gcm_ctr (h.active _ _ _) (h.isChacha20_eq_false _ _ _ hother)
        (h.inboundCipher_eq _ _ _) ?_ (h.outboundCipher_eq _ _ _) hctr front
      rw [Bool.not_not]
      exact hgcm
    · have hsize := h.macSize_eq (p := bareLibrary) secrets (!fromServer) before' hctr
      have hpos : 0 < (macs !fromServer).digestSize := by
        cases macs !fromServer <;> decide
      refine nextPacket_of_short_code (h.ctrLink before secrets before' fromServer hctr) ?_ ?_
        (hlen (.inr rfl)) hfirst hfront
      · rw [hsize]
        exact hpos
      · rw [hsize]
        exact hsizes

theorem Chosen.not_recovered (hbroken : Broken algs macs fromServer) (payload : Bytes)
    (payloads : List Bytes) : ¬ Recovered registry n client server (payload :: payloads) := by
  intro hrecovered
  have hout := hrecovered bareLibrary ⟨[], [], []⟩ fromServer 0 [_] flatten_singleton
  exact h.received_of_broken hbroken _ _ _ flatten_singleton hout

end

/-- What comes out, for all that can be negotiated. -/
theorem recovered_iff {zlib : Bool} {our : Preferences} {peer : NameLists}
    {n : SshNegotiatedAlgorithms} (hneg : negotiate our peer = some n)
    (hknown : n.Known (.defaults zlib)) (client server : SshCipherContext) (payloads : List Bytes) :
    Recovered (.defaults zlib) n client server payloads ↔
      payloads = [] ∨ Matched (.defaults zlib) n ∧ ∀ payload ∈ payloads, Fits payload := by
  obtain ⟨algs, macs, h⟩ := exists_chosen hneg hknown
  constructor
  · intro hrecovered
    cases payloads with
    | nil => exact .inl rfl
    | cons payload payloads =>
      have hmatched : Matched (.defaults zlib) n := by
        by_contra hnot
        obtain ⟨fromServer, hbroken⟩ := h.exists_broken hnot
        exact h.not_recovered hbroken payload payloads hrecovered
      refine .inr ⟨hmatched, ?_⟩
      have hlinked := h.linked hmatched bareLibrary ⟨[], [], []⟩ client server false
      have hout := hrecovered bareLibrary ⟨[], [], []⟩ false 0 [_] flatten_singleton
      exact (hlinked.received_encodeAll_iff flatten_singleton).mp hout
  · intro hcond p secrets fromServer seq chunks hchunks
    rcases hcond with rfl | ⟨hmatched, hfits⟩
    · apply received_eq_nil
      intro front hfront
      rw [hchunks, encodeAll] at hfront
      rw [prefix_nil.mp hfront]
      exact nextPacket_nil (h.active _ _ _)
    · exact ((h.linked hmatched p secrets _ _ fromServer).received_encodeAll_iff hchunks).mpr hfits

def oneOfEach (cipherToServer cipherToClient : Text) : Preferences × NameLists :=
  ({ kex := ["curve25519-sha256".toList]
     hostKey := ["ssh-ed25519".toList]
     cipher := [cipherToServer, cipherToClient]
     mac := ["hmac-sha2-256".toList]
     compression := ["none".toList] },
   { kexAlgorithms := "curve25519-sha256".toList
     serverHostKeyAlgorithms := "ssh-ed25519".toList
     encryptionAlgorithmsClientToServer := cipherToServer
     encryptionAlgorithmsServerToClient := cipherToClient
     macAlgorithmsClientToServer := "hmac-sha2-256".toList
     macAlgorithmsServerToClient := "hmac-sha2-256".toList
     compressionAlgorithmsClientToServer := "none".toList
     compressionAlgorithmsServerToClient := "none".toList })

def pairOfCiphers (cipherToServer cipherToClient : Text) : SshNegotiatedAlgorithms where
  kexName := "curve25519-sha256".toList
  kexHashName := "sha256".toList
  hostKeyName := "ssh-ed25519".toList
  clientToServerCipherName := cipherToServer
  serverToClientCipherName := cipherToClient
  clientToServerMacName := "hmac-sha2-256".toList
  serverToClientMacName := "hmac-sha2-256".toList
  clientToServerCompressionName := "none".toList
  serverToClientCompressionName := "none".toList

/-- Another cipher for each direction. -/
theorem recovered_ctr :
    let lists := oneOfEach "aes128-ctr".toList "aes256-ctr".toList
    let n := pairOfCiphers "aes128-ctr".toList "aes256-ctr".toList
    negotiate lists.1 lists.2 = some n ∧ n.Known (.defaults false) ∧
      Recovered (.defaults false) n {} {} [[1, 2, 3], []] := by
  intro lists n
  have hneg : negotiate lists.1 lists.2 = some n := by decide +kernel
  have hknown : n.Known (.defaults false) := ⟨by decide +kernel, by decide +kernel⟩
  refine ⟨hneg, hknown, ?_⟩
  exact (recovered_iff hneg hknown {} {} [[1, 2, 3], []]).mpr (.inr (by decide +kernel))

/-- With GCM to the server and counter mode to the client the server finds no length. -/
theorem not_recovered_gcm_ctr :
    let lists := oneOfEach "aes128-gcm@openssh.com".toList "aes256-ctr".toList
    let n := pairOfCiphers "aes128-gcm@openssh.com".toList "aes256-ctr".toList
    negotiate lists.1 lists.2 = some n ∧ n.Known (.defaults false) ∧
      ¬ Recovered (.defaults false) n {} {} [[1, 2, 3]] := by
  intro lists n
  have hchosen : Chosen (.defaults false) n
      (fun d => if d then .aes256Ctr else .aes128Gcm) (fun _ => .hmacSha256) :=
    ⟨by decide +kernel, by decide +kernel⟩
  refine ⟨by decide +kernel, ⟨by decide +kernel, by decide +kernel⟩, ?_⟩
  have hbroken : Broken (fun d => if d then .aes256Ctr else .aes128Gcm) (fun _ => .hmacSha256)
      false := .inr (.inl ⟨by decide, rfl, rfl⟩)
  exact hchosen.not_recovered hbroken _ _

end SshPacketCodec

end ServerLib.Ssh

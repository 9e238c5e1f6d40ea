import ServerLib.Ssh.CipherContext

/-! Which packets are authenticated. -/

namespace ServerLib.Ssh

open Lib SshAlgorithmRegistry SshCipherContext List Option

/-- A packet is sent, or one that came is decrypted. -/
inductive Use
  | encrypt (seq : UInt32) (data : Bytes)
  | decrypt (seq : UInt32) (data : Bytes)

def SshCipher.fresh (c : SshCipher) : SshCipher := { c with encPos := 0, decPos := 0 }

namespace SshCipherContext

variable (p : Primitives)

def use (ctx : SshCipherContext) : Use → SshCipherContext
  | .encrypt seq data => (ctx.encryptPacket p seq data).2
  | .decrypt seq data => (ctx.decryptPacket p seq data).2

def fresh (ctx : SshCipherContext) : SshCipherContext :=
  { ctx with
    clientCipher := ctx.clientCipher.map SshCipher.fresh
    serverCipher := ctx.serverCipher.map SshCipher.fresh }

variable {p} {ctx : SshCipherContext}

theorem fresh_cipher (ctx : SshCipherContext) (fromServer : Bool) :
    ctx.fresh.cipher fromServer = (ctx.cipher fromServer).map SshCipher.fresh := by
  cases fromServer <;> rfl

theorem fresh_setCipher (hcipher : ctx.cipher fromServer = some c) (hfresh : c'.fresh = c.fresh) :
    (ctx.setCipher fromServer c').fresh = ctx.fresh := by
  cases fromServer with
  | false =>
    have hclient : ctx.clientCipher = some c := hcipher
    simp [setCipher, fresh, hclient, hfresh]
  | true =>
    have hserver : ctx.serverCipher = some c := hcipher
    simp [setCipher, fresh, hserver, hfresh]

theorem fresh_encrypt (c : SshCipher) (data : Bytes) : (c.encrypt p data).2.fresh = c.fresh := by
  rw [SshCipher.encrypt]
  split
  · rfl
  · rfl

theorem fresh_decrypt (c : SshCipher) (data : Bytes) : (c.decrypt p data).2.fresh = c.fresh := by
  rw [SshCipher.decrypt]
  split
  · rfl
  · rfl

theorem fresh_encryptPacket (seq : UInt32) (data : Bytes) :
    (ctx.encryptPacket p seq data).2.fresh = ctx.fresh := by
  rw [encryptPacket]
  split
  · split
    · rfl
    · rename_i c hcipher
      split
      · rfl
      · exact fresh_setCipher hcipher (fresh_encrypt c data)
  · rfl

theorem fresh_decryptPacket (seq : UInt32) (data : Bytes) :
    (ctx.decryptPacket p seq data).2.fresh = ctx.fresh := by
  rw [decryptPacket]
  split
  · split
    · rfl
    · rename_i c hcipher
      split
      · rfl
      dsimp only
      split
      · rfl
      have hset := fresh_setCipher hcipher (fresh_decrypt (p := p) c
        (data.take (data.length - ctx.inboundMac.elim 0 SshMac.digestSize)))
      split
      · exact hset
      · split <;> exact hset
  · rfl

theorem fresh_run_use (uses : List Use) : (run (use p) ctx uses).fresh = ctx.fresh := by
  refine run_preserves (I := fun ctx' : SshCipherContext => ctx'.fresh = ctx.fresh) ?_ rfl uses
  intro ctx' u h
  cases u with
  | encrypt seq data => exact (fresh_encryptPacket seq data).trans h
  | decrypt seq data => exact (fresh_decryptPacket seq data).trans h

end SshCipherContext

/-- What goes one way is sent with the code, and is accepted only with it. -/
structure SshCipherContext.Guards (p : Primitives) (ctx : SshCipherContext) (fromServer : Bool)
    (mac : SshMac) : Prop where
  sent : ctx.weAreServer = fromServer → ∀ seq data, ∃ body : Bytes, body.length = data.length ∧
    (ctx.encryptPacket p seq data).1 = body ++ mac.compute p seq data
  accepted : ctx.weAreServer ≠ fromServer → ∀ seq data payload,
    (ctx.decryptPacket p seq data).1 = some payload →
      ∃ body : Bytes, body.length = payload.length ∧ data = body ++ mac.compute p seq payload

/-- Both sides, whatever they have done, use the code that was negotiated, with its own key. -/
def Authenticated (registry : SshAlgorithmRegistry) (n : SshNegotiatedAlgorithms)
    (before : SshCipherContext) (fromServer : Bool) : Prop :=
  ∀ (p : Primitives) (secrets : Secrets) (weAreServer : Bool) (uses : List Use),
    ∃ alg, registry.createMac (n.macName fromServer) = some alg ∧
      (run (use p)
        (before.activate p n secrets weAreServer (some registry)) uses).Guards p fromServer
          (n.newMac p secrets fromServer alg)

namespace SshCipherContext

variable {ctx : SshCipherContext} {mac : SshMac}

theorem guards_of_mac (hactive : ctx.active) (hcipher : ctx.cipher fromServer = some c)
    (haead : c.mode.isAead = false) (hkey : c.key ≠ []) (hmac : ctx.mac fromServer = some mac) :
    ctx.Guards p fromServer mac where
  sent := by
    rintro rfl seq data
    refine ⟨mask (p.aesCtr c.key c.iv) c.encPos data, length_mask _ _ _, ?_⟩
    rw [encryptPacket_of_not_isAead hactive hcipher haead hkey, outboundMac, hmac]
    rfl
  accepted := by
    intro hside seq data payload h
    obtain rfl : (!ctx.weAreServer) = fromServer := by
      cases fromServer <;> simpa using hside
    obtain ⟨hlen, hpayload, hcode⟩ :=
      decryptPacket_of_not_isAead hactive hcipher haead hkey hmac h
    refine ⟨data.take (data.length - mac.digestSize), ?_, ?_⟩
    · rw [hpayload, length_mask]
    · rw [hcode, take_append_drop]

theorem guards_run (hactive : ctx.active) (hcipher : ctx.cipher fromServer = some c)
    (haead : c.mode.isAead = false) (hkey : c.key ≠ []) (hmac : ctx.mac fromServer = some mac)
    (uses : List Use) : (run (use p) ctx uses).Guards p fromServer mac := by
  have hfresh : (run (use p) ctx uses).fresh = ctx.fresh := fresh_run_use uses
  generalize run (use p) ctx uses = ctx' at hfresh
  have hactive' : ctx'.fresh.active = ctx.fresh.active := congrArg active hfresh
  have hmac' : ctx'.fresh.mac fromServer = ctx.fresh.mac fromServer :=
    congrArg (·.mac fromServer) hfresh
  have hcipher' : (ctx'.cipher fromServer).map SshCipher.fresh = some c.fresh := by
    rw [← fresh_cipher, hfresh, fresh_cipher, hcipher]
    rfl
  obtain ⟨c', hc', hsame⟩ := map_eq_some_iff.mp hcipher'
  have hkey' : c'.fresh.key = c.fresh.key := congrArg SshCipher.key hsame
  have hmode : c'.fresh.mode = c.fresh.mode := congrArg SshCipher.mode hsame
  refine guards_of_mac ?_ hc' ?_ ?_ ?_
  · exact hactive'.trans hactive
  · exact (congrArg CipherMode.isAead hmode).trans haead
  · exact hkey'.trans_ne hkey
  · exact hmac'.trans hmac

theorem not_guards (mac? : Option SshMac) {n : SshNegotiatedAlgorithms} (hactive : ctx.active)
    (hserver : ctx.weAreServer = fromServer) (hcipher : ctx.cipher fromServer = some c)
    (haead : c.mode.isAead = false) (hkey : c.key ≠ []) (hmac : ctx.mac fromServer = mac?)
    (hp : p = Primitives.bare b fun key _ => key.headD 0) (hb : ∀ mac ∈ mac?, mac.key.headD 0 ≠ b) :
    ¬ ctx.Guards p fromServer (n.newMac p secrets fromServer alg) := by
  intro hguards
  obtain ⟨body, hlen, hsent⟩ := hguards.sent hserver 0 []
  subst hserver
  have hbody : body = [] := length_eq_zero_iff.mp hlen
  rw [encryptPacket_of_not_isAead hactive hcipher haead hkey, mask_nil, hbody, nil_append,
    nil_append, outboundMac, hmac] at hsent
  have hpos : 0 < alg.digestSize := by cases alg <;> decide
  have hcode : (n.newMac p secrets ctx.weAreServer alg).compute p 0 [] =
      List.replicate alg.digestSize b := by
    subst hp
    have hderived : (n.newMac (Primitives.bare b fun key _ => key.headD 0) secrets ctx.weAreServer
        alg).key = List.replicate alg.digestSize b := deriveKey_bare _ _ _ _ _ _
    rw [SshMac.compute, hderived]
    obtain ⟨k, hk⟩ := Nat.exists_eq_add_one.mpr hpos
    show List.replicate alg.digestSize _ = _
    rw [hk]
    rfl
  rw [hcode] at hsent
  cases mac? with
  | none =>
    have hzero := congrArg List.length hsent
    rw [elim_none, length_replicate, length_nil] at hzero
    omega
  | some mac =>
    have hfirst : mac.key.headD 0 = b := by
      have hmem : b ∈ List.replicate alg.digestSize b := mem_replicate.mpr ⟨by omega, rfl⟩
      rw [← hsent, hp] at hmem
      exact (eq_of_mem_replicate hmem).symm
    exact hb mac rfl hfirst

end SshCipherContext

def SshAlgorithmRegistry.isAead (registry : SshAlgorithmRegistry) (name : Text) : Bool :=
  (registry.createCipher name).any fun alg => alg.mode.isAead

theorem SshAlgorithmRegistry.isAead_of_created {registry : SshAlgorithmRegistry}
    (h : registry.createCipher name = some alg) : registry.isAead name = alg.mode.isAead := by
  rw [isAead, h]
  rfl

section Directions

variable {n : SshNegotiatedAlgorithms} {fromServer : Bool}

theorem not_authenticated {registry : SshAlgorithmRegistry} {client server : CipherAlg}
    (hclient : registry.createCipher n.clientToServerCipherName = some client)
    (hserver : registry.createCipher n.serverToClientCipherName = some server)
    (haead : (if fromServer then server else client).mode.isAead = false) (mac? : Option SshMac)
    (hmac : ∀ p secrets,
      (before.activate p n secrets fromServer (some registry)).mac fromServer = mac?) :
    ¬ Authenticated registry n before fromServer := by
  intro hauth
  obtain ⟨b, hb⟩ : ∃ b : UInt8, ∀ mac ∈ mac?, mac.key.headD 0 ≠ b := by
    cases mac? with
    | none => exact ⟨0, fun mac hmem => absurd hmem (not_mem_none _)⟩
    | some mac =>
      refine ⟨if mac.key.headD 0 = 0 then 1 else 0, fun mac' hmem => ?_⟩
      cases hmem
      split_ifs with hzero
      · rw [hzero]
        decide
      · assumption
  obtain ⟨alg, -, hguards⟩ :=
    hauth (Primitives.bare b fun key _ => key.headD 0) ⟨[], [], []⟩ fromServer []
  refine not_guards mac? ?_ ?_
    (activate_cipher hclient hserver fromServer) haead n.newCipher_key_ne_nil
    (hmac _ _) rfl hb hguards
  · rw [activate_of_created hclient hserver]
  · rw [activate_of_created hclient hserver]

section Created

variable (hclient : (defaults zlib).createCipher n.clientToServerCipherName = some client)
  (hserver : (defaults zlib).createCipher n.serverToClientCipherName = some server)
  (haead : (if fromServer then server else client).mode.isAead = false)

include hclient hserver haead

theorem authenticated_of_macNames (hknown : n.Known (.defaults zlib))
    (hclientAead : client.mode.isAead = false) (hnames : ∀ d, n.macName d ≠ []) :
    Authenticated (.defaults zlib) n before fromServer := by
  intro p secrets weAreServer uses
  obtain ⟨alg, halg⟩ :=
    createMac_of_mem (hknown.mac fromServer) (hnames fromServer)
  obtain ⟨other, hother⟩ :=
    createMac_of_mem (hknown.mac !fromServer) (hnames !fromServer)
  refine ⟨alg, halg, guards_run ?_
    (activate_cipher hclient hserver fromServer) haead n.newCipher_key_ne_nil ?_
    uses⟩
  · rw [activate_of_created hclient hserver]
  · rw [activate_mac hclient hserver hclientAead, halg, hother]
    rfl

theorem macName_ne_nil_of_authenticated (hclientAead : client.mode.isAead = false)
    (hauth : Authenticated (.defaults zlib) n before fromServer) (d : Bool) : n.macName d ≠ [] := by
  intro hnil
  obtain ⟨alg, halg, -⟩ := hauth (Primitives.bare 0 fun _ _ => 0) ⟨[], [], []⟩ fromServer []
  have hnone : (defaults zlib).createMac (n.macName d) = none := by
    rw [hnil, createMac_nil]
  by_cases hd : d = fromServer
  · rw [hd, halg] at hnone
    cases hnone
  -- the other direction has no code, so that this one has no key
  obtain rfl : d = !fromServer := by
    cases d <;> cases fromServer <;> simp_all
  refine not_authenticated hclient hserver haead (some { alg }) (fun p secrets => ?_) hauth
  rw [activate_mac hclient hserver hclientAead, halg, hnone]
  rfl

end Created

/-- The cipher of the client decides for both directions whether there are codes. -/
theorem authenticated_iff (hknown : n.Known (.defaults zlib)) (before : SshCipherContext)
    (fromServer : Bool) :
    ((defaults zlib).isAead (n.cipherName fromServer) = false →
        Authenticated (.defaults zlib) n before fromServer) ↔
      ((defaults zlib).isAead (n.cipherName fromServer) ∨
        (defaults zlib).isAead n.clientToServerCipherName = false ∧
          ∀ d, n.macName d ≠ []) := by
  obtain ⟨client, hclient⟩ : ∃ alg, (defaults zlib).createCipher
      n.clientToServerCipherName = some alg :=
    createCipher_of_mem (hknown.cipher false)
  obtain ⟨server, hserver⟩ : ∃ alg, (defaults zlib).createCipher
      n.serverToClientCipherName = some alg :=
    createCipher_of_mem (hknown.cipher true)
  have hname : (defaults zlib).isAead (n.cipherName fromServer) =
      (if fromServer then server else client).mode.isAead := by
    cases fromServer with
    | false => exact isAead_of_created hclient
    | true => exact isAead_of_created hserver
  rw [hname, isAead_of_created hclient]
  constructor
  · intro hauth
    cases haead : (if fromServer then server else client).mode.isAead with
    | true => exact .inl rfl
    | false =>
      cases hclientAead : client.mode.isAead with
      | true =>
        refine absurd (hauth haead) (not_authenticated hclient hserver haead
          (before.mac fromServer) fun p secrets => ?_)
        exact activate_mac_of_isAead hclient hserver hclientAead fromServer
      | false =>
        exact .inr ⟨rfl, macName_ne_nil_of_authenticated hclient hserver haead hclientAead
          (hauth haead)⟩
  · rintro (haead | ⟨hclientAead, hnames⟩) hnot
    · rw [haead] at hnot
      cases hnot
    · exact authenticated_of_macNames hclient hserver hnot hknown hclientAead hnames

def ctrBothWays : SshNegotiatedAlgorithms where
  kexName := "curve25519-sha256".toList
  kexHashName := "sha256".toList
  hostKeyName := "ssh-ed25519".toList
  clientToServerCipherName := "aes128-ctr".toList
  serverToClientCipherName := "aes256-ctr".toList
  clientToServerMacName := "hmac-sha2-256".toList
  serverToClientMacName := "hmac-sha2-512".toList
  clientToServerCompressionName := "none".toList
  serverToClientCompressionName := "none".toList

theorem authenticated_ctrBothWays :
    ctrBothWays.Known (.defaults false) ∧
      ((defaults false).isAead (ctrBothWays.cipherName true) = false →
        Authenticated (.defaults false) ctrBothWays {} true) := by
  have hknown : ctrBothWays.Known (.defaults false) := ⟨by decide +kernel, by decide +kernel⟩
  exact ⟨hknown, (authenticated_iff hknown {} true).mpr (by decide +kernel)⟩

/-- The server's packets in counter mode, the client's with a tag. -/
def gcmToServer : SshNegotiatedAlgorithms :=
  { ctrBothWays with clientToServerCipherName := "aes128-gcm@openssh.com".toList }

/-- The server sends without a code. -/
theorem not_authenticated_gcmToServer :
    gcmToServer.Known (.defaults false) ∧
      (defaults false).isAead (gcmToServer.cipherName true) = false ∧
      ¬ Authenticated (.defaults false) gcmToServer {} true := by
  refine ⟨⟨by decide +kernel, by decide +kernel⟩, by decide +kernel, ?_⟩
  have hclient : (defaults false).createCipher
      gcmToServer.clientToServerCipherName = some .aes128Gcm := by decide +kernel
  have hserver : (defaults false).createCipher
      gcmToServer.serverToClientCipherName = some .aes256Ctr := by decide +kernel
  exact not_authenticated hclient hserver rfl none fun p secrets =>
    activate_mac_of_isAead hclient hserver rfl true

end Directions

end ServerLib.Ssh

import ServerLib.Lib.Run
import ServerLib.Ssh.Crypto

/-! The context of one side: the ciphers and codes of the two directions, and packets encrypted and
decrypted with them. -/

namespace ServerLib.Ssh

open Lib

structure SshCipherContext where
  active : Bool := false
  weAreServer : Bool := true
  isChacha20 : Bool := false
  clientCipher : Option SshCipher := none
  serverCipher : Option SshCipher := none
  clientMac : Option SshMac := none
  serverMac : Option SshMac := none

namespace SshCipherContext

variable (ctx : SshCipherContext) (fromServer : Bool) (c : SshCipher)

/-- The cipher for what the server or the client sends. -/
def cipher : Option SshCipher :=
  if fromServer then ctx.serverCipher else ctx.clientCipher

def mac : Option SshMac :=
  if fromServer then ctx.serverMac else ctx.clientMac

def outboundCipher : Option SshCipher := ctx.cipher ctx.weAreServer

def inboundCipher : Option SshCipher := ctx.cipher !ctx.weAreServer

def outboundMac : Option SshMac := ctx.mac ctx.weAreServer

def inboundMac : Option SshMac := ctx.mac !ctx.weAreServer

/-- The cipher of a direction is changed where it is. -/
def setCipher : SshCipherContext :=
  if fromServer then { ctx with serverCipher := some c } else { ctx with clientCipher := some c }

@[simp] theorem setCipher_active : (ctx.setCipher fromServer c).active = ctx.active := by
  cases fromServer <;> rfl

@[simp] theorem setCipher_weAreServer :
    (ctx.setCipher fromServer c).weAreServer = ctx.weAreServer := by
  cases fromServer <;> rfl

@[simp] theorem setCipher_isChacha20 :
    (ctx.setCipher fromServer c).isChacha20 = ctx.isChacha20 := by
  cases fromServer <;> rfl

@[simp] theorem setCipher_mac (d : Bool) : (ctx.setCipher fromServer c).mac d = ctx.mac d := by
  cases fromServer <;> rfl

@[simp] theorem setCipher_cipher : (ctx.setCipher fromServer c).cipher fromServer = some c := by
  cases fromServer <;> rfl

@[simp] theorem setCipher_not_cipher :
    (ctx.setCipher (!fromServer) c).cipher fromServer = ctx.cipher fromServer := by
  cases fromServer <;> rfl

def isAead : Bool :=
  ctx.active && ctx.outboundCipher.any fun c => c.mode.isAead

def blockSize : Nat :=
  if ctx.active then ctx.outboundCipher.elim 8 fun c => c.mode.blockSize else 8

def macSize : Nat :=
  if ctx.active then ctx.outboundMac.elim 0 SshMac.digestSize else 0

def tagSize : Nat :=
  if ctx.active then ctx.outboundCipher.elim 0 fun c => c.mode.tagSize else 0

section Sizes

variable {ctx : SshCipherContext} {c : SshCipher} {mac : SshMac}

theorem isAead_eq (hactive : ctx.active) (h : ctx.outboundCipher = some c) :
    ctx.isAead = c.mode.isAead := by
  rw [isAead, hactive, h]
  rfl

theorem blockSize_eq (hactive : ctx.active) (h : ctx.outboundCipher = some c) :
    ctx.blockSize = c.mode.blockSize := by
  rw [blockSize, if_pos hactive, h]
  rfl

theorem macSize_eq (hactive : ctx.active) (h : ctx.outboundMac = some mac) :
    ctx.macSize = mac.digestSize := by
  rw [macSize, if_pos hactive, h]
  rfl

theorem tagSize_eq (hactive : ctx.active) (h : ctx.outboundCipher = some c) :
    ctx.tagSize = c.mode.tagSize := by
  rw [tagSize, if_pos hactive, h]
  rfl

end Sizes

end SshCipherContext

namespace SshNegotiatedAlgorithms

variable (n : SshNegotiatedAlgorithms)

variable (p : Primitives) (secrets : Secrets) (fromServer : Bool)

def cipherName : Text :=
  if fromServer then n.serverToClientCipherName else n.clientToServerCipherName

def macName : Text :=
  if fromServer then n.serverToClientMacName else n.clientToServerMacName

/-- The names of the ciphers and codes are registered. -/
structure Known (registry : SshAlgorithmRegistry) : Prop where
  cipher : ∀ fromServer, n.cipherName fromServer ∈ registry.cipherNames
  mac : ∀ fromServer, n.macName fromServer ∈ registry.macNames

def keyOf (letter : Char) (length : Nat) : Bytes :=
  deriveKey p secrets letter length n.hashName

def newCipher (alg : CipherAlg) : SshCipher where
  alg
  key := n.keyOf p secrets (if fromServer then 'D' else 'C') alg.keySize
  iv := n.keyOf p secrets (if fromServer then 'B' else 'A') alg.mode.ivSize

def newMac (alg : MacAlg) : SshMac where
  alg
  key := n.keyOf p secrets (if fromServer then 'F' else 'E') alg.keySize

theorem newCipher_key_ne_nil {p : Primitives} {secrets : Secrets} {fromServer : Bool}
    {alg : CipherAlg} : (n.newCipher p secrets fromServer alg).key ≠ [] := by
  intro hnil
  have hlength : (n.newCipher p secrets fromServer alg).key.length = alg.keySize :=
    length_deriveKey _ _ _ _ _
  rw [hnil] at hlength
  cases alg <;> cases hlength

end SshNegotiatedAlgorithms

namespace SshCipherContext

variable (p : Primitives)

/-- The codes get keys only if there are two. -/
def createMacs (n : SshNegotiatedAlgorithms) (secrets : Secrets)
    (registry : SshAlgorithmRegistry) : Option SshMac × Option SshMac :=
  match registry.createMac n.clientToServerMacName, registry.createMac n.serverToClientMacName with
  | some client, some server =>
    (some (n.newMac p secrets false client), some (n.newMac p secrets true server))
  | client, server => (client.map fun alg => { alg }, server.map fun alg => { alg })

variable (ctx : SshCipherContext)

/-- Codes are made if the cipher of the client has no tag. -/
def activate (n : SshNegotiatedAlgorithms) (secrets : Secrets) (weAreServer : Bool)
    (registry : Option SshAlgorithmRegistry) : SshCipherContext :=
  let ctx := { ctx with
    weAreServer
    isChacha20 := n.clientToServerCipherName = CipherAlg.chacha20Poly1305.name ∨
      n.serverToClientCipherName = CipherAlg.chacha20Poly1305.name }
  match registry with
  | none => ctx
  | some registry =>
    match registry.createCipher n.clientToServerCipherName,
      registry.createCipher n.serverToClientCipherName with
    | some client, some server =>
      let macs := if client.mode.isAead then (ctx.clientMac, ctx.serverMac)
        else createMacs p n secrets registry
      { ctx with
        clientCipher := some (n.newCipher p secrets false client)
        serverCipher := some (n.newCipher p secrets true server)
        clientMac := macs.1
        serverMac := macs.2
        active := true }
    | client, server => { ctx with
        clientCipher := client.map fun alg => { alg }
        serverCipher := server.map fun alg => { alg } }

section Activated

variable {p : Primitives} {ctx : SshCipherContext} {n : SshNegotiatedAlgorithms}
  {weAreServer : Bool} {registry : SshAlgorithmRegistry}

variable (hclient : registry.createCipher n.clientToServerCipherName = some client)
  (hserver : registry.createCipher n.serverToClientCipherName = some server)

include hclient hserver

theorem activate_of_created :
    ctx.activate p n secrets weAreServer (some registry) =
      { active := true
        weAreServer
        isChacha20 := n.clientToServerCipherName = CipherAlg.chacha20Poly1305.name ∨
          n.serverToClientCipherName = CipherAlg.chacha20Poly1305.name
        clientCipher := some (n.newCipher p secrets false client)
        serverCipher := some (n.newCipher p secrets true server)
        clientMac := if client.mode.isAead then ctx.clientMac
          else (createMacs p n secrets registry).1
        serverMac := if client.mode.isAead then ctx.serverMac
          else (createMacs p n secrets registry).2 } := by
  simp only [activate, hclient, hserver]
  cases client.mode.isAead with
  | false | true => rfl

theorem activate_cipher (fromServer : Bool) :
    (ctx.activate p n secrets weAreServer (some registry)).cipher fromServer =
      some (n.newCipher p secrets fromServer (if fromServer then server else client)) := by
  rw [activate_of_created hclient hserver]
  cases fromServer with
  | false | true => rfl

theorem activate_mac_of_isAead (haead : client.mode.isAead) (fromServer : Bool) :
    (ctx.activate p n secrets weAreServer (some registry)).mac fromServer =
      ctx.mac fromServer := by
  rw [activate_of_created hclient hserver, if_pos haead, if_pos haead]
  cases fromServer with
  | false | true => rfl

theorem activate_mac (haead : client.mode.isAead = false) (fromServer : Bool) :
    (ctx.activate p n secrets weAreServer (some registry)).mac fromServer =
      (registry.createMac (n.macName fromServer)).map fun alg =>
        if (registry.createMac (n.macName !fromServer)).isSome then
          n.newMac p secrets fromServer alg
        else { alg } := by
  rw [activate_of_created hclient hserver, haead, createMacs]
  cases fromServer with
  | false =>
    simp only [mac, SshNegotiatedAlgorithms.macName, Bool.false_eq_true, Bool.not_false, if_true,
      if_false]
    cases registry.createMac n.clientToServerMacName <;>
      cases registry.createMac n.serverToClientMacName <;> rfl
  | true =>
    simp only [mac, SshNegotiatedAlgorithms.macName, Bool.false_eq_true, Bool.not_true, if_true,
      if_false]
    cases registry.createMac n.clientToServerMacName <;>
      cases registry.createMac n.serverToClientMacName <;> rfl

end Activated

variable (seq : UInt32) (data : Bytes)

def encryptPacket : Bytes × SshCipherContext :=
  if ctx.active then
    match ctx.outboundCipher with
    | none => (data, ctx)
    | some c =>
      if c.mode.isAead then
        (c.encryptAead p (writeU32 (UInt32.ofNat data.length)) data seq, ctx)
      else
        let out := c.encrypt p data
        (out.1 ++ ctx.outboundMac.elim [] fun mac => mac.compute p seq data,
          ctx.setCipher ctx.weAreServer out.2)
  else (data, ctx)

/-- With ChaCha20 in one of the directions the length is in front, otherwise it is not. -/
def decryptWithTag (c : SshCipher) (seq : UInt32) (data : Bytes) : Option Bytes :=
  let tagLen := c.mode.tagSize
  if ctx.isChacha20 then
    if data.length < 4 + tagLen then none
    else
      let text := data.drop 4
      c.decryptAead p (data.take 4) (text.take (text.length - tagLen))
        (text.drop (text.length - tagLen)) seq
  else if data.length < tagLen then none
  else
    let textLen := data.length - tagLen
    c.decryptAead p (writeU32 (UInt32.ofNat textLen)) (data.take textLen) (data.drop textLen) seq

/-- Without a code for the direction nothing is verified. -/
def decryptPacket : Option Bytes × SshCipherContext :=
  if ctx.active then
    match ctx.inboundCipher with
    | none => (some data, ctx)
    | some c =>
      if c.mode.isAead then (ctx.decryptWithTag p c seq data, ctx)
      else
        let macLen := ctx.inboundMac.elim 0 SshMac.digestSize
        if data.length < macLen then (none, ctx)
        else
          let out := c.decrypt p (data.take (data.length - macLen))
          let ctx' := ctx.setCipher (!ctx.weAreServer) out.2
          if out.1 = [] then (none, ctx')
          else if ∀ mac ∈ ctx.inboundMac,
              mac.verify p seq out.1 (data.drop (data.length - macLen)) then
            (some out.1, ctx')
          else (none, ctx')
  else (some data, ctx)

section CounterMode

variable {p} {ctx : SshCipherContext}

theorem encryptPacket_of_not_isAead (hactive : ctx.active) (hcipher : ctx.outboundCipher = some c)
    (haead : c.mode.isAead = false) (hkey : c.key ≠ []) (seq : UInt32) (data : Bytes) :
    (ctx.encryptPacket p seq data).1 = mask (p.aesCtr c.key c.iv) c.encPos data ++
      ctx.outboundMac.elim [] fun mac => mac.compute p seq data := by
  simp only [encryptPacket, hactive, if_true, hcipher, haead, Bool.false_eq_true, if_false,
    SshCipher.encrypt, if_neg hkey]

theorem decryptPacket_of_not_isAead {c : SshCipher} (hactive : ctx.active)
    (hcipher : ctx.inboundCipher = some c) (haead : c.mode.isAead = false) (hkey : c.key ≠ [])
    {mac : SshMac} (hmac : ctx.inboundMac = some mac) {seq : UInt32} {data payload : Bytes}
    (h : (ctx.decryptPacket p seq data).1 = some payload) :
    mac.digestSize ≤ data.length ∧
      payload = mask (p.aesCtr c.key c.iv) c.decPos (data.take (data.length - mac.digestSize)) ∧
      mac.compute p seq payload = data.drop (data.length - mac.digestSize) := by
  simp only [decryptPacket, hactive, if_true, hcipher, haead, Bool.false_eq_true, if_false,
    SshCipher.decrypt, if_neg hkey, hmac, Option.elim_some, Option.mem_some_iff, forall_eq'] at h
  split at h
  · cases h
  split at h
  · cases h
  · split at h
    · rename_i hlen _ hverify
      cases h
      exact ⟨Nat.le_of_not_lt hlen, rfl, hverify⟩
    · cases h

end CounterMode

def tryDecryptPacketLength : Option UInt32 := do
  guard (ctx.active ∧ 4 ≤ data.length)
  let c ← ctx.inboundCipher
  let encLength := if ctx.isChacha20 then data.take 4 else data
  let decLength ← c.decryptLength p encLength seq
  let (packetLength, _) ← readU32 decLength
  return packetLength

variable {p} in
theorem tryDecryptPacketLength_eq {ctx : SshCipherContext} {c : SshCipher} (hactive : ctx.active)
    (hin : ctx.inboundCipher = some c) (seq : UInt32) {data : Bytes} (hlen : 4 ≤ data.length) :
    ctx.tryDecryptPacketLength p seq data =
      (c.decryptLength p (if ctx.isChacha20 then data.take 4 else data) seq).bind
        fun decLength => (readU32 decLength).map Prod.fst := by
  simp only [tryDecryptPacketLength, hactive, hin, hlen, and_self, guard_true, pure_bind,
    Option.map_eq_bind]
  rfl

end SshCipherContext

end ServerLib.Ssh

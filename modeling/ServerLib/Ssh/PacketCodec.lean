import ServerLib.Lib.Stream
import ServerLib.Ssh.CipherContext

/-! Packets on the wire: with padding, encrypted, and taken off the bytes that have come. -/

namespace ServerLib.Ssh

open Lib

def sshMaxPacketSize : Nat := 350 * 1024

def kMinPadding : Nat := 4

def kMaxPadding : Nat := 255

def calculatePadding (payloadLen blockSize : Nat) : Nat :=
  let unpadded := 4 + 1 + payloadLen
  let pad := blockSize - unpadded % blockSize
  let pad := if pad < kMinPadding then pad + blockSize else pad
  if pad > kMaxPadding then kMinPadding else pad

namespace SshPacketCodec

variable (p : Primitives)

variable (ctx : SshCipherContext) (seq : UInt32)

/-- The length, the padding's length, the payload and the padding. -/
def plaintext (payload : Bytes) : Bytes :=
  let paddingLen := calculatePadding payload.length ctx.blockSize
  let padding := if ctx.active then List.replicate paddingLen 0
    else (List.range paddingLen).map UInt8.ofNat
  writeU32 (UInt32.ofNat (1 + payload.length + paddingLen)) ++
    UInt8.ofNat paddingLen :: (payload ++ padding)

/-- What is encrypted.  An AEAD cipher does not get the length. -/
def encryptedPart (payload : Bytes) : Bytes :=
  if ctx.isAead then (plaintext ctx payload).drop 4 else plaintext ctx payload

def encode (payload : Bytes) : Bytes × SshCipherContext :=
  let plain := plaintext ctx payload
  if ctx.active then
    let out := ctx.encryptPacket p seq (encryptedPart ctx payload)
    (if ctx.isChacha20 then out.1 else if ctx.isAead then plain.take 4 ++ out.1 else out.1, out.2)
  else (plain, ctx)

inductive ParseResult
  | incomplete
  | invalid
  | complete (totalBytes : Nat)

/-- The length is known, and so are the bytes after the packet. -/
def withLength (buf : Bytes) (trailer : Nat) : Option UInt32 → ParseResult
  | none => .incomplete
  | some packetLength =>
    if packetLength.toNat > sshMaxPacketSize then .invalid
    else if buf.length < 4 + packetLength.toNat + trailer then .incomplete
    else .complete (4 + packetLength.toNat + trailer)

def tryParse (buf : Bytes) : ParseResult :=
  if ctx.active then
    if ctx.isChacha20 then
      if buf.length < 4 + ctx.tagSize then .incomplete
      else withLength buf ctx.tagSize (ctx.tryDecryptPacketLength p seq buf)
    else if ctx.isAead then withLength buf ctx.tagSize ((readU32 buf).map Prod.fst)
    else
      let previewLen := max ctx.blockSize 4
      if buf.length < previewLen then .incomplete
      else withLength buf ctx.macSize (ctx.tryDecryptPacketLength p seq (buf.take previewLen))
  else withLength buf 0 ((readU32 buf).map Prod.fst)

/-- The padding's length is the first byte. -/
def stripPadding : Bytes → Option Bytes
  | [] => none
  | paddingLen :: rest =>
    if rest.length < paddingLen.toNat then none
    else some (rest.take (rest.length - paddingLen.toNat))

/-- The payload of a packet that was encrypted with its length. -/
def payloadOf (decrypted : Bytes) : Option Bytes := do
  let (packetLength, rest) ← readU32 decrypted
  guard (packetLength.toNat ≤ sshMaxPacketSize ∧ rest.length = packetLength.toNat)
  stripPadding rest

def decode (data : Bytes) : Option Bytes × SshCipherContext :=
  match readU32 data with
  | none => (none, ctx)
  | some (packetLength, rest) =>
    if ctx.active then
      if ctx.isChacha20 then
        let out := ctx.decryptPacket p seq data
        (out.1.bind stripPadding, out.2)
      else if ctx.isAead then
        if packetLength.toNat > sshMaxPacketSize then (none, ctx)
        else
          let out := ctx.decryptPacket p seq rest
          (out.1.bind stripPadding, out.2)
      else if data.length < 4 + ctx.macSize then (none, ctx)
      else
        let out := ctx.decryptPacket p seq data
        (out.1.bind payloadOf, out.2)
    else if packetLength.toNat > sshMaxPacketSize ∨ rest.length < packetLength.toNat then
      (none, ctx)
    else (stripPadding (rest.take packetLength.toNat), ctx)

/-- The bytes for several payloads, with one number after the other. -/
def encodeAll : SshCipherContext → UInt32 → List Bytes → Bytes
  | _, _, [] => []
  | ctx, seq, payload :: payloads =>
    let out := encode p ctx seq payload
    out.1 ++ encodeAll out.2 (seq + 1) payloads

/-- The next packet.  After one that is invalid or that cannot be decoded nothing is read. -/
def nextPacket : Pull (SshCipherContext × UInt32) UInt8 Bytes := fun (ctx, seq) buf =>
  match tryParse p ctx seq buf with
  | .complete totalBytes =>
    match decode p ctx seq (buf.take totalBytes) with
    | (some payload, ctx') => some (payload, (ctx', seq + 1), buf.drop totalBytes)
    | (none, _) => none
  | _ => none

def received (chunks : List Bytes) : List Bytes :=
  (run (feed (nextPacket p)) ⟨(ctx, seq), [], []⟩ chunks).out

end SshPacketCodec

end ServerLib.Ssh

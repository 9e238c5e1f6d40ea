import ServerLib.Lib.HostBytes
import ServerLib.Lib.Stream

/-! Frames of the remote procedure calls: how messages and responses are written, once to bytes
and once to a `ByteBuffer`, and how frames are read. -/

namespace ServerLib.Rpc

open Lib

abbrev Bytes := List UInt8

/-! ### Types

An `enum class` with an underlying type has all values of that type, named or not. -/

structure Serialization where
  code : UInt8
deriving DecidableEq

namespace Serialization

def raw : Serialization := ⟨0⟩

end Serialization

structure Compression where
  code : UInt8
deriving DecidableEq

namespace Compression

def none : Compression := ⟨0⟩

end Compression

structure Encryption where
  code : UInt8
deriving DecidableEq

namespace Encryption

def none : Encryption := ⟨0⟩

def xorStream : Encryption := ⟨1⟩

def aes128Gcm : Encryption := ⟨2⟩

end Encryption

structure MessageKind where
  code : UInt8
deriving DecidableEq

namespace MessageKind

def request : MessageKind := ⟨0⟩

def response : MessageKind := ⟨1⟩

def push : MessageKind := ⟨2⟩

end MessageKind

structure RpcStatus where
  code : UInt16
deriving DecidableEq

namespace RpcStatus

def ok : RpcStatus := ⟨0⟩

def timeout : RpcStatus := ⟨2⟩

def canceled : RpcStatus := ⟨3⟩

end RpcStatus

structure Route where
  service : UInt32 := 0
  method : UInt32 := 0
  name : String := ""
deriving DecidableEq

abbrev Metadata := List (String × String)

structure Message where
  kind : MessageKind := .request
  requestId : UInt64 := 0
  coroutineId : UInt64 := 0
  connectionId : UInt64 := 0
  sessionId : UInt64 := 0
  peerServiceId : UInt64 := 0
  authToken : UInt64 := 0
  route : Route := {}
  serialization : Serialization := .raw
  compression : Compression := .none
  encryption : Encryption := .none
  keyId : UInt32 := 0
  nonce : UInt64 := 0
  flags : UInt32 := 0
  metadata : Metadata := []
  payload : Bytes := []

structure Response where
  requestId : UInt64 := 0
  coroutineId : UInt64 := 0
  connectionId : UInt64 := 0
  sessionId : UInt64 := 0
  peerServiceId : UInt64 := 0
  authToken : UInt64 := 0
  status : RpcStatus := .ok
  error : String := ""
  serialization : Serialization := .raw
  compression : Compression := .none
  encryption : Encryption := .none
  keyId : UInt32 := 0
  nonce : UInt64 := 0
  flags : UInt32 := 0
  metadata : Metadata := []
  payload : Bytes := []
deriving DecidableEq

structure FrameHeader where
  kind : MessageKind := .request
  requestId : UInt64 := 0
  coroutineId : UInt64 := 0
  status : RpcStatus := .ok
  serialization : Serialization := .raw
  compression : Compression := .none
  encryption : Encryption := .none
  keyId : UInt32 := 0
  nonce : UInt64 := 0
  sessionId : UInt64 := 0
  peerServiceId : UInt64 := 0
  authToken : UInt64 := 0
  flags : UInt32 := 0
  service : UInt32 := 0
  method : UInt32 := 0
  payloadSize : UInt32 := 0
deriving DecidableEq

structure DecodedFrame where
  header : FrameHeader
  payload : Bytes
deriving DecidableEq

structure CryptoContext where
  encryption : Encryption
  keyId : UInt32
  nonce : UInt64
  kind : MessageKind
  requestId : UInt64

abbrev Cipher := CryptoContext → Bytes → Option Bytes

structure EncodeOptions where
  encrypt : Option Cipher := none

structure DecodeOptions where
  maxFrameSize : UInt32 := 64 * 1024 * 1024
  decrypt : Option Cipher := none

inductive DecodeError
  | needMore
  | badMagic
  | unsupportedVersion
  | frameTooLarge
  | malformed
deriving DecidableEq

def magic : UInt32 := 0x59525043

def version : UInt8 := 1

def headerSize : Nat := 84

def FrameHeader.context (header : FrameHeader) : CryptoContext :=
  { encryption := header.encryption
    keyId := header.keyId
    nonce := header.nonce
    kind := header.kind
    requestId := header.requestId }

def appendU8 (v : UInt8) : Bytes := hostBytes 1 v.toNat

def appendU16 (v : UInt16) : Bytes := hostBytes 2 (hostToNetwork 2 v.toNat)

def appendU32 (v : UInt32) : Bytes := hostBytes 4 (hostToNetwork 4 v.toNat)

def appendU64 (v : UInt64) : Bytes := hostBytes 8 (hostToNetwork 8 v.toNat)

theorem appendU8_eq (v : UInt8) : appendU8 v = [v] := by
  simp [appendU8, hostBytes]

theorem appendU16_eq (v : UInt16) : appendU16 v = writeU16 v := by
  rw [appendU16, hostBytes_hostToNetwork]
  rfl

theorem appendU32_eq (v : UInt32) : appendU32 v = writeU32 v := by
  rw [appendU32, hostBytes_hostToNetwork, reverse_hostBytes_four]

theorem ofNat_mod_div (v k : Nat) (hk : k ≤ 24) :
    UInt8.ofNat (v % 2 ^ 32 / 2 ^ k) = UInt8.ofNat (v / 2 ^ k) := by
  apply UInt8.toNat_inj.mp
  rw [UInt8.toNat_ofNat', UInt8.toNat_ofNat']
  have hsplit : 2 ^ 32 = 2 ^ k * (2 ^ 8 * 2 ^ (24 - k)) := by
    rw [← pow_add, ← pow_add]
    congr 1
    omega
  rw [hsplit, Nat.mod_mul_right_div_self, Nat.mod_mul_right_mod]

theorem appendU64_eq (v : UInt64) : appendU64 v = writeU64 v := by
  have hhigh : v.toNat / 2 ^ 32 % 2 ^ 32 = v.toNat / 2 ^ 32 := by
    have := v.toNat_lt
    omega
  have h8 := ofNat_mod_div v.toNat 8 (by decide)
  have h16 := ofNat_mod_div v.toNat 16 (by decide)
  have h24 := ofNat_mod_div v.toNat 24 (by decide)
  have h0 := ofNat_mod_div v.toNat 0 (by decide)
  simp only [pow_zero, Nat.div_one] at h0
  rw [appendU64, hostBytes_hostToNetwork]
  simp only [hostBytes, Nat.div_div_eq_div_mul, ← pow_add, writeU64, writeU32,
    UInt32.toNat_ofNat', hhigh, h0, h8, h16, h24]
  rfl

/-- The bytes before the body, with the writers that are given.  The size of the body stands in
them twice, the second time for the size of the payload. -/
def writeHeader (u8 : UInt8 → Bytes) (u16 : UInt16 → Bytes) (u32 : UInt32 → Bytes)
    (u64 : UInt64 → Bytes) (header : FrameHeader) (bodySize : UInt32) : Bytes :=
  List.flatten
    [u32 magic, u8 version, u8 header.kind.code, u8 header.serialization.code,
      u8 header.compression.code, u16 header.status.code, u16 header.encryption.code.toUInt16,
      u32 bodySize, u64 header.requestId, u32 header.service, u32 header.method, u32 bodySize,
      u64 header.sessionId, u64 header.peerServiceId, u64 header.authToken, u32 header.flags,
      u64 header.nonce, u64 header.coroutineId, u32 header.keyId]

def headerToBytes : FrameHeader → UInt32 → Bytes :=
  writeHeader (fun b => [b]) writeU16 writeU32 writeU64

def headerToBuffer : FrameHeader → UInt32 → Bytes :=
  writeHeader appendU8 appendU16 appendU32 appendU64

theorem headerToBuffer_eq : headerToBuffer = headerToBytes := by
  rw [headerToBuffer, funext appendU8_eq, funext appendU16_eq, funext appendU32_eq,
    funext appendU64_eq]
  rfl

variable (message : Message) (options : EncodeOptions) (response : Response)

/-- The part that `encode_frame` and `encode_frame_to_buffer` have in common. -/
def encodeBody (header : FrameHeader) (payload : Bytes) : Option Bytes :=
  if 2 ^ 32 ≤ payload.length then none
  else if header.encryption = .none then some payload
  else
    match options.encrypt with
    | none => none
    | some encrypt =>
      (encrypt header.context payload).filter fun body => body.length < 2 ^ 32

/-- The metadata, the name of the route and the error are not written. -/
def encodeFrame (header : FrameHeader) (_metadata : Metadata) (_routeName _error : String)
    (payload : Bytes) (options : EncodeOptions) : Option Bytes :=
  (encodeBody options header payload).map fun body =>
    headerToBytes header (UInt32.ofNat body.length) ++ body

def encodeFrameToBuffer (header : FrameHeader) (payload : Bytes) (options : EncodeOptions) :
    Option Bytes :=
  (encodeBody options header payload).map fun body =>
    headerToBuffer header (UInt32.ofNat body.length) ++ body

def Message.header : FrameHeader :=
  { kind := message.kind
    requestId := message.requestId
    coroutineId := message.coroutineId
    serialization := message.serialization
    compression := message.compression
    encryption := message.encryption
    keyId := message.keyId
    nonce := message.nonce
    sessionId := message.sessionId
    peerServiceId := message.peerServiceId
    authToken := message.authToken
    flags := message.flags
    service := message.route.service
    method := message.route.method }

def Response.header : FrameHeader :=
  { kind := .response
    requestId := response.requestId
    coroutineId := response.coroutineId
    status := response.status
    serialization := response.serialization
    compression := response.compression
    encryption := response.encryption
    keyId := response.keyId
    nonce := response.nonce
    sessionId := response.sessionId
    peerServiceId := response.peerServiceId
    authToken := response.authToken
    flags := response.flags }

def encodeMessage : Option Bytes :=
  encodeFrame message.header message.metadata message.route.name "" message.payload options

def encodeResponse (options : EncodeOptions) : Option Bytes :=
  encodeFrame response.header response.metadata "" response.error response.payload options

def encodeMessageToBuffer : Option Bytes :=
  encodeFrameToBuffer message.header message.payload options

def encodeResponseToBuffer (options : EncodeOptions) : Option Bytes :=
  encodeFrameToBuffer response.header response.payload options

/-- The fields up to the size of the body. -/
structure Lead where
  kind : UInt8
  serialization : UInt8
  compression : UInt8
  status : UInt16
  encryption : UInt16
  bodySize : UInt32

def readLead : Reader Lead := do
  let kind ← readU8
  let serialization ← readU8
  let compression ← readU8
  let status ← readU16
  let encryption ← readU16
  let bodySize ← readU32
  return { kind, serialization, compression, status, encryption, bodySize }

/-- The fields after the size of the body.  The number for the encryption is cut to its eight
bits. -/
def readHeader (lead : Lead) : Reader FrameHeader := do
  let requestId ← readU64
  let service ← readU32
  let method ← readU32
  let payloadSize ← readU32
  let sessionId ← readU64
  let peerServiceId ← readU64
  let authToken ← readU64
  let flags ← readU32
  let nonce ← readU64
  let coroutineId ← readU64
  let keyId ← readU32
  return {
    kind := ⟨lead.kind⟩
    serialization := ⟨lead.serialization⟩
    compression := ⟨lead.compression⟩
    encryption := ⟨lead.encryption.toUInt8⟩
    status := ⟨lead.status⟩
    requestId, service, method, payloadSize, sessionId, peerServiceId, authToken, flags, nonce
    coroutineId, keyId }

/-- The payload from the body of a frame. -/
def openBody (options : DecodeOptions) (header : FrameHeader) (body : Bytes) :
    Except DecodeError Bytes :=
  if header.encryption = .none then
    if header.payloadSize.toNat ≠ body.length then .error .malformed else .ok body
  else
    match options.decrypt with
    | none => .error .malformed
    | some decrypt =>
      match decrypt header.context body with
      | none => .error .malformed
      | some plain =>
        if plain.length ≠ header.payloadSize.toNat then .error .malformed else .ok plain

/-- What follows the size of the body, in data of `size` bytes. -/
def decodeFields (options : DecodeOptions) (size : Nat) (lead : Lead) (rest : Bytes) :
    Except DecodeError (DecodedFrame × Nat) :=
  if options.maxFrameSize < lead.bodySize then .error .frameTooLarge
  else if size < headerSize + lead.bodySize.toNat then .error .needMore
  else
    match readHeader lead rest with
    | none => .error .malformed
    | some (header, body) =>
      (openBody options header (body.take lead.bodySize.toNat)).map fun payload =>
        (⟨header, payload⟩, headerSize + lead.bodySize.toNat)

/-- The frame at the front of the data, and how many bytes it takes. -/
def decodeFrame (data : Bytes) (options : DecodeOptions) :
    Except DecodeError (DecodedFrame × Nat) :=
  if data.length < headerSize then .error .needMore
  else
    match readU32 data with
    | none => .error .badMagic
    | some (gotMagic, rest) =>
      if gotMagic ≠ magic then .error .badMagic
      else
        match readU8 rest with
        | none => .error .unsupportedVersion
        | some (gotVersion, rest) =>
          if gotVersion ≠ version then .error .unsupportedVersion
          else
            match readLead rest with
            | none => .error .malformed
            | some (lead, rest) => decodeFields options data.length lead rest

theorem consumed_of_decodeFrame {options : DecodeOptions}
    (h : decodeFrame data options = .ok (frame, consumed)) :
    headerSize ≤ consumed ∧ consumed ≤ data.length := by
  have hfields : ∃ lead rest,
      decodeFields options data.length lead rest = .ok (frame, consumed) := by
    rw [decodeFrame] at h
    repeat' split at h
    all_goals first
      | cases h
      | exact ⟨_, _, h⟩
  obtain ⟨lead, rest, hfields⟩ := hfields
  rw [decodeFields] at hfields
  split at hfields
  · cases hfields
  split at hfields
  · cases hfields
  rename_i hsize
  split at hfields
  · cases hfields
  cases hbody : openBody options _ (List.take lead.bodySize.toNat _) with
  | error error =>
    rw [hbody] at hfields
    cases hfields
  | ok payload =>
    rw [hbody] at hfields
    cases hfields
    exact ⟨Nat.le_add_right _ _, Nat.le_of_not_lt hsize⟩

def toMessage (frame : DecodedFrame) : Message :=
  { kind := frame.header.kind
    requestId := frame.header.requestId
    coroutineId := frame.header.coroutineId
    connectionId := 0
    sessionId := frame.header.sessionId
    peerServiceId := frame.header.peerServiceId
    authToken := frame.header.authToken
    flags := frame.header.flags
    route := { service := frame.header.service, method := frame.header.method }
    serialization := frame.header.serialization
    compression := frame.header.compression
    encryption := frame.header.encryption
    keyId := frame.header.keyId
    nonce := frame.header.nonce
    payload := frame.payload }

def toResponse (frame : DecodedFrame) : Response :=
  { requestId := frame.header.requestId
    coroutineId := frame.header.coroutineId
    sessionId := frame.header.sessionId
    peerServiceId := frame.header.peerServiceId
    authToken := frame.header.authToken
    flags := frame.header.flags
    status := frame.header.status
    serialization := frame.header.serialization
    compression := frame.header.compression
    encryption := frame.header.encryption
    keyId := frame.header.keyId
    nonce := frame.header.nonce
    payload := frame.payload }

structure FrameStreamDecoder where
  options : DecodeOptions
  buffer : Bytes := []

namespace FrameStreamDecoder

variable (decoder : FrameStreamDecoder)

def append (data : Bytes) : FrameStreamDecoder :=
  { decoder with buffer := decoder.buffer ++ data }

/-- The result, and the decoder without the bytes of the frame. -/
def next : Except DecodeError DecodedFrame × FrameStreamDecoder :=
  match decodeFrame decoder.buffer decoder.options with
  | .error error => (.error error, decoder)
  | .ok (frame, consumed) =>
    (.ok frame, { decoder with buffer := decoder.buffer.drop consumed })

def clear : FrameStreamDecoder := { decoder with buffer := [] }

end FrameStreamDecoder

end ServerLib.Rpc

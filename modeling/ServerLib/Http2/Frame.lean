import Mathlib.Data.Nat.Basic

/-! Frames, as in `types.h` and `frame_codec.cpp`.  The `length` of a frame's header is the size of
its payload, in the frames that `try_decode` returns and in those that the session makes. -/

namespace ServerLib.Http2

/-- A `FrameType`, where `other` is a code without a name. -/
inductive FrameType
  | data
  | headers
  | priority
  | rstStream
  | settings
  | pushPromise
  | ping
  | goaway
  | windowUpdate
  | continuation
  | other (code : UInt8)
deriving DecidableEq

inductive ErrorCode
  | noError
  | protocolError
  | internalError
  | flowControlError
  | settingsTimeout
  | streamClosed
  | frameSizeError
  | refusedStream
  | cancel
  | compressionError
  | connectError
  | enhanceYourCalm
  | inadequateSecurity
  | http11Required
deriving DecidableEq

def ErrorCode.code : ErrorCode → Nat
  | noError => 0x0
  | protocolError => 0x1
  | internalError => 0x2
  | flowControlError => 0x3
  | settingsTimeout => 0x4
  | streamClosed => 0x5
  | frameSizeError => 0x6
  | refusedStream => 0x7
  | cancel => 0x8
  | compressionError => 0x9
  | connectError => 0xa
  | enhanceYourCalm => 0xb
  | inadequateSecurity => 0xc
  | http11Required => 0xd

def flagNone : UInt8 := 0x00
def flagEndStream : UInt8 := 0x01
def flagAck : UInt8 := 0x01
def flagEndHeaders : UInt8 := 0x04

structure Frame where
  type : FrameType
  flags : UInt8
  streamId : Nat
  payload : List UInt8
deriving DecidableEq

namespace Frame

def length (f : Frame) : Nat := f.payload.length

def has (f : Frame) (flag : UInt8) : Bool := f.flags &&& flag != 0

end Frame

/-- The bytes of a 32-bit number, with the most significant byte first and `mask` put over it. -/
def fourBytes (mask value : Nat) : List UInt8 :=
  [UInt8.ofNat ((value >>> 24) &&& mask), UInt8.ofNat ((value >>> 16) &&& 0xff),
    UInt8.ofNat ((value >>> 8) &&& 0xff), UInt8.ofNat (value &&& 0xff)]

def readU32 (a b c d : UInt8) : Nat :=
  (a.toNat <<< 24) ||| (b.toNat <<< 16) ||| (c.toNat <<< 8) ||| d.toNat

namespace FrameCodec

def makeSettingsAck : Frame := ⟨.settings, flagAck, 0, []⟩

def makePingAck (ping : Frame) : Frame :=
  ⟨.ping, flagAck, 0, (ping.payload ++ List.replicate 8 0).take 8⟩

def makeGoaway (error : ErrorCode) (lastStreamId : Nat) : Frame :=
  ⟨.goaway, flagNone, 0, fourBytes 0x7f lastStreamId ++ fourBytes 0xff error.code⟩

end FrameCodec

/-- The RST_STREAM frame that the session makes in three places. -/
def makeRstStream (streamId : Nat) (error : ErrorCode) : Frame :=
  ⟨.rstStream, flagNone, streamId, fourBytes 0xff error.code⟩

end ServerLib.Http2

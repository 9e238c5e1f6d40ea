import ServerLib.Lib.HostBytes

/-! The frames of a WebSocket, and how `WebSocketPacketParser` packs messages in them. -/

namespace ServerLib.WebSocket

open Lib Option

abbrev Bytes := List UInt8

/-- `OpCodeType`.  All but `continuation` are values of `PacketType`, too. -/
inductive OpCode
  | continuation
  | text
  | binary
  | close
  | ping
  | pong
deriving DecidableEq

def OpCode.code : OpCode → UInt8
  | .continuation => 0x00
  | .text => 0x01
  | .binary => 0x02
  | .close => 0x08
  | .ping => 0x09
  | .pong => 0x0a

def OpCode.isControl : OpCode → Bool
  | .close | .ping | .pong => true
  | _ => false

def packetMaxByte : Nat := 1024 * 1024

abbrev Mask := Fin 4 → UInt8

def applyMask (mask : Mask) (data : Bytes) : Bytes :=
  data.mapIdx fun i b => b ^^^ mask (Fin.ofNat 4 i)

/-- `opcode`, `fin` and `rsv` are the fields of `ControlCode`. -/
structure ProtoHead where
  fin : Bool := false
  rsv : Bool := false
  opcode : UInt8 := 0
  needMask : Bool := false
  maskingKey : Mask := fun _ => 0
  extendPayLoadLen : Nat := 0

structure ProtoChunk where
  head : ProtoHead := {}
  hasSetHead : Bool := false
  body : Bytes := []

def ProtoChunk.isCompleted (chunk : ProtoChunk) : Bool :=
  chunk.hasSetHead ∧ chunk.head.extendPayLoadLen ≤ chunk.body.length

/-- `head1`. -/
def firstByte (type : OpCode) (isEnd isContinue : Bool) : UInt8 :=
  (if isEnd then 0x80 else 0) ||| if isContinue then 0 else type.code

variable (mask : Option Mask)

/-- There is a mask if `use_mask_` is set. -/
def packHeader (type : OpCode) (size : Nat) (isEnd isContinue : Bool) : Option Bytes :=
  let head1 := firstByte type isEnd isContinue
  let mask2 : UInt8 := if mask.isSome then 0x80 else 0
  let key := mask.elim [] List.ofFn
  if !isContinue ∧ type = .continuation then none
  else if size ≤ 125 then some (head1 :: (mask2 ||| UInt8.ofNat size) :: key)
  else if size ≤ 0xffff then
    some (head1 :: (mask2 ||| 126) :: ((hostBytes 2 size).reverse ++ key))
  else if size ≤ packetMaxByte then
    some (head1 :: (mask2 ||| 127) :: ((hostBytes 8 size).reverse ++ key))
  else none

def packFrame (data : Bytes) (offset size : Nat) : Option Bytes :=
  if data.length < offset + size then none
  else
    let part := (data.drop offset).take size
    some (mask.elim part fun mask => applyMask mask part)

/-- The loop of `pack`, with the rounds that are left.  Every frame has its own mask. -/
def packLoop (masks : Nat → Option Mask) (data : Bytes) (type : OpCode) :
    Nat → Nat → Nat → Option (List Bytes)
  | 0, _, _ => some []
  | rounds + 1, i, offset => do
    let size := min (data.length - offset) packetMaxByte
    let head ← packHeader (masks i) type size (rounds = 0) (i > 0)
    let body ← packFrame (masks i) data offset size
    let frames ← packLoop masks data type rounds (i + 1) (offset + size)
    return (head ++ body) :: frames

def pack (masks : Nat → Option Mask) (data : Bytes) (type : OpCode) : Option (List Bytes) :=
  packLoop masks data type (data.length / packetMaxByte + 1) 0 0

def packControl (data : Bytes) (type : OpCode) : Option (List Bytes) := do
  if !type.isControl ∨ 125 < data.length then none
  else
    let head ← packHeader mask type data.length true false
    let body ← packFrame mask data 0 data.length
    return [head ++ body]

def opcode (frame : Bytes) : UInt8 := frame.headD 0 &&& 0x0f

variable {type : OpCode}

theorem opcode_packHeader {mask : Option Mask}
    (h : packHeader mask type size isEnd isContinue = some head) (body : Bytes) :
    opcode (head ++ body) = if isContinue then 0 else type.code := by
  have hfirst : firstByte type isEnd isContinue &&& 0x0f =
      if isContinue then 0 else type.code := by
    cases isEnd <;> cases isContinue <;> cases type <;> rfl
  rw [packHeader] at h
  split_ifs at h <;> cases h <;> exact hfirst

theorem opcode_packLoop (h : packLoop masks data type rounds i offset = some frames) :
    ∀ frame ∈ frames, opcode frame = 0 ∨ opcode frame = type.code := by
  induction rounds generalizing i offset frames with
  | zero =>
    cases h
    simp
  | succ rounds ih =>
    simp only [packLoop, bind_eq_bind, bind_eq_some_iff, pure_def,
      Option.some.injEq] at h
    obtain ⟨head, hhead, body, _, later, hlater, rfl⟩ := h
    intro frame hframe
    rcases List.mem_cons.mp hframe with rfl | hframe
    · rw [opcode_packHeader hhead]
      split
      · exact .inl rfl
      · exact .inr rfl
    · exact ih hlater frame hframe

theorem opcode_packControl {mask : Option Mask} (h : packControl mask data type = some frames) :
    ∃ frame, frames = [frame] ∧ opcode frame = type.code := by
  rw [packControl] at h
  split at h
  · cases h
  · simp only [bind_eq_bind, bind_eq_some_iff, pure_def,
      Option.some.injEq] at h
    obtain ⟨head, hhead, body, _, rfl⟩ := h
    exact ⟨head ++ body, rfl, opcode_packHeader hhead body⟩

end ServerLib.WebSocket

import ServerLib.Lib.HostBytes
import ServerLib.Lib.Run

/-! `ByteBuffer`: storage with a read offset and a write offset, and the queue of bytes between
them. -/

namespace ServerLib.Buffer

open Lib

/-- The integers that are written and read. -/
inductive IntType
  | u8 | i8 | u16 | i16 | u32 | i32 | u64 | i64

namespace IntType

def size : IntType → Nat
  | u8 | i8 => 1
  | u16 | i16 => 2
  | u32 | i32 => 4
  | u64 | i64 => 8

def signed : IntType → Bool
  | u8 | u16 | u32 | u64 => false
  | i8 | i16 | i32 | i64 => true

variable (t : IntType)

/-- The cast to the unsigned type of the same size. -/
def toBits (v : Int) : Nat := (v % 2 ^ (8 * t.size)).toNat

variable (bits : Nat)

def ofBits : Int :=
  if t.signed && 2 ^ (8 * t.size - 1) ≤ bits then bits - 2 ^ (8 * t.size) else bits

/-- A single byte is not turned round. -/
def toNetwork : Nat :=
  match t with
  | u8 | i8 => bits
  | _ => hostToNetwork t.size bits

theorem toNetwork_eq : hostBytes t.size (t.toNetwork bits) = (hostBytes t.size bits).reverse := by
  cases t with
  | u8 | i8 => simp [toNetwork, size, hostBytes]
  | _ => exact hostBytes_hostToNetwork _ bits

theorem toNetwork_ofHostBytes {t : IntType} {bytes : List UInt8} (h : bytes.length = t.size) :
    t.toNetwork (ofHostBytes bytes) = ofHostBytes bytes.reverse := by
  cases t with
  | u8 | i8 =>
    obtain ⟨byte, rfl⟩ := List.length_eq_one_iff.mp h
    rfl
  | _ => rw [← hostToNetwork_ofHostBytes, h]; rfl

end IntType

inductive ByteBufferError
  /-- `std::out_of_range` of `ensure_readable` -/
  | outOfRange
  /-- `std::length_error` of a vector with more than 2^63 - 1 bytes -/
  | lengthError
  | badAlloc

/-- Bytes of an object outside the buffer, which has less than 2^63 of them. -/
structure Block where
  bytes : List UInt8
  bounded : bytes.length < 2 ^ 63

structure ByteBuffer where
  storage : List UInt8
  readOffset : UInt64 := 0
  writeOffset : UInt64 := 0

namespace ByteBuffer

def withCapacity (capacity : Nat) : ByteBuffer := { storage := List.replicate capacity 0 }

variable (b : ByteBuffer) (memory : Bool) (t : IntType)

def capacity : UInt64 := UInt64.ofNat b.storage.length

def readableBytes : UInt64 := b.writeOffset - b.readOffset

def writableBytes : UInt64 := b.capacity - b.writeOffset

def readableSpan : List UInt8 :=
  (b.storage.drop b.readOffset.toNat).take b.readableBytes.toNat

/-- `std::memcpy` and `std::memmove` to an offset of a storage. -/
def copyTo (storage : List UInt8) (offset : Nat) (bytes : List UInt8) : List UInt8 :=
  storage.take offset ++ bytes ++ storage.drop (offset + bytes.length)

def clear : ByteBuffer := { b with readOffset := 0, writeOffset := 0 }

def compact : ByteBuffer :=
  if b.readOffset = 0 then b
  else if b.readOffset = b.writeOffset then b.clear
  else
    { storage := copyTo b.storage 0 b.readableSpan
      readOffset := 0
      writeOffset := b.writeOffset - b.readOffset }

/-- A new vector of zeros.  `memory` says whether the allocator has the bytes. -/
def allocate (size : UInt64) : Except ByteBufferError (List UInt8) :=
  if 2 ^ 63 ≤ size.toNat then .error .lengthError
  else if memory then .ok (List.replicate size.toNat 0)
  else .error .badAlloc

/-- The exception that leaves a function, if one does, and the buffer. -/
def reserve (capacity : UInt64) (b : ByteBuffer) : Except ByteBufferError Unit × ByteBuffer :=
  if capacity ≤ b.capacity then (.ok (), b)
  else
    match allocate memory capacity with
    | .error e => (.error e, b)
    | .ok newStorage =>
      (.ok (), { storage := copyTo newStorage 0 b.readableSpan
                 readOffset := 0
                 writeOffset := b.readableBytes })

variable (bytes : UInt64) (v : Int)

def ensureWritable (b : ByteBuffer) : Except ByteBufferError Unit × ByteBuffer :=
  if bytes ≤ b.writableBytes then (.ok (), b)
  else
    let b := if 0 < b.readOffset ∧ bytes ≤ b.readOffset + b.writableBytes then b.compact else b
    if bytes ≤ b.writableBytes then (.ok (), b) else reserve memory (b.readableBytes + bytes) b

def commit (b : ByteBuffer) : ByteBuffer :=
  { b with writeOffset := min (b.writeOffset + bytes) b.capacity }

def shrinkToFit : ByteBuffer :=
  let b := b.compact
  if b.capacity = b.writeOffset then b
  else { b with storage := b.storage.take b.writeOffset.toNat }

def consume (b : ByteBuffer) : ByteBuffer :=
  { b with readOffset := min (b.readOffset + bytes) b.writeOffset }

def setReadOffset (offset : UInt64) (b : ByteBuffer) : ByteBuffer :=
  if offset ≤ b.writeOffset then { b with readOffset := offset } else b

def setWriteOffset (offset : UInt64) (b : ByteBuffer) : ByteBuffer :=
  if b.readOffset ≤ offset ∧ offset ≤ b.capacity then { b with writeOffset := offset } else b

def append (block : Block) (b : ByteBuffer) : Except ByteBufferError Unit × ByteBuffer :=
  let size := UInt64.ofNat block.bytes.length
  match ensureWritable memory size b with
  | (.error e, b) => (.error e, b)
  | (.ok (), b) =>
    (.ok (), { b with storage := copyTo b.storage b.writeOffset.toNat block.bytes
                      writeOffset := b.writeOffset + size })

def intBlock : Block where
  bytes := hostBytes t.size (t.toNetwork (t.toBits v))
  bounded := by
    rw [length_hostBytes]
    cases t <;> decide

theorem bytes_intBlock : (intBlock t v).bytes = (hostBytes t.size (t.toBits v)).reverse :=
  t.toNetwork_eq (t.toBits v)

def appendInt (b : ByteBuffer) : Except ByteBufferError Unit × ByteBuffer :=
  append memory (intBlock t v) b

/-- `read_u8` to `read_i64` -/
def readInt (b : ByteBuffer) : Except ByteBufferError Int × ByteBuffer :=
  if b.readableBytes < UInt64.ofNat t.size then (.error .outOfRange, b)
  else
    let value := ofHostBytes ((b.storage.drop b.readOffset.toNat).take t.size)
    (.ok (t.ofBits (t.toNetwork value)),
      { b with readOffset := b.readOffset + UInt64.ofNat t.size })

inductive Call
  | append (memory : Bool) (block : Block)
  | appendInt (memory : Bool) (t : IntType) (v : Int)
  | readInt (t : IntType)
  | consume (bytes : UInt64)
  | commit (bytes : UInt64)
  | compact
  | reserve (memory : Bool) (capacity : UInt64)
  | ensureWritable (memory : Bool) (bytes : UInt64)
  | shrinkToFit
  | setReadOffset (offset : UInt64)
  | setWriteOffset (offset : UInt64)
  | clear

def call : Call → ByteBuffer
  | .append memory block => (append memory block b).2
  | .appendInt memory t v => (appendInt memory t v b).2
  | .readInt t => (readInt t b).2
  | .consume bytes => consume bytes b
  | .commit bytes => commit bytes b
  | .compact => compact b
  | .reserve memory capacity => (reserve memory capacity b).2
  | .ensureWritable memory bytes => (ensureWritable memory bytes b).2
  | .shrinkToFit => shrinkToFit b
  | .setReadOffset offset => setReadOffset offset b
  | .setWriteOffset offset => setWriteOffset offset b
  | .clear => clear b

structure Valid (b : ByteBuffer) : Prop where
  read_le_write : b.readOffset ≤ b.writeOffset
  write_le_size : b.writeOffset.toNat ≤ b.storage.length
  bounded : b.storage.length < 2 ^ 63

/-- A call that appends `bytes` does so, or throws for want of memory and adds nothing. -/
def Appended (bytes before : List UInt8) :
    Except ByteBufferError Unit → List UInt8 → Prop
  | .ok (), after => after = before ++ bytes
  | .error e, after => after = before ∧
      (e = .badAlloc ∧ memory = false ∨
        e = .lengthError ∧ 2 ^ 63 ≤ before.length + bytes.length)

def Queues : Call → Prop
  | .append memory block =>
    Appended memory block.bytes b.readableSpan (append memory block b).1
      (append memory block b).2.readableSpan
  | .appendInt memory t v =>
    Appended memory (hostBytes t.size (t.toBits v)).reverse b.readableSpan
      (appendInt memory t v b).1 (appendInt memory t v b).2.readableSpan
  | .readInt t =>
    if t.size ≤ b.readableSpan.length then
      (readInt t b).1 = .ok (t.ofBits (ofHostBytes (b.readableSpan.take t.size).reverse)) ∧
        (readInt t b).2.readableSpan = b.readableSpan.drop t.size
    else readInt t b = (.error .outOfRange, b)
  | .consume bytes =>
    (consume bytes b).readableSpan = b.readableSpan.drop (min bytes.toNat b.readableSpan.length)
  | .commit bytes =>
    ∃ added, added.length = min bytes.toNat (b.storage.length - b.writeOffset.toNat) ∧
      (commit bytes b).readableSpan = b.readableSpan ++ added
  | .compact => b.compact.readableSpan = b.readableSpan
  | .reserve memory capacity => (reserve memory capacity b).2.readableSpan = b.readableSpan
  | .ensureWritable memory bytes => (ensureWritable memory bytes b).2.readableSpan = b.readableSpan
  | .shrinkToFit => b.shrinkToFit.readableSpan = b.readableSpan
  | .setReadOffset offset =>
    (setReadOffset offset b).readableSpan =
      if offset ≤ b.writeOffset then
        (b.storage.take b.writeOffset.toNat).drop offset.toNat
      else b.readableSpan
  | .setWriteOffset offset =>
    (setWriteOffset offset b).readableSpan =
      if b.readOffset ≤ offset ∧ offset.toNat ≤ b.storage.length then
        (b.storage.take offset.toNat).drop b.readOffset.toNat
      else b.readableSpan
  | .clear => b.clear.readableSpan = []

/-- The sum of an offset and the argument is in the range of `size_t`. -/
def NoWrap : Call → Prop
  | .consume bytes => b.readOffset.toNat + bytes.toNat < 2 ^ 64
  | .commit bytes => b.writeOffset.toNat + bytes.toNat < 2 ^ 64
  | _ => True

instance (b : ByteBuffer) : (c : Call) → Decidable (NoWrap b c)
  | .consume _ | .commit _ => inferInstanceAs (Decidable (_ < _))
  | .append _ _ | .appendInt _ _ _ | .readInt _ | .compact | .reserve _ _ | .ensureWritable _ _
  | .shrinkToFit | .setReadOffset _ | .setWriteOffset _ | .clear => isTrue trivial

section Sizes

variable {b : ByteBuffer}

namespace Valid

variable (h : b.Valid)

include h

theorem read_le : b.readOffset.toNat ≤ b.writeOffset.toNat :=
  UInt64.le_iff_toNat_le.mp h.read_le_write

theorem toNat_readableBytes : b.readableBytes.toNat = b.writeOffset.toNat - b.readOffset.toNat :=
  UInt64.toNat_sub_of_le _ _ h.read_le_write

theorem toNat_capacity : b.capacity.toNat = b.storage.length := by
  have := h.bounded
  simp [capacity]
  omega

theorem toNat_writableBytes : b.writableBytes.toNat = b.storage.length - b.writeOffset.toNat := by
  have hle : b.writeOffset ≤ b.capacity := by
    rw [UInt64.le_iff_toNat_le, h.toNat_capacity]
    exact h.write_le_size
  rw [writableBytes, UInt64.toNat_sub_of_le _ _ hle, h.toNat_capacity]

theorem readableSpan_eq :
    b.readableSpan = (b.storage.take b.writeOffset.toNat).drop b.readOffset.toNat := by
  rw [readableSpan, h.toNat_readableBytes, List.drop_take]

theorem length_readableSpan : b.readableSpan.length = b.writeOffset.toNat - b.readOffset.toNat := by
  have := h.write_le_size
  rw [h.readableSpan_eq, List.length_drop, List.length_take]
  omega

end Valid

theorem readableSpan_of_split (before after : List UInt8) (h : b.Valid)
    (hstorage : b.storage = before ++ (span ++ after)) (hread : b.readOffset.toNat = before.length)
    (hwrite : b.writeOffset.toNat = before.length + span.length) : b.readableSpan = span := by
  rw [h.readableSpan_eq, hstorage, hread, hwrite, List.drop_take]
  simp

theorem Valid.take_write (h : b.Valid) :
    b.storage.take b.writeOffset.toNat = b.storage.take b.readOffset.toNat ++ b.readableSpan := by
  have htake : (b.storage.take b.writeOffset.toNat).take b.readOffset.toNat =
      b.storage.take b.readOffset.toNat := by
    rw [List.take_take, Nat.min_eq_left h.read_le]
  rw [h.readableSpan_eq, ← htake, List.take_append_drop]

theorem length_copyTo {storage bytes : List UInt8} {offset : Nat}
    (h : offset + bytes.length ≤ storage.length) :
    (copyTo storage offset bytes).length = storage.length := by
  simp [copyTo]
  omega

theorem valid_withCapacity {capacity : Nat} (h : capacity < 2 ^ 63) :
    (withCapacity capacity).Valid :=
  ⟨UInt64.le_refl 0, Nat.zero_le _, by simpa [withCapacity] using h⟩

end Sizes

/-- The buffer is valid and has the readable bytes of `b`. -/
structure Keeps (b b' : ByteBuffer) : Prop where
  valid : b'.Valid
  span : b'.readableSpan = b.readableSpan

section Keeping

variable {b : ByteBuffer}

theorem Valid.keeps (h : b.Valid) : Keeps b b := ⟨h, rfl⟩

theorem Valid.keeps_copyTo (h : b.Valid) {storage : List UInt8}
    (hfit : b.readableSpan.length ≤ storage.length) (hbounded : storage.length < 2 ^ 63) :
    Keeps b ⟨copyTo storage 0 b.readableSpan, 0, b.readableBytes⟩ := by
  have hlength : (copyTo storage 0 b.readableSpan).length = storage.length :=
    length_copyTo (by simpa using hfit)
  have hwrite : b.readableBytes.toNat = b.readableSpan.length := by
    rw [h.toNat_readableBytes, h.length_readableSpan]
  have hvalid : Valid ⟨copyTo storage 0 b.readableSpan, 0, b.readableBytes⟩ :=
    ⟨UInt64.le_iff_toNat_le.mpr (Nat.zero_le _), by rw [hlength, hwrite]; exact hfit,
      by rw [hlength]; exact hbounded⟩
  refine ⟨hvalid, ?_⟩
  refine readableSpan_of_split [] (storage.drop b.readableSpan.length) hvalid ?_ rfl ?_
  · simp [copyTo]
  · simpa using hwrite

theorem Valid.length_readableSpan_le (h : b.Valid) : b.readableSpan.length ≤ b.storage.length := by
  have hlength := h.length_readableSpan
  have hsize := h.write_le_size
  omega

theorem Valid.compact (h : b.Valid) : Keeps b b.compact := by
  rw [ByteBuffer.compact]
  split
  · exact h.keeps
  split_ifs with heq
  · have hempty : b.readableSpan = [] := by
      apply List.eq_nil_of_length_eq_zero
      rw [h.length_readableSpan, heq, Nat.sub_self]
    refine ⟨⟨UInt64.le_refl 0, Nat.zero_le _, h.bounded⟩, ?_⟩
    rw [hempty]
    simp [readableSpan, readableBytes, clear]
  · exact h.keeps_copyTo h.length_readableSpan_le h.bounded

theorem allocate_eq_ok {memory : Bool} {size : UInt64} {storage : List UInt8}
    (h : allocate memory size = .ok storage) :
    storage.length = size.toNat ∧ size.toNat < 2 ^ 63 := by
  rw [allocate] at h
  split at h
  · cases h
  · cases memory <;> simp at h
    rw [← h, List.length_replicate]
    omega

theorem allocate_eq_error {memory : Bool} (h : allocate memory size = .error e) :
    e = .badAlloc ∧ memory = false ∨ e = .lengthError ∧ 2 ^ 63 ≤ size.toNat := by
  rw [allocate] at h
  split at h
  · simp_all
  · cases memory <;> simp at h
    exact .inl ⟨h.symm, rfl⟩

theorem Valid.reserve (h : b.Valid) (memory : Bool) (capacity : UInt64) :
    Keeps b (reserve memory capacity b).2 := by
  rw [ByteBuffer.reserve]
  split_ifs with hlarger
  · exact h.keeps
  rw [UInt64.not_le, UInt64.lt_iff_toNat_lt, h.toNat_capacity] at hlarger
  split
  · exact h.keeps
  · rename_i storage hallocate
    obtain ⟨hlength, hbounded⟩ := allocate_eq_ok hallocate
    have hspan := h.length_readableSpan_le
    exact h.keeps_copyTo (by omega) (by omega)

theorem Keeps.trans (h : Keeps b b') (h' : Keeps b' b'') : Keeps b b'' :=
  ⟨h'.valid, h'.span.trans h.span⟩

theorem Valid.ensureWritable (h : b.Valid) (memory : Bool) (bytes : UInt64) :
    Keeps b (ensureWritable memory bytes b).2 := by
  rw [ByteBuffer.ensureWritable]
  split
  · exact h.keeps
  have hfirst : Keeps b (if 0 < b.readOffset ∧ bytes ≤ b.readOffset + b.writableBytes
      then b.compact else b) := by
    split
    · exact h.compact
    · exact h.keeps
  generalize (if 0 < b.readOffset ∧ bytes ≤ b.readOffset + b.writableBytes
    then b.compact else b) = b' at hfirst
  dsimp only
  split
  · exact hfirst
  · exact hfirst.trans (hfirst.valid.reserve memory _)

theorem Valid.keeps_take (h : b.Valid) :
    Keeps b { b with storage := b.storage.take b.writeOffset.toNat } := by
  have hsize := h.write_le_size
  have hbounded := h.bounded
  have hlength : (b.storage.take b.writeOffset.toNat).length = b.writeOffset.toNat := by
    rw [List.length_take]
    omega
  have hvalid : Valid { b with storage := b.storage.take b.writeOffset.toNat } :=
    ⟨h.read_le_write, Nat.le_of_eq hlength.symm, by dsimp only; omega⟩
  refine ⟨hvalid, ?_⟩
  rw [hvalid.readableSpan_eq, h.readableSpan_eq, List.take_take, Nat.min_self]

theorem Valid.shrinkToFit (h : b.Valid) : Keeps b b.shrinkToFit := by
  rw [ByteBuffer.shrinkToFit]
  split
  · exact h.compact
  · exact h.compact.trans h.compact.valid.keeps_take

end Keeping

section Appending

variable {b : ByteBuffer}

theorem offsets_compact (h : b.Valid) :
    b.compact.storage.length = b.storage.length ∧
      b.compact.writeOffset.toNat = b.writeOffset.toNat - b.readOffset.toNat := by
  rw [compact]
  split
  · rename_i hzero
    simp [hzero]
  · split_ifs with heq
    · simp [clear, heq]
    · refine ⟨length_copyTo (by simpa using h.length_readableSpan_le), ?_⟩
      exact UInt64.toNat_sub_of_le _ _ h.read_le_write

/-- What has to be so after a call that makes room for `bytes` more bytes: there is room, or
there was no memory for it. -/
def RoomFor (memory : Bool) (bytes : Nat) (b : ByteBuffer) :
    Except ByteBufferError Unit × ByteBuffer → Prop
  | (.ok (), b') => b'.writeOffset.toNat + bytes ≤ b'.storage.length
  | (.error e, _) => e = .badAlloc ∧ memory = false ∨
      e = .lengthError ∧ 2 ^ 63 ≤ b.readableSpan.length + bytes

theorem roomFor_reserve (h : b.Valid) (memory : Bool) {capacity : UInt64} {bytes : Nat}
    (hcapacity : capacity.toNat = b.readableSpan.length + bytes)
    (hlarger : b.storage.length < capacity.toNat) :
    RoomFor memory bytes b (reserve memory capacity b) := by
  rw [reserve, if_neg (by rw [UInt64.le_iff_toNat_le, h.toNat_capacity]; omega)]
  cases hallocate : allocate memory capacity with
  | error e =>
    have herror := allocate_eq_error hallocate
    rw [hcapacity] at herror
    exact herror
  | ok storage =>
    obtain ⟨hlength, -⟩ := allocate_eq_ok hallocate
    change b.readableBytes.toNat + bytes ≤ (copyTo storage 0 b.readableSpan).length
    have hspan := h.length_readableSpan
    rw [length_copyTo (by omega), h.toNat_readableBytes]
    omega

theorem roomFor_ensureWritable (h : b.Valid) (memory : Bool) (bytes : UInt64)
    (hbytes : bytes.toNat < 2 ^ 63) :
    RoomFor memory bytes.toNat b (ensureWritable memory bytes b) := by
  have hle := h.read_le
  have hsize := h.write_le_size
  have hbounded := h.bounded
  have hwritable := h.toNat_writableBytes
  have hsum : (b.readOffset + b.writableBytes).toNat =
      b.readOffset.toNat + (b.storage.length - b.writeOffset.toNat) := by
    rw [UInt64.toNat_add, hwritable]
    omega
  rw [ensureWritable]
  split
  · rename_i hroom
    rw [UInt64.le_iff_toNat_le, hwritable] at hroom
    change b.writeOffset.toNat + bytes.toNat ≤ b.storage.length
    omega
  · rename_i hroom
    rw [UInt64.not_le, UInt64.lt_iff_toNat_lt, hwritable] at hroom
    by_cases hcompact : 0 < b.readOffset ∧ bytes ≤ b.readOffset + b.writableBytes
    · -- what was read makes room
      obtain ⟨hlength, hwrite⟩ := offsets_compact h
      have henough := UInt64.le_iff_toNat_le.mp hcompact.2
      have hcompacted : bytes ≤ b.compact.writableBytes := by
        rw [UInt64.le_iff_toNat_le, h.compact.valid.toNat_writableBytes]
        omega
      rw [if_pos hcompact, if_pos hcompacted]
      change b.compact.writeOffset.toNat + bytes.toNat ≤ b.compact.storage.length
      omega
    · rw [if_neg hcompact, if_neg (by rw [UInt64.le_iff_toNat_le, hwritable]; omega)]
      have hspan := h.length_readableSpan
      have hcapacity : (b.readableBytes + bytes).toNat =
          b.readableSpan.length + bytes.toNat := by
        rw [UInt64.toNat_add, h.toNat_readableBytes]
        omega
      refine roomFor_reserve h memory hcapacity ?_
      have hnot : b.readOffset.toNat = 0 ∨
          b.readOffset.toNat + (b.storage.length - b.writeOffset.toNat) < bytes.toNat := by
        rw [UInt64.lt_iff_toNat_lt, UInt64.le_iff_toNat_le, hsum, UInt64.toNat_zero] at hcompact
        omega
      omega

theorem Valid.written (h : b.Valid) {bytes : List UInt8}
    (hroom : b.writeOffset.toNat + bytes.length ≤ b.storage.length) :
    Valid { b with storage := copyTo b.storage b.writeOffset.toNat bytes
                   writeOffset := b.writeOffset + UInt64.ofNat bytes.length } ∧
      readableSpan { b with storage := copyTo b.storage b.writeOffset.toNat bytes
                            writeOffset := b.writeOffset + UInt64.ofNat bytes.length } =
        b.readableSpan ++ bytes := by
  have hle := h.read_le
  have hbounded := h.bounded
  have hwrite : (b.writeOffset + UInt64.ofNat bytes.length).toNat =
      b.writeOffset.toNat + bytes.length := by
    rw [UInt64.toNat_add, UInt64.toNat_ofNat']
    omega
  have hlength := length_copyTo hroom
  have hvalid : Valid { b with storage := copyTo b.storage b.writeOffset.toNat bytes
                               writeOffset := b.writeOffset + UInt64.ofNat bytes.length } :=
    ⟨UInt64.le_iff_toNat_le.mpr (by dsimp only; omega), by rw [hlength, hwrite]; exact hroom,
      by rw [hlength]; exact hbounded⟩
  refine ⟨hvalid, readableSpan_of_split (b.storage.take b.readOffset.toNat)
    (b.storage.drop (b.writeOffset.toNat + bytes.length)) hvalid ?_ ?_ ?_⟩
  · rw [copyTo, h.take_write]
    simp
  · dsimp only
    rw [List.length_take]
    omega
  · rw [hwrite, List.length_append, List.length_take, h.length_readableSpan]
    omega

theorem Valid.append (h : b.Valid) (memory : Bool) (block : Block) :
    (append memory block b).2.Valid ∧ Queues b (.append memory block) := by
  have hbytes : (UInt64.ofNat block.bytes.length).toNat = block.bytes.length := by
    have := block.bounded
    rw [UInt64.toNat_ofNat']
    omega
  have hkeeps := h.ensureWritable memory (UInt64.ofNat block.bytes.length)
  have hroom := roomFor_ensureWritable h memory (UInt64.ofNat block.bytes.length)
    (by rw [hbytes]; exact block.bounded)
  rw [Queues, ByteBuffer.append]
  cases hensure : ByteBuffer.ensureWritable memory (UInt64.ofNat block.bytes.length) b with
  | mk result b' =>
    rw [hensure] at hkeeps hroom
    rw [hbytes] at hroom
    cases result with
    | error e => exact ⟨hkeeps.valid, hkeeps.span, hroom⟩
    | ok _ =>
      obtain ⟨hvalid, hspan⟩ := hkeeps.valid.written hroom
      rw [hkeeps.span] at hspan
      exact ⟨hvalid, hspan⟩

end Appending

section Moving

variable {b : ByteBuffer}

theorem Valid.moveRead (h : b.Valid) (offset : UInt64) (hle : offset ≤ b.writeOffset) :
    Valid { b with readOffset := offset } :=
  ⟨hle, h.write_le_size, h.bounded⟩

theorem Valid.moveWrite (h : b.Valid) (offset : UInt64) (hread : b.readOffset ≤ offset)
    (hsize : offset.toNat ≤ b.storage.length) : Valid { b with writeOffset := offset } :=
  ⟨hread, hsize, h.bounded⟩

theorem Valid.readableSpan_moveRead (h : b.Valid) (hoffset : offset.toNat = b.readOffset.toNat + n)
    (hn : n ≤ b.readableSpan.length) : Valid { b with readOffset := offset } ∧
      readableSpan { b with readOffset := offset } = b.readableSpan.drop n := by
  have hle := h.read_le
  rw [h.length_readableSpan] at hn
  have hvalid := h.moveRead offset (UInt64.le_iff_toNat_le.mpr (by omega))
  refine ⟨hvalid, ?_⟩
  rw [hvalid.readableSpan_eq, h.readableSpan_eq, List.drop_drop, hoffset]

theorem Valid.readInt (h : b.Valid) (t : IntType) :
    (readInt t b).2.Valid ∧ Queues b (.readInt t) := by
  have hsize : (UInt64.ofNat t.size).toNat = t.size := by cases t <;> rfl
  have hlength := h.length_readableSpan
  have hreadable := h.toNat_readableBytes
  have hread := h.read_le
  have hwrite := h.write_le_size
  have hbounded := h.bounded
  rw [Queues, ByteBuffer.readInt]
  by_cases henough : t.size ≤ b.readableSpan.length
  · have hnot : ¬ b.readableBytes < UInt64.ofNat t.size := by
      rw [UInt64.lt_iff_toNat_lt, hsize]
      omega
    have hoffset : (b.readOffset + UInt64.ofNat t.size).toNat = b.readOffset.toNat + t.size := by
      rw [UInt64.toNat_add, hsize]
      omega
    obtain ⟨hvalid, hspan⟩ := h.readableSpan_moveRead hoffset henough
    have hbytes : (b.storage.drop b.readOffset.toNat).take t.size = b.readableSpan.take t.size := by
      rw [readableSpan, List.take_take, Nat.min_eq_left (by omega)]
    rw [if_neg hnot, if_pos henough]
    refine ⟨hvalid, ?_, hspan⟩
    dsimp only
    rw [hbytes, IntType.toNetwork_ofHostBytes]
    rw [List.length_take, Nat.min_eq_left henough]
  · have hthrows : b.readableBytes < UInt64.ofNat t.size := by
      rw [UInt64.lt_iff_toNat_lt, hsize]
      omega
    rw [if_pos hthrows, if_neg henough]
    exact ⟨h, rfl⟩

theorem toNat_min (m n : UInt64) : (min m n).toNat = min m.toNat n.toNat := by
  change (if m ≤ n then m else n).toNat = _
  split_ifs with hle
  all_goals
    rw [UInt64.le_iff_toNat_le] at hle
    omega

theorem toNat_add_of_wrap {offset bytes : UInt64} (h : ¬ offset.toNat + bytes.toNat < 2 ^ 64) :
    (offset + bytes).toNat < offset.toNat := by
  have hbytes := bytes.toNat_lt
  rw [UInt64.toNat_add]
  omega

theorem Valid.consume_iff (h : b.Valid) (bytes : UInt64) :
    ((consume bytes b).Valid ∧ Queues b (.consume bytes)) ↔ NoWrap b (.consume bytes) := by
  have hlength := h.length_readableSpan
  have hle := h.read_le
  rw [Queues, NoWrap, consume]
  constructor
  · rintro ⟨hvalid, hspan⟩
    by_contra hwrap
    have hback := toNat_add_of_wrap hwrap
    have hoffset := toNat_min (b.readOffset + bytes) b.writeOffset
    have hcount := congrArg List.length hspan
    rw [hvalid.length_readableSpan, List.length_drop, hlength] at hcount
    dsimp only at hcount
    omega
  · intro hsum
    have hoffset : (min (b.readOffset + bytes) b.writeOffset).toNat =
        b.readOffset.toNat + min bytes.toNat b.readableSpan.length := by
      rw [toNat_min, UInt64.toNat_add, hlength]
      omega
    exact h.readableSpan_moveRead hoffset (Nat.min_le_right _ _)

theorem Valid.commit_iff (h : b.Valid) (bytes : UInt64) :
    ((commit bytes b).Valid ∧ Queues b (.commit bytes)) ↔ NoWrap b (.commit bytes) := by
  have hlength := h.length_readableSpan
  have hcapacity := h.toNat_capacity
  have hle := h.read_le
  have hsize := h.write_le_size
  rw [Queues, NoWrap, commit]
  constructor
  · rintro ⟨hvalid, added, hadded, hspan⟩
    by_contra hwrap
    have hback := toNat_add_of_wrap hwrap
    have hoffset := toNat_min (b.writeOffset + bytes) b.capacity
    have hread := hvalid.read_le
    have hcount := congrArg List.length hspan
    rw [hvalid.length_readableSpan, List.length_append, hlength] at hcount
    dsimp only at hcount hread
    omega
  · intro hsum
    have hoffset : (min (b.writeOffset + bytes) b.capacity).toNat =
        b.writeOffset.toNat + min bytes.toNat (b.storage.length - b.writeOffset.toNat) := by
      rw [toNat_min, UInt64.toNat_add, hcapacity]
      omega
    have hvalid := h.moveWrite (min (b.writeOffset + bytes) b.capacity)
      (UInt64.le_iff_toNat_le.mpr (by omega)) (by omega)
    generalize min bytes.toNat (b.storage.length - b.writeOffset.toNat) = n at *
    refine ⟨hvalid, (b.storage.drop b.writeOffset.toNat).take n, ?_, ?_⟩
    · rw [List.length_take, List.length_drop]
      have := hvalid.write_le_size
      dsimp only at this
      omega
    · rw [hvalid.readableSpan_eq, h.readableSpan_eq]
      dsimp only
      rw [hoffset, List.take_add, List.drop_append_of_le_length]
      rw [List.length_take]
      omega

theorem Valid.setReadOffset (h : b.Valid) (offset : UInt64) :
    (setReadOffset offset b).Valid ∧ Queues b (.setReadOffset offset) := by
  rw [Queues, ByteBuffer.setReadOffset]
  split_ifs with hle
  · exact ⟨h.moveRead offset hle, (h.moveRead offset hle).readableSpan_eq⟩
  · exact ⟨h, rfl⟩

theorem Valid.setWriteOffset (h : b.Valid) (offset : UInt64) :
    (setWriteOffset offset b).Valid ∧ Queues b (.setWriteOffset offset) := by
  have hsize : offset ≤ b.capacity ↔ offset.toNat ≤ b.storage.length := by
    rw [UInt64.le_iff_toNat_le, h.toNat_capacity]
  simp only [Queues, ByteBuffer.setWriteOffset, hsize]
  split_ifs with hle
  · exact ⟨h.moveWrite offset hle.1 hle.2, (h.moveWrite offset hle.1 hle.2).readableSpan_eq⟩
  · exact ⟨h, rfl⟩

theorem Valid.clear (h : b.Valid) : b.clear.Valid ∧ Queues b .clear :=
  ⟨⟨UInt64.le_refl 0, Nat.zero_le _, h.bounded⟩,
    by simp [Queues, readableSpan, readableBytes, ByteBuffer.clear]⟩

end Moving

/-- The offsets are in order after the call, and the readable bytes were used as a queue. -/
def Works (c : Call) : Prop := (b.call c).Valid ∧ Queues b c

theorem Valid.works_iff {b : ByteBuffer} (h : b.Valid) (c : Call) : Works b c ↔ NoWrap b c := by
  cases c with
  | append memory block => exact iff_of_true (h.append memory block) trivial
  | appendInt memory t v =>
    have happend := h.append memory (intBlock t v)
    refine iff_of_true ⟨happend.1, ?_⟩ trivial
    have hqueues := happend.2
    rw [Queues, bytes_intBlock] at hqueues
    exact hqueues
  | readInt t => exact iff_of_true (h.readInt t) trivial
  | consume bytes => exact h.consume_iff bytes
  | commit bytes => exact h.commit_iff bytes
  | compact => exact iff_of_true ⟨h.compact.valid, h.compact.span⟩ trivial
  | reserve memory capacity =>
    exact iff_of_true ⟨(h.reserve memory capacity).valid, (h.reserve memory capacity).span⟩ trivial
  | ensureWritable memory bytes =>
    exact iff_of_true
      ⟨(h.ensureWritable memory bytes).valid, (h.ensureWritable memory bytes).span⟩ trivial
  | shrinkToFit => exact iff_of_true ⟨h.shrinkToFit.valid, h.shrinkToFit.span⟩ trivial
  | setReadOffset offset => exact iff_of_true (h.setReadOffset offset) trivial
  | setWriteOffset offset => exact iff_of_true (h.setWriteOffset offset) trivial
  | clear => exact iff_of_true h.clear trivial

/-- Every call of a run works exactly if no `consume` and no `commit` of it adds past the range
of `size_t`. -/
theorem works_iff_noWrap {b : ByteBuffer} (h : b.Valid) (calls : List Call) :
    Along call Works b calls ↔ Along call NoWrap b calls := by
  induction calls generalizing b with
  | nil => exact Iff.rfl
  | cons c calls ih =>
    rw [along_cons, along_cons, h.works_iff c]
    refine and_congr_right fun hwrap => ih ?_
    exact ((h.works_iff c).mpr hwrap).1

theorem works_short :
    Along call Works (withCapacity 4)
      [.append true ⟨[1, 2], by decide⟩, .appendInt true .u32 7, .readInt .u16, .consume 100,
        .commit 3, .shrinkToFit] :=
  (works_iff_noWrap (valid_withCapacity (by decide)) _).mpr (by decide +kernel)

/-- The write offset ends up in front of the read offset. -/
theorem not_works_commit :
    ¬ Along call Works (withCapacity 4)
      [.append true ⟨[1, 2], by decide⟩, .consume 1, .commit 18446744073709551614] :=
  fun h => absurd h.2.2.1.1.read_le_write (by decide +kernel)

end ByteBuffer

end ServerLib.Buffer

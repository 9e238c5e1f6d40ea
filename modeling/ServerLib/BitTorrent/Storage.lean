import ServerLib.BitTorrent.Bencoding
import ServerLib.Lib.Run
import ServerLib.Lib.Slices

/-!
Storage of pieces.  The blocks of a piece are collected in a file of its own; when the piece is
complete and verified, it is committed: its data goes to the files of the torrent.  A file system
is a map from paths, below the directory where the torrent is saved, to bytes.
-/

namespace ServerLib.BitTorrent

open Lib

structure TorrentFile where
  length : Nat
  path : List Bytes
  offset : Nat
deriving DecidableEq

structure TorrentInfo where
  pieceLength : Nat
  name : Bytes
  totalLength : Nat
  /-- Empty if the torrent is a single file. -/
  files : List TorrentFile

namespace TorrentInfo

/-- The number of pieces is cast to 32 bits.  If it is negative, there are none. -/
def pieceCount (info : TorrentInfo) : Nat :=
  if info.pieceLength = 0 then 0
  else
    let count := (info.totalLength + info.pieceLength - 1) / info.pieceLength % 2 ^ 32
    if count < 2 ^ 31 then count else 0

def expectedPieceSize (info : TorrentInfo) (pieceIndex : Nat) : Nat :=
  if pieceIndex < info.pieceCount then
    min info.pieceLength (info.totalLength - pieceIndex * info.pieceLength)
  else 0

end TorrentInfo

abbrev Path := List Bytes

abbrev FileSystem := Path → Option Bytes

namespace PieceStorage

def safePathComponent (component : Bytes) : Bool :=
  component ≠ [] ∧ component ≠ ['.'.toUInt8] ∧ component ≠ ['.'.toUInt8, '.'.toUInt8] ∧
    '/'.toUInt8 ∉ component ∧ '\\'.toUInt8 ∉ component

def safeJoinPath (components : List Bytes) : Option Path :=
  if components.all safePathComponent then some components else none

/-- The text `.partial.` -/
def partialMark : Bytes := ".partial.".toList.map Char.toUInt8

def pieceFilePath (info : TorrentInfo) (pieceIndex : Nat) : Path :=
  [info.name ++ partialMark ++ decimal pieceIndex]

def writePieceSliceToFile (fs : FileSystem) (path : Path) (fileOffset : Nat) (data : Bytes) :
    FileSystem :=
  Function.update fs path (some (writeAt 0 ((fs path).getD []) fileOffset data))

def readPieceSliceFromFile (fs : FileSystem) (path : Path) (fileOffset length : Nat) :
    Option Bytes :=
  match fs path with
  | none => none
  | some content => readAt content fileOffset length

section

variable (info : TorrentInfo) (verified : Nat → Bytes → Bool)

variable (fs : FileSystem) (pieceIndex : Nat)

def writePiece (offset : Nat) (data : Bytes) : FileSystem :=
  if pieceIndex < info.pieceCount then
    writePieceSliceToFile fs (pieceFilePath info pieceIndex) offset data
  else fs

def discardPiece : FileSystem :=
  Function.update fs (pieceFilePath info pieceIndex) none

/-- `verified` compares the hash of the data with the hash of the piece. -/
def verifyPiece : Bool :=
  match fs (pieceFilePath info pieceIndex) with
  | none => false
  | some content =>
    0 < info.expectedPieceSize pieceIndex ∧
      content.length = info.expectedPieceSize pieceIndex ∧ verified pieceIndex content

def readPieceData : Option Bytes :=
  if info.expectedPieceSize pieceIndex = 0 then none
  else
    readPieceSliceFromFile fs (pieceFilePath info pieceIndex) 0
      (info.expectedPieceSize pieceIndex)

/-- The loop of `commit_piece` over the files. -/
def commitFiles (pieceStart : Nat) (pieceData : Bytes) :
    List TorrentFile → FileSystem → FileSystem × Bool
  | [], fs => (fs, true)
  | file :: files, fs =>
    let overlapStart := max pieceStart file.offset
    let overlapEnd := min (pieceStart + pieceData.length) (file.offset + file.length)
    if overlapStart ≥ overlapEnd then commitFiles pieceStart pieceData files fs
    else
      match safeJoinPath (info.name :: file.path) with
      | none => (fs, false)
      | some path =>
        commitFiles pieceStart pieceData files
          (writePieceSliceToFile fs path (overlapStart - file.offset)
            ((pieceData.drop (overlapStart - pieceStart)).take (overlapEnd - overlapStart)))

def commitData (pieceStart : Nat) (pieceData : Bytes) : FileSystem × Bool :=
  if info.files = [] then
    match safeJoinPath [info.name] with
    | none => (fs, false)
    | some path => (writePieceSliceToFile fs path pieceStart pieceData, true)
  else commitFiles info pieceStart pieceData info.files fs

def committable : Option Bytes :=
  if verifyPiece info verified fs pieceIndex then readPieceData info fs pieceIndex else none

def commitPiece : FileSystem × Bool :=
  match committable info verified fs pieceIndex with
  | none => (fs, false)
  | some pieceData =>
    match commitData info fs (pieceIndex * info.pieceLength) pieceData with
    | (fs, true) => (Function.update fs (pieceFilePath info pieceIndex) none, true)
    | (fs, false) => (fs, false)

/-- The loop of `read_block` over the files, with the block so far and the number of bytes that
were read. -/
def readFiles (fs : FileSystem) (blockStart length : Nat) :
    List TorrentFile → Bytes → Nat → Option (Bytes × Nat)
  | [], out, written => some (out, written)
  | file :: files, out, written =>
    let overlapStart := max blockStart file.offset
    let overlapEnd := min (blockStart + length) (file.offset + file.length)
    if overlapStart ≥ overlapEnd then readFiles fs blockStart length files out written
    else
      match safeJoinPath (info.name :: file.path) with
      | none => none
      | some path =>
        match readPieceSliceFromFile fs path (overlapStart - file.offset)
            (overlapEnd - overlapStart) with
        | none => none
        | some part =>
          readFiles fs blockStart length files (writeAt 0 out (overlapStart - blockStart) part)
            (written + (overlapEnd - overlapStart))

/-- The size of the piece is compared with the offset as a number of 32 bits. -/
def readBlock (offset length : Nat) : Option Bytes :=
  let pieceSize := info.expectedPieceSize pieceIndex
  if pieceSize = 0 ∨ offset ≥ pieceSize % 2 ^ 32 ∨ offset + length > pieceSize then none
  else
    let blockStart := pieceIndex * info.pieceLength + offset
    if info.files = [] then
      match safeJoinPath [info.name] with
      | none => none
      | some path => readPieceSliceFromFile fs path blockStart length
    else
      match readFiles info fs blockStart length info.files (List.replicate length 0) 0 with
      | none => none
      | some (out, written) => if written = length then some out else none

/-- The file system, and for each piece the data of the last commit that succeeded. -/
structure Store where
  fs : FileSystem
  committed : Nat → Option Bytes := fun _ => none

inductive Label
  | writePiece (pieceIndex : Nat) (offset : UInt32) (data : Bytes)
  | discardPiece (pieceIndex : Nat)
  | commitPiece (pieceIndex : Nat)

def step (s : Store) : Label → Store
  | .writePiece pieceIndex offset data =>
    { s with fs := writePiece info s.fs pieceIndex offset.toNat data }
  | .discardPiece pieceIndex => { s with fs := discardPiece info s.fs pieceIndex }
  | .commitPiece pieceIndex =>
    match commitPiece info verified s.fs pieceIndex with
    | (fs, false) => { s with fs }
    | (fs, true) =>
      { fs, committed := Function.update s.committed pieceIndex
              (committable info verified s.fs pieceIndex) }

end

end PieceStorage

end ServerLib.BitTorrent

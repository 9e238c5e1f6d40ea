import ServerLib.Lib.Intervals
import ServerLib.Lib.Run

/-!
The state of the pieces of a download: which blocks have been asked for, which are to be asked for
again, and which have come in.  Offsets and lengths are 32 bits wide, and sums of them wrap.
-/

namespace ServerLib.BitTorrent

open Lib

def wrapAdd (a b : Nat) : Nat := (a + b) % 2 ^ 32

def wrapSub (a b : Nat) : Nat := (a + 2 ^ 32 - b) % 2 ^ 32

theorem wrapAdd_lt (a b : Nat) : wrapAdd a b < 2 ^ 32 := Nat.mod_lt _ (by decide)

theorem wrapAdd_wrapSub (ha : a < 2 ^ 32) (hb : b < 2 ^ 32) : wrapAdd b (wrapSub a b) = a := by
  unfold wrapAdd wrapSub
  omega

structure PieceBlockRequest where
  pieceIndex : Nat
  offset : Nat
  length : Nat
  submitTimeMs : Nat := 0
deriving DecidableEq

namespace PieceBlockRequest

/-- The bytes of a received block.  The end wraps. -/
def span (request : PieceBlockRequest) : Nat × Nat :=
  (request.offset, wrapAdd request.offset request.length)

def Asks (request : PieceBlockRequest) (x : Nat) : Prop :=
  request.offset ≤ x ∧ x < request.offset + request.length

end PieceBlockRequest

/-- The elements of the vectors of the state at the index of one piece. -/
structure Piece where
  had : Bool := false
  downloading : Bool := false
  nextRequestOffset : Nat := 0
  receivedBytes : Nat := 0
  retryRequests : List PieceBlockRequest := []
  inflightRequests : List PieceBlockRequest := []
  receivedRequests : List PieceBlockRequest := []
deriving DecidableEq

structure PieceDownloadState where
  pieces : List Piece := []
  totalLength : Int := 0
  pieceLength : Int := 0

/-- The intervals of a piece and the number of bytes that are new. -/
def mergeReceivedInterval (requests : List PieceBlockRequest) (pieceIndex offset length : Nat) :
    List PieceBlockRequest × Nat :=
  if length = 0 then (requests, 0)
  else
    let (range, overlap) := requests.foldl
      (fun (range, overlap) request =>
        let overlapStart := max request.span.1 range.1
        let overlapEnd := min request.span.2 range.2
        (absorb range request.span,
          if overlapEnd > overlapStart then wrapAdd overlap (overlapEnd - overlapStart)
          else overlap))
      ((offset, wrapAdd offset length), 0)
    let item := ⟨pieceIndex, range.1, wrapSub range.2 range.1, 0⟩
    (merged PieceBlockRequest.span requests range item,
      if length > overlap then length - overlap else 0)

/-- Any request at the offset will do. -/
def eraseInflight (requests : List PieceBlockRequest) (offset : Nat) : List PieceBlockRequest :=
  requests.eraseP fun request => request.offset == offset

def isInflight (requests : List PieceBlockRequest) (offset length : Nat) : Bool :=
  requests.any fun request => request.offset == offset && request.length == length

/-- A request is put at the front of the queue, unless there is one for the same block. -/
def pushRetry (queue : List PieceBlockRequest) (request : PieceBlockRequest) :
    List PieceBlockRequest :=
  if queue.any fun item => item.offset == request.offset && item.length == request.length then
    queue
  else request :: queue

namespace Piece

variable (piece : Piece)

def markBlockReceived (pieceIndex pieceSize offset length : Nat) : Piece × Nat :=
  let boundedEnd := min pieceSize (wrapAdd offset length)
  let received := mergeReceivedInterval piece.receivedRequests pieceIndex offset
    (wrapSub boundedEnd offset)
  ({ piece with
      inflightRequests := eraseInflight piece.inflightRequests offset
      receivedRequests := received.1
      receivedBytes := wrapAdd piece.receivedBytes received.2 }, received.2)

def markFailed : Piece :=
  { piece with
    downloading := false
    nextRequestOffset := 0
    receivedBytes := 0
    retryRequests := []
    inflightRequests := []
    receivedRequests := [] }

def markCompleted (piece : Piece) (pieceSize : Nat) : Piece :=
  { piece with
    had := true
    downloading := false
    nextRequestOffset := pieceSize
    receivedBytes := pieceSize
    retryRequests := []
    inflightRequests := []
    receivedRequests := [] }

def requeueBlock (pieceIndex pieceSize offset length : Nat) : Piece :=
  let request : PieceBlockRequest := ⟨pieceIndex, offset, min length (pieceSize - offset), 0⟩
  { piece with
    inflightRequests := eraseInflight piece.inflightRequests offset
    retryRequests := pushRetry piece.retryRequests request }

/-- The requests at the front of the queue that are in flight or outside the piece are dropped. -/
def popRetry (inflight : List PieceBlockRequest) (pieceSize : Nat) :
    List PieceBlockRequest → List PieceBlockRequest × Option PieceBlockRequest
  | [] => ([], none)
  | request :: queue =>
    if request.offset < pieceSize ∧ ¬ isInflight inflight request.offset request.length then
      (queue, some { request with length := min request.length (pieceSize - request.offset) })
    else popRetry inflight pieceSize queue

/-- The offset to go on from, and the block to ask for.  A turn of the loop moves on by a byte or
more, so that `turns` is large enough if it is the size of the piece. -/
def nextBlock (inflight : List PieceBlockRequest) (pieceSize requestSize : Nat) :
    Nat → Nat → Nat × Option (Nat × Nat)
  | 0, nextOffset => (nextOffset, none)
  | turns + 1, nextOffset =>
    if nextOffset < pieceSize then
      let length := min requestSize (pieceSize - nextOffset)
      if ¬ isInflight inflight nextOffset length then
        (nextOffset + length, some (nextOffset, length))
      else nextBlock inflight pieceSize requestSize turns (nextOffset + length)
    else (nextOffset, none)

/-- `try_select_request_from_piece` -/
def select (pieceIndex pieceSize requestSize nowMs : Nat) : Piece × Option PieceBlockRequest :=
  match popRetry piece.inflightRequests pieceSize piece.retryRequests with
  | (queue, some retry) =>
    let request := { retry with submitTimeMs := nowMs }
    ({ piece with
        downloading := true
        retryRequests := queue
        inflightRequests := piece.inflightRequests ++ [request] }, some request)
  | (queue, none) =>
    match nextBlock piece.inflightRequests pieceSize requestSize pieceSize
        piece.nextRequestOffset with
    | (nextOffset, some (offset, length)) =>
      let request : PieceBlockRequest := ⟨pieceIndex, offset, length, nowMs⟩
      ({ piece with
          downloading := true
          retryRequests := queue
          nextRequestOffset := nextOffset
          inflightRequests := piece.inflightRequests ++ [request] }, some request)
    | (nextOffset, none) =>
      ({ piece with
          downloading := true
          retryRequests := queue
          nextRequestOffset := nextOffset }, none)

end Piece

namespace PieceDownloadState

def reset (pieceCount totalLength pieceLength : Int) : PieceDownloadState :=
  { pieces := List.replicate pieceCount.toNat {}, totalLength, pieceLength }

variable (s : PieceDownloadState) (pieceIndex : Nat)

def expectedPieceSize : Nat :=
  if s.pieces.length ≤ pieceIndex ∨ s.totalLength ≤ 0 ∨ s.pieceLength ≤ 0 then 0
  else
    let pieceOffset := pieceIndex * s.pieceLength
    if s.totalLength ≤ pieceOffset then 0
    else (min s.pieceLength (s.totalLength - pieceOffset)).toNat % 2 ^ 32

def modifyPiece (i : Nat) (f : Piece → Piece) : PieceDownloadState :=
  { s with pieces := s.pieces.modify i f }

def markPieceDownloading : PieceDownloadState :=
  s.modifyPiece pieceIndex fun piece => { piece with downloading := true }

def Inside (offset length : Nat) : Prop :=
  offset < s.expectedPieceSize pieceIndex ∧ length ≠ 0

instance (s : PieceDownloadState) (pieceIndex offset length : Nat) :
    Decidable (s.Inside pieceIndex offset length) :=
  inferInstanceAs (Decidable (_ ∧ _))

def markBlockReceived (s : PieceDownloadState) (pieceIndex offset length : Nat) :
    PieceDownloadState × Nat :=
  match s.pieces[pieceIndex]? with
  | none => (s, 0)
  | some piece =>
    if s.Inside pieceIndex offset length then
      let received :=
        piece.markBlockReceived pieceIndex (s.expectedPieceSize pieceIndex) offset length
      (s.modifyPiece pieceIndex fun _ => received.1, received.2)
    else (s, 0)

def markPieceCompleted : PieceDownloadState :=
  s.modifyPiece pieceIndex (Piece.markCompleted · (s.expectedPieceSize pieceIndex))

def markPieceFailed : PieceDownloadState :=
  s.modifyPiece pieceIndex Piece.markFailed

def requeueBlock (s : PieceDownloadState) (pieceIndex offset length : Nat) : PieceDownloadState :=
  if s.Inside pieceIndex offset length then
    s.modifyPiece pieceIndex fun piece =>
      if piece.had then piece
      else piece.requeueBlock pieceIndex (s.expectedPieceSize pieceIndex) offset length
  else s

def timedOut (nowMs timeoutMs : Nat) (request : PieceBlockRequest) : Bool :=
  request.submitTimeMs ≠ 0 ∧ request.submitTimeMs ≤ nowMs ∧
    timeoutMs < nowMs - request.submitTimeMs

/-- The requests of one piece.  A request goes to the queue of the piece that it names. -/
def timeoutPiece (nowMs timeoutMs : Nat) (s : PieceDownloadState) (i : Nat) : PieceDownloadState :=
  match s.pieces[i]? with
  | none => s
  | some piece =>
    if piece.had then s
    else
      (piece.inflightRequests.filter (timedOut nowMs timeoutMs)).foldl
        (fun s request => s.modifyPiece request.pieceIndex fun piece =>
          { piece with
            retryRequests := pushRetry piece.retryRequests { request with submitTimeMs := 0 } })
        (s.modifyPiece i fun piece =>
          { piece with
            inflightRequests := piece.inflightRequests.filter (! timedOut nowMs timeoutMs ·) })

def timeoutInflightRequests (nowMs timeoutMs : Nat) : PieceDownloadState :=
  (List.range s.pieces.length).foldl (timeoutPiece nowMs timeoutMs) s

def activePieceCount : Nat := s.pieces.countP Piece.downloading

/-- A candidate is an index with its availability. -/
def betterCandidate (index availability : Nat) : Option (Nat × Nat) → Bool
  | none => true
  | some (best, bestAvailability) =>
    availability < bestAvailability ∨ (availability = bestAvailability ∧ index < best)

/-- The best piece that is being downloaded, and the best one that is not. -/
def candidates (peerPieces : List Bool) (pieceAvailability : Option (List Nat)) :
    Option (Nat × Nat) × Option (Nat × Nat) :=
  let count := min peerPieces.length s.pieces.length
  (List.range count).foldl
    (fun (bestActive, bestInactive) i =>
      match s.pieces[i]? with
      | none => (bestActive, bestInactive)
      | some piece =>
        if piece.had ∨ peerPieces[i]? ≠ some true ∨ s.expectedPieceSize i = 0 ∨
            (piece.retryRequests = [] ∧ s.expectedPieceSize i ≤ piece.nextRequestOffset) then
          (bestActive, bestInactive)
        else
          let availability := match pieceAvailability with
            | some availabilities => if count ≤ availabilities.length then
                availabilities.getD i 0 else 0
            | none => 0
          if piece.downloading then
            (if betterCandidate i availability bestActive then some (i, availability)
              else bestActive, bestInactive)
          else
            (bestActive, if betterCandidate i availability bestInactive then some (i, availability)
              else bestInactive))
    (none, none)

def trySelectRequestFromPiece (i requestSize nowMs : Nat) :
    PieceDownloadState × Option PieceBlockRequest :=
  match s.pieces[i]? with
  | none => (s, none)
  | some piece =>
    if s.expectedPieceSize i = 0 then (s, none)
    else
      let selected := piece.select i (s.expectedPieceSize i) requestSize nowMs
      (s.modifyPiece i fun _ => selected.1, selected.2)

def trySelectCandidate (candidate : Option (Nat × Nat)) (requestSize nowMs : Nat) :
    PieceDownloadState × Option PieceBlockRequest :=
  match candidate with
  | none => (s, none)
  | some (i, _) => s.trySelectRequestFromPiece i requestSize nowMs

def selectNextRequest (peerPieces : List Bool) (pieceAvailability : Option (List Nat))
    (requestSize maxActivePieces nowMs : Nat) : PieceDownloadState × Option PieceBlockRequest :=
  let (bestActive, bestInactive) := s.candidates peerPieces pieceAvailability
  match s.trySelectCandidate bestActive requestSize nowMs with
  | (s, some request) => (s, some request)
  | (s, none) =>
    if max 1 maxActivePieces ≤ s.activePieceCount then (s, none)
    else s.trySelectCandidate bestInactive requestSize nowMs

abbrev RequestSize := { n : UInt32 // 0 < n }

inductive Label
  | selectNextRequest (peerPieces : List Bool) (pieceAvailability : Option (List Nat))
      (requestSize : RequestSize) (maxActivePieces : Nat) (nowMs : UInt64)
  | markBlockReceived (pieceIndex offset length : UInt32)
  | requeueBlock (pieceIndex offset length : UInt32)
  | timeoutInflightRequests (nowMs timeoutMs : UInt64)
  | markPieceDownloading (pieceIndex : UInt32)
  | markPieceFailed (pieceIndex : UInt32)
  | markPieceCompleted (pieceIndex : UInt32)

def step : Label → PieceDownloadState
  | .selectNextRequest peerPieces pieceAvailability requestSize maxActivePieces nowMs =>
    (s.selectNextRequest peerPieces pieceAvailability requestSize.1.toNat maxActivePieces
      nowMs.toNat).1
  | .markBlockReceived pieceIndex offset length =>
    (s.markBlockReceived pieceIndex.toNat offset.toNat length.toNat).1
  | .requeueBlock pieceIndex offset length =>
    s.requeueBlock pieceIndex.toNat offset.toNat length.toNat
  | .timeoutInflightRequests nowMs timeoutMs =>
    s.timeoutInflightRequests nowMs.toNat timeoutMs.toNat
  | .markPieceDownloading pieceIndex => s.markPieceDownloading pieceIndex.toNat
  | .markPieceFailed pieceIndex => s.markPieceFailed pieceIndex.toNat
  | .markPieceCompleted pieceIndex => s.markPieceCompleted pieceIndex.toNat

end PieceDownloadState

end ServerLib.BitTorrent

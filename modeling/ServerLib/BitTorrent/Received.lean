import ServerLib.BitTorrent.Coverage

/-! How much of a piece has come in.  `received_bytes_` counts the bytes of the blocks once each. -/

namespace ServerLib.BitTorrent

open Finset Lib PieceBlockRequest

/-- A call of `mark_block_received`. -/
structure ReceivedBlock where
  pieceIndex : UInt32
  offset : UInt32
  length : UInt32
deriving DecidableEq

/-- The bytes of piece `i`, of `size` bytes, that a block covers. -/
def ReceivedBlock.bytes (i size : Nat) (block : ReceivedBlock) : Finset ℕ :=
  if block.pieceIndex.toNat = i then
    Ico block.offset.toNat (min size (block.offset.toNat + block.length.toNat))
  else ∅

def coveredBytes (i size : Nat) (blocks : List ReceivedBlock) : Finset ℕ :=
  blocks.toFinset.biUnion (·.bytes i size)

/-- The end of a block that starts inside the piece does not wrap. -/
def ReceivedBlock.Ends (i size : Nat) (block : ReceivedBlock) : Prop :=
  block.pieceIndex.toNat = i → block.offset.toNat < size →
    block.offset.toNat + block.length.toNat < 2 ^ 32

theorem foldl_overlap {requests : List PieceBlockRequest}
    (hgaps : requests.Pairwise fun b c => b.span.2 < c.span.1) (range : ℕ × ℕ) (k : ℕ)
    (hk : k + (Ico range.1 range.2 ∩ cells span requests).card < 2 ^ 32) :
    (requests.foldl (fun (range, overlap) request => (absorb range request.span,
      if min request.span.2 range.2 > max request.span.1 range.1 then
        wrapAdd overlap (min request.span.2 range.2 - max request.span.1 range.1)
      else overlap)) (range, k)).2 = k + (Ico range.1 range.2 ∩ cells span requests).card := by
  induction requests generalizing range k with
  | nil => simp [cells]
  | cons request requests ih =>
    obtain ⟨hgap, hgaps⟩ := List.pairwise_cons.mp hgaps
    rw [card_inter_cells_cons hgap] at hk ⊢
    have hstep : (if min request.span.2 range.2 > max request.span.1 range.1 then
        wrapAdd k (min request.span.2 range.2 - max request.span.1 range.1) else k) =
        k + (min request.span.2 range.2 - max request.span.1 range.1) := by
      split
      · exact Nat.mod_eq_of_lt (by omega)
      · omega
    simp only [List.foldl_cons, hstep]
    rw [ih hgaps _ _ (by omega)]
    omega

/-- The intervals of a piece hold the bytes in `covered`, and these have been counted. -/
structure Piece.Tallied (size : ℕ) (covered : Finset ℕ) (piece : Piece) : Prop where
  spaced : Spaced span piece.receivedRequests
  inside : ∀ r ∈ piece.receivedRequests, 0 < r.length ∧ r.offset + r.length ≤ size
  held : cells span piece.receivedRequests = covered
  bytes : piece.receivedBytes = covered.card

/-- Stated for any number, so that no `2 ^ 32` is unfolded where the two sides are compared. -/
theorem Piece.markBlockReceived_eq (piece : Piece) (i : ℕ) {size offset length n : ℕ}
    (hn : wrapSub (min size (wrapAdd offset length)) offset = n) :
    piece.markBlockReceived i size offset length =
      ({ piece with
          inflightRequests := eraseInflight piece.inflightRequests offset
          receivedRequests := (mergeReceivedInterval piece.receivedRequests i offset n).1
          receivedBytes := wrapAdd piece.receivedBytes
            (mergeReceivedInterval piece.receivedRequests i offset n).2 },
        (mergeReceivedInterval piece.receivedRequests i offset n).2) := by
  subst hn
  rfl

namespace Piece.Tallied

variable {piece : Piece} (h : piece.Tallied size covered) (hsize : size < 2 ^ 32)

include h hsize

theorem span_eq (hr : r ∈ piece.receivedRequests) : r.span = (r.offset, r.offset + r.length) := by
  have := h.inside r hr
  rw [span, wrapAdd, Nat.mod_eq_of_lt (by omega)]

theorem gaps : piece.receivedRequests.Pairwise fun b c => b.span.2 < c.span.1 := by
  apply h.spaced.gaps
  intro r hr
  have := h.inside r hr
  rw [h.span_eq hsize hr]
  omega

theorem subset_range : covered ⊆ range size := by
  rw [← h.held]
  intro x hx
  obtain ⟨r, hr, -, hx⟩ := mem_cells.mp hx
  have := h.inside r hr
  rw [h.span_eq hsize hr] at hx
  exact mem_range.mpr (lt_of_lt_of_le hx this.2)

variable {i offset last : ℕ} (hlast : offset < last) (hle : last ≤ size)
include hlast hle

theorem added_eq :
    (BitTorrent.mergeReceivedInterval piece.receivedRequests i offset (last - offset)).2 =
      (Ico offset last \ covered).card := by
  have hwrap : wrapAdd offset (last - offset) = last := by
    unfold wrapAdd
    omega
  have hcard : (Ico offset last ∩ covered).card ≤ last - offset := by
    rw [← Nat.card_Ico]
    exact card_le_card inter_subset_left
  have hoverlap := foldl_overlap (h.gaps hsize) (offset, last) 0
    (by rw [h.held]; dsimp only; omega)
  rw [BitTorrent.mergeReceivedInterval, if_neg (by omega), hwrap]
  dsimp only
  rw [hoverlap, h.held, Nat.zero_add, card_sdiff, Nat.card_Ico, inter_comm covered]
  dsimp only
  split <;> omega

theorem receive (inflight : List PieceBlockRequest) :
    ({ piece with
        inflightRequests := inflight
        receivedRequests :=
          (mergeReceivedInterval piece.receivedRequests i offset (last - offset)).1
        receivedBytes := wrapAdd piece.receivedBytes
          (Ico offset last \ covered).card } : Piece).Tallied size (Ico offset last ∪ covered) := by
  have hwrap : wrapAdd offset (last - offset) = last := by
    unfold wrapAdd
    omega
  have hbounded : ∀ r ∈ piece.receivedRequests, r.offset < 2 ^ 32 := fun r hr => by
    have := h.inside r hr
    omega
  obtain ⟨item, hspan, hoffset, hlength, heq⟩ := mergeReceivedInterval_eq (i := i)
    (Nat.sub_ne_zero_of_lt hlast) hbounded (hlast.trans (hle.trans_lt hsize))
  rw [hwrap] at hspan heq
  have hlow : item.span.1 ≤ offset ∧ last ≤ item.span.2 := by
    rw [hspan]
    exact hull_le _ _
  have hhigh : item.span.1 < size + 1 ∧ item.span.2 < size + 1 := by
    rw [hspan]
    refine hull_lt ⟨by omega, by omega⟩ fun r hr => ?_
    have := h.inside r hr
    rw [h.span_eq hsize hr]
    exact ⟨by omega, by omega⟩
  dsimp only [span, wrapAdd] at hlow hhigh
  refine ⟨heq ▸ h.spaced.merged hspan, fun r hr => ?_, ?_, ?_⟩
  · rcases mem_merged.mp (heq ▸ hr) with hr | rfl
    · exact h.inside r hr.1
    · omega
  · rw [heq, cells_merged h.spaced hspan, h.held]
  · have hcard : (Ico offset last ∪ covered).card ≤ size := by
      rw [← card_range size]
      refine card_le_card (union_subset (fun x hx => ?_) (h.subset_range hsize))
      exact mem_range.mpr ((mem_Ico.mp hx).2.trans_le hle)
    rw [← card_sdiff_add_card] at hcard ⊢
    show (piece.receivedBytes + _) % 2 ^ 32 = _
    rw [h.bytes, Nat.mod_eq_of_lt (by omega), Nat.add_comm]

omit hlast hle in
theorem markBlockReceived {length : ℕ} (hoffset : offset < size) (hlength : length ≠ 0)
    (hend : offset + length < 2 ^ 32) :
    (piece.markBlockReceived i size offset length).1.Tallied size
        (Ico offset (min size (offset + length)) ∪ covered) ∧
      (piece.markBlockReceived i size offset length).2 =
        (Ico offset (min size (offset + length)) \ covered).card := by
  have hlast : offset < min size (offset + length) := by omega
  have hn : wrapSub (min size (wrapAdd offset length)) offset =
      min size (offset + length) - offset := by
    unfold wrapSub wrapAdd
    omega
  rw [markBlockReceived_eq piece i hn, h.added_eq hsize hlast (min_le_left _ _)]
  exact ⟨h.receive hsize hlast (min_le_left _ _) _, rfl⟩

end Piece.Tallied

namespace PieceDownloadState

variable {s : PieceDownloadState}

def mark (s : PieceDownloadState) (block : ReceivedBlock) : PieceDownloadState × Nat :=
  s.markBlockReceived block.pieceIndex.toNat block.offset.toNat block.length.toNat

def markAll (s : PieceDownloadState) (blocks : List ReceivedBlock) : PieceDownloadState :=
  run (fun s block => (s.mark block).1) s blocks

def TalliedAt (s : PieceDownloadState) (i : ℕ) (covered : Finset ℕ) : Prop :=
  ∃ piece, s.pieces[i]? = some piece ∧ piece.Tallied (s.expectedPieceSize i) covered

theorem expectedPieceSize_mark (s : PieceDownloadState) (block : ReceivedBlock) (i : ℕ) :
    (s.mark block).1.expectedPieceSize i = s.expectedPieceSize i := by
  rw [mark, markBlockReceived]
  split
  · rfl
  split
  · exact expectedPieceSize_modifyPiece ..
  · rfl

theorem mark_of_get (hget : s.pieces[block.pieceIndex.toNat]? = some piece) :
    s.mark block =
      if s.Inside block.pieceIndex.toNat block.offset.toNat block.length.toNat then
        (s.modifyPiece block.pieceIndex.toNat fun _ => (piece.markBlockReceived
            block.pieceIndex.toNat (s.expectedPieceSize block.pieceIndex.toNat) block.offset.toNat
            block.length.toNat).1,
          (piece.markBlockReceived block.pieceIndex.toNat
            (s.expectedPieceSize block.pieceIndex.toNat) block.offset.toNat block.length.toNat).2)
      else (s, 0) := by
  rw [mark, markBlockReceived, hget]

theorem getElem?_mark (hi : block.pieceIndex.toNat ≠ i) :
    (s.mark block).1.pieces[i]? = s.pieces[i]? := by
  rw [mark, markBlockReceived]
  split
  · rfl
  split
  · simp [modifyPiece, hi]
  · rfl

theorem TalliedAt.mark (h : s.TalliedAt i covered) (hends : block.Ends i (s.expectedPieceSize i)) :
    (s.mark block).1.TalliedAt i (block.bytes i (s.expectedPieceSize i) ∪ covered) ∧
      (block.pieceIndex.toNat = i →
        (s.mark block).2 = (block.bytes i (s.expectedPieceSize i) \ covered).card) := by
  obtain ⟨piece, hget, hpiece⟩ := h
  rw [TalliedAt, expectedPieceSize_mark, ReceivedBlock.bytes]
  by_cases hi : block.pieceIndex.toNat = i
  · subst hi
    rw [if_pos rfl, mark_of_get hget]
    split_ifs with hinside
    · have hmark := hpiece.markBlockReceived (expectedPieceSize_lt s _)
        (i := block.pieceIndex.toNat) hinside.1 hinside.2 (hends rfl hinside.1)
      revert hmark
      -- with the pair taken apart, the two sides are compared without computing the merge
      obtain ⟨piece', added⟩ := piece.markBlockReceived _ _ _ _
      rintro ⟨htallied, hadded⟩
      exact ⟨⟨piece', by simp [modifyPiece, hget], htallied⟩, fun _ => hadded⟩
    · -- the call is turned away, and the block covers nothing
      have hempty : Ico block.offset.toNat (min (s.expectedPieceSize block.pieceIndex.toNat)
          (block.offset.toNat + block.length.toNat)) = ∅ := by
        apply Ico_eq_empty
        intro hlt
        exact hinside ⟨by omega, by omega⟩
      rw [hempty, empty_union, empty_sdiff]
      exact ⟨⟨piece, hget, hpiece⟩, fun _ => rfl⟩
  · rw [if_neg hi, empty_union, getElem?_mark hi]
    exact ⟨⟨piece, hget, hpiece⟩, fun h => absurd h hi⟩

theorem TalliedAt.markAll (h : s.TalliedAt i covered)
    (hends : ∀ block ∈ blocks, block.Ends i (s.expectedPieceSize i)) :
    (s.markAll blocks).TalliedAt i (coveredBytes i (s.expectedPieceSize i) blocks ∪ covered) ∧
      (s.markAll blocks).expectedPieceSize i = s.expectedPieceSize i := by
  induction blocks generalizing s covered with
  | nil => exact ⟨by rwa [coveredBytes, List.toFinset_nil, biUnion_empty, empty_union], rfl⟩
  | cons block blocks ih =>
    obtain ⟨hblock, hends⟩ := List.forall_mem_cons.mp hends
    have hstep := ih (h.mark hblock).1
    rw [expectedPieceSize_mark] at hstep
    obtain ⟨hrun, hsize⟩ := hstep hends
    refine ⟨?_, hsize⟩
    rw [coveredBytes, List.toFinset_cons, biUnion_insert, union_comm (block.bytes _ _), union_assoc]
    exact hrun

/-- In a run of calls whose ends do not wrap, the bytes of a piece are counted once each. -/
theorem received_run (s : PieceDownloadState) (i : ℕ) (piece : Piece)
    (hget : s.pieces[i]? = some piece) (hbytes : piece.receivedBytes = 0)
    (hrequests : piece.receivedRequests = []) (blocks : List ReceivedBlock)
    (hends : ∀ block ∈ blocks, block.Ends i (s.expectedPieceSize i)) :
    ∃ piece', (s.markAll blocks).pieces[i]? = some piece' ∧
      piece'.receivedBytes = (coveredBytes i (s.expectedPieceSize i) blocks).card ∧
      piece'.receivedRequests.Pairwise (fun a b => a.offset + a.length < b.offset) ∧
      (∀ r ∈ piece'.receivedRequests, 0 < r.length ∧ r.offset + r.length ≤ s.expectedPieceSize i) ∧
      ∀ block : ReceivedBlock, block.pieceIndex.toNat = i →
        block.Ends i (s.expectedPieceSize i) → ((s.markAll blocks).mark block).2 =
          (block.bytes i (s.expectedPieceSize i) \
            coveredBytes i (s.expectedPieceSize i) blocks).card := by
  have hstart : s.TalliedAt i ∅ := by
    refine ⟨piece, hget, ?_, ?_, ?_, hbytes⟩ <;> rw [hrequests]
    · exact Spaced.nil
    · simp
    · rfl
  obtain ⟨hrun, hsize⟩ := hstart.markAll hends
  rw [union_empty] at hrun
  have hnext : ∀ block : ReceivedBlock, block.pieceIndex.toNat = i → block.Ends i _ → _ :=
    fun block hi hends => (hrun.mark hends).2 hi
  rw [hsize] at hnext
  obtain ⟨piece', hget', htallied⟩ := hrun
  rw [hsize] at htallied
  have hlt := expectedPieceSize_lt s i
  refine ⟨piece', hget', htallied.bytes, ?_, htallied.inside, hnext⟩
  refine (htallied.gaps hlt).imp_of_mem fun ha _ hgap => ?_
  rwa [htallied.span_eq hlt ha] at hgap

/-- The second block overlaps the first and goes beyond the piece. -/
theorem received_run_two_blocks :
    (((reset 1 100 100).markAll [⟨0, 0, 60⟩]).mark ⟨0, 40, 200⟩).2 = 40 := by
  obtain ⟨_, -, -, -, -, hnext⟩ := received_run (reset 1 100 100) 0 {} rfl rfl rfl [⟨0, 0, 60⟩]
    (List.forall_mem_singleton.mpr fun _ _ => by decide)
  rw [hnext ⟨0, 40, 200⟩ rfl fun _ _ => by decide]
  decide

/-- The end of the block wraps, and more bytes are counted than the piece has. -/
theorem received_wrapped_block :
    ((reset 1 100 100).mark ⟨0, 50, 4294967286⟩).2 = 4294967286 ∧
      ((⟨0, 50, 4294967286⟩ : ReceivedBlock).bytes 0 100).card = 50 := by
  decide +kernel

end PieceDownloadState

end ServerLib.BitTorrent

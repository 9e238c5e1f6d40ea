import ServerLib.BitTorrent.PieceDownload

/-! No block of a piece is forgotten. -/

namespace ServerLib.BitTorrent

open Lib PieceBlockRequest PieceDownloadState Option

namespace Piece

/-- The byte has come in, is on its way, or will be asked for again. -/
def Covered (piece : Piece) (x : Nat) : Prop :=
  (∃ r ∈ piece.receivedRequests, Within x r.span) ∨ (∃ r ∈ piece.inflightRequests, r.Asks x) ∨
    ∃ r ∈ piece.retryRequests, r.Asks x

structure Kept (i size : Nat) (piece : Piece) : Prop where
  next_le : piece.nextRequestOffset ≤ size
  covered : ∀ x < piece.nextRequestOffset, piece.Covered x
  inflight_index : ∀ r ∈ piece.inflightRequests, r.pieceIndex = i
  retry_index : ∀ r ∈ piece.retryRequests, r.pieceIndex = i
  spaced : Spaced span piece.receivedRequests
  bounded : ∀ r ∈ piece.receivedRequests, r.offset < 2 ^ 32

end Piece

theorem foldl_range_eq_hull (requests : List PieceBlockRequest) (range : Nat × Nat)
    (overlap : Nat) (f : (Nat × Nat) → Nat → PieceBlockRequest → Nat) :
    (requests.foldl (fun (range, overlap) request =>
      (absorb range request.span, f range overlap request)) (range, overlap)).1 =
      hull span range requests := by
  induction requests generalizing range overlap with
  | nil => rfl
  | cons request requests ih => exact ih _ _

theorem span_of_lt (hlow : range.1 < 2 ^ 32) (hhigh : range.2 < 2 ^ 32) :
    (⟨i, range.1, wrapSub range.2 range.1, 0⟩ : PieceBlockRequest).span = range := by
  rw [span, wrapAdd_wrapSub hhigh hlow]

section

variable {requests : List PieceBlockRequest} {i offset : Nat} (length : Nat)

theorem mergeReceivedInterval_eq {length : Nat} (hlength : length ≠ 0)
    (hbounded : ∀ r ∈ requests, r.offset < 2 ^ 32) (hoffset : offset < 2 ^ 32) :
    ∃ item : PieceBlockRequest,
      item.span = hull span (offset, wrapAdd offset length) requests ∧
      item.offset < 2 ^ 32 ∧ item.length < 2 ^ 32 ∧
      (mergeReceivedInterval requests i offset length).1 = merged span requests
        (hull span (offset, wrapAdd offset length) requests) item := by
  have hspans : ∀ r ∈ requests, r.span.1 < 2 ^ 32 ∧ r.span.2 < 2 ^ 32 :=
    fun r hr => ⟨hbounded r hr, wrapAdd_lt _ _⟩
  have hlt := hull_lt (a := (offset, wrapAdd offset length)) ⟨hoffset, wrapAdd_lt _ _⟩ hspans
  have hfold := foldl_range_eq_hull requests (offset, wrapAdd offset length) 0
    fun range overlap request =>
      if min request.span.2 range.2 > max request.span.1 range.1 then
        wrapAdd overlap (min request.span.2 range.2 - max request.span.1 range.1)
      else overlap
  rw [mergeReceivedInterval, if_neg hlength]
  refine ⟨_, span_of_lt (i := i) hlt.1 hlt.2, hlt.1, Nat.mod_lt _ (by decide), ?_⟩
  rw [← hfold]

theorem spaced_mergeReceivedInterval (hspaced : Spaced span requests)
    (hbounded : ∀ r ∈ requests, r.offset < 2 ^ 32) (hoffset : offset < 2 ^ 32) :
    Spaced span (mergeReceivedInterval requests i offset length).1 ∧
      ∀ r ∈ (mergeReceivedInterval requests i offset length).1, r.offset < 2 ^ 32 := by
  by_cases hlength : length = 0
  · rw [mergeReceivedInterval, if_pos hlength]
    exact ⟨hspaced, hbounded⟩
  obtain ⟨item, hspan, hitem, -, heq⟩ :=
    mergeReceivedInterval_eq (i := i) hlength hbounded hoffset
  rw [heq]
  refine ⟨hspaced.merged hspan, fun r hr => ?_⟩
  rcases mem_merged.mp hr with hr | rfl
  · exact hbounded r hr.1
  · exact hitem

theorem within_mergeReceivedInterval (hspaced : Spaced span requests)
    (hbounded : ∀ r ∈ requests, r.offset < 2 ^ 32) (hoffset : offset < 2 ^ 32) {x : Nat}
    (h : Within x (offset, wrapAdd offset length) ∨ ∃ r ∈ requests, Within x r.span) :
    ∃ r ∈ (mergeReceivedInterval requests i offset length).1, Within x r.span := by
  by_cases hlength : length = 0
  · rw [mergeReceivedInterval, if_pos hlength]
    refine h.resolve_left fun h => ?_
    have hend : wrapAdd offset length = offset := by
      rw [hlength, wrapAdd, Nat.add_zero, Nat.mod_eq_of_lt hoffset]
    exact absurd h.2 (by rw [hend]; exact Nat.not_lt.mpr h.1)
  · obtain ⟨item, hspan, -, -, heq⟩ := mergeReceivedInterval_eq (i := i) hlength hbounded hoffset
    rw [heq]
    exact within_merged hspaced hspan h

end

variable {requests : List PieceBlockRequest}

theorem mem_eraseInflight_or (offset : Nat) (hr : r ∈ requests) :
    r ∈ eraseInflight requests offset ∨
      requests.find? (fun request => request.offset == offset) = some r := by
  induction requests with
  | nil => cases hr
  | cons request requests ih =>
    rw [eraseInflight, List.eraseP_cons, List.find?_cons]
    cases hoffset : request.offset == offset with
    | true =>
      rcases List.mem_cons.mp hr with rfl | hr
      · exact .inr rfl
      · exact .inl hr
    | false =>
      rcases List.mem_cons.mp hr with rfl | hr
      · exact .inl List.mem_cons_self
      · exact (ih hr).imp_left fun h => List.mem_cons_of_mem _ h

theorem mem_of_mem_eraseInflight {offset : Nat} (hr : r ∈ eraseInflight requests offset) :
    r ∈ requests :=
  List.mem_of_mem_eraseP hr

theorem asks_of_isInflight {offset length x : Nat} (h : isInflight requests offset length = true)
    (hlow : offset ≤ x) (hhigh : x < offset + length) : ∃ r ∈ requests, r.Asks x := by
  obtain ⟨r, hr, hsame⟩ := List.any_eq_true.mp h
  simp only [Bool.and_eq_true, beq_iff_eq] at hsame
  refine ⟨r, hr, ?_, ?_⟩ <;> omega

theorem mem_pushRetry (h : r ∈ pushRetry queue request) : r = request ∨ r ∈ queue := by
  unfold pushRetry at h
  split at h
  · exact .inr h
  · exact List.mem_cons.mp h

theorem mem_pushRetry_of_mem (request : PieceBlockRequest) (h : r ∈ queue) :
    r ∈ pushRetry queue request := by
  unfold pushRetry
  split
  · exact h
  · exact List.mem_cons_of_mem _ h

theorem asks_pushRetry (queue : List PieceBlockRequest) (h : request.Asks x) :
    ∃ r ∈ pushRetry queue request, r.Asks x := by
  unfold pushRetry
  split_ifs with hqueued
  · exact asks_of_isInflight hqueued h.1 h.2
  · exact ⟨request, List.mem_cons_self, h⟩

namespace Piece

variable {piece : Piece}

theorem Kept.markFailed (piece : Piece) : (markFailed piece).Kept i size where
  next_le := Nat.zero_le _
  covered := fun _ h => absurd h (Nat.not_lt_zero _)
  inflight_index := nofun
  retry_index := nofun
  spaced := Spaced.nil
  bounded := nofun

variable {offset : Nat}

theorem Kept.of_received (h : piece.Kept i size) (hspaced : Spaced span received)
    (hbounded : ∀ r ∈ received, r.offset < 2 ^ 32)
    (hwithin : ∀ x, (Within x (offset, last) ∨ ∃ r ∈ piece.receivedRequests, Within x r.span) →
      ∃ r ∈ received, Within x r.span)
    (hfits : ∀ r, piece.inflightRequests.find? (fun r => r.offset == offset) = some r →
      offset + r.length ≤ last) :
    ({ piece with
        inflightRequests := eraseInflight piece.inflightRequests offset
        receivedRequests := received
        receivedBytes := bytes } : Piece).Kept i size := by
  refine ⟨h.next_le, fun x hx => ?_, fun r hr => ?_, h.retry_index, hspaced, hbounded⟩
  · rcases h.covered x hx with hcov | ⟨r, hr, hasks⟩ | hcov
    · exact .inl (hwithin x (.inr hcov))
    · rcases mem_eraseInflight_or offset hr with hleft | hfirst
      · exact .inr (.inl ⟨r, hleft, hasks⟩)
      · have hlast := hfits r hfirst
        have hat : r.offset = offset := by simpa using List.find?_some hfirst
        obtain ⟨hlow, hhigh⟩ := hasks
        rw [hat] at hlow hhigh
        exact .inl (hwithin x (.inl ⟨hlow, hhigh.trans_le hlast⟩))
    · exact .inr (.inr hcov)
  · exact h.inflight_index r (mem_of_mem_eraseInflight hr)

theorem Kept.markBlockReceived (h : piece.Kept i size) {length : Nat} (hoffset : offset < size)
    (hsize : size < 2 ^ 32)
    (hfits : ∀ r, piece.inflightRequests.find? (fun r => r.offset == offset) = some r →
      offset + r.length ≤ min size (wrapAdd offset length)) :
    (markBlockReceived piece i size offset length).1.Kept i size := by
  have hoffset' : offset < 2 ^ 32 := hoffset.trans hsize
  have hend : min size (wrapAdd offset length) < 2 ^ 32 := (min_le_left _ _).trans_lt hsize
  obtain ⟨hspaced, hbounded⟩ := spaced_mergeReceivedInterval (i := i)
    (wrapSub (min size (wrapAdd offset length)) offset) h.spaced h.bounded hoffset'
  refine h.of_received hspaced hbounded (fun x hx => ?_) hfits
  apply within_mergeReceivedInterval _ h.spaced h.bounded hoffset'
  rw [wrapAdd_wrapSub hend hoffset']
  exact hx

theorem Kept.requeueBlock (h : piece.Kept i size) {length : Nat}
    (hfits : ∀ r, piece.inflightRequests.find? (fun r => r.offset == offset) = some r →
      r.length ≤ min length (size - offset)) :
    (requeueBlock piece i size offset length).Kept i size := by
  refine ⟨h.next_le, fun x hx => ?_, fun r hr => ?_, fun r hr => ?_, h.spaced, h.bounded⟩
  · rcases h.covered x hx with hcov | ⟨r, hr, hasks⟩ | ⟨r, hr, hasks⟩
    · exact .inl hcov
    · rcases mem_eraseInflight_or offset hr with hleft | hfirst
      · exact .inr (.inl ⟨r, hleft, hasks⟩)
      · have hr := hfits r hfirst
        have hat : r.offset = offset := by simpa using List.find?_some hfirst
        obtain ⟨hlow, hhigh⟩ := hasks
        refine .inr (.inr (asks_pushRetry _ ⟨?_, ?_⟩))
        · change offset ≤ x
          omega
        · change x < offset + min length (size - offset)
          omega
    · exact .inr (.inr ⟨r, mem_pushRetry_of_mem _ hr, hasks⟩)
  · exact h.inflight_index r (mem_of_mem_eraseInflight hr)
  · rcases mem_pushRetry hr with rfl | hr
    · rfl
    · exact h.retry_index r hr

variable (inflight : List PieceBlockRequest)

theorem popRetry_covers (hr : r ∈ queue) (hx : x < size) (hasks : r.Asks x) :
    (∃ r ∈ inflight, r.Asks x) ∨ (∃ r ∈ (popRetry inflight size queue).1, r.Asks x) ∨
      ∃ r ∈ (popRetry inflight size queue).2, r.Asks x := by
  fun_induction popRetry inflight size queue with
  | case1 => cases hr
  | case2 request queue hdrop =>
    rcases List.mem_cons.mp hr with rfl | hr
    · refine .inr (.inr ⟨_, rfl, hasks.1, ?_⟩)
      have := hasks.1
      have := hasks.2
      change x < r.offset + min r.length (size - r.offset)
      omega
    · exact .inr (.inl ⟨r, hr, hasks⟩)
  | case3 request queue hdrop ih =>
    rcases List.mem_cons.mp hr with rfl | hr
    · have hlow : r.offset < size := Nat.lt_of_le_of_lt hasks.1 hx
      have hflight : isInflight inflight r.offset r.length = true := by simpa [hlow] using hdrop
      exact .inl (asks_of_isInflight hflight hasks.1 hasks.2)
    · exact ih hr

theorem popRetry_index (size : Nat) (hqueue : ∀ r ∈ queue, r.pieceIndex = i) :
    (∀ r ∈ (popRetry inflight size queue).1, r.pieceIndex = i) ∧
      ∀ r ∈ (popRetry inflight size queue).2, r.pieceIndex = i := by
  fun_induction popRetry inflight size queue with
  | case1 => exact ⟨hqueue, nofun⟩
  | case2 request queue hdrop =>
    obtain ⟨hrequest, hrest⟩ := List.forall_mem_cons.mp hqueue
    refine ⟨hrest, fun r hr => ?_⟩
    obtain rfl := mem_some_iff.mp hr
    exact hrequest
  | case3 request queue hdrop ih => exact ih (List.forall_mem_cons.mp hqueue).2

theorem nextBlock_covers (requestSize turns : Nat) {next : Nat} (hnext : next ≤ size) :
    (nextBlock inflight size requestSize turns next).1 ≤ size ∧
      ∀ x, next ≤ x → x < (nextBlock inflight size requestSize turns next).1 →
        (∃ r ∈ inflight, r.Asks x) ∨
          ∃ block ∈ (nextBlock inflight size requestSize turns next).2,
            block.1 ≤ x ∧ x < block.1 + block.2 := by
  fun_induction nextBlock inflight size requestSize turns next with
  | case1 | case4 => exact ⟨hnext, fun x hlow hhigh => absurd hhigh (Nat.not_lt.mpr hlow)⟩
  | case2 turns next hroom length hfree =>
    exact ⟨by omega, fun x hlow hhigh => .inr ⟨_, rfl, hlow, hhigh⟩⟩
  | case3 turns next hroom length hflight ih =>
    rw [not_not] at hflight
    obtain ⟨hle, hcov⟩ := ih (by omega)
    refine ⟨hle, fun x hlow hhigh => ?_⟩
    rcases Nat.lt_or_ge x (next + min requestSize (size - next)) with hx | hx
    · exact .inl (asks_of_isInflight hflight hlow hx)
    · exact hcov x hx hhigh

theorem Kept.of_select (h : piece.Kept i size)
    (hpop : popRetry piece.inflightRequests size piece.retryRequests = (queue, retry))
    (hretry : ∀ r ∈ retry, ∀ x, r.Asks x → ∃ r ∈ extra, r.Asks x)
    (hindex : ∀ r ∈ extra, r.pieceIndex = i) (hle : next ≤ size)
    (hnext : ∀ x, piece.nextRequestOffset ≤ x → x < next →
      (∃ r ∈ piece.inflightRequests, r.Asks x) ∨ ∃ r ∈ extra, r.Asks x) :
    ({ piece with
        downloading := true
        retryRequests := queue
        nextRequestOffset := next
        inflightRequests := piece.inflightRequests ++ extra } : Piece).Kept i size := by
  have hflight : ∀ {x}, (∃ r ∈ piece.inflightRequests, r.Asks x) ∨ (∃ r ∈ extra, r.Asks x) →
      ∃ r ∈ piece.inflightRequests ++ extra, r.Asks x := by
    rintro x (⟨r, hr, hasks⟩ | ⟨r, hr, hasks⟩)
    · exact ⟨r, List.mem_append_left _ hr, hasks⟩
    · exact ⟨r, List.mem_append_right _ hr, hasks⟩
  have hqueue := (popRetry_index piece.inflightRequests size h.retry_index).1
  rw [hpop] at hqueue
  refine ⟨hle, fun x hx => ?_, List.forall_mem_append.mpr ⟨h.inflight_index, hindex⟩, hqueue,
    h.spaced, h.bounded⟩
  rcases Nat.lt_or_ge x piece.nextRequestOffset with hlt | hge
  · rcases h.covered x hlt with hcov | hcov | ⟨r, hr, hasks⟩
    · exact .inl hcov
    · exact .inr (.inl (hflight (.inl hcov)))
    · have hcov := popRetry_covers piece.inflightRequests hr (hlt.trans_le h.next_le) hasks
      rw [hpop] at hcov
      rcases hcov with hcov | hcov | ⟨r, hr, hasks⟩
      · exact .inr (.inl (hflight (.inl hcov)))
      · exact .inr (.inr hcov)
      · exact .inr (.inl (hflight (.inr (hretry r hr x hasks))))
  · exact .inr (.inl (hflight (hnext x hge hx)))

theorem Kept.select (h : piece.Kept i size) (requestSize nowMs : Nat) :
    (select piece i size requestSize nowMs).1.Kept i size := by
  obtain ⟨hle, hnext⟩ := nextBlock_covers piece.inflightRequests requestSize size h.next_le
  unfold Piece.select
  split
  · rename_i queue retry hpop
    have hindex := (popRetry_index piece.inflightRequests size h.retry_index).2 retry
    rw [hpop] at hindex
    refine h.of_select hpop ?_ (List.forall_mem_singleton.mpr (hindex rfl)) h.next_le
      fun x hlow hhigh => absurd hhigh (Nat.not_lt.mpr hlow)
    rintro _ ⟨⟩ x hasks
    exact ⟨_, List.mem_cons_self, hasks⟩
  · rename_i queue hpop
    split
    · rename_i nextOffset offset length hblock
      rw [hblock] at hle hnext
      refine h.of_select hpop nofun (List.forall_mem_singleton.mpr rfl) hle fun x hlow hhigh =>
        (hnext x hlow hhigh).imp_right ?_
      rintro ⟨_, ⟨⟩, hasks⟩
      exact ⟨_, List.mem_cons_self, hasks⟩
    · rename_i nextOffset hblock
      rw [hblock] at hle hnext
      have hnone : ∀ r ∈ ([] : List PieceBlockRequest), r.pieceIndex = i := nofun
      have hkept := h.of_select hpop nofun hnone hle fun x hlow hhigh =>
        (hnext x hlow hhigh).imp_right fun ⟨_, hmem, _⟩ => nomatch hmem
      rwa [List.append_nil] at hkept

def timeout (nowMs timeoutMs : Nat) (piece : Piece) : Piece :=
  { piece with
    inflightRequests :=
      piece.inflightRequests.filter (! timedOut nowMs timeoutMs ·)
    retryRequests := (piece.inflightRequests.filter
      (timedOut nowMs timeoutMs)).foldl
        (fun queue request => pushRetry queue { request with submitTimeMs := 0 })
        piece.retryRequests }

theorem mem_foldl_pushRetry {requests : List PieceBlockRequest} (h : r ∈ requests.foldl
      (fun queue request => pushRetry queue { request with submitTimeMs := 0 }) queue) :
    r ∈ queue ∨ ∃ request ∈ requests, r = { request with submitTimeMs := 0 } := by
  induction requests generalizing queue with
  | nil => exact .inl h
  | cons request requests ih =>
    rcases ih h with h | ⟨r', hr', rfl⟩
    · rcases mem_pushRetry h with rfl | h
      · exact .inr ⟨request, List.mem_cons_self, rfl⟩
      · exact .inl h
    · exact .inr ⟨r', List.mem_cons_of_mem _ hr', rfl⟩

theorem asks_foldl_pushRetry {requests : List PieceBlockRequest}
    (h : (∃ r ∈ queue, r.Asks x) ∨ ∃ r ∈ requests, r.Asks x) :
    ∃ r ∈ requests.foldl (fun queue request => pushRetry queue { request with submitTimeMs := 0 })
      queue, r.Asks x := by
  induction requests generalizing queue with
  | nil => exact h.resolve_right (by simp)
  | cons request requests ih =>
    apply ih
    rcases h with ⟨r, hr, hasks⟩ | ⟨r, hr, hasks⟩
    · exact .inl ⟨r, mem_pushRetry_of_mem _ hr, hasks⟩
    · rcases List.mem_cons.mp hr with rfl | hr
      · exact .inl (asks_pushRetry queue hasks)
      · exact .inr ⟨r, hr, hasks⟩

theorem Kept.timeout (h : piece.Kept i size) (nowMs timeoutMs : Nat) :
    (piece.timeout nowMs timeoutMs).Kept i size := by
  refine ⟨h.next_le, fun x hx => ?_, fun r hr => ?_, fun r hr => ?_, h.spaced, h.bounded⟩
  · rcases h.covered x hx with hcov | ⟨r, hr, hasks⟩ | hcov
    · exact .inl hcov
    · cases hout : timedOut nowMs timeoutMs r with
      | true =>
        have hmem := List.mem_filter.mpr ⟨hr, hout⟩
        exact .inr (.inr (asks_foldl_pushRetry (.inr ⟨r, hmem, hasks⟩)))
      | false =>
        have hmem := List.mem_filter (p := (! timedOut nowMs timeoutMs ·)).mpr ⟨hr, by simp [hout]⟩
        exact .inr (.inl ⟨r, hmem, hasks⟩)
    · exact .inr (.inr (asks_foldl_pushRetry (.inl hcov)))
  · exact h.inflight_index r (List.mem_of_mem_filter hr)
  · rcases mem_foldl_pushRetry hr with hr | ⟨request, hmem, rfl⟩
    · exact h.retry_index r hr
    · exact h.inflight_index request (List.mem_of_mem_filter hmem)

theorem had_received (piece : Piece) (inflight received : List PieceBlockRequest) (bytes : Nat) :
    ({ piece with
        inflightRequests := inflight
        receivedRequests := received
        receivedBytes := bytes } : Piece).had = piece.had := rfl

theorem had_markBlockReceived (piece : Piece) (i size offset length : Nat) :
    (markBlockReceived piece i size offset length).1.had = piece.had :=
  -- `rfl` here would compare the two pieces field by field, and compute the merge
  had_received piece _ _ _

theorem had_select (requestSize nowMs : Nat) :
    (select piece i size requestSize nowMs).1.had = piece.had := by
  unfold select
  split
  · rfl
  · split <;> rfl

end Piece

namespace PieceDownloadState

variable {s : PieceDownloadState}

/-- What is kept of the pieces that are not had. -/
def Kept (s : PieceDownloadState) : Prop :=
  ∀ (i : Nat) (piece : Piece), s.pieces[i]? = some piece → piece.had = false →
    piece.Kept i (s.expectedPieceSize i)

theorem expectedPieceSize_lt (s : PieceDownloadState) (i : Nat) :
    s.expectedPieceSize i < 2 ^ 32 := by
  rw [expectedPieceSize]
  split
  · decide
  · dsimp only
    split
    · decide
    · exact Nat.mod_lt _ (by decide)

theorem expectedPieceSize_modifyPiece (s : PieceDownloadState) (i j : Nat) (f : Piece → Piece) :
    (s.modifyPiece i f).expectedPieceSize j = s.expectedPieceSize j := by
  have hlength : (s.modifyPiece i f).pieces.length = s.pieces.length := List.length_modify ..
  unfold expectedPieceSize
  rw [hlength]
  rfl

theorem Kept.modifyPiece (h : s.Kept)
    (hf : ∀ piece, s.pieces[i]? = some piece → (f piece).had = false →
      piece.had = false ∧ (piece.Kept i (s.expectedPieceSize i) →
        (f piece).Kept i (s.expectedPieceSize i))) : (s.modifyPiece i f).Kept := by
  intro j piece hget hhad
  rw [expectedPieceSize_modifyPiece]
  rw [PieceDownloadState.modifyPiece, List.getElem?_modify] at hget
  cases hold : s.pieces[j]? with
  | none => simp [hold] at hget
  | some old =>
    simp only [hold, map_eq_map, map_some, Option.some.injEq] at hget
    split_ifs at hget with heq
    · subst heq hget
      obtain ⟨hhad, hkept⟩ := hf old hold hhad
      exact hkept (h i old hold hhad)
    · subst hget
      exact h j old hold hhad

theorem modifyPiece_modifyPiece (s : PieceDownloadState) (i : Nat) (f g : Piece → Piece) :
    (s.modifyPiece i f).modifyPiece i g = s.modifyPiece i (g ∘ f) := by
  simp [modifyPiece, List.modify_modify_eq]

theorem foldl_modifyPiece {requests : List PieceBlockRequest}
    (hindex : ∀ r ∈ requests, r.pieceIndex = i) (f : PieceBlockRequest → Piece → Piece)
    (g : Piece → Piece) :
    requests.foldl (fun s r => s.modifyPiece r.pieceIndex (f r)) (s.modifyPiece i g) =
      s.modifyPiece i fun piece => requests.foldl (fun piece r => f r piece) (g piece) := by
  induction requests generalizing g with
  | nil => rfl
  | cons r requests ih =>
    obtain ⟨hr, hindex⟩ := List.forall_mem_cons.mp hindex
    rw [List.foldl_cons, hr, modifyPiece_modifyPiece, ih hindex]
    rfl

theorem foldl_retry (requests : List PieceBlockRequest) (piece : Piece) :
    requests.foldl (fun piece r => { piece with
        retryRequests := pushRetry piece.retryRequests { r with submitTimeMs := 0 } }) piece =
      { piece with
        retryRequests := requests.foldl
          (fun queue request => pushRetry queue { request with submitTimeMs := 0 })
          piece.retryRequests } := by
  induction requests generalizing piece with
  | nil => rfl
  | cons r requests ih => rw [List.foldl_cons, ih]; rfl

theorem timeoutPiece_eq (hget : s.pieces[i]? = some piece) (hhad : piece.had = false)
    (hindex : ∀ r ∈ piece.inflightRequests, r.pieceIndex = i) (nowMs timeoutMs : Nat) :
    timeoutPiece nowMs timeoutMs s i = s.modifyPiece i fun _ => piece.timeout nowMs timeoutMs := by
  rw [timeoutPiece, hget]
  simp only [hhad, Bool.false_eq_true, if_false]
  rw [foldl_modifyPiece fun r hr => hindex r (List.mem_of_mem_filter hr)]
  simp only [foldl_retry]
  rw [modifyPiece, modifyPiece, List.modify_eq_set_getElem?, List.modify_eq_set_getElem?, hget]
  rfl

theorem Kept.timeoutPiece (h : s.Kept) (nowMs timeoutMs i : Nat) :
    (timeoutPiece nowMs timeoutMs s i).Kept := by
  cases hget : s.pieces[i]? with
  | none =>
    rw [PieceDownloadState.timeoutPiece, hget]
    exact h
  | some piece =>
    cases hhad : piece.had with
    | true =>
      rw [PieceDownloadState.timeoutPiece, hget]
      simp only [hhad, if_true]
      exact h
    | false =>
      have hpiece := h i piece hget hhad
      rw [timeoutPiece_eq hget hhad hpiece.inflight_index]
      refine h.modifyPiece fun old hold _ => ?_
      obtain rfl : piece = old := some.inj (hget.symm.trans hold)
      exact ⟨hhad, fun hkept => hkept.timeout nowMs timeoutMs⟩

theorem Kept.timeoutInflightRequests (h : s.Kept) (nowMs timeoutMs : Nat) :
    (s.timeoutInflightRequests nowMs timeoutMs).Kept :=
  run_preserves (I := Kept) (fun _ i h => Kept.timeoutPiece h nowMs timeoutMs i) h _

theorem Kept.trySelectRequestFromPiece (h : s.Kept) (i requestSize nowMs : Nat) :
    (s.trySelectRequestFromPiece i requestSize nowMs).1.Kept := by
  unfold PieceDownloadState.trySelectRequestFromPiece
  split
  · exact h
  rename_i piece hget
  split
  · exact h
  · refine h.modifyPiece fun old hold hhad => ?_
    obtain rfl : piece = old := some.inj (hget.symm.trans hold)
    rw [Piece.had_select] at hhad
    exact ⟨hhad, fun hkept => hkept.select requestSize nowMs⟩

theorem Kept.trySelectCandidate (h : s.Kept) (candidate : Option (Nat × Nat))
    (requestSize nowMs : Nat) : (s.trySelectCandidate candidate requestSize nowMs).1.Kept := by
  cases candidate with
  | none => exact h
  | some candidate => exact h.trySelectRequestFromPiece candidate.1 requestSize nowMs

theorem Kept.selectNextRequest (h : s.Kept) (peerPieces : List Bool)
    (pieceAvailability : Option (List Nat)) (requestSize maxActivePieces nowMs : Nat) :
    (s.selectNextRequest peerPieces pieceAvailability requestSize maxActivePieces
      nowMs).1.Kept := by
  have hactive := h.trySelectCandidate (s.candidates peerPieces pieceAvailability).1
    requestSize nowMs
  unfold PieceDownloadState.selectNextRequest
  dsimp only
  split
  · rename_i s' request heq
    rw [heq] at hactive
    exact hactive
  · rename_i s' heq
    rw [heq] at hactive
    split
    · exact hactive
    · exact hactive.trySelectCandidate _ requestSize nowMs

/-- The request that a block at this offset takes away, in a piece that is not had. -/
def inflightAt (s : PieceDownloadState) (pieceIndex offset : Nat) : Option PieceBlockRequest :=
  match s.pieces[pieceIndex]? with
  | none => none
  | some piece =>
    if piece.had then none
    else piece.inflightRequests.find? fun request => request.offset == offset

/-- A block that comes in, or that is to be asked for again, reaches to the end of the request
that it takes away. -/
def Reaches (s : PieceDownloadState) : Label → Prop
  | .markBlockReceived pieceIndex offset length =>
    s.Inside pieceIndex.toNat offset.toNat length.toNat →
      ∀ r ∈ s.inflightAt pieceIndex.toNat offset.toNat, offset.toNat + r.length ≤
        min (s.expectedPieceSize pieceIndex.toNat) (wrapAdd offset.toNat length.toNat)
  | .requeueBlock pieceIndex offset length =>
    s.Inside pieceIndex.toNat offset.toNat length.toNat →
      ∀ r ∈ s.inflightAt pieceIndex.toNat offset.toNat,
        r.length ≤ min length.toNat (s.expectedPieceSize pieceIndex.toNat - offset.toNat)
  | _ => True

instance (s : PieceDownloadState) (l : Label) : Decidable (s.Reaches l) := by
  cases l with
  | markBlockReceived | requeueBlock => exact inferInstanceAs (Decidable (_ → ∀ r ∈ _, _))
  | _ => exact isTrue trivial

theorem inflightAt_of_get {offset : Nat} (hget : s.pieces[i]? = some piece)
    (hhad : piece.had = false) :
    s.inflightAt i offset =
      piece.inflightRequests.find? fun request => request.offset == offset := by
  simp [inflightAt, hget, hhad]

theorem Kept.markBlockReceived (h : s.Kept) {offset length : Nat}
    (hreaches : s.Inside i offset length → ∀ r ∈ s.inflightAt i offset,
      offset + r.length ≤ min (s.expectedPieceSize i) (wrapAdd offset length)) :
    (s.markBlockReceived i offset length).1.Kept := by
  unfold PieceDownloadState.markBlockReceived
  split
  · exact h
  rename_i piece hget
  split_ifs with hinside
  · refine h.modifyPiece fun old hold hhad => ?_
    obtain rfl : piece = old := some.inj (hget.symm.trans hold)
    rw [Piece.had_markBlockReceived] at hhad
    refine ⟨hhad, fun hkept => hkept.markBlockReceived hinside.1 (expectedPieceSize_lt s i) ?_⟩
    intro r hr
    rw [← inflightAt_of_get hget hhad] at hr
    exact hreaches hinside r hr
  · exact h

theorem Kept.requeueBlock (h : s.Kept) {offset length : Nat}
    (hreaches : s.Inside i offset length → ∀ r ∈ s.inflightAt i offset,
      r.length ≤ min length (s.expectedPieceSize i - offset)) :
    (s.requeueBlock i offset length).Kept := by
  unfold PieceDownloadState.requeueBlock
  split_ifs with hinside
  · refine h.modifyPiece fun piece hget hhad => ?_
    cases hold : piece.had with
    | true => simp [hold] at hhad
    | false =>
      refine ⟨rfl, fun hkept => ?_⟩
      refine hkept.requeueBlock fun r hr => ?_
      rw [← inflightAt_of_get hget hold] at hr
      exact hreaches hinside r hr
  · exact h

theorem Kept.step (h : s.Kept) (l : Label) (hreaches : s.Reaches l) : (s.step l).Kept := by
  cases l with
  | selectNextRequest peerPieces pieceAvailability requestSize maxActivePieces nowMs =>
    exact h.selectNextRequest _ _ _ _ _
  | markBlockReceived pieceIndex offset length => exact h.markBlockReceived hreaches
  | requeueBlock pieceIndex offset length => exact h.requeueBlock hreaches
  | timeoutInflightRequests nowMs timeoutMs => exact h.timeoutInflightRequests _ _
  | markPieceDownloading pieceIndex =>
    refine h.modifyPiece fun piece _ hhad => ⟨hhad, fun hkept => ?_⟩
    exact ⟨hkept.next_le, hkept.covered, hkept.inflight_index, hkept.retry_index, hkept.spaced,
      hkept.bounded⟩
  | markPieceFailed pieceIndex =>
    exact h.modifyPiece fun piece _ hhad => ⟨hhad, fun _ => Piece.Kept.markFailed piece⟩
  | markPieceCompleted pieceIndex => exact h.modifyPiece nofun

theorem kept_reset (pieceCount totalLength pieceLength : Int) :
    (reset pieceCount totalLength pieceLength).Kept := by
  intro i piece hget _
  obtain rfl := List.eq_of_mem_replicate (List.mem_of_getElem? hget)
  exact Piece.Kept.markFailed {}

/-- No byte below the next offset is forgotten in a run in which every block reaches to the end of
the request that it takes away. -/
theorem covered_run (pieceCount totalLength pieceLength : Int) (ls : List Label)
    (hreaches : Along step Reaches (reset pieceCount totalLength pieceLength) ls) (i : Nat)
    (piece : Piece)
    (hget : (run step (reset pieceCount totalLength pieceLength) ls).pieces[i]? = some piece)
    (hhad : piece.had = false) (x : Nat) (hx : x < piece.nextRequestOffset) : piece.Covered x :=
  have hkept := run_invariant (I := Kept) (fun _ l h hl => Kept.step h l hl)
    (kept_reset pieceCount totalLength pieceLength) hreaches
  (hkept i piece hget hhad).covered x hx

def askBlock : Label := .selectNextRequest [true] none ⟨16384, by decide⟩ 1 0

/-- Of two blocks one is received and the other requeued. -/
theorem covered_run_two_blocks :
    Along step Reaches (reset 1 40000 40000)
        [askBlock, askBlock, .markBlockReceived 0 0 16384, .requeueBlock 0 16384 16384] ∧
      ∃ piece, (run step (reset 1 40000 40000) [askBlock, askBlock, .markBlockReceived 0 0 16384,
          .requeueBlock 0 16384 16384]).pieces[0]? = some piece ∧
        piece.nextRequestOffset = 32768 ∧ ∀ x < 32768, piece.Covered x := by
  have hreaches : Along step Reaches (reset 1 40000 40000) [askBlock, askBlock,
      .markBlockReceived 0 0 16384, .requeueBlock 0 16384 16384] := by decide +kernel
  have hget : (run step (reset 1 40000 40000) [askBlock, askBlock, .markBlockReceived 0 0 16384,
      .requeueBlock 0 16384 16384]).pieces[0]? = some
        { downloading := true
          nextRequestOffset := 32768
          receivedBytes := 16384
          retryRequests := [⟨0, 16384, 16384, 0⟩]
          receivedRequests := [⟨0, 0, 16384, 0⟩] } := by decide +kernel
  exact ⟨hreaches, _, hget, rfl, covered_run 1 40000 40000 _ hreaches 0 _ hget rfl⟩

/-- A block of 100 bytes takes the request for 16384 bytes away. -/
theorem not_covered_short_block :
    ∃ piece, (run step (reset 1 40000 40000)
        [askBlock, .markBlockReceived 0 0 100]).pieces[0]? = some piece ∧
      piece.had = false ∧ 100 < piece.nextRequestOffset ∧ ¬ piece.Covered 100 := by
  refine ⟨{ downloading := true
            nextRequestOffset := 16384
            receivedBytes := 100
            receivedRequests := [⟨0, 0, 100, 0⟩] }, by decide +kernel, rfl, by decide, ?_⟩
  simp [Piece.Covered, Within, span, wrapAdd]

end PieceDownloadState

end ServerLib.BitTorrent

import ServerLib.BitTorrent.Storage

/-! What has been committed is read back. -/

namespace ServerLib.BitTorrent

open Lib Function

/-! ### Layouts -/

/-- The files lie one after the other, from `start` to `last`. -/
def Consecutive : Nat → List TorrentFile → Nat → Prop
  | start, [], last => start = last
  | start, file :: files, last =>
    file.offset = start ∧ Consecutive (start + file.length) files last

namespace TorrentInfo

/-- Consecutive files whose paths differ, or a single file. -/
structure WellFormed (info : TorrentInfo) : Prop where
  consecutive : info.files ≠ [] → Consecutive 0 info.files info.totalLength
  distinct : (info.files.map TorrentFile.path).Nodup

/-- A single file is a list of one file whose path is the name of the torrent. -/
def entries (info : TorrentInfo) : List TorrentFile :=
  if info.files = [] then [⟨info.totalLength, [], 0⟩] else info.files

variable {info : TorrentInfo}

theorem WellFormed.distinct_entries (h : info.WellFormed) :
    (info.entries.map TorrentFile.path).Nodup := by
  rw [entries]
  split
  · exact List.nodup_singleton _
  · exact h.distinct

theorem WellFormed.eq_of_path (h : info.WellFormed) (hfile : file ∈ info.entries)
    (hfile' : file' ∈ info.entries) (hpath : file.path = file'.path) : file = file' :=
  List.inj_on_of_nodup_map h.distinct_entries hfile hfile' hpath

theorem expectedPieceSize_of_pos (h : 0 < info.expectedPieceSize i) :
    info.expectedPieceSize i = min info.pieceLength (info.totalLength - i * info.pieceLength) := by
  unfold expectedPieceSize at h ⊢
  split_ifs with hi
  · rfl
  · rw [if_neg hi] at h
    exact absurd h (Nat.lt_irrefl 0)

theorem pieces_apart (info : TorrentInfo) (hij : i ≠ j) :
    i * info.pieceLength + info.expectedPieceSize i ≤ j * info.pieceLength ∨
      j * info.pieceLength + info.expectedPieceSize j ≤ i * info.pieceLength := by
  have hsize : ∀ k, info.expectedPieceSize k ≤ info.pieceLength := by
    intro k
    unfold expectedPieceSize
    split
    · exact Nat.min_le_left _ _
    · exact Nat.zero_le _
  rcases Nat.lt_or_gt_of_ne hij with hlt | hgt
  · have hnext := Nat.mul_le_mul_right info.pieceLength (Nat.succ_le_of_lt hlt)
    rw [Nat.succ_mul] at hnext
    have := hsize i
    omega
  · have hnext := Nat.mul_le_mul_right info.pieceLength (Nat.succ_le_of_lt hgt)
    rw [Nat.succ_mul] at hnext
    have := hsize j
    omega

end TorrentInfo

namespace PieceStorage

variable {info : TorrentInfo}

/-! ### Data in a file -/

/-- The first and the last place of the data that lie in the file. -/
def overlap (start : Nat) (data : Bytes) (file : TorrentFile) : Nat × Nat :=
  (max start file.offset, min (start + data.length) (file.offset + file.length))

def Overlaps (start : Nat) (data : Bytes) (file : TorrentFile) : Prop :=
  (overlap start data file).1 < (overlap start data file).2

/-- The part of the data that belongs to the file is in it. -/
def Stored (info : TorrentInfo) (fs : FileSystem) (start : Nat) (data : Bytes)
    (file : TorrentFile) : Prop :=
  Overlaps start data file →
    safeJoinPath (info.name :: file.path) = some (info.name :: file.path) ∧
    ∃ content, fs (info.name :: file.path) = some content ∧
      ∀ k, (overlap start data file).1 ≤ k → k < (overlap start data file).2 →
        content[k - file.offset]? = data[k - start]?

theorem safeJoinPath_eq_some {path : Path} (h : safeJoinPath components = some path) :
    path = components := by
  unfold safeJoinPath at h
  split at h
  · exact (Option.some.inj h).symm
  · cases h

/-- The file system after the part of the data that belongs to a file was written. -/
def writeOverlap (info : TorrentInfo) (fs : FileSystem) (start : Nat) (data : Bytes)
    (file : TorrentFile) : FileSystem :=
  writePieceSliceToFile fs (info.name :: file.path) ((overlap start data file).1 - file.offset)
    ((data.drop ((overlap start data file).1 - start)).take
      ((overlap start data file).2 - (overlap start data file).1))

variable {data : Bytes} {start i : Nat}

theorem overlap_single (hend : start + data.length ≤ last) :
    overlap start data ⟨last, [], 0⟩ = (start, start + data.length) := by
  refine Prod.ext (Nat.max_eq_left (Nat.zero_le _)) ?_
  change min (start + data.length) (0 + last) = start + data.length
  omega

theorem overlap_bounds (start : Nat) (data : Bytes) (file : TorrentFile) :
    start ≤ (overlap start data file).1 ∧ file.offset ≤ (overlap start data file).1 ∧
      (overlap start data file).2 ≤ start + data.length :=
  ⟨Nat.le_max_left _ _, Nat.le_max_right _ _, Nat.min_le_left _ _⟩

theorem length_part :
    ((data.drop ((overlap start data file).1 - start)).take
      ((overlap start data file).2 - (overlap start data file).1)).length =
        (overlap start data file).2 - (overlap start data file).1 := by
  rw [List.length_take, List.length_drop]
  unfold overlap
  omega

section

variable {start : Nat}

theorem stored_writeOverlap
    (hsafe : safeJoinPath (info.name :: file.path) = some (info.name :: file.path)) :
    Stored info (writeOverlap info fs start data file) start data file := by
  intro hoverlaps
  refine ⟨hsafe, _, update_self _ _ _, fun k hlow hhigh => ?_⟩
  obtain ⟨hstart, hoffset, -⟩ := overlap_bounds start data file
  rw [getElem?_writeAt_inside (by omega) (by rw [length_part]; omega),
    List.getElem?_take_of_lt (by omega), List.getElem?_drop]
  congr 1
  omega

theorem Stored.writeOverlap (h : Stored info fs start' data' file')
    (hother : file'.path = file.path → file' = file ∧
      (start' + data'.length ≤ start ∨ start + data.length ≤ start')) :
    Stored info (writeOverlap info fs start data file) start' data' file' := by
  intro hoverlaps
  obtain ⟨hsafe, content, hcontent, hstored⟩ := h hoverlaps
  by_cases hpath : file'.path = file.path
  · obtain ⟨rfl, hapart⟩ := hother hpath
    refine ⟨hsafe, _, update_self _ _ _, fun k hlow hhigh => ?_⟩
    have hold := hstored k hlow hhigh
    rw [← hold, hcontent, Option.getD_some]
    have hdata : k - start' < data'.length := by
      have := overlap_bounds start' data' file'
      omega
    apply getElem?_writeAt_outside
    · rw [length_part]
      unfold overlap at hlow hhigh ⊢
      omega
    · by_contra hge
      rw [List.getElem?_eq_none (Nat.not_lt.mp hge), List.getElem?_eq_getElem hdata] at hold
      cases hold
  · refine ⟨hsafe, content, ?_, hstored⟩
    have hne : info.name :: file'.path ≠ info.name :: file.path :=
      fun heq => hpath (List.cons.inj heq).2
    rw [PieceStorage.writeOverlap, writePieceSliceToFile, update_of_ne hne, hcontent]

theorem Stored.update_pieceFile (h : Stored info fs start data file) (pieceIndex : Nat)
    (content : Option Bytes) :
    Stored info (Function.update fs (pieceFilePath info pieceIndex) content) start data file := by
  have hne : info.name :: file.path ≠ pieceFilePath info pieceIndex := by
    intro heq
    have hname := congrArg List.length (List.cons.inj heq).1
    rw [List.length_append, List.length_append] at hname
    have : 0 < partialMark.length := by decide
    omega
  intro hoverlaps
  obtain ⟨hsafe, content', hcontent, hstored⟩ := h hoverlaps
  refine ⟨hsafe, content', ?_, hstored⟩
  rw [update_of_ne hne, hcontent]

end

/-! ### Commits -/

section

variable {start : Nat}

theorem Stored.commitFiles (h : Stored info fs start' data' file') (start : Nat) (data : Bytes)
    (files : List TorrentFile) (hother : ∀ file ∈ files, file'.path = file.path → file' = file ∧
      (start' + data'.length ≤ start ∨ start + data.length ≤ start')) :
    Stored info (commitFiles info start data files fs).1 start' data' file' := by
  fun_induction PieceStorage.commitFiles info start data files fs with
  | case1 | case3 => exact h
  | case2 file files fs _ _ _ ih => exact ih h (List.forall_mem_cons.mp hother).2
  | case4 file files fs _ _ _ path hsafe ih =>
    obtain rfl := safeJoinPath_eq_some hsafe
    obtain ⟨hfile, hrest⟩ := List.forall_mem_cons.mp hother
    exact ih (h.writeOverlap hfile) hrest

theorem stored_commitFiles (hdistinct : (files.map TorrentFile.path).Nodup)
    (hok : (commitFiles info start data files fs).2) (hfile : file ∈ files) :
    Stored info (commitFiles info start data files fs).1 start data file := by
  fun_induction commitFiles info start data files fs with
  | case1 => cases hfile
  | case2 first files fs _ _ hnone ih =>
    rcases List.mem_cons.mp hfile with rfl | hfile
    · exact fun hoverlaps => absurd hoverlaps (Nat.not_lt.mpr hnone)
    · exact ih (List.nodup_cons.mp hdistinct).2 hok hfile
  | case3 => cases hok
  | case4 first files fs _ _ _ path hsafe ih =>
    obtain rfl := safeJoinPath_eq_some hsafe
    obtain ⟨hfirst, hdistinct⟩ := List.nodup_cons.mp hdistinct
    rcases List.mem_cons.mp hfile with rfl | hfile
    · -- the files after the first one have other paths
      exact (stored_writeOverlap hsafe).commitFiles start data files fun file' hmem hpath =>
        absurd (hpath ▸ List.mem_map_of_mem hmem) hfirst
    · exact ih hdistinct hok hfile

theorem commitFiles_ok (hsafe : ∀ file ∈ files, Overlaps start data file →
      safeJoinPath (info.name :: file.path) = some (info.name :: file.path)) (fs : FileSystem) :
    (commitFiles info start data files fs).2 := by
  fun_induction commitFiles info start data files fs with
  | case1 => rfl
  | case2 file files fs _ _ _ ih => exact ih (List.forall_mem_cons.mp hsafe).2
  | case3 file files fs _ _ hoverlaps hnone =>
    rw [hsafe file List.mem_cons_self (Nat.not_le.mp hoverlaps)] at hnone
    cases hnone
  | case4 file files fs _ _ _ path _ ih => exact ih (List.forall_mem_cons.mp hsafe).2

theorem commitData_eq (fs : FileSystem) (hpos : 0 < data.length)
    (hend : start + data.length ≤ info.totalLength) :
    commitData info fs start data = commitFiles info start data info.entries fs := by
  rw [commitData, TorrentInfo.entries]
  split
  · obtain ⟨hlow, hhigh⟩ := Prod.ext_iff.mp (overlap_single hend)
    dsimp only [overlap] at hlow hhigh
    rw [commitFiles]
    simp only [hlow, hhigh]
    rw [if_neg (by omega)]
    simp [commitFiles]
  · rfl

end

/-! ### Blocks -/

theorem readSlice_of_stored (low high : Nat) (h : Stored info fs start data file)
    (hoverlaps : Overlaps start data file) (hlow : (overlap start data file).1 ≤ low)
    (hhigh : high ≤ (overlap start data file).2) (hle : low ≤ high) :
    safeJoinPath (info.name :: file.path) = some (info.name :: file.path) ∧
      readPieceSliceFromFile fs (info.name :: file.path) (low - file.offset) (high - low) =
        some ((data.drop (low - start)).take (high - low)) := by
  obtain ⟨hsafe, content, hcontent, hstored⟩ := h hoverlaps
  obtain ⟨hstart, hoffset, hend⟩ := overlap_bounds start data file
  refine ⟨hsafe, ?_⟩
  rw [readPieceSliceFromFile, hcontent]
  apply readAt_eq_some
  · rw [List.length_take, List.length_drop]
    omega
  · intro k hk
    have hbyte := hstored (low + k) (by omega) (by omega)
    rw [List.getElem?_take_of_lt hk, List.getElem?_drop]
    rw [show low - file.offset + k = low + k - file.offset by omega, hbyte]
    congr 1
    omega

structure ReadUpTo (data : Bytes) (start blockStart length first : Nat) (out : Bytes)
    (written : Nat) : Prop where
  length_out : out.length = length
  written_eq : written = min (blockStart + length) first - blockStart
  bytes : ∀ k < length, blockStart + k < first → out[k]? = data[blockStart + k - start]?

theorem readFiles_of_stored (hfiles : Consecutive first files last)
    (hstored : ∀ file ∈ files, Stored info fs start data file) (hlow : start ≤ blockStart)
    (hhigh : blockStart + length ≤ start + data.length) (hlast : blockStart + length ≤ last)
    (hread : ReadUpTo data start blockStart length first out written) :
    ∃ out', readFiles info fs blockStart length files out written = some (out', length) ∧
      out' = (data.drop (blockStart - start)).take length := by
  induction files generalizing first out written with
  | nil =>
    obtain rfl : first = last := hfiles
    refine ⟨out, ?_, ?_⟩
    · rw [readFiles, hread.written_eq]
      congr 2
      omega
    · apply List.ext_getElem?
      intro k
      rcases Nat.lt_or_ge k length with hk | hk
      · rw [hread.bytes k hk (by omega), List.getElem?_take_of_lt hk, List.getElem?_drop]
        congr 1
        omega
      · rw [List.getElem?_eq_none (by rw [hread.length_out]; exact hk),
          List.getElem?_eq_none (by rw [List.length_take]; omega)]
  | cons file files ih =>
    obtain ⟨hoffset, hfiles⟩ := hfiles
    obtain ⟨hfile, hrest⟩ := List.forall_mem_cons.mp hstored
    rw [readFiles]
    split_ifs with hnone
    · refine ih hfiles hrest ⟨hread.length_out, ?_, fun k hk hfirst => ?_⟩
      · rw [hread.written_eq]
        omega
      · exact hread.bytes k hk (by omega)
    · obtain ⟨hsafe, hslice⟩ := readSlice_of_stored (max blockStart file.offset)
        (min (blockStart + length) (file.offset + file.length))
        hfile (by unfold Overlaps overlap; dsimp only; omega)
        (by unfold overlap; dsimp only; omega) (by unfold overlap; dsimp only; omega) (by omega)
      have hpart : ((data.drop (max blockStart file.offset - start)).take
          (min (blockStart + length) (file.offset + file.length) -
            max blockStart file.offset)).length =
          min (blockStart + length) (file.offset + file.length) - max blockStart file.offset := by
        rw [List.length_take, List.length_drop]
        omega
      rw [hsafe]
      dsimp only
      rw [hslice]
      refine ih hfiles hrest ⟨?_, ?_, fun k hk hfirst => ?_⟩
      · rw [length_writeAt (by rw [hpart, hread.length_out]; omega), hread.length_out]
      · rw [hread.written_eq]
        omega
      · rcases Nat.lt_or_ge (blockStart + k) first with hbefore | hhere
        · rw [getElem?_writeAt_outside (by omega) (by rw [hread.length_out]; exact hk)]
          exact hread.bytes k hk hbefore
        · rw [getElem?_writeAt_inside (by omega) (by rw [hpart]; omega),
            List.getElem?_take_of_lt (by omega), List.getElem?_drop]
          congr 1
          omega

/-- A committed piece: its size is right, and all its parts are stored. -/
structure CommittedTo (info : TorrentInfo) (fs : FileSystem) (i : Nat) (data : Bytes) : Prop where
  pos : 0 < data.length
  size : data.length = info.expectedPieceSize i
  stored : ∀ file ∈ info.entries, Stored info fs (i * info.pieceLength) data file

theorem end_le_totalLength (hpos : 0 < data.length)
    (hsize : data.length = info.expectedPieceSize i) :
    i * info.pieceLength + data.length ≤ info.totalLength := by
  have hmin := TorrentInfo.expectedPieceSize_of_pos (hsize ▸ hpos)
  omega

theorem CommittedTo.readBlock (h : CommittedTo info fs i data) (hinfo : info.WellFormed)
    (hfit : offset + length ≤ data.length) :
    readBlock info fs i offset length =
      if offset < data.length % 2 ^ 32 then some ((data.drop offset).take length) else none := by
  have hend := end_le_totalLength h.pos h.size
  rw [PieceStorage.readBlock]
  dsimp only
  rw [← h.size]
  by_cases hoffset : offset < data.length % 2 ^ 32
  · rw [if_neg (by omega), if_pos hoffset]
    have hstored := h.stored
    split_ifs with hfiles
    · rw [TorrentInfo.entries, if_pos hfiles] at hstored
      have hoverlap := overlap_single hend
      obtain ⟨hsafe, hslice⟩ := readSlice_of_stored (i * info.pieceLength + offset)
        (i * info.pieceLength + offset + length) (hstored _ List.mem_cons_self)
        (by rw [Overlaps, hoverlap]; dsimp only; omega) (by rw [hoverlap]; dsimp only; omega)
        (by rw [hoverlap]; dsimp only; omega) (Nat.le_add_right _ _)
      rw [hsafe]
      rw [Nat.sub_zero, Nat.add_sub_cancel_left, Nat.add_sub_cancel_left] at hslice
      exact hslice
    · rw [TorrentInfo.entries, if_neg hfiles] at hstored
      have hread : ReadUpTo data (i * info.pieceLength) (i * info.pieceLength + offset) length 0
          (List.replicate length 0) 0 :=
        ⟨List.length_replicate, by omega, fun _ _ h => absurd h (Nat.not_lt_zero _)⟩
      obtain ⟨out, heq, hout⟩ := readFiles_of_stored (hinfo.consecutive hfiles) hstored
        (Nat.le_add_right _ _) (by omega) (by omega) hread
      rw [heq]
      dsimp only
      rw [if_pos rfl, hout, Nat.add_sub_cancel_left]
  · rw [if_pos (.inr (.inl (Nat.not_lt.mp hoffset))), if_neg hoffset]

/-! ### Runs -/

theorem committable_size (h : committable info verified fs i = some data) :
    0 < data.length ∧ data.length = info.expectedPieceSize i := by
  unfold committable at h
  split at h
  · unfold readPieceData at h
    split at h
    · cases h
    unfold readPieceSliceFromFile at h
    split at h
    · cases h
    · unfold readAt at h
      split at h
      · cases h
        omega
      · cases h
  · cases h

theorem commitPiece_cases (info : TorrentInfo) (verified : Nat → Bytes → Bool) (fs : FileSystem)
    (i : Nat) :
    (committable info verified fs i = none ∧ commitPiece info verified fs i = (fs, false)) ∨
    ∃ data, committable info verified fs i = some data ∧
      ((commitFiles info (i * info.pieceLength) data info.entries fs).2 = false ∧
        commitPiece info verified fs i =
          ((commitFiles info (i * info.pieceLength) data info.entries fs).1, false) ∨
      (commitFiles info (i * info.pieceLength) data info.entries fs).2 ∧
        commitPiece info verified fs i =
          (Function.update (commitFiles info (i * info.pieceLength) data info.entries fs).1
            (pieceFilePath info i) none, true)) := by
  rw [commitPiece]
  cases hdata : committable info verified fs i with
  | none => exact .inl ⟨rfl, rfl⟩
  | some data =>
    obtain ⟨hpos, hsize⟩ := committable_size hdata
    refine .inr ⟨data, rfl, ?_⟩
    rw [← commitData_eq fs hpos (end_le_totalLength hpos hsize)]
    dsimp only
    split
    · rename_i fs' heq
      rw [heq]
      exact .inr ⟨rfl, rfl⟩
    · rename_i fs' heq
      rw [heq]
      exact .inl ⟨rfl, rfl⟩

theorem CommittedTo.commitPiece (h : CommittedTo info fs i data) (hinfo : info.WellFormed)
    (verified : Nat → Bytes → Bool) (hij : i ≠ j) :
    CommittedTo info (commitPiece info verified fs j).1 i data := by
  refine ⟨h.pos, h.size, fun file hfile => ?_⟩
  rcases commitPiece_cases info verified fs j with ⟨-, heq⟩ | ⟨data', hdata', hcases⟩
  · rw [heq]
    exact h.stored file hfile
  · have hapart := info.pieces_apart hij
    rw [← h.size, ← (committable_size hdata').2] at hapart
    have hstored := (h.stored file hfile).commitFiles (j * info.pieceLength) data' info.entries
      fun file' hfile' hpath => ⟨hinfo.eq_of_path hfile hfile' hpath, hapart⟩
    rcases hcases with ⟨-, heq⟩ | ⟨-, heq⟩
    · rw [heq]
      exact hstored
    · rw [heq]
      exact hstored.update_pieceFile j none

theorem CommittedTo.commitFiles_ok (h : CommittedTo info fs i data)
    (hsize : data'.length = info.expectedPieceSize i) :
    (commitFiles info (i * info.pieceLength) data' info.entries fs').2 := by
  apply PieceStorage.commitFiles_ok
  intro file hfile hoverlaps
  have hsame : Overlaps (i * info.pieceLength) data file := by
    unfold Overlaps overlap at hoverlaps ⊢
    rw [h.size, ← hsize]
    exact hoverlaps
  exact (h.stored file hfile hsame).1

def Sound (info : TorrentInfo) (s : Store) : Prop :=
  ∀ i data, s.committed i = some data → CommittedTo info s.fs i data

theorem Sound.update_pieceFile (h : Sound info s) (i : Nat) (content : Option Bytes) :
    Sound info { s with fs := Function.update s.fs (pieceFilePath info i) content } := by
  intro j data hdata
  obtain ⟨hpos, hsize, hstored⟩ := h j data hdata
  exact ⟨hpos, hsize, fun file hfile => (hstored file hfile).update_pieceFile i content⟩

theorem committedTo_commitFiles (hinfo : info.WellFormed) (hpos : 0 < data.length)
    (hsize : data.length = info.expectedPieceSize i)
    (hok : (commitFiles info (i * info.pieceLength) data info.entries fs).2) :
    CommittedTo info (Function.update
      (commitFiles info (i * info.pieceLength) data info.entries fs).1 (pieceFilePath info i) none)
      i data := by
  refine ⟨hpos, hsize, fun file hfile => ?_⟩
  exact (stored_commitFiles hinfo.distinct_entries hok hfile).update_pieceFile i none

theorem step_commitPiece (s : Store) (i : Nat) :
    step info verified s (.commitPiece i) =
      { fs := (commitPiece info verified s.fs i).1
        committed := if (commitPiece info verified s.fs i).2 then
          Function.update s.committed i (committable info verified s.fs i) else s.committed } := by
  rw [step]
  split
  all_goals
    rename_i fs heq
    rw [heq]
    rfl

theorem Sound.step (h : Sound info s) (hinfo : info.WellFormed) (l : Label) :
    Sound info (step info verified s l) := by
  cases l with
  | writePiece i offset data =>
    rw [PieceStorage.step, writePiece]
    split
    · exact h.update_pieceFile i _
    · exact h
  | discardPiece i => exact h.update_pieceFile i none
  | commitPiece i =>
    rw [step_commitPiece]
    intro j data hdata
    dsimp only at hdata ⊢
    by_cases hij : j = i
    · subst hij
      rcases commitPiece_cases info verified s.fs j with
        ⟨-, heq⟩ | ⟨data', hdata', ⟨hfailed, heq⟩ | ⟨hok, heq⟩⟩
      · rw [heq] at hdata ⊢
        exact h j data hdata
      · rw [heq] at hdata
        rw [(h j data hdata).commitFiles_ok (committable_size hdata').2] at hfailed
        cases hfailed
      · rw [heq, if_pos rfl, update_self, hdata'] at hdata
        rw [heq]
        cases hdata
        obtain ⟨hpos, hsize⟩ := committable_size hdata'
        exact committedTo_commitFiles hinfo hpos hsize hok
    · have hold : s.committed j = some data := by
        split at hdata
        · rwa [update_of_ne hij] at hdata
        · exact hdata
      exact (h j data hold).commitPiece hinfo verified hij

theorem sound_run (hinfo : info.WellFormed) (verified : Nat → Bytes → Bool) (fs : FileSystem)
    (ls : List Label) : Sound info (run (step info verified) { fs } ls) :=
  run_preserves (I := Sound info) (fun _ l h => h.step hinfo l) (fun _ _ h => by cases h) ls

/-- Any block of a committed piece is read back exactly if its offset is below the size of the
piece as a number of 32 bits, and commits of other pieces do not change what is read. -/
theorem readBlock_run_iff (info : TorrentInfo) (hinfo : info.WellFormed)
    (verified : Nat → Bytes → Bool) (fs : FileSystem) (ls : List Label) (i : Nat) (data : Bytes)
    (hdata : (run (step info verified) { fs } ls).committed i = some data) (offset length : UInt32)
    (hfit : offset.toNat + length.toNat ≤ data.length) :
    (readBlock info (run (step info verified) { fs } ls).fs i offset.toNat length.toNat =
        some ((data.drop offset.toNat).take length.toNat) ↔
      offset.toNat < data.length % 2 ^ 32) ∧
    ∀ j ≠ i, readBlock info
        (commitPiece info verified (run (step info verified) { fs } ls).fs j).1 i offset.toNat
          length.toNat =
      readBlock info (run (step info verified) { fs } ls).fs i offset.toNat length.toNat := by
  have hcommitted := sound_run hinfo verified fs ls i data hdata
  have hread := hcommitted.readBlock hinfo hfit
  refine ⟨?_, fun j hj => ?_⟩
  · rw [hread]
    split_ifs with hlt
    · exact iff_of_true rfl hlt
    · exact iff_of_false (fun h => by cases h) hlt
  · rw [hread]
    exact (hcommitted.commitPiece hinfo verified (Ne.symm hj)).readBlock hinfo hfit

def threeFiles : TorrentInfo :=
  { pieceLength := 4, name := [116], totalLength := 6
    files := [⟨3, [[97]], 0⟩, ⟨0, [[98]], 3⟩, ⟨3, [[99], [100]], 3⟩] }

def twoCommits : List Label :=
  [.writePiece 0 0 [1, 2, 3, 4], .writePiece 1 0 [5, 6], .commitPiece 1, .commitPiece 0]

/-- Two pieces, committed in the other order. -/
theorem readBlock_run_threeFiles :
    threeFiles.WellFormed ∧
      (run (step threeFiles fun _ _ => true) { fs := fun _ => none } twoCommits).committed 0 =
        some [1, 2, 3, 4] ∧
      readBlock threeFiles (run (step threeFiles fun _ _ => true) { fs := fun _ => none }
        twoCommits).fs 0 1 3 = some [2, 3, 4] := by
  have hinfo : threeFiles.WellFormed := ⟨fun _ => by simp [threeFiles, Consecutive], by decide⟩
  have hcommitted : (run (step threeFiles fun _ _ => true) { fs := fun _ => none }
      twoCommits).committed 0 = some [1, 2, 3, 4] := by decide +kernel
  exact ⟨hinfo, hcommitted, (readBlock_run_iff threeFiles hinfo (fun _ _ => true) (fun _ => none)
    twoCommits 0 _ hcommitted 1 3 (by decide)).1.mpr (by decide)⟩

def onePiece (size : Nat) : TorrentInfo :=
  { pieceLength := size, name := [116], totalLength := size, files := [] }

def pieceOnDisk (size : Nat) : FileSystem :=
  Function.update (fun _ => none) (pieceFilePath (onePiece size) 0)
    (some (List.replicate size 0))

theorem committed_onePiece (hpos : 0 < size) (hsize : (onePiece size).expectedPieceSize 0 = size) :
    (run (step (onePiece size) fun _ _ => true) { fs := pieceOnDisk size }
      [.commitPiece 0]).committed 0 = some (List.replicate size 0) := by
  have hfile : pieceOnDisk size (pieceFilePath (onePiece size) 0) =
      some (List.replicate size 0) := update_self _ _ _
  have hverify : verifyPiece (onePiece size) (fun _ _ => true) (pieceOnDisk size) 0 := by
    rw [verifyPiece, hfile]
    simp [hsize, hpos]
  have hread : readPieceData (onePiece size) (pieceOnDisk size) 0 =
      some (List.replicate size 0) := by
    rw [readPieceData, hsize, if_neg (by omega), readPieceSliceFromFile, hfile]
    exact readAt_eq_some List.length_replicate fun k _ => by rw [Nat.zero_add]
  have hdata : committable (onePiece size) (fun _ _ => true) (pieceOnDisk size) 0 =
      some (List.replicate size 0) := by
    rw [committable, hverify, if_pos rfl, hread]
  have hsafe : ∀ file ∈ (onePiece size).entries,
      safeJoinPath ((onePiece size).name :: file.path) =
        some ((onePiece size).name :: file.path) := by
    intro file hfile
    rw [TorrentInfo.entries, onePiece, if_pos rfl, List.mem_singleton] at hfile
    rw [hfile]
    rfl
  rw [run_cons, run_nil]
  rcases commitPiece_cases (onePiece size) (fun _ _ => true) (pieceOnDisk size) 0 with
    ⟨hnone, -⟩ | ⟨data, -, ⟨hfailed, -⟩ | ⟨-, heq⟩⟩
  · rw [hdata] at hnone
    cases hnone
  · rw [PieceStorage.commitFiles_ok fun file hfile _ => hsafe file hfile] at hfailed
    cases hfailed
  · rw [step_commitPiece, heq]
    dsimp only
    rw [if_pos rfl, update_self, hdata]

/-- A piece of `2 ^ 32` bytes is committed, and its first byte is not read. -/
theorem not_readBlock_large_piece :
    (run (step (onePiece (2 ^ 32)) fun _ _ => true) { fs := pieceOnDisk (2 ^ 32) }
        [.commitPiece 0]).committed 0 = some (List.replicate (2 ^ 32) 0) ∧
      readBlock (onePiece (2 ^ 32)) (run (step (onePiece (2 ^ 32)) fun _ _ => true)
        { fs := pieceOnDisk (2 ^ 32) } [.commitPiece 0]).fs 0 0 1 = none := by
  have hsize : (onePiece (2 ^ 32)).expectedPieceSize 0 = 2 ^ 32 := by decide
  constructor
  · exact committed_onePiece (Nat.two_pow_pos 32) hsize
  · rw [readBlock, hsize]
    exact if_pos (.inr (.inl (Nat.le_of_eq (Nat.mod_self _))))

end PieceStorage

end ServerLib.BitTorrent

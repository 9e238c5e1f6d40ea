import Mathlib.Tactic.Ring
import ServerLib.Lib.Run

/-! `SnowflakeIdGenerator`: 64-bit identifiers made of a time, a node and a sequence number. -/

namespace ServerLib.Base

open Lib List

def customEpochMs : UInt64 := 1704067200000

def sequenceBits : UInt64 := 12

def nodeBits : UInt64 := 10

def sequenceMask : UInt64 := (1 <<< sequenceBits) - 1

def nodeMask : UInt64 := (1 <<< nodeBits) - 1

def nodeShift : UInt64 := sequenceBits

def timeShift : UInt64 := sequenceBits + nodeBits

structure SnowflakeIdGenerator where
  nodeId : UInt64
  lastMs : UInt64 := 0
  sequence : UInt64 := 0

namespace SnowflakeIdGenerator

def new (nodeId : UInt64) : SnowflakeIdGenerator := { nodeId := nodeId &&& nodeMask }

def advance (g : SnowflakeIdGenerator) (unixMs : Int64) : SnowflakeIdGenerator :=
  let now := unixMs.toUInt64
  let safeNow := if now < g.lastMs then g.lastMs else now
  if safeNow = g.lastMs then { g with sequence := (g.sequence + 1) &&& sequenceMask }
  else { g with sequence := 0, lastMs := safeNow }

def id (g : SnowflakeIdGenerator) : UInt64 :=
  ((g.lastMs - customEpochMs) <<< timeShift) ||| (g.nodeId <<< nodeShift) ||| g.sequence

/-- In both branches `safe_now` is what `last_ms_` is afterwards. -/
def next (g : SnowflakeIdGenerator) (unixMs : Int64) : UInt64 × SnowflakeIdGenerator :=
  let g' := g.advance unixMs
  (g'.id, g')

/-- What the calls of `next` return, one for each reading of the clock. -/
def ids : SnowflakeIdGenerator → List Int64 → List UInt64
  | _, [] => []
  | g, unixMs :: readings => (g.next unixMs).1 :: ids (g.next unixMs).2 readings

/-- The time is in the 42 bits that it has, and so are the node and the sequence number in
theirs. -/
structure Fits (g : SnowflakeIdGenerator) : Prop where
  node : g.nodeId.toNat < 2 ^ 10
  sequence : g.sequence.toNat < 2 ^ 12
  epoch : customEpochMs.toNat ≤ g.lastMs.toNat
  time : g.lastMs.toNat < customEpochMs.toNat + 2 ^ 42

theorem toNat_timeShift : timeShift.toNat % 64 = 22 := by decide

theorem toNat_nodeShift : nodeShift.toNat % 64 = 12 := by decide

theorem or_fields {time node sequence : Nat} (htime : time < 2 ^ 42) (hnode : node < 2 ^ 10)
    (hsequence : sequence < 2 ^ 12) :
    time <<< 22 % 2 ^ 64 ||| node <<< 12 % 2 ^ 64 ||| sequence =
      time * 2 ^ 22 + node * 2 ^ 12 + sequence := by
  have htimeLt : time <<< 22 < 2 ^ 64 := by
    rw [Nat.shiftLeft_eq]
    exact Nat.mul_lt_mul_of_pos_right htime (Nat.two_pow_pos 22)
  have hnodeLt : node <<< 12 < 2 ^ 22 := by
    rw [Nat.shiftLeft_eq]
    exact Nat.mul_lt_mul_of_pos_right hnode (Nat.two_pow_pos 12)
  have hlow : node * 2 ^ 12 + sequence < 2 ^ 22 := by
    omega
  rw [Nat.mod_eq_of_lt htimeLt, Nat.mod_eq_of_lt (hnodeLt.trans (by decide)), Nat.or_assoc,
    ← Nat.shiftLeft_add_eq_or_of_lt hsequence, Nat.shiftLeft_eq node,
    ← Nat.shiftLeft_add_eq_or_of_lt hlow, Nat.shiftLeft_eq, Nat.add_assoc]

variable {g : SnowflakeIdGenerator}

theorem Fits.toNat_id (h : g.Fits) :
    g.id.toNat = (g.lastMs.toNat - customEpochMs.toNat) * 2 ^ 22 + g.nodeId.toNat * 2 ^ 12 +
      g.sequence.toNat := by
  have htime : g.lastMs.toNat - customEpochMs.toNat < 2 ^ 42 :=
    Nat.sub_lt_left_of_lt_add h.epoch h.time
  rw [id, UInt64.toNat_or, UInt64.toNat_or, UInt64.toNat_shiftLeft, UInt64.toNat_shiftLeft,
    toNat_timeShift, toNat_nodeShift,
    UInt64.toNat_sub_of_le _ _ (UInt64.le_iff_toNat_le.mpr h.epoch)]
  exact or_fields htime h.node h.sequence

theorem Fits.node_id (h : g.Fits) : g.id.toNat / 2 ^ 12 % 2 ^ 10 = g.nodeId.toNat := by
  have hnode := h.node
  have hsequence := h.sequence
  rw [h.toNat_id]
  omega

/-- At or after the custom epoch and less than 2^42 ms past it. -/
def InRange (unixMs : Int64) : Prop :=
  customEpochMs.toNat ≤ unixMs.toInt ∧ unixMs.toInt < customEpochMs.toNat + 2 ^ 42

instance (unixMs : Int64) : Decidable (InRange unixMs) := inferInstanceAs (Decidable (_ ∧ _))

theorem InRange.toNat_toUInt64 (h : InRange unixMs) :
    (unixMs.toUInt64.toNat : Int) = unixMs.toInt := by
  have hcond := BitVec.toInt_eq_toNat_cond unixMs.toBitVec
  have hint : unixMs.toInt = unixMs.toBitVec.toInt := rfl
  have hnat : unixMs.toUInt64.toNat = unixMs.toBitVec.toNat := rfl
  have hepoch := h.1
  rw [hnat, hint] at *
  split at hcond <;> omega

/-- The call has a number left in the sequence of its reading. -/
def Room (g : SnowflakeIdGenerator) (unixMs : Int64) : Prop :=
  unixMs.toInt ≤ g.lastMs.toNat → g.sequence.toNat < 2 ^ 12 - 1

theorem advance_later (h : InRange unixMs) (hlater : (g.lastMs.toNat : Int) < unixMs.toInt) :
    g.advance unixMs = { g with sequence := 0, lastMs := unixMs.toUInt64 } := by
  have hlt : g.lastMs < unixMs.toUInt64 := by
    rw [UInt64.lt_iff_toNat_lt]
    have := h.toNat_toUInt64
    omega
  rw [advance, if_neg (UInt64.not_lt.mpr (UInt64.le_of_lt hlt)), if_neg (UInt64.ne_of_lt hlt).symm]

theorem advance_notLater (h : InRange unixMs) (hnot : unixMs.toInt ≤ g.lastMs.toNat) :
    g.advance unixMs = { g with sequence := (g.sequence + 1) &&& sequenceMask } := by
  have hle : unixMs.toUInt64 ≤ g.lastMs := by
    rw [UInt64.le_iff_toNat_le]
    have := h.toNat_toUInt64
    omega
  have hsafe : (if unixMs.toUInt64 < g.lastMs then g.lastMs else unixMs.toUInt64) = g.lastMs := by
    split_ifs with hge
    · rfl
    · exact UInt64.le_antisymm hle (UInt64.not_lt.mp hge)
  rw [advance, if_pos hsafe]

theorem toNat_and_sequenceMask (n : UInt64) : (n &&& sequenceMask).toNat = n.toNat % 2 ^ 12 := by
  rw [UInt64.toNat_and]
  exact Nat.and_two_pow_sub_one_eq_mod n.toNat 12

theorem toNat_sequence_succ (n : UInt64) :
    ((n + 1) &&& sequenceMask).toNat = (n.toNat + 1) % 2 ^ 12 := by
  rw [toNat_and_sequenceMask, UInt64.toNat_add]
  have hone : (1 : UInt64).toNat = 1 := rfl
  omega

theorem fits_advance_later (hnode : g.nodeId.toNat < 2 ^ 10) (hrange : InRange unixMs)
    (hlater : (g.lastMs.toNat : Int) < unixMs.toInt) : (g.advance unixMs).Fits := by
  have hcast := hrange.toNat_toUInt64
  obtain ⟨hepoch, htime⟩ := hrange
  rw [advance_later ⟨hepoch, htime⟩ hlater]
  exact ⟨hnode, Nat.two_pow_pos 12, by dsimp only; omega, by dsimp only; omega⟩

theorem Fits.advance (h : g.Fits) (hrange : InRange unixMs) : (g.advance unixMs).Fits := by
  rcases lt_or_ge (g.lastMs.toNat : Int) unixMs.toInt with hlater | hnot
  · exact fits_advance_later h.node hrange hlater
  · rw [advance_notLater hrange hnot]
    refine ⟨h.node, ?_, h.epoch, h.time⟩
    rw [toNat_and_sequenceMask]
    exact Nat.mod_lt _ (by decide)

theorem Fits.id_lt_advance (h : g.Fits) (hrange : InRange unixMs) :
    g.id < (g.advance unixMs).id ↔ g.Room unixMs := by
  have hnext := (h.advance hrange).toNat_id
  have hsequence := h.sequence
  have hepoch := h.epoch
  rw [UInt64.lt_iff_toNat_lt, h.toNat_id, hnext, Room]
  rcases lt_or_ge (g.lastMs.toNat : Int) unixMs.toInt with hlater | hnot
  · have hcast := hrange.toNat_toUInt64
    rw [advance_later hrange hlater]
    dsimp only
    omega
  · rw [advance_notLater hrange hnot]
    dsimp only
    rw [toNat_sequence_succ]
    omega

theorem isChain_ids (h : g.Fits) (hrange : ∀ unixMs ∈ readings, InRange unixMs) :
    (g.id :: g.ids readings).IsChain (· < ·) ↔ Along advance Room g readings := by
  induction readings generalizing g with
  | nil => simp [ids]
  | cons unixMs readings ih =>
    obtain ⟨hfirst, hrest⟩ := forall_mem_cons.mp hrange
    rw [ids, next, isChain_cons_cons, along_cons, h.id_lt_advance hfirst,
      ih (h.advance hfirst) hrest]

theorem nodeId_advance (g : SnowflakeIdGenerator) (unixMs : Int64) :
    (g.advance unixMs).nodeId = g.nodeId := by
  rw [advance, apply_ite nodeId, ite_self]

theorem Fits.node_ids (h : g.Fits) (hrange : ∀ unixMs ∈ readings, InRange unixMs) :
    ∀ x ∈ g.ids readings, x.toNat / 2 ^ 12 % 2 ^ 10 = g.nodeId.toNat := by
  induction readings generalizing g with
  | nil => simp [ids]
  | cons unixMs readings ih =>
    obtain ⟨hfirst, hrest⟩ := forall_mem_cons.mp hrange
    rw [← nodeId_advance g unixMs, ids, next, forall_mem_cons]
    exact ⟨(h.advance hfirst).node_id, ih (h.advance hfirst) hrest⟩

section New

variable (nodeId : UInt64)

theorem toNat_nodeId_new : (new nodeId).nodeId.toNat = nodeId.toNat % 2 ^ 10 := by
  rw [new, UInt64.toNat_and]
  exact Nat.and_two_pow_sub_one_eq_mod nodeId.toNat 10

theorem InRange.later (h : InRange unixMs) : ((new nodeId).lastMs.toNat : Int) < unixMs.toInt := by
  have hepoch := h.1
  have hpos : 0 < customEpochMs.toNat := by decide
  have hzero : (new nodeId).lastMs.toNat = 0 := rfl
  omega

theorem fits_first (h : InRange unixMs) : ((new nodeId).advance unixMs).Fits := by
  refine fits_advance_later ?_ h (h.later nodeId)
  rw [toNat_nodeId_new]
  exact Nat.mod_lt _ (by decide)

theorem pairwise_ids_new (hrange : ∀ unixMs ∈ readings, InRange unixMs) :
    ((new nodeId).ids readings).Pairwise (· < ·) ↔ Along advance Room (new nodeId) readings := by
  cases readings with
  | nil => simp [ids]
  | cons unixMs readings =>
    obtain ⟨hfirst, hrest⟩ := forall_mem_cons.mp hrange
    have hroom : (new nodeId).Room unixMs := fun hle =>
      absurd (hfirst.later nodeId) (not_lt.mpr hle)
    rw [← isChain_iff_pairwise, ids, next, isChain_ids (fits_first nodeId hfirst) hrest,
      along_cons]
    exact (and_iff_right hroom).symm

theorem node_ids_new (hrange : ∀ unixMs ∈ readings, InRange unixMs) :
    ∀ x ∈ (new nodeId).ids readings, x.toNat / 2 ^ 12 % 2 ^ 10 = nodeId.toNat % 2 ^ 10 := by
  cases readings with
  | nil => simp [ids]
  | cons unixMs readings =>
    obtain ⟨hfirst, hrest⟩ := forall_mem_cons.mp hrange
    have hfits := fits_first nodeId hfirst
    rw [← toNat_nodeId_new, ← nodeId_advance _ unixMs, ids, next, forall_mem_cons]
    exact ⟨hfits.node_id, hfits.node_ids hrest⟩

end New

def peaks : Int → List Int64 → List Int
  | _, [] => []
  | peak, unixMs :: readings =>
    max peak unixMs.toInt :: peaks (max peak unixMs.toInt) readings

theorem le_of_mem_peaks (h : m ∈ peaks peak readings) : peak ≤ m := by
  induction readings generalizing peak with
  | nil => simp [peaks] at h
  | cons unixMs readings ih =>
    rw [peaks, mem_cons] at h
    rcases h with rfl | h
    · exact le_max_left _ _
    · exact (le_max_left _ _).trans (ih h)

theorem count_peaks_of_lt (hlt : m < peak) (readings : List Int64) :
    (peaks peak readings).count m = 0 :=
  count_eq_zero.mpr fun hmem => absurd (le_of_mem_peaks hmem) (not_le.mpr hlt)

/-- `g` has made `g.sequence + 1` calls at its time. -/
theorem along_room_iff (hsequence : g.sequence.toNat < 2 ^ 12)
    (hrange : ∀ unixMs ∈ readings, InRange unixMs) :
    Along advance Room g readings ↔
      g.sequence.toNat + 1 + (peaks g.lastMs.toNat readings).count (g.lastMs.toNat : Int) ≤ 2 ^ 12 ∧
        ∀ m : Int, m ≠ g.lastMs.toNat → (peaks g.lastMs.toNat readings).count m ≤ 2 ^ 12 := by
  induction readings generalizing g with
  | nil => simp [peaks]; omega
  | cons unixMs readings ih =>
    obtain ⟨hfirst, hrest⟩ := forall_mem_cons.mp hrange
    rw [along_cons, Room, peaks]
    rcases lt_or_ge (g.lastMs.toNat : Int) unixMs.toInt with hlater | hnot
    · -- a new time
      have hcast := hfirst.toNat_toUInt64
      rw [advance_later hfirst hlater, ih (by exact Nat.two_pow_pos 12) hrest,
        max_eq_right hlater.le]
      dsimp only
      rw [hcast, count_cons_of_ne hlater.ne', count_peaks_of_lt hlater]
      constructor
      · rintro ⟨-, hnow, hother⟩
        refine ⟨hsequence, fun m hm => ?_⟩
        by_cases heq : m = unixMs.toInt
        · rw [heq, count_cons_self]
          omega
        · rw [count_cons_of_ne (Ne.symm heq)]
          exact hother m heq
      · rintro ⟨-, hother⟩
        refine ⟨fun hle => absurd hlater (not_lt.mpr hle), ?_, fun m hm => ?_⟩
        · have hcount := hother unixMs.toInt hlater.ne'
          rw [count_cons_self] at hcount
          have hzero : (0 : UInt64).toNat = 0 := rfl
          omega
        · by_cases heq : m = g.lastMs.toNat
          · rw [heq, count_peaks_of_lt hlater]
            exact Nat.zero_le _
          · have hcount := hother m heq
            rwa [count_cons_of_ne hm.symm] at hcount
    · -- the time stays
      rw [max_eq_left hnot, count_cons_self, advance_notLater hfirst hnot]
      have hother : (∀ m : Int, m ≠ g.lastMs.toNat →
          ((g.lastMs.toNat : Int) :: peaks g.lastMs.toNat readings).count m ≤ 2 ^ 12) ↔
          ∀ m : Int, m ≠ g.lastMs.toNat → (peaks g.lastMs.toNat readings).count m ≤ 2 ^ 12 :=
        forall₂_congr fun m hm => by rw [count_cons_of_ne hm.symm]
      have hlt : ((g.sequence + 1) &&& sequenceMask).toNat < 2 ^ 12 := by
        rw [toNat_and_sequenceMask]
        exact Nat.mod_lt _ (by decide)
      rw [hother, ih (g := { g with sequence := (g.sequence + 1) &&& sequenceMask }) hlt hrest]
      dsimp only
      rw [← and_assoc, toNat_sequence_succ]
      refine and_congr_left fun _ => ?_
      omega

theorem along_room_new (nodeId : UInt64) (hrange : ∀ unixMs ∈ readings, InRange unixMs) :
    Along advance Room (new nodeId) readings ↔ ∀ m, (peaks 0 readings).count m ≤ 2 ^ 12 := by
  have hzero : ((new nodeId).lastMs.toNat : Int) = 0 := rfl
  have hcount : (peaks 0 readings).count 0 = 0 := by
    cases readings with
    | nil => rfl
    | cons unixMs readings =>
      have hlater := (hrange unixMs mem_cons_self).later nodeId
      rw [hzero] at hlater
      rw [peaks, max_eq_right hlater.le, count_cons_of_ne hlater.ne', count_peaks_of_lt hlater]
  rw [along_room_iff (by exact Nat.two_pow_pos 12) hrange, hzero, hcount]
  constructor
  · rintro ⟨-, hother⟩ m
    by_cases hm : m = 0
    · rw [hm, hcount]
      exact Nat.zero_le _
    · exact hother m hm
  · exact fun h => ⟨Nat.le_of_ble_eq_true rfl, fun m _ => h m⟩

/-- The identifiers grow, and none is one of a generator with another node, exactly if the
greatest reading so far is the same for 4096 calls at most. -/
theorem ids_increasing_iff (nodeId : UInt64) {readings : List Int64}
    (hrange : ∀ unixMs ∈ readings, InRange unixMs) :
    (((new nodeId).ids readings).Pairwise (· < ·) ∧
      ∀ (nodeId' : UInt64) (readings' : List Int64), nodeId < 1024 → nodeId' < 1024 →
        nodeId ≠ nodeId' → (∀ unixMs ∈ readings', InRange unixMs) →
        ∀ x ∈ (new nodeId).ids readings, x ∉ (new nodeId').ids readings') ↔
      ∀ m, (peaks 0 readings).count m ≤ 4096 := by
  rw [pairwise_ids_new nodeId hrange, along_room_new nodeId hrange]
  refine and_iff_left fun nodeId' readings' hnode hnode' hne hrange' x hx hx' => hne ?_
  have hsame := (node_ids_new nodeId hrange x hx).symm.trans (node_ids_new nodeId' hrange' x hx')
  rw [UInt64.lt_iff_toNat_lt] at hnode hnode'
  have hmax : (1024 : UInt64).toNat = 1024 := rfl
  exact UInt64.toNat_inj.mp (by omega)

def testReading : Int64 := 1704067201000

theorem inRange_testReading : InRange testReading := by decide

theorem ids_increasing_test :
    ((new 7).ids [testReading, testReading]).Pairwise (· < ·) ∧
      ∀ (nodeId' : UInt64) (readings' : List Int64), (7 : UInt64) < 1024 → nodeId' < 1024 →
        7 ≠ nodeId' → (∀ unixMs ∈ readings', InRange unixMs) →
        ∀ x ∈ (new 7).ids [testReading, testReading], x ∉ (new nodeId').ids readings' :=
  (ids_increasing_iff 7 (by simp [inRange_testReading])).mpr fun _ =>
    count_le_length.trans (by simp [peaks])

theorem peaks_replicate (h : peak ≤ unixMs.toInt) (n : Nat) :
    peaks peak (replicate n unixMs) = replicate n unixMs.toInt := by
  induction n generalizing peak with
  | zero => rfl
  | succ n ih => rw [replicate_succ, peaks, max_eq_right h, ih le_rfl, replicate_succ]

/-- After 4096 calls at one reading the sequence starts again at 0. -/
theorem not_ids_increasing_replicate :
    (∀ unixMs ∈ replicate 4097 testReading, InRange unixMs) ∧
      ¬ ((new 7).ids (replicate 4097 testReading)).Pairwise (· < ·) := by
  have hrange : ∀ unixMs ∈ replicate 4097 testReading, InRange unixMs := by
    intro unixMs hmem
    rw [eq_of_mem_replicate hmem]
    exact inRange_testReading
  refine ⟨hrange, fun hpairwise => ?_⟩
  rw [pairwise_ids_new 7 hrange, along_room_new 7 hrange] at hpairwise
  have hcount := hpairwise testReading.toInt
  rw [peaks_replicate (by decide), count_replicate_self] at hcount
  omega

end SnowflakeIdGenerator

end ServerLib.Base

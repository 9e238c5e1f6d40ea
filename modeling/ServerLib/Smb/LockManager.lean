import Mathlib.Algebra.Group.Nat.Defs
import Mathlib.Logic.Function.Basic
import ServerLib.Lib.Run

/-! The byte-range locks of SMB2. -/

namespace ServerLib.Smb

open Lib Function List

structure ByteRangeLock where
  offset : UInt64
  length : UInt64
  exclusive : Bool
  sessionId : UInt64

/-- The end of a range, which stays below the largest number. -/
def rangeEnd (offset length : UInt64) : UInt64 :=
  if offset > 0xffffffffffffffff - length then 0xffffffffffffffff else offset + length

def locksOverlap (off1 len1 off2 len2 : UInt64) : Bool :=
  if len1 = 0 ∨ len2 = 0 then false
  else if off1 ≥ rangeEnd off2 len2 then false
  else if off2 ≥ rangeEnd off1 len1 then false
  else true

def lockConflicts (a b : ByteRangeLock) : Bool :=
  locksOverlap a.offset a.length b.offset b.length && (a.exclusive || b.exclusive)

namespace ByteRangeLock

def Holds (l : ByteRangeLock) (byte : Nat) : Prop :=
  l.offset.toNat ≤ byte ∧ byte < l.offset.toNat + l.length.toNat ∧ byte < 2 ^ 64

def Clashes (a b : ByteRangeLock) : Prop :=
  (a.exclusive = true ∨ b.exclusive = true) ∧ ∃ byte, a.Holds byte ∧ b.Holds byte

def Ends (l : ByteRangeLock) : Prop := l.offset.toNat + l.length.toNat < 2 ^ 64

variable {a b : ByteRangeLock}

theorem Clashes.symm (h : a.Clashes b) : b.Clashes a :=
  ⟨h.1.symm, h.2.imp fun _ hbyte => hbyte.symm⟩

theorem Ends.rangeEnd (h : a.Ends) :
    (rangeEnd a.offset a.length).toNat = a.offset.toNat + a.length.toNat := by
  have hlength := a.length.toNat_lt
  have hroom : (0xffffffffffffffff - a.length).toNat = 2 ^ 64 - 1 - a.length.toNat :=
    UInt64.toNat_sub_of_le _ _ (UInt64.le_iff_toNat_le.mpr (Nat.le_of_lt_succ hlength))
  rw [Ends] at h
  rw [Smb.rangeEnd, if_neg (by rw [gt_iff_lt, UInt64.lt_iff_toNat_lt]; omega), UInt64.toNat_add]
  omega

theorem Clashes.lockConflicts (h : a.Clashes b) (ha : a.Ends) (hb : b.Ends) :
    lockConflicts a b := by
  obtain ⟨hexclusive, byte, ⟨hlow, hhigh, -⟩, ⟨hlow', hhigh', -⟩⟩ := h
  have hlen : ¬(a.length = 0 ∨ b.length = 0) := by
    rintro (h | h) <;> have := congrArg UInt64.toNat h <;> rw [UInt64.toNat_zero] at this <;> omega
  rw [Smb.lockConflicts, locksOverlap, if_neg hlen, if_neg, if_neg]
  · simpa using hexclusive
  · rw [ge_iff_le, UInt64.le_iff_toNat_le, ha.rangeEnd]
    omega
  · rw [ge_iff_le, UInt64.le_iff_toNat_le, hb.rangeEnd]
    omega

end ByteRangeLock

structure LockElement where
  offset : UInt64
  length : UInt64
  flags : UInt32

/-- The lock that `handle_lock` asks for. -/
def LockElement.lock (e : LockElement) (sessionId : UInt64) : ByteRangeLock :=
  ⟨e.offset, e.length, e.flags &&& 2 ≠ 0, sessionId⟩

/-- The locks of each key, which is the `persistent` part of a file id. -/
abbrev SmbLockManager := UInt64 → List ByteRangeLock

namespace SmbLockManager

variable (locks : SmbLockManager) (key sessionId : UInt64)

def requestLock (l : ByteRangeLock) : Bool × SmbLockManager :=
  if (locks key).any (lockConflicts l) then (false, locks)
  else (true, update locks key (locks key ++ [l]))

def releaseAllLocks : SmbLockManager :=
  update locks key ((locks key).filter (·.sessionId ≠ sessionId))

/-- The loop of `handle_lock`. -/
def requestLocks (locks : SmbLockManager) : List LockElement → Bool × SmbLockManager
  | [] => (true, locks)
  | e :: elements =>
    let (granted, locks) := locks.requestLock key (e.lock sessionId)
    if !granted && e.flags &&& 1 ≠ 0 then (false, locks) else locks.requestLocks elements

variable {locks key sessionId}

theorem requestLocks_of_free
    (hlocks : ∀ e ∈ elements, ∀ l ∈ locks key, lockConflicts (e.lock sessionId) l = false)
    (hfree : elements.Pairwise fun e e' =>
      lockConflicts (e'.lock sessionId) (e.lock sessionId) = false) :
    locks.requestLocks key sessionId elements =
      (true, update locks key (locks key ++ elements.map (·.lock sessionId))) := by
  induction elements generalizing locks with
  | nil => simp [requestLocks]
  | cons e elements ih =>
    obtain ⟨he, hlocks⟩ := forall_mem_cons.mp hlocks
    obtain ⟨hnext, hfree⟩ := pairwise_cons.mp hfree
    have hgrant : locks.requestLock key (e.lock sessionId) =
        (true, update locks key (locks key ++ [e.lock sessionId])) := by
      rw [requestLock, if_neg (by simpa using he)]
    rw [requestLocks, hgrant]
    refine (ih ?_ hfree).trans (by simp)
    intro e' he' l hl
    rw [update_self] at hl
    obtain hl | hl := mem_append.mp hl
    · exact hlocks e' he' l hl
    · cases mem_singleton.mp hl
      exact hnext e' he'

end SmbLockManager

/-- A file that is open in a session. -/
structure Open where
  sessionId : UInt64
  key : UInt64
  file : Nat
deriving DecidableEq

/-- The files that a session opens have the ids that `allocate_file_id` counts from 1. -/
def allocateFileIds (sessionId : UInt64) (files : List Nat) : List Open :=
  files.mapIdx fun i file => ⟨sessionId, UInt64.ofNat (i + 1), file⟩

/-- `allowed` is what the handler says about a lock. -/
inductive Request
  | lock (o : Open) (allowed : Bool) (elements : List LockElement)
  | close (o : Open)

namespace SmbLockManager

variable (opens : List Open) (locks : SmbLockManager)

def handleLock (o : Open) (allowed : Bool) (elements : List LockElement) : Bool × SmbLockManager :=
  if !allowed then (false, locks) else locks.requestLocks o.key o.sessionId elements

def step (locks : SmbLockManager) : Request → SmbLockManager
  | .lock o allowed elements => (locks.handleLock o allowed elements).2
  | .close o => locks.releaseAllLocks o.key o.sessionId

def held (o : Open) : List ByteRangeLock := (locks o.key).filter (·.sessionId = o.sessionId)

def Correct (locks : SmbLockManager) : Request → Prop
  | .lock o allowed elements =>
    let after := (locks.handleLock o allowed elements).2
    ((locks.handleLock o allowed elements).1 = true → ∀ e ∈ elements,
      (e.flags &&& 3 ≠ 0 → e.lock o.sessionId ∈ after.held o ∧
        ∀ o' ∈ opens, o' ≠ o → o'.file = o.file → ∀ l ∈ after.held o',
          ¬(e.lock o.sessionId).Clashes l) ∧
      (e.flags &&& 4 ≠ 0 →
        (after.held o).countP (fun l => l.offset = e.offset ∧ l.length = e.length) <
          (locks.held o).countP fun l => l.offset = e.offset ∧ l.length = e.length)) ∧
    ((locks.handleLock o allowed elements).1 = false → after = locks) ∧
    ∀ e ∈ elements, ∀ o' ∈ opens, o'.key = o.key → ∀ l ∈ locks.held o',
      lockConflicts (e.lock o.sessionId) l = true → o'.file = o.file
  | .close _ => True

/-- The elements of a request are all granted, or the first is refused and has the flag 1. -/
def Separate (locks : SmbLockManager) : Request → Prop
  | .lock o allowed elements => o ∈ opens ∧ (allowed = true →
    (∃ e rest, elements = e :: rest ∧ e.flags &&& 1 ≠ 0 ∧
      ∃ l ∈ locks o.key, lockConflicts (e.lock o.sessionId) l = true) ∨
    (∀ e ∈ elements, e.flags &&& 4 = 0 ∧ (e.lock o.sessionId).Ends ∧
      ∀ l ∈ locks o.key, lockConflicts (e.lock o.sessionId) l = false) ∧
    elements.Pairwise fun e e' =>
      lockConflicts (e'.lock o.sessionId) (e.lock o.sessionId) = false)
  | .close o => o ∈ opens

/-- The locks under one key that belong to different sessions do not clash. -/
structure Inv : Prop where
  ends : ∀ key, ∀ l ∈ locks key, l.Ends
  apart : ∀ key, ∀ l ∈ locks key, ∀ l' ∈ locks key, l.sessionId ≠ l'.sessionId → ¬l.Clashes l'

variable {opens locks}

theorem handleLock_cases (hl : Separate opens locks (.lock o allowed elements)) :
    locks.handleLock o allowed elements = (false, locks) ∨
    (∀ e ∈ elements, e.flags &&& 4 = 0 ∧ (e.lock o.sessionId).Ends ∧
      ∀ l ∈ locks o.key, lockConflicts (e.lock o.sessionId) l = false) ∧
    locks.handleLock o allowed elements =
      (true, update locks o.key (locks o.key ++ elements.map (·.lock o.sessionId))) := by
  rw [handleLock]
  cases allowed with
  | false => exact .inl rfl
  | true =>
    obtain ⟨e, rest, rfl, hflag, l, hmem, hconflict⟩ | ⟨hall, hfree⟩ := hl.2 rfl
    · left
      have hrefuse : locks.requestLock o.key (e.lock o.sessionId) = (false, locks) :=
        if_pos (any_eq_true.mpr ⟨l, hmem, hconflict⟩)
      simp [requestLocks, hrefuse, hflag]
    · exact .inr ⟨hall, requestLocks_of_free (fun e he => (hall e he).2.2) hfree⟩

theorem Inv.step (h : locks.Inv) (hl : Separate opens locks request) :
    (locks.step request).Inv := by
  cases request with
  | close o =>
    have hmem : ∀ {key l}, l ∈ locks.releaseAllLocks o.key o.sessionId key → l ∈ locks key := by
      intro key l hl
      by_cases hkey : key = o.key
      · subst hkey
        rw [releaseAllLocks, update_self] at hl
        exact mem_of_mem_filter hl
      · rwa [releaseAllLocks, update_of_ne hkey] at hl
    exact ⟨fun key l hl => h.ends key l (hmem hl),
      fun key l hl l' hl' => h.apart key l (hmem hl) l' (hmem hl')⟩
  | lock o allowed elements =>
    rw [SmbLockManager.step]
    obtain heq | ⟨hall, heq⟩ := handleLock_cases hl <;> rw [heq]
    · exact h
    have hmem : ∀ {key l}, l ∈ update locks o.key
        (locks o.key ++ elements.map (·.lock o.sessionId)) key →
        l ∈ locks key ∨ key = o.key ∧ ∃ e ∈ elements, e.lock o.sessionId = l := by
      intro key l hl
      by_cases hkey : key = o.key
      · subst hkey
        simpa using hl
      · rw [update_of_ne hkey] at hl
        exact .inl hl
    have hnew : ∀ e ∈ elements, ∀ l ∈ locks o.key, ¬(e.lock o.sessionId).Clashes l := by
      intro e he l hl hclash
      have hconflict := hclash.lockConflicts (hall e he).2.1 (h.ends _ l hl)
      rw [(hall e he).2.2 l hl] at hconflict
      cases hconflict
    refine ⟨fun key l hl => ?_, fun key l hl l' hl' hne => ?_⟩
    · obtain hl | ⟨-, e, he, rfl⟩ := hmem hl
      · exact h.ends key l hl
      · exact (hall e he).2.1
    · obtain hl | ⟨hkey, e, he, rfl⟩ := hmem hl <;> obtain hl' | ⟨hkey', e', he', rfl⟩ := hmem hl'
      · exact h.apart key l hl l' hl' hne
      · exact fun hclash => hnew e' he' l (hkey' ▸ hl) hclash.symm
      · exact hnew e he l' (hkey ▸ hl')
      · exact absurd rfl hne

/-- A key is that of one file, and of one open of it in each session. -/
def KeysApart (opens : List Open) : Prop :=
  ∀ o ∈ opens, ∀ o' ∈ opens, (o.key = o'.key ↔ o.file = o'.file) ∧
    (o.key = o'.key → o.sessionId = o'.sessionId → o = o')

theorem Inv.correct (h : locks.Inv) (hopens : KeysApart opens) (hl : Separate opens locks request) :
    Correct opens locks request := by
  cases request with
  | close => trivial
  | lock o allowed elements =>
    have hkeys := fun o' ho' => hopens o' ho' o hl.1
    refine ⟨fun hgranted e he => ?_, ?_, fun e _ o' ho' hkey _ _ _ => (hkeys o' ho').1.mp hkey⟩
    · have hafter := h.step hl
      rw [SmbLockManager.step] at hafter
      obtain heq | ⟨hall, heq⟩ := handleLock_cases hl <;> rw [heq] at hgranted hafter ⊢
      · cases hgranted
      have hmem : e.lock o.sessionId ∈ update locks o.key
          (locks o.key ++ elements.map (·.lock o.sessionId)) o.key := by
        rw [update_self]
        exact mem_append_right _ (mem_map_of_mem he)
      refine ⟨fun _ => ⟨mem_filter.mpr ⟨hmem, decide_eq_true rfl⟩,
        fun o' ho' hne hfile l hl' => ?_⟩, fun hflag => absurd (hall e he).1 hflag⟩
      obtain ⟨hl', hsession⟩ := mem_filter.mp hl'
      have hkey := (hkeys o' ho').1.mpr hfile
      rw [hkey] at hl'
      refine hafter.apart o.key _ hmem l hl' fun hsame => hne ((hkeys o' ho').2 hkey ?_)
      exact (of_decide_eq_true hsession).symm.trans hsame.symm
    · obtain heq | ⟨-, heq⟩ := handleLock_cases hl <;> simp [heq]

/-- Where a key means one file, every LOCK is answered as it should be, as long as each is granted
as a whole or refused at its first element. -/
theorem locks_correct_run (hopens : KeysApart opens) (requests : List Request)
    (h : Along step (Separate opens) (fun _ => []) requests) :
    Along step (Correct opens) (fun _ => []) requests :=
  along_of_invariant (I := Inv) (fun _ _ hs hl => hs.step hl)
    (fun _ _ hs hl => hs.correct hopens hl) ⟨nofun, nofun⟩ h

/-- A file in two sessions, a lock that is taken, and one that is refused. -/
theorem locks_correct_run_two :
    Along step (Correct (allocateFileIds 1 [5] ++ allocateFileIds 2 [5])) (fun _ => [])
      [.lock ⟨1, 1, 5⟩ true [⟨0, 8, 2⟩, ⟨8, 8, 1⟩], .lock ⟨2, 1, 5⟩ true [⟨4, 8, 3⟩, ⟨20, 8, 2⟩],
        .close ⟨1, 1, 5⟩] := by
  refine locks_correct_run (by rw [KeysApart]; decide) _ ⟨⟨.head _, fun _ => .inr ⟨?_, ?_⟩⟩,
    ⟨.tail _ (.head _), fun _ => .inl ⟨_, _, rfl, ?_⟩⟩, .head _, trivial⟩
  · simp only [ByteRangeLock.Ends, LockElement.lock]
    decide
  · decide
  · exact ⟨by decide, ⟨0, 8, true, 1⟩, .head _, rfl⟩

/-- The first files of two sessions have the same key, so that a lock on one refuses a lock on the
other. -/
theorem not_correct_two_files :
    ¬Along step (Correct (allocateFileIds 1 [5] ++ allocateFileIds 2 [6])) (fun _ => [])
      [.lock ⟨1, 1, 5⟩ true [⟨0, 8, 2⟩], .lock ⟨2, 1, 6⟩ true [⟨0, 8, 2⟩]] := by
  rintro ⟨-, ⟨-, -, h⟩, -⟩
  have := h ⟨0, 8, 2⟩ (.head _) ⟨1, 1, 5⟩ (.head _) rfl ⟨0, 8, true, 1⟩ (.head _) rfl
  contradiction

end SmbLockManager

end ServerLib.Smb

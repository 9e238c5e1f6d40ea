import Mathlib.Data.List.DropRight
import ServerLib.Lib.Run

/-! The locks of WebDAV: what they cover, and which requests for a lock are granted. -/

namespace ServerLib.WebDav

open Lib List

abbrev Bytes := List UInt8

inductive LockScope
  | exclusive
  | shared

inductive Depth
  | zero
  | one
  | infinity
deriving DecidableEq

def slash : UInt8 := '/'.toUInt8

def normalizeHref (href : Bytes) : Bytes :=
  slash :: (if href.head? = some slash then href.tail else href).rdropWhile (· = slash)

structure LockInfo where
  token : Bytes
  href : Bytes
  scope : LockScope
  depth : Depth
  expiresAt : Nat
  token_ne_nil : token ≠ []
  normalized : normalizeHref href = href

/-- What every href below the one of the lock starts with. -/
def LockInfo.below (lock : LockInfo) : Bytes :=
  if lock.href = [slash] then [slash] else lock.href ++ [slash]

abbrev LockInfo.covers (lock : LockInfo) (href : Bytes) : Prop :=
  normalizeHref href = lock.href ∨
    lock.depth = .infinity ∧ lock.below <+: normalizeHref href

theorem normalizeHref_normalizeHref (href : Bytes) :
    normalizeHref (normalizeHref href) = normalizeHref href := by
  rw [normalizeHref, normalizeHref, head?_cons, if_pos rfl, tail_cons,
    rdropWhile_idempotent]

variable {a b : LockInfo} {href : Bytes}

theorem LockInfo.href_ne_nil (lock : LockInfo) : lock.href ≠ [] :=
  lock.normalized ▸ cons_ne_nil _ _

theorem LockInfo.covers_href (h : normalizeHref href = b.href) :
    a.covers b.href ↔ a.covers href := by
  rw [covers, covers, b.normalized, h]

theorem LockInfo.covers_of_below (hdepth : a.depth = .infinity) (h : a.below <+: b.below) :
    a.covers b.href := by
  rw [covers, b.normalized]
  unfold below at h ⊢
  have hb := b.href_ne_nil
  split_ifs at h ⊢ with h₁ h₂ h₂
  · exact .inl (h₂.trans h₁.symm)
  · obtain h | h := prefix_concat_iff.mp h
    · exact absurd (append_cancel_right (show [] ++ [slash] = _ from h)).symm hb
    · exact .inr ⟨hdepth, h⟩
  · have := h.length_le
    simp_all
  · obtain h | h := prefix_concat_iff.mp h
    · exact .inl (append_cancel_right h).symm
    · exact .inr ⟨hdepth, h⟩

theorem LockInfo.covers_or_covers (ha : a.covers href) (hb : b.covers href) :
    a.covers b.href ∨ b.covers a.href := by
  obtain h | ⟨hda, hpa⟩ := ha
  · exact .inr ((covers_href h).mpr hb)
  obtain h | ⟨hdb, hpb⟩ := hb
  · exact .inl ((covers_href h).mpr (.inr ⟨hda, hpa⟩))
  exact (List.prefix_or_prefix_of_prefix hpa hpb).imp (covers_of_below hda) (covers_of_below hdb)

abbrev WebDavLockManager := List LockInfo

/-- The tokens of the headers are given as `normalize_token` leaves them, and `token` is the one
that `make_token` makes. -/
inductive Request
  | lock (href : Bytes) (scope : LockScope) (depth : Depth) (header : Option Bytes)
      (token : { token : Bytes // token ≠ [] }) (timeout : Nat)
  | unlock (header : Option Bytes)

namespace WebDavLockManager

variable (locks : WebDavLockManager) (now : Nat)

def pruneExpired : WebDavLockManager := locks.filter (now < ·.expiresAt)

abbrev allows (href token : Bytes) : Prop :=
  ∀ lock ∈ locks.pruneExpired now, lock.covers href → token ≠ [] ∧ token = lock.token

def newLock (href : Bytes) (scope : LockScope) (depth : Depth)
    (token : { token : Bytes // token ≠ [] }) (timeout : Nat) : LockInfo :=
  { token := token.1
    href := normalizeHref href
    scope, depth
    expiresAt := now + timeout
    token_ne_nil := token.2
    normalized := normalizeHref_normalizeHref href }

/-- A lock with the same token is replaced. -/
def create (lock : LockInfo) : WebDavLockManager :=
  (locks.pruneExpired now).filter (·.token ≠ lock.token) ++ [lock]

def refresh (token : Bytes) (timeout : Nat) : WebDavLockManager :=
  (locks.pruneExpired now).map fun lock =>
    if lock.token = token then { lock with expiresAt := now + timeout } else lock

abbrev refreshes (header : Option Bytes) : Prop :=
  ∃ lock ∈ locks.pruneExpired now, header = some lock.token

/-- Whether a request at the time `l.1` succeeds, and the locks after it. -/
def handle (l : Nat × Request) : Bool × WebDavLockManager :=
  match l.2 with
  | .lock href scope depth header token timeout =>
    if locks.refreshes l.1 header then (true, locks.refresh l.1 (header.getD []) timeout)
    else if locks.allows l.1 href [] then
      (true, locks.create l.1 (newLock l.1 href scope depth token timeout))
    else (false, locks.pruneExpired l.1)
  | .unlock none => (false, locks)
  | .unlock (some token) =>
    (locks.refreshes l.1 token, (locks.pruneExpired l.1).filter (·.token ≠ token))

def step (locks : WebDavLockManager) (l : Nat × Request) : WebDavLockManager := (locks.handle l).2

def OnlyShared (href : Bytes) : Prop :=
  ∀ lock ∈ locks.pruneExpired now, lock.covers href → lock.scope = .shared

/-- What is asked of a request and of the locks after it, which are looked at at any time. -/
structure Correct (l : Nat × Request) : Prop where
  exclusive (now : Nat) : ∀ a ∈ (locks.step l).pruneExpired now,
    ∀ b ∈ (locks.step l).pruneExpired now, a ≠ b →
      a.scope = .exclusive ∨ b.scope = .exclusive → ∀ href, a.covers href → ¬b.covers href
  granted {href : Bytes} {depth : Depth} {header : Option Bytes} {timeout : Nat}
    {token : { token : Bytes // token ≠ [] }} :
    l.2 = .lock href .shared depth header token timeout → locks.OnlyShared l.1 href →
      (locks.handle l).1
  writes (now : Nat) (href : Bytes) : (locks.step l).OnlyShared now href →
    ∀ lock ∈ (locks.step l).pruneExpired now, lock.covers href →
      (locks.step l).allows now href lock.token

/-- A new lock is refused for a lock that it conflicts with, or has nothing in common with the
others. -/
def Separate (l : Nat × Request) : Prop :=
  ∀ href scope depth header token timeout, l.2 = .lock href scope depth header token timeout →
    locks.refreshes l.1 header ∨
    (∃ lock ∈ locks.pruneExpired l.1, lock.covers href ∧
      (scope = .exclusive ∨ lock.scope = .exclusive)) ∨
    ∀ lock ∈ locks.pruneExpired l.1, ¬lock.covers href ∧
      ¬(newLock l.1 href scope depth token timeout).covers lock.href

/-- No two locks cover a common href. -/
def Apart : Prop := ∀ a ∈ locks, ∀ b ∈ locks, a ≠ b → ∀ href, a.covers href → ¬b.covers href

variable {locks} {now}

theorem not_covers_of_allows (h : locks.allows now href []) :
    ∀ lock ∈ locks.pruneExpired now, ¬lock.covers href :=
  fun lock hlock hcovers => (h lock hlock hcovers).1 rfl

namespace Apart

variable (h : Apart locks)

include h

theorem mono (hk : kept ⊆ locks) : Apart kept :=
  fun a ha b hb => h a (hk ha) b (hk hb)

theorem pruneExpired : Apart (locks.pruneExpired now) :=
  h.mono (filter_subset_self _)

theorem refresh (token : Bytes) (timeout : Nat) : Apart (locks.refresh now token timeout) := by
  intro a' ha' b' hb' hne href hcovers
  obtain ⟨a, ha, rfl⟩ := mem_map.mp ha'
  obtain ⟨b, hb, rfl⟩ := mem_map.mp hb'
  have key := h.pruneExpired a ha b hb (fun hab => hne (by rw [hab])) href
  split_ifs at hcovers ⊢ <;> exact key hcovers

theorem append (hl : ∀ a ∈ locks, ¬a.covers lock.href ∧ ¬lock.covers a.href) :
    Apart (locks ++ [lock]) := by
  have hnew : ∀ a ∈ locks, ∀ href, a.covers href → ¬lock.covers href := by
    intro a ha href hcovers hlock
    obtain ⟨hover, hunder⟩ := hl a ha
    exact (LockInfo.covers_or_covers hcovers hlock).elim hover hunder
  intro a ha b hb hne href hcovers
  obtain ha | ha := mem_append.mp ha <;> obtain hb | hb := mem_append.mp hb
  · exact h a ha b hb hne href hcovers
  · cases mem_singleton.mp hb
    exact hnew a ha href hcovers
  · cases mem_singleton.mp ha
    exact fun hb' => hnew b hb href hb' hcovers
  · exact absurd ((mem_singleton.mp ha).trans (mem_singleton.mp hb).symm) hne

theorem step (hl : locks.Separate l) : Apart (locks.step l) := by
  obtain ⟨now, ⟨href, scope, depth, header, token, timeout⟩ | _ | token⟩ := l
  · simp only [WebDavLockManager.step, handle]
    split_ifs with hrefresh hallows
    · exact h.refresh _ _
    · have hfree := not_covers_of_allows hallows
      obtain hlock | ⟨lock, hlock, hcovers, -⟩ | hlock := hl _ _ _ _ _ _ rfl
      · exact absurd hlock hrefresh
      · exact absurd hcovers (hfree lock hlock)
      · refine (h.pruneExpired.mono (filter_subset_self _)).append fun a ha => ?_
        have ha := mem_of_mem_filter ha
        exact ⟨fun hcovers => hfree a ha ((LockInfo.covers_href rfl).mp hcovers), (hlock a ha).2⟩
    · exact h.pruneExpired
  · exact h
  · exact h.pruneExpired.mono (filter_subset_self _)

theorem correct (hl : locks.Separate l) : locks.Correct l where
  exclusive now a ha b hb hne _ := (h.step hl).pruneExpired a ha b hb hne
  granted := by
    intro href depth header timeout token hlock hshared
    obtain hrefresh | ⟨lock, hmem, hcovers, hscope⟩ | hfree := hl _ _ _ _ _ _ hlock
    · simp [handle, hlock, hrefresh]
    · simp [hshared lock hmem hcovers] at hscope
    · have hallows : locks.allows l.1 href [] :=
        fun lock hmem hcovers => absurd hcovers (hfree lock hmem).1
      simp only [handle, hlock, if_pos hallows]
      split <;> rfl
  writes now href _ lock hlock hcovers other hother hcovers' := by
    refine ⟨lock.token_ne_nil, ?_⟩
    by_contra hne
    exact (h.step hl).pruneExpired lock hlock other hother (fun h => hne (by rw [h])) href hcovers
      hcovers'

end Apart

/-- Where no lock is shared and none is taken above another one, the locks are held as asked. -/
theorem correct_run (ls : List (Nat × Request)) (h : Along step Separate [] ls) :
    Along step Correct [] ls :=
  along_of_invariant (I := Apart) (fun _ _ hs hl => hs.step hl) (fun _ _ hs hl => hs.correct hl)
    nofun h

/-- A lock on `/a`, and one on `/b`, which is refused below `/a`. -/
theorem correct_run_two : Along step Correct []
    [(0, .lock [97] .shared .infinity none ⟨[1], nofun⟩ 60),
      (1, .lock [97, 47, 98] .exclusive .zero none ⟨[2], nofun⟩ 60),
      (2, .lock [98] .shared .infinity none ⟨[3], nofun⟩ 60), (3, .unlock (some [1]))] :=
  correct_run _ (by
    refine ⟨?_, ?_, ?_, ?_, trivial⟩ <;> rintro _ _ _ _ _ _ ⟨⟩
    · exact .inr (.inr nofun)
    · exact .inr (.inl (by simp; decide))
    · exact .inr (.inr (by decide)))

/-- A lock on `/` is granted above the one on `/a`. -/
theorem not_correct_above : ¬Along step Correct []
    [(0, .lock [97] .exclusive .zero none ⟨[1], nofun⟩ 60),
      (1, .lock [] .exclusive .infinity none ⟨[2], nofun⟩ 60)] := by
  rintro ⟨-, h, -⟩
  exact h.exclusive 2 (newLock 0 [97] .exclusive .zero ⟨[1], nofun⟩ 60) (.head _)
    (newLock 1 [] .exclusive .infinity ⟨[2], nofun⟩ 60) (.tail _ (.head _))
    (fun h => nomatch congrArg LockInfo.token h) (.inl rfl) [97] (by decide) (by decide)

end WebDavLockManager

end ServerLib.WebDav

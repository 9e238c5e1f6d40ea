import ServerLib.Match.Agreement

/-! The lock of the match pool.  Every public operation holds `mutex_` from its first line to its
end, and some of them call others.  The mutex is not recursive, so that a thread that locks it a
second time waits for itself. -/

namespace ServerLib.Match

open Lib

/-- `std::lock_guard`, by a thread that may hold the mutex already.  A call that never returns has
no result. -/
def lockGuard {α : Type} (held : Bool) (body : Option α) : Option α := if held then none else body

/-- The public operations that lock; `init` and `set_match_callback` do not. -/
inductive PublicOp
  | update (op : MatchOp)
  | getNode (nodeId : Nat)
  | getStatistics
  | getWaitingCounts

namespace MatchPool

variable (config : MatchConfig) (callback : MatchResult → Bool) (mp : MatchPool) (held : Bool)

def getNodeLocking (nodeId : Nat) : Option (Option Ref) :=
  lockGuard held (some (mp.getNode nodeId))

/-- `find_node_by_player` does not lock, but for a player it knows it calls `get_node`. -/
def findNodeByPlayerLocking (playerId : Nat) : Option (Option Ref) :=
  match mp.playerNodeMap.lookup playerId with
  | none => some none
  | some nodeId => mp.getNodeLocking held nodeId

def cancelMatchLocking (now nodeId : Nat) : Option (MatchPool × Bool) :=
  lockGuard held (some (mp.cancelMatch now nodeId))

def removePlayerFromNodeLocking (nodeId playerId : Nat) : Option (MatchPool × Bool) :=
  lockGuard held
    ((mp.getNodeLocking true nodeId).map fun _ => mp.removePlayerFromNode nodeId playerId)

def playerOfflineLocking (now playerId : Nat) : Option (MatchPool × Bool) :=
  lockGuard held <|
    (mp.findNodeByPlayerLocking true playerId).bind fun
      | none => some (mp, false)
      | some ref => (mp.cancelMatchLocking true now (mp.heap ref).nodeId).map fun _ =>
          mp.playerOffline now playerId

/-- `match_callback_` is called for each match, with the mutex held.  `callback` says for which
matches it returns: it does not if it calls an operation that locks. -/
def doMatchLocking (now : Nat) (order : Arrangement) : Option MatchPool :=
  let after := mp.doMatch config now order
  lockGuard held (if (after.log.drop mp.log.length).all callback then some after else none)

/-- A call from outside, where the thread does not hold the mutex: the pool after it. -/
def perform : PublicOp → Option MatchPool
  | .update (.removePlayerFromNode nodeId playerId) =>
    (mp.removePlayerFromNodeLocking false nodeId playerId).map Prod.fst
  | .update (.playerOffline now playerId) =>
    (mp.playerOfflineLocking false now playerId).map Prod.fst
  | .update (.cancelMatch now nodeId) => (mp.cancelMatchLocking false now nodeId).map Prod.fst
  | .update (.doMatch now order) => mp.doMatchLocking config callback false now order
  | .update op => lockGuard false (some (mp.matchStep config op))
  | .getNode nodeId => (mp.getNodeLocking false nodeId).map fun _ => mp
  | .getStatistics | .getWaitingCounts => lockGuard false (some mp)

/-- No player is taken out of a node, and none that is in a node goes offline. -/
def Unnested : PublicOp → Prop
  | .update (.removePlayerFromNode _ _) => False
  | .update (.playerOffline _ playerId) => mp.playerNodeMap.lookup playerId = none
  | _ => True

theorem findNodeByPlayerLocking_held (playerId : Nat) :
    mp.findNodeByPlayerLocking true playerId =
      if mp.playerNodeMap.lookup playerId = none then some none else none := by
  rw [findNodeByPlayerLocking]
  cases mp.playerNodeMap.lookup playerId <;> simp [getNodeLocking, lockGuard]

section

variable {callback}

theorem doMatchLocking_eq (hcallback : ∀ result, callback result) (now : Nat)
    (order : Arrangement) :
    mp.doMatchLocking config callback false now order = some (mp.doMatch config now order) := by
  simp [doMatchLocking, lockGuard, hcallback]

theorem perform_update (hcallback : ∀ result, callback result) {op : MatchOp}
    (h : mp.Unnested (.update op)) :
    mp.perform config callback (.update op) = some (mp.matchStep config op) := by
  cases op with
  | removePlayerFromNode nodeId playerId => exact h.elim
  | playerOffline now playerId =>
    have hunknown : mp.playerNodeMap.lookup playerId = none := h
    simp [perform, playerOfflineLocking, findNodeByPlayerLocking_held, matchStep, playerOffline,
      findNodeByPlayer, lockGuard, hunknown]
  | doMatch now order => exact mp.doMatchLocking_eq config hcallback now order
  | _ => rfl

/-- With a callback that always returns, in every state, an operation returns exactly if it does not
come to lock the mutex again. -/
theorem returns_iff (hcallback : ∀ result, callback result) (op : PublicOp) :
    (mp.perform config callback op).isSome ↔ mp.Unnested op := by
  cases op with
  | update op =>
    refine ⟨fun h => ?_, fun h => by simp [perform_update config mp hcallback h]⟩
    cases op with
    | removePlayerFromNode nodeId playerId =>
      simp [perform, removePlayerFromNodeLocking, getNodeLocking, lockGuard] at h
    | playerOffline now playerId =>
      rw [perform, playerOfflineLocking, findNodeByPlayerLocking_held] at h
      by_contra hknown
      simp [Unnested] at hknown
      simp [hknown, lockGuard] at h
    | _ => trivial
  | _ => simp [perform, getNodeLocking, lockGuard, Unnested]

/-- The callback of the server only writes a line to its log. -/
theorem returns_doMatch : (defaultPool.perform initDefaultConfig (fun _ => true)
    (.update (.doMatch 0 ⟨id, List.Perm.refl⟩))).isSome :=
  (returns_iff initDefaultConfig defaultPool (fun _ => rfl) _).mpr trivial

end

/-- A player of a pool without nodes is to leave a node. -/
theorem not_returns :
    defaultPool.perform initDefaultConfig (fun _ => true) (.update (.removePlayerFromNode 1 1)) =
      none :=
  rfl

end MatchPool

end ServerLib.Match

import Mathlib.Data.List.Sort
import ServerLib.Lib.Collect
import ServerLib.Lib.Run
import ServerLib.Lib.Table

/-! The pool of the match server.  Players are in nodes, and every node is stored in the pool of one
mode under the id that it got when it was made.  A node that looks for a match is also in one of the
score pools of its mode.  Nodes are shared, so that they are kept in a heap and named by reference.
Every operation of the source takes a lock and is one step here. -/

namespace ServerLib.Match

open Lib

inductive GameMode
  | mode1v1Normal
  | mode2v2Ranked
  | mode5v5Team1
  | mode5v5Team2
  | mode5v5Team3
deriving DecidableEq

structure ScorePoolConfig where
  minScore : Nat := 0
  maxScore : Nat := 0

structure RangeExpandConfig where
  timeoutMs : Nat
  expandPools : Nat

structure ModeConfig where
  playerCount : Nat := 2
  maxTeamSize : Nat := 1
  pools : List ScorePoolConfig := []
  expands : List RangeExpandConfig := []
  maxExpandPools : Nat := 3
  enabled : Bool := true

abbrev MatchConfig := AList fun _ : GameMode => ModeConfig

def MatchConfig.getEnabledModes (config : MatchConfig) : List GameMode :=
  (config.entries.filter (·.2.enabled)).map Sigma.fst

/-- `init_default_config`: the ranks of the three modes of teams of five are the same. -/
def initDefaultConfig : MatchConfig :=
  let team5v5 : ModeConfig :=
    { playerCount := 10
      maxTeamSize := 5
      pools := [⟨0, 5⟩, ⟨5, 10⟩, ⟨10, 15⟩, ⟨15, 4294967295⟩]
      expands := [⟨20000, 1⟩, ⟨40000, 2⟩]
      maxExpandPools := 2 }
  { entries :=
      [⟨.mode1v1Normal,
          { playerCount := 2
            maxTeamSize := 1
            pools := [⟨0, 86400⟩, ⟨86400, 259200⟩, ⟨259200, 604800⟩, ⟨604800, 2592000⟩,
              ⟨2592000, 7776000⟩, ⟨7776000, 4294967295⟩]
            expands := [⟨10000, 1⟩, ⟨20000, 2⟩, ⟨30000, 3⟩]
            maxExpandPools := 3 }⟩,
        ⟨.mode2v2Ranked,
          { playerCount := 4
            maxTeamSize := 2
            pools := [⟨0, 400⟩, ⟨400, 800⟩, ⟨800, 1200⟩, ⟨1200, 1600⟩, ⟨1600, 2000⟩,
              ⟨2000, 4294967295⟩]
            expands := [⟨15000, 1⟩, ⟨30000, 2⟩, ⟨45000, 3⟩]
            maxExpandPools := 3 }⟩,
        ⟨.mode5v5Team1, team5v5⟩, ⟨.mode5v5Team2, team5v5⟩, ⟨.mode5v5Team3, team5v5⟩]
    nodupKeys := by
      unfold List.NodupKeys
      decide }

inductive NodeState
  | idle
  | matching
  | matched
deriving DecidableEq

/-- The players have an id and a score each.  A node that is in no score pool has no index, which is
-1 in the source. -/
structure MatchNode where
  nodeId : Nat := 0
  players : List (Nat × Nat) := []
  avgScore : Nat := 0
  state : NodeState := .idle
  matchRange : Nat := 0
  currentPoolIndex : Option Nat := none
  enterTimeMs : Nat := 0

def averageScore (players : List (Nat × Nat)) : Nat := (players.map Prod.snd).sum / players.length

namespace MatchNode

variable (node : MatchNode)

def playerIds : List Nat := node.players.map Prod.fst

def getPlayerCount : Nat := node.players.length

def addPlayer (playerId score : Nat) : MatchNode :=
  let players := node.players ++ [(playerId, score)]
  { node with
    players
    avgScore := averageScore players
    nodeId := if node.nodeId = 0 then playerId else node.nodeId }

/-- The node gets the id of its first player, or 0 if none is left. -/
def removePlayer (playerId : Nat) : Option MatchNode :=
  if playerId ∈ node.playerIds then
    let players := node.players.eraseP (·.1 = playerId)
    some
      { node with
        players
        avgScore := averageScore players
        nodeId := (players.head?.map Prod.fst).getD 0 }
  else none

/-- In milliseconds, as a 32-bit number. -/
def getWaitTimeMs (now : Nat) : Nat := (now - node.enterTimeMs) % 2 ^ 32

def reset (now : Nat) : MatchNode :=
  { node with state := .idle, matchRange := 0, currentPoolIndex := none, enterTimeMs := now }

/-- The node begins to look for a match. -/
def enter (now index : Nat) : MatchNode :=
  { node with
    state := .matching, matchRange := 0, enterTimeMs := now, currentPoolIndex := some index }

end MatchNode

def updateNodeRange (config : ModeConfig) (now : Nat) (node : MatchNode) : MatchNode :=
  let expandPools := config.expands.foldl
    (fun expandPools expand =>
      if expand.timeoutMs ≤ node.getWaitTimeMs now then expand.expandPools else expandPools) 0
  { node with matchRange := min expandPools config.maxExpandPools }

/-- `get_candidate_pools`, which nothing calls: the numbers of the pools around a pool, the nearest
first. -/
def getCandidatePools (centerIndex expandRange totalPools : Nat) : List Nat :=
  (List.range (min (expandRange + 1) totalPools)).flatMap fun offset =>
    if offset = 0 then [centerIndex]
    else
      (if centerIndex + offset < totalPools then [centerIndex + offset] else []) ++
        if offset ≤ centerIndex ∧ centerIndex - offset < totalPools then [centerIndex - offset]
        else []

abbrev Ref := Nat

structure ScorePool where
  minScore : Nat
  maxScore : Nat
  poolIndex : Nat
  nodes : List Ref := []

def ScorePool.isInRange (pool : ScorePool) (score : Nat) : Bool :=
  pool.minScore ≤ score ∧ score < pool.maxScore

structure ModePool where
  pools : List ScorePool := []
  nodes : AList (fun _ : Nat => Ref) := ∅
  matchCount : UInt32 := 0

/-- The callback is told of a match. -/
structure MatchResult where
  mode : GameMode
  matchedNodes : List Ref

structure MatchPool where
  heap : Ref → MatchNode := fun _ => {}
  nextRef : Ref := 0
  modePools : AList (fun _ : GameMode => ModePool) := ∅
  playerNodeMap : AList (fun _ : Nat => Nat) := ∅
  log : List MatchResult := []

def newModePool (config : ModeConfig) : ModePool where
  pools := config.pools.mapIdx fun i pool =>
    { minScore := pool.minScore, maxScore := pool.maxScore, poolIndex := i }

namespace MatchPool

/-- `init`, which fails if no mode is enabled.  The default mode always has a pool. -/
def init (config : MatchConfig) : Option MatchPool :=
  if config.getEnabledModes = [] then none
  else
    let modePools := config.entries.foldl
      (fun modePools entry =>
        if entry.2.enabled then modePools.insert entry.1 (newModePool entry.2) else modePools) ∅
    some
      { modePools :=
          if (modePools.lookup .mode1v1Normal).isSome then modePools
          else modePools.insert .mode1v1Normal {} }

variable (mp : MatchPool) (mode : GameMode) (nodeId : Nat)

def node? : Option Ref :=
  (mp.modePools.lookup mode).bind (·.nodes.lookup nodeId)

def scorePool? (index : Nat) : Option ScorePool :=
  (mp.modePools.lookup mode).bind (·.pools[index]?)

def listed (index : Nat) : List Ref :=
  ((mp.scorePool? mode index).map (·.nodes)).getD []

def modifyNode (ref : Ref) (f : MatchNode → MatchNode) : MatchPool :=
  { mp with heap := Function.update mp.heap ref (f (mp.heap ref)) }

def modifyMode (f : ModePool → ModePool) : MatchPool :=
  { mp with modePools := modify mp.modePools mode f }

def putNode (ref : Ref) : MatchPool :=
  mp.modifyMode mode fun pool => { pool with nodes := pool.nodes.insert nodeId ref }

def eraseNode : MatchPool :=
  mp.modifyMode mode fun pool => { pool with nodes := pool.nodes.erase nodeId }

def eraseEverywhere : MatchPool :=
  { mp with
    modePools := mapWithKey mp.modePools fun _ pool =>
      { pool with nodes := pool.nodes.erase nodeId } }

/-- Changes which nodes are in a score pool. -/
def modifyListed (index : Nat) (f : List Ref → List Ref) : MatchPool :=
  mp.modifyMode mode fun pool =>
    { pool with pools := pool.pools.modify index fun pool => { pool with nodes := f pool.nodes } }

def erasePlayers (players : List (Nat × Nat)) : MatchPool :=
  { mp with playerNodeMap := players.foldl (fun map player => map.erase player.1) mp.playerNodeMap }

def newNode (now playerId score : Nat) : MatchNode :=
  { ({ enterTimeMs := now } : MatchNode).addPlayer playerId score with nodeId := playerId }

def createNode (now playerId score : Nat) : MatchPool × Option Ref :=
  if (mp.playerNodeMap.lookup playerId).isSome then (mp, none)
  else
    let ref := mp.nextRef
    let mp := (mp.modifyNode ref fun _ => newNode now playerId score).putNode .mode1v1Normal
      playerId ref
    ({ mp with nextRef := ref + 1, playerNodeMap := mp.playerNodeMap.insert playerId playerId },
      some ref)

def locate : Option (GameMode × Ref) :=
  mp.modePools.entries.findSome? fun entry =>
    (entry.2.nodes.lookup nodeId).map fun ref => (entry.1, ref)

def addPlayerToNode (config : MatchConfig) (mp : MatchPool) (nodeId playerId score : Nat) :
    MatchPool × Bool :=
  if (mp.playerNodeMap.lookup playerId).isSome then (mp, false)
  else
    match mp.locate nodeId with
    | none => (mp, false)
    | some (mode, ref) =>
      if (config.lookup mode).any fun cfg => cfg.maxTeamSize ≤ (mp.heap ref).getPlayerCount then
        (mp, false)
      else
        let mp := mp.modifyNode ref (·.addPlayer playerId score)
        ({ mp with playerNodeMap := mp.playerNodeMap.insert playerId nodeId }, true)

def getNode : Option Ref := (mp.locate nodeId).map Prod.snd

def removePlayerFromNode (playerId : Nat) : MatchPool × Bool :=
  match mp.getNode nodeId with
  | none => (mp, false)
  | some ref =>
    match (mp.heap ref).removePlayer playerId with
    | none => (mp, false)
    | some node =>
      let mp := mp.modifyNode ref fun _ => node
      ({ mp with playerNodeMap := mp.playerNodeMap.erase playerId }, true)

def findNodeByPlayer (playerId : Nat) : Option Ref :=
  (mp.playerNodeMap.lookup playerId).bind mp.getNode

def findPoolIndex (score : Nat) : Option Nat :=
  (mp.modePools.lookup mode).bind fun pool => pool.pools.findIdx? (·.isInRange score)

def startMatch (config : MatchConfig) (mp : MatchPool) (now nodeId : Nat) (mode : GameMode) :
    MatchPool × Bool :=
  match (config.lookup mode).filter (·.enabled), mp.locate nodeId with
  | some cfg, some (source, ref) =>
    let node := mp.heap ref
    if node.state ≠ .idle ∨ cfg.maxTeamSize < node.getPlayerCount then (mp, false)
    else
      match mp.findPoolIndex mode node.avgScore with
      | none => (mp, false)
      | some index =>
        let mp := if source = mode then mp else (mp.eraseNode source nodeId).putNode mode nodeId ref
        -- `add_node` sets the index once more, to the number of the score pool, which is the same
        ((mp.modifyNode ref (·.enter now index)).modifyListed mode index (· ++ [ref]), true)
  | _, _ => (mp, false)

/-- `remove_node` of the score pool with this index, if there is one. -/
def removeFromPool (index : Option Nat) (nodeId : Nat) : MatchPool :=
  match index with
  | none => mp
  | some index =>
    match (mp.listed mode index).find? fun ref => (mp.heap ref).nodeId = nodeId with
    | none => mp
    | some ref =>
      (mp.modifyNode ref fun node => { node with currentPoolIndex := none }).modifyListed mode index
        (·.erase ref)

/-- The first pool with a node of this id that looks for a match. -/
def locateMatching : Option (GameMode × Ref) :=
  mp.modePools.entries.findSome? fun entry =>
    ((entry.2.nodes.lookup nodeId).filter fun ref => (mp.heap ref).state = .matching).map
      fun ref => (entry.1, ref)

def cancelMatch (now nodeId : Nat) : MatchPool × Bool :=
  match mp.locateMatching nodeId with
  | none => (mp, false)
  | some (mode, ref) =>
    ((mp.removeFromPool mode (mp.heap ref).currentPoolIndex nodeId).modifyNode ref (·.reset now),
      true)

def playerOffline (now playerId : Nat) : MatchPool × Bool :=
  match mp.findNodeByPlayer playerId with
  | none => (mp, false)
  | some ref =>
    let node := mp.heap ref
    (((mp.cancelMatch now node.nodeId).1.erasePlayers node.players).eraseEverywhere node.nodeId,
      true)

end MatchPool

/-- The order in which nodes are met: that of a hash table, and that of a sort for nodes that have
waited equally long. -/
structure Arrangement where
  arrange : List Ref → List Ref
  perm : ∀ refs, (arrange refs).Perm refs

namespace MatchPool

variable (config : ModeConfig) (now : Nat) (order : Arrangement) (mode : GameMode)

variable (mp : MatchPool)

def modeNodes : List Ref :=
  ((mp.modePools.lookup mode).map fun pool => pool.nodes.entries.map Sigma.snd).getD []

/-- The first loop of `match_mode`. -/
def updateRanges : MatchPool :=
  (mp.modeNodes mode).foldl
    (fun mp ref =>
      if (mp.heap ref).state = .matching then mp.modifyNode ref (updateNodeRange config now)
      else mp)
    mp

def candidates (poolIndex : Nat) : List Ref :=
  (mp.modeNodes mode).filter fun ref =>
    (mp.heap ref).state = .matching ∧ (mp.heap ref).currentPoolIndex = some poolIndex

def playersIn (refs : List Ref) : Nat :=
  (refs.map fun ref => (mp.heap ref).getPlayerCount).sum

/-- The nodes that are taken for a match, those that have waited longest first.  The limit is a
32-bit number. -/
def tryMatchInPool (scorePool : ScorePool) : Option (List Ref) :=
  if scorePool.nodes = [] then none
  else
    let candidates := mp.candidates mode scorePool.poolIndex
    if mp.playersIn candidates < config.playerCount then none
    else
      let sorted := (order.arrange candidates).insertionSort fun a b =>
        (mp.heap b).getWaitTimeMs now ≤ (mp.heap a).getWaitTimeMs now
      let collected := collect (fun ref => (mp.heap ref).getPlayerCount) config.playerCount
        ((config.playerCount + config.maxTeamSize) % 2 ^ 32) 0 sorted
      if collected.1 < config.playerCount then none else some collected.2

/-- One round of the loop of `remove_matched_nodes`. -/
def removeMatchedNode (ref : Ref) : MatchPool :=
  let node := mp.heap ref
  ((mp.removeFromPool mode node.currentPoolIndex node.nodeId).erasePlayers node.players).eraseNode
    mode node.nodeId

def setMatched (refs : List Ref) : MatchPool :=
  refs.foldl (fun mp ref => mp.modifyNode ref fun node => { node with state := .matched }) mp

def formMatch (matchedNodes : List Ref) : MatchPool :=
  let mp := mp.setMatched matchedNodes
  let mp := matchedNodes.foldl (removeMatchedNode mode) mp
  let mp := mp.modifyMode mode fun pool => { pool with matchCount := pool.matchCount + 1 }
  { mp with log := mp.log ++ [{ mode, matchedNodes }] }

/-- One round of the second loop of `match_mode`. -/
def matchRound (index : Nat) : MatchPool :=
  match mp.scorePool? mode index with
  | none => mp
  | some scorePool =>
    match mp.tryMatchInPool config now order mode scorePool with
    | none => mp
    | some matchedNodes => mp.formMatch mode matchedNodes

def matchMode : MatchPool :=
  let count := ((mp.modePools.lookup mode).map (·.pools.length)).getD 0
  run (matchRound config now order mode) (mp.updateRanges config now mode) (List.range count)

/-- The modes that are not enabled are left out. -/
def matchEnabled (config : MatchConfig) (now : Nat) (order : Arrangement) (mp : MatchPool)
    (mode : GameMode) : MatchPool :=
  match (config.lookup mode).filter (·.enabled) with
  | none => mp
  | some cfg => mp.matchMode cfg now order mode

def doMatch (config : MatchConfig) (now : Nat) (order : Arrangement) (mp : MatchPool) : MatchPool :=
  run (matchEnabled config now order) mp mp.modePools.keys

end MatchPool

inductive MatchOp
  | createNode (now playerId score : Nat)
  | addPlayerToNode (nodeId playerId score : Nat)
  | removePlayerFromNode (nodeId playerId : Nat)
  | startMatch (now nodeId : Nat) (mode : GameMode)
  | cancelMatch (now nodeId : Nat)
  | playerOffline (now playerId : Nat)
  | doMatch (now : Nat) (order : Arrangement)

def MatchPool.matchStep (config : MatchConfig) (mp : MatchPool) : MatchOp → MatchPool
  | .createNode now playerId score => (mp.createNode now playerId score).1
  | .addPlayerToNode nodeId playerId score => (mp.addPlayerToNode config nodeId playerId score).1
  | .removePlayerFromNode nodeId playerId => (mp.removePlayerFromNode nodeId playerId).1
  | .startMatch now nodeId mode => (mp.startMatch config now nodeId mode).1
  | .cancelMatch now nodeId => (mp.cancelMatch now nodeId).1
  | .playerOffline now playerId => (mp.playerOffline now playerId).1
  | .doMatch now order => mp.doMatch config now order

end ServerLib.Match

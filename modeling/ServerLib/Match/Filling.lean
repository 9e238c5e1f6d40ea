import ServerLib.Match.Agreement

/-! When matches are formed.  A score pool gives a match exactly if the nodes in it have enough
players.  How far the nodes may look beyond their own score pool plays no part. -/

namespace ServerLib.Match

open Lib MatchNode List Option

namespace MatchPool

variable {mp mp' : MatchPool}

/-- No node is stored in a new place, begins to look for a match or gets players. -/
structure Fewer (mp mp' : MatchPool) : Prop where
  node? : ∀ {mode nodeId ref}, mp'.node? mode nodeId = some ref → mp.node? mode nodeId = some ref
  matching : ∀ {ref}, (mp'.heap ref).state = .matching → (mp.heap ref).state = .matching
  count : ∀ ref, (mp'.heap ref).getPlayerCount ≤ (mp.heap ref).getPlayerCount

theorem Fewer.refl (mp : MatchPool) : Fewer mp mp := ⟨id, id, fun _ => le_rfl⟩

theorem Fewer.trans (h : Fewer mp mp₁) (h₁ : Fewer mp₁ mp₂) : Fewer mp mp₂ where
  node? href := h.node? (h₁.node? href)
  matching hstate := h.matching (h₁.matching hstate)
  count ref := (h₁.count ref).trans (h.count ref)

theorem Fewer.of_heap (hheap : mp'.heap = mp.heap)
    (hnode : ∀ {mode nodeId ref}, mp'.node? mode nodeId = some ref →
      mp.node? mode nodeId = some ref) : Fewer mp mp' where
  node? := hnode
  matching hstate := by
    rw [hheap] at hstate
    exact hstate
  count ref := by rw [hheap]

theorem Reranged.fewer (h : Reranged mp mp') : Fewer mp mp' where
  node? href := by
    rw [MatchPool.node?, h.modePools] at href
    exact href
  matching {ref} hstate := by
    rw [h.proj state fun _ _ => rfl] at hstate
    exact hstate
  count ref := by rw [h.proj getPlayerCount fun _ _ => rfl]

section

variable (mp : MatchPool)

theorem fewer_modifyNode (ref : Ref) (f : MatchNode → MatchNode)
    (hstate : (f (mp.heap ref)).state = .matching → (mp.heap ref).state = .matching)
    (hcount : (f (mp.heap ref)).getPlayerCount ≤ (mp.heap ref).getPlayerCount) :
    Fewer mp (mp.modifyNode ref f) where
  node? := id
  matching {ref'} hmatching := by
    by_cases hsame : ref' = ref
    · subst hsame
      rw [heap_modifyNode_self] at hmatching
      exact hstate hmatching
    · rw [heap_modifyNode_of_ne mp f hsame] at hmatching
      exact hmatching
  count ref' := by
    by_cases hsame : ref' = ref
    · subst hsame
      rw [heap_modifyNode_self]
      exact hcount
    · rw [heap_modifyNode_of_ne mp f hsame]

theorem fewer_eraseNode (mode : GameMode) (nodeId : Nat) : Fewer mp (mp.eraseNode mode nodeId) := by
  refine .of_heap rfl fun href => ?_
  rw [node?_eraseNode] at href
  split at href
  · cases href
  · exact href

theorem fewer_eraseEverywhere (nodeId : Nat) : Fewer mp (mp.eraseEverywhere nodeId) := by
  refine .of_heap rfl fun href => ?_
  rw [node?_eraseEverywhere] at href
  split at href
  · cases href
  · exact href

theorem fewer_removeFromPool (mode : GameMode) (index : Option Nat)
    (nodeId : Nat) : Fewer mp (mp.removeFromPool mode index nodeId) := by
  unfold removeFromPool
  split
  · exact .refl mp
  split
  · exact .refl mp
  · refine (fewer_modifyNode mp _ (fun node => { node with currentPoolIndex := none }) id
      le_rfl).trans (.of_heap rfl fun href => ?_)
    rw [node?_modifyListed] at href
    exact href

theorem fewer_cancelMatch (now nodeId : Nat) : Fewer mp (mp.cancelMatch now nodeId).1 := by
  rw [cancelMatch]
  split
  · exact .refl mp
  · exact (fewer_removeFromPool mp _ _ _).trans
      (fewer_modifyNode _ _ (·.reset now) (fun hidle => by cases hidle) (Nat.le_refl _))

theorem fewer_playerOffline (now playerId : Nat) : Fewer mp (mp.playerOffline now playerId).1 := by
  rw [playerOffline]
  split
  · exact .refl mp
  · rename_i ref _
    have hplayers : Fewer (mp.cancelMatch now (mp.heap ref).nodeId).1
        ((mp.cancelMatch now (mp.heap ref).nodeId).1.erasePlayers (mp.heap ref).players) :=
      Fewer.of_heap rfl id
    exact ((fewer_cancelMatch mp now _).trans hplayers).trans (fewer_eraseEverywhere _ _)

theorem fewer_removePlayerFromNode (nodeId playerId : Nat) :
    Fewer mp (mp.removePlayerFromNode nodeId playerId).1 := by
  rw [removePlayerFromNode]
  split
  · exact .refl mp
  split
  · exact .refl mp
  rename_i ref _ _ node hremove
  obtain ⟨_, _, _, hstate, _, hcount⟩ := removePlayer_spec hremove
  exact (fewer_modifyNode mp ref (fun _ => node) hstate.symm.trans hcount).trans (.of_heap rfl id)

theorem fewer_setMatched (refs : List Ref) : Fewer mp (mp.setMatched refs) where
  node? href := by
    rw [MatchPool.node?, (setMatched_frame refs mp).1] at href
    exact href
  matching {ref} hstate := by
    rw [heap_setMatched] at hstate
    split at hstate
    · cases hstate
    · exact hstate
  count ref := by
    rw [heap_setMatched]
    split <;> exact le_rfl

theorem fewer_removeMatchedNode (mode : GameMode) (ref : Ref) :
    Fewer mp (mp.removeMatchedNode mode ref) := by
  have hplayers : ∀ mp' : MatchPool, Fewer mp' (mp'.erasePlayers (mp.heap ref).players) :=
    fun _ => .of_heap rfl id
  exact ((fewer_removeFromPool mp mode _ _).trans (hplayers _)).trans (fewer_eraseNode _ mode _)

theorem fewer_formMatch (mode : GameMode) (refs : List Ref) :
    Fewer mp (mp.formMatch mode refs) := by
  have hremoved : ∀ mp, Fewer mp (refs.foldl (removeMatchedNode mode) mp) := fun mp =>
    run_preserves (I := Fewer mp) (fun mp' ref h => h.trans (fewer_removeMatchedNode mp' mode ref))
      (.refl mp) refs
  apply (fewer_setMatched mp refs).trans
  apply (hremoved _).trans
  refine .of_heap rfl fun {mode' nodeId ref} href => ?_
  have hcount := node?_modifyMode (refs.foldl (removeMatchedNode mode) (mp.setMatched refs)) mode
    mode' nodeId (f := fun pool => { pool with matchCount := pool.matchCount + 1 }) fun _ => rfl
  exact hcount.symm.trans href

end

section

variable (h : mp.Sound) (config : MatchConfig) (now : Nat) (order : Arrangement)
include h

theorem Sound.fewer_matchEnabled (mode : GameMode) :
    Fewer mp (mp.matchEnabled config now order mode) :=
  (h.matchEnabled_keeps config now order (.refl mp)
    (fun config => (reranged_updateRanges config now mode mp).fewer)
    fun _ hfewer _ _ => hfewer.trans (fewer_formMatch _ mode _)).2

theorem Sound.fewer_doMatch : Fewer mp (mp.doMatch config now order) :=
  (run_preserves (I := fun mp' => mp'.Sound ∧ Fewer mp mp')
    (fun _ mode h' => ⟨h'.1.matchEnabled config now order mode,
      h'.2.trans (h'.1.fewer_matchEnabled config now order mode)⟩) ⟨h, .refl mp⟩ _).2

end

/-- No node that looks for a match is larger than its mode allows. -/
def Sized (config : MatchConfig) (mp : MatchPool) : Prop :=
  ∀ {mode nodeId ref cfg}, mp.node? mode nodeId = some ref → (mp.heap ref).state = .matching →
    config.lookup mode = some cfg → (mp.heap ref).getPlayerCount ≤ cfg.maxTeamSize

namespace Sized

variable (h : mp.Sized config)

include h

theorem fewer (hfewer : Fewer mp mp') : mp'.Sized config := by
  intro mode nodeId ref cfg href hstate hcfg
  have hsize := h (hfewer.node? href) (hfewer.matching hstate) hcfg
  exact (hfewer.count ref).trans hsize

theorem createNode (hs : mp.Sound) (now playerId score : Nat) :
    (mp.createNode now playerId score).1.Sized config := by
  rw [MatchPool.createNode]
  split
  · exact h
  intro mode nodeId ref cfg href hstate hcfg
  have hnode := node?_putNode (mp.modifyNode mp.nextRef fun _ => newNode now playerId score)
    .mode1v1Normal mode playerId nodeId mp.nextRef hs.queued.default
  have href := hnode.symm.trans href
  have hstate : ((mp.modifyNode mp.nextRef fun _ => newNode now playerId score).heap ref).state =
    .matching := hstate
  split at href
  · -- the new node is idle
    cases href
    rw [heap_modifyNode_self] at hstate
    cases hstate
  · have hheap := heap_modifyNode_of_ne mp (fun _ => newNode now playerId score)
      (hs.housed.below href).ne
    rw [hheap] at hstate
    exact (congrArg getPlayerCount hheap).trans_le (h href hstate hcfg)

theorem addPlayerToNode (hs : mp.Sound) (nodeId playerId score : Nat) :
    (mp.addPlayerToNode config nodeId playerId score).1.Sized config := by
  rw [MatchPool.addPlayerToNode]
  split
  · exact h
  split
  · exact h
  rename_i mode ref hlocate
  split
  · exact h
  rename_i hroom
  intro mode' nodeId' ref' cfg href' hstate hcfg
  have hstate : ((mp.modifyNode ref (·.addPlayer playerId score)).heap ref').state = .matching :=
    hstate
  by_cases hsame : ref' = ref
  · subst hsame
    obtain ⟨rfl, -⟩ := hs.housed.place_eq href' (locate_some hlocate)
    rw [hcfg] at hroom
    have hroom : ¬cfg.maxTeamSize ≤ (mp.heap ref').getPlayerCount := by simpa using hroom
    rw [heap_modifyNode_self]
    simp only [getPlayerCount, addPlayer, length_append, length_singleton] at hroom ⊢
    omega
  · rw [heap_modifyNode_of_ne mp _ hsame] at hstate ⊢
    exact h href' hstate hcfg

theorem startMatch (hs : mp.Sound) (now nodeId : Nat) (mode : GameMode) :
    (mp.startMatch config now nodeId mode).1.Sized config := by
  obtain hsame | ⟨cfg, ref, index, mp₁, hcfg, _, hsize, h₁, hheap, href, _, hother, hstart⟩ :=
    hs.startMatch_cases config now nodeId mode
  · rw [hsame]
    exact h
  rw [hstart]
  intro mode' nodeId' ref' cfg' href' hstate hcfg'
  rw [node?_modifyListed] at href'
  have href' : mp₁.node? mode' nodeId' = some ref' := href'
  have hstate : ((mp₁.modifyNode ref (·.enter now index)).heap ref').state = .matching := hstate
  change ((mp₁.modifyNode ref (·.enter now index)).heap ref').getPlayerCount ≤ _
  by_cases hsame : ref' = ref
  · subst hsame
    obtain ⟨rfl, -⟩ := h₁.housed.place_eq href' href
    cases hcfg'.symm.trans hcfg
    rw [heap_modifyNode_self, hheap]
    exact hsize
  · rw [heap_modifyNode_of_ne mp₁ _ hsame, hheap] at hstate ⊢
    exact h (hother hsame href') hstate hcfg'

end Sized

theorem sized_step (config : MatchConfig) (mp : MatchPool) (op : MatchOp)
    (h : mp.Sound ∧ mp.Sized config) (hkeeps : mp.KeepsId op) :
    (mp.matchStep config op).Sound ∧ (mp.matchStep config op).Sized config := by
  obtain ⟨hs, h⟩ := h
  refine ⟨sound_step config mp op hs hkeeps, ?_⟩
  cases op with
  | createNode now playerId score => exact h.createNode hs now playerId score
  | addPlayerToNode nodeId playerId score => exact h.addPlayerToNode hs nodeId playerId score
  | removePlayerFromNode nodeId playerId =>
    exact h.fewer (fewer_removePlayerFromNode mp nodeId playerId)
  | startMatch now nodeId mode => exact h.startMatch hs now nodeId mode
  | cancelMatch now nodeId => exact h.fewer (fewer_cancelMatch mp now nodeId)
  | playerOffline now playerId => exact h.fewer (fewer_playerOffline mp now playerId)
  | doMatch now order => exact h.fewer (hs.fewer_doMatch config now order)

theorem sized_init (hinit : init config = some mp) : mp.Sized config := by
  rw [init] at hinit
  split at hinit
  · cases hinit
  · rw [← some.inj hinit]
    intro mode nodeId ref cfg _ hidle
    cases hidle

theorem sized_run (hinit : init config = some mp)
    (hkeeps : Along (matchStep config) KeepsId mp ops) :
    (run (matchStep config) mp ops).Sound ∧ (run (matchStep config) mp ops).Sized config :=
  run_invariant (sized_step config) ⟨sound_init hinit, sized_init hinit⟩ hkeeps

/-- The number of matches in a mode so far. -/
def matchesIn (mp : MatchPool) (mode : GameMode) : Nat := mp.log.countP (·.mode = mode)

/-- Only the pool of one mode, the nodes in it and the matches in this mode have changed. -/
structure Confined (mode : GameMode) (mp mp' : MatchPool) : Prop where
  lookup : ∀ {mode'}, mode' ≠ mode → mp'.modePools.lookup mode' = mp.modePools.lookup mode'
  heap : ∀ {ref}, ref ∉ mp.modeNodes mode → mp'.heap ref = mp.heap ref
  nodes : ∀ {ref}, ref ∈ mp'.modeNodes mode → ref ∈ mp.modeNodes mode
  results : ∀ {mode'}, mode' ≠ mode → mp'.matchesIn mode' = mp.matchesIn mode'

theorem Confined.refl (mode : GameMode) (mp : MatchPool) : Confined mode mp mp :=
  ⟨fun _ => rfl, fun _ => rfl, id, fun _ => rfl⟩

theorem Confined.trans (h : Confined mode mp mp₁) (h₁ : Confined mode mp₁ mp₂) :
    Confined mode mp mp₂ where
  lookup hne := (h₁.lookup hne).trans (h.lookup hne)
  heap hnew := (h₁.heap fun hmem => hnew (h.nodes hmem)).trans (h.heap hnew)
  nodes hmem := h.nodes (h₁.nodes hmem)
  results hne := (h₁.results hne).trans (h.results hne)

theorem lookup_removeFromPool (mp : MatchPool) (hne : mode' ≠ mode) (index : Option Nat)
    (nodeId : Nat) :
    (mp.removeFromPool mode index nodeId).modePools.lookup mode' = mp.modePools.lookup mode' := by
  unfold removeFromPool
  split
  · rfl
  split
  · rfl
  · exact lookup_modify_of_ne _ hne _

theorem log_removeFromPool (mp : MatchPool) (mode : GameMode) (index : Option Nat) (nodeId : Nat) :
    (mp.removeFromPool mode index nodeId).log = mp.log := by
  unfold removeFromPool
  split
  · rfl
  split
  · rfl
  · rfl

theorem removeMatched_frame (mode : GameMode) (refs : List Ref) (mp : MatchPool) :
    (refs.foldl (removeMatchedNode mode) mp).log = mp.log ∧
      ∀ mode' ≠ mode, (refs.foldl (removeMatchedNode mode) mp).modePools.lookup mode' =
        mp.modePools.lookup mode' := by
  induction refs generalizing mp with
  | nil => exact ⟨rfl, fun _ _ => rfl⟩
  | cons ref refs ih =>
    rw [foldl_cons]
    obtain ⟨hlog, hlookup⟩ := ih (mp.removeMatchedNode mode ref)
    constructor
    · rw [hlog]
      exact log_removeFromPool mp mode _ _
    · intro mode' hne
      rw [hlookup mode' hne]
      exact (lookup_modify_of_ne _ hne _).trans (lookup_removeFromPool mp hne _ _)

theorem log_formMatch (mp : MatchPool) (mode : GameMode) (matchedNodes : List Ref) :
    (mp.formMatch mode matchedNodes).log = mp.log ++ [⟨mode, matchedNodes⟩] := by
  rw [formMatch]
  rw [modifyMode, (removeMatched_frame mode matchedNodes _).1,
    (setMatched_frame matchedNodes mp).2.2.2]

theorem matchesIn_formMatch (mp : MatchPool) (mode mode' : GameMode) (matchedNodes : List Ref) :
    (mp.formMatch mode matchedNodes).matchesIn mode' =
      mp.matchesIn mode' + if mode = mode' then 1 else 0 := by
  simp [matchesIn, log_formMatch, countP_cons]

section

variable (config : ModeConfig) (now : Nat) (order : Arrangement) (mode : GameMode)

theorem Sound.confined_formMatch (h : mp.Sound) (hnodup : refs.Nodup)
    (hrefs : ∀ ref ∈ refs, (mp.heap ref).state = .matching ∧ ref ∈ mp.modeNodes mode) :
    Confined mode mp (mp.formMatch mode refs) := by
  constructor
  · intro mode' hne
    rw [MatchPool.formMatch]
    rw [modifyMode, lookup_modify_of_ne _ hne, (removeMatched_frame mode refs _).2 mode' hne,
      (setMatched_frame refs mp).1]
  · intro ref hnew
    exact (h.formMatch hnodup hrefs).2 ref fun hmem => hnew (hrefs ref hmem).2
  · intro ref hmem
    obtain ⟨nodeId, href⟩ := mem_modeNodes.mp hmem
    exact mem_modeNodes.mpr ⟨nodeId, (fewer_formMatch mp mode refs).node? href⟩
  · intro mode' hne
    rw [matchesIn_formMatch, if_neg hne.symm, Nat.add_zero]

theorem confined_updateRanges (mp : MatchPool) :
    Confined mode mp (mp.updateRanges config now mode) := by
  have hrange := reranged_updateRanges config now mode mp
  constructor
  · intro mode' _
    rw [hrange.modePools]
  · intro ref hnew
    rw [updateRanges]
    generalize mp.modeNodes mode = refs at hnew
    clear hrange
    induction refs generalizing mp with
    | nil => rfl
    | cons ref' refs ih =>
      obtain ⟨hne, hnew⟩ := not_or.mp (mt mem_cons.mpr hnew)
      rw [foldl_cons, ih _ hnew]
      split
      · exact heap_modifyNode_of_ne mp _ hne
      · rfl
  · intro ref hmem
    rw [modeNodes, hrange.modePools] at hmem
    exact hmem
  · intro mode' _
    rw [matchesIn, hrange.log, matchesIn]

theorem matchesIn_le_matchRound (mp : MatchPool) (index : Nat) :
    mp.matchesIn mode ≤ (mp.matchRound config now order mode index).matchesIn mode := by
  rw [matchRound]
  split
  · exact le_rfl
  split
  · exact le_rfl
  · rw [matchesIn_formMatch]
    omega

end

theorem Sound.confined_matchEnabled (h : mp.Sound) (config : MatchConfig) (now : Nat)
    (order : Arrangement) (mode : GameMode) :
    Confined mode mp (mp.matchEnabled config now order mode) :=
  (h.matchEnabled_keeps config now order (.refl mode mp)
    (fun config => confined_updateRanges config now mode mp)
    fun h' hconfined hnodup hrefs => hconfined.trans (h'.confined_formMatch mode hnodup hrefs)).2

theorem Sound.matchesIn_run_of_notMem (h : mp.Sound) (config : MatchConfig) (now : Nat)
    (order : Arrangement) (hnew : mode ∉ modes) :
    (run (MatchPool.matchEnabled config now order) mp modes).matchesIn mode =
      mp.matchesIn mode := by
  induction modes generalizing mp with
  | nil => rfl
  | cons mode' modes ih =>
    obtain ⟨hne, hnew⟩ := not_or.mp (mt mem_cons.mpr hnew)
    rw [run_cons, ih (h.matchEnabled config now order mode') hnew]
    exact (h.confined_matchEnabled config now order mode').results hne

/-- A score pool has nodes in it, and they have enough players for a match. -/
def EnoughIn (config : ModeConfig) (mode : GameMode) (mp : MatchPool) (index : Nat) : Prop :=
  mp.listed mode index ≠ [] ∧ config.playerCount ≤ mp.playersIn (mp.candidates mode index)

theorem EnoughIn.pool (h : mp.EnoughIn config mode index) :
    ∃ pool, mp.modePools.lookup mode = some pool ∧ index < pool.pools.length := by
  obtain ⟨ref, hmem⟩ := exists_mem_of_ne_nil _ h.1
  obtain ⟨scorePool, hscore⟩ := isSome_iff_exists.mp (scorePool?_of_mem_listed hmem)
  obtain ⟨pool, hpool, hindex⟩ := bind_eq_some_iff.mp hscore
  exact ⟨pool, hpool, (List.getElem?_eq_some_iff.mp hindex).1⟩

theorem candidates_congr (hlookup : mp'.modePools.lookup mode =
      mp.modePools.lookup mode)
    (hstate : ∀ ref ∈ mp.modeNodes mode, (mp'.heap ref).state = (mp.heap ref).state)
    (hindex : ∀ ref ∈ mp.modeNodes mode,
      (mp'.heap ref).currentPoolIndex = (mp.heap ref).currentPoolIndex) (index : Nat) :
    mp'.candidates mode index = mp.candidates mode index := by
  have hnodes : mp'.modeNodes mode = mp.modeNodes mode := by rw [modeNodes, hlookup, modeNodes]
  rw [candidates, hnodes, candidates]
  refine filter_congr fun ref hmem => ?_
  rw [hstate ref hmem, hindex ref hmem]

theorem enoughIn_congr (hlookup : mp'.modePools.lookup mode = mp.modePools.lookup mode)
    (hstate : ∀ ref ∈ mp.modeNodes mode, (mp'.heap ref).state = (mp.heap ref).state)
    (hindex : ∀ ref ∈ mp.modeNodes mode,
      (mp'.heap ref).currentPoolIndex = (mp.heap ref).currentPoolIndex)
    (hcount : ∀ ref ∈ mp.modeNodes mode,
      (mp'.heap ref).getPlayerCount = (mp.heap ref).getPlayerCount) (index : Nat) :
    mp'.EnoughIn config mode index ↔ mp.EnoughIn config mode index := by
  have hplayers : mp'.playersIn (mp.candidates mode index) =
      mp.playersIn (mp.candidates mode index) := by
    rw [playersIn, playersIn]
    refine congrArg sum (map_congr_left fun ref hmem => ?_)
    exact hcount ref (mem_of_mem_filter hmem)
  rw [EnoughIn, listed, scorePool?, hlookup, candidates_congr hlookup hstate hindex, hplayers]
  rfl

theorem Sound.enoughIn_confined (h : mp.Sound) (hne : mode ≠ mode')
    (hconfined : Confined mode' mp mp') (index : Nat) :
    mp'.EnoughIn config mode index ↔ mp.EnoughIn config mode index := by
  have hheap : ∀ ref ∈ mp.modeNodes mode, mp'.heap ref = mp.heap ref := by
    intro ref hmem
    apply hconfined.heap
    intro hmem'
    obtain ⟨nodeId, href⟩ := mem_modeNodes.mp hmem
    obtain ⟨nodeId', href'⟩ := mem_modeNodes.mp hmem'
    exact hne (h.housed.place_eq href href').1
  apply enoughIn_congr (hconfined.lookup hne)
  · exact fun ref hmem => congrArg state (hheap ref hmem)
  · exact fun ref hmem => congrArg currentPoolIndex (hheap ref hmem)
  · exact fun ref hmem => congrArg getPlayerCount (hheap ref hmem)

theorem isSome_tryMatchInPool (hlimit : config.playerCount + config.maxTeamSize < 2 ^ 32)
    (hsize : ∀ ref ∈ mp.candidates mode scorePool.poolIndex,
      (mp.heap ref).getPlayerCount ≤ config.maxTeamSize) (now : Nat) (order : Arrangement) :
    (mp.tryMatchInPool config now order mode scorePool).isSome ↔
      scorePool.nodes ≠ [] ∧
        config.playerCount ≤ mp.playersIn (mp.candidates mode scorePool.poolIndex) := by
  rw [tryMatchInPool, Nat.mod_eq_of_lt hlimit]
  split_ifs with hempty
  · simp [hempty]
  dsimp only
  split
  · rename_i hfew
    simp only [isSome_none, Bool.false_eq_true, false_iff, not_and]
    omega
  rename_i henough
  have hperm := (perm_insertionSort (fun a b =>
    (mp.heap b).getWaitTimeMs now ≤ (mp.heap a).getWaitTimeMs now) _).trans
      (order.perm (mp.candidates mode scorePool.poolIndex))
  have hsum : (((order.arrange (mp.candidates mode scorePool.poolIndex)).insertionSort fun a b =>
      (mp.heap b).getWaitTimeMs now ≤ (mp.heap a).getWaitTimeMs now).map fun ref =>
        (mp.heap ref).getPlayerCount).sum =
      mp.playersIn (mp.candidates mode scorePool.poolIndex) := (hperm.map _).sum_eq
  have hcollect := (le_collect_iff (fun ref => (mp.heap ref).getPlayerCount) config.playerCount
    (config.playerCount + config.maxTeamSize) (Nat.zero_le _) fun ref hmem =>
      Nat.add_le_add_left (hsize ref (hperm.mem_iff.mp hmem)) _).mpr
        (by rw [hsum, Nat.zero_add]; exact Nat.not_lt.mp henough)
  rw [if_neg (Nat.not_lt.mpr hcollect)]
  exact ⟨fun _ => ⟨hempty, Nat.not_lt.mp henough⟩, fun _ => rfl⟩

/-- `do_match` forms a match in the mode. -/
def FormsMatch (config : MatchConfig) (now : Nat) (order : Arrangement) (mode : GameMode)
    (mp : MatchPool) : Prop :=
  mp.matchesIn mode < (mp.doMatch config now order).matchesIn mode

section

variable {config : MatchConfig} (hcfg : config.lookup mode = some cfg)
  (hlimit : cfg.playerCount + cfg.maxTeamSize < 2 ^ 32)

include hcfg hlimit

theorem Sound.matchRound_enough (h : mp.Sound) (hsized : mp.Sized config) (now : Nat)
    (order : Arrangement) (index : Nat) :
    (mp.EnoughIn cfg mode index ∧
      ∃ refs, mp.matchRound cfg now order mode index = mp.formMatch mode refs) ∨
    (¬mp.EnoughIn cfg mode index ∧ mp.matchRound cfg now order mode index = mp) := by
  rw [EnoughIn, listed, MatchPool.matchRound]
  cases hpool : mp.scorePool? mode index with
  | none => exact .inr ⟨fun henough => henough.1 rfl, rfl⟩
  | some scorePool =>
    have hindex := h.queued.poolIndex hpool
    have hsize : ∀ ref ∈ mp.candidates mode scorePool.poolIndex,
        (mp.heap ref).getPlayerCount ≤ cfg.maxTeamSize := by
      intro ref hmem
      obtain ⟨hnode, hstate⟩ := mem_filter.mp hmem
      obtain ⟨nodeId, href⟩ := mem_modeNodes.mp hnode
      exact hsized href (of_decide_eq_true hstate).1 hcfg
    have hmatch := isSome_tryMatchInPool hlimit hsize now order
    rw [hindex] at hmatch
    dsimp only
    cases hrefs : mp.tryMatchInPool cfg now order mode scorePool with
    | none =>
      rw [hrefs] at hmatch
      exact .inr ⟨fun henough => Bool.noConfusion (hmatch.mpr henough), rfl⟩
    | some refs =>
      rw [hrefs] at hmatch
      exact .inl ⟨hmatch.mp rfl, refs, rfl⟩

theorem Sound.matchRounds_iff (h : mp.Sound) (hsized : mp.Sized config) (now : Nat)
    (order : Arrangement) (indices : List Nat) :
    mp.matchesIn mode < (run (MatchPool.matchRound cfg now order mode) mp indices).matchesIn mode ↔
      ∃ index ∈ indices, mp.EnoughIn cfg mode index := by
  induction indices with
  | nil => simp
  | cons index indices ih =>
    rw [run_cons]
    obtain ⟨henough, refs, hmatch⟩ | ⟨hfew, hsame⟩ :=
      h.matchRound_enough hcfg hlimit hsized now order index
    · -- no match is forgotten in later rounds
      have hle : (mp.formMatch mode refs).matchesIn mode ≤
          (run (MatchPool.matchRound cfg now order mode) (mp.formMatch mode refs) indices).matchesIn
            mode :=
        run_preserves (I := fun mp' => (mp.formMatch mode refs).matchesIn mode ≤ mp'.matchesIn mode)
          (fun mp' index h => h.trans (matchesIn_le_matchRound cfg now order mode mp' index))
          le_rfl indices
      rw [matchesIn_formMatch, if_pos rfl] at hle
      rw [hmatch]
      exact ⟨fun _ => ⟨index, mem_cons_self, henough⟩, fun _ => hle⟩
    · rw [hsame, ih]
      simp [hfew]

theorem Sound.matchMode_iff (h : mp.Sound) (hsized : mp.Sized config) (now : Nat)
    (order : Arrangement) :
    mp.matchesIn mode < (mp.matchMode cfg now order mode).matchesIn mode ↔
      ∃ index, mp.EnoughIn cfg mode index := by
  have hrange := reranged_updateRanges cfg now mode mp
  have hsame : ∀ index, (mp.updateRanges cfg now mode).EnoughIn cfg mode index ↔
      mp.EnoughIn cfg mode index := by
    apply enoughIn_congr
    · rw [hrange.modePools]
    · exact fun ref _ => hrange.proj state (fun _ _ => rfl) ref
    · exact fun ref _ => hrange.proj currentPoolIndex (fun _ _ => rfl) ref
    · exact fun ref _ => hrange.proj getPlayerCount (fun _ _ => rfl) ref
  have hlog : (mp.updateRanges cfg now mode).matchesIn mode = mp.matchesIn mode := by
    rw [matchesIn, hrange.log, matchesIn]
  rw [MatchPool.matchMode, ← hlog,
    (h.rerange hrange).matchRounds_iff hcfg hlimit (hsized.fewer hrange.fewer) now order]
  simp only [hsame]
  constructor
  · rintro ⟨index, _, henough⟩
    exact ⟨index, henough⟩
  · rintro ⟨index, henough⟩
    refine ⟨index, mem_range.mpr ?_, henough⟩
    obtain ⟨pool, hpool, hlt⟩ := henough.pool
    rw [hpool]
    exact hlt

theorem Sound.matchModes_iff (h : mp.Sound) (hsized : mp.Sized config) (henabled : cfg.enabled)
    (now : Nat) (order : Arrangement) (hnodup : modes.Nodup) :
    mp.matchesIn mode < (run (MatchPool.matchEnabled config now order) mp modes).matchesIn mode ↔
      mode ∈ modes ∧ ∃ index, mp.EnoughIn cfg mode index := by
  induction modes generalizing mp with
  | nil => simp
  | cons mode' modes ih =>
    obtain ⟨hnew, hnodup⟩ := nodup_cons.mp hnodup
    have hconfined := h.confined_matchEnabled config now order mode'
    rw [run_cons]
    by_cases hmode : mode = mode'
    · subst hmode
      rw [(h.matchEnabled config now order mode).matchesIn_run_of_notMem config now order hnew,
        MatchPool.matchEnabled, hcfg, filter_some, if_pos henabled]
      simp only [mem_cons_self, true_and]
      exact h.matchMode_iff hcfg hlimit hsized now order
    · have hfewer : Fewer mp (mp.matchEnabled config now order mode') :=
        h.fewer_matchEnabled config now order mode'
      rw [← hconfined.results hmode,
        ih (h.matchEnabled config now order mode') (hsized.fewer hfewer) hnodup]
      simp only [h.enoughIn_confined hmode hconfined, mem_cons, hmode, false_or]

theorem Sound.formsMatch_iff (h : mp.Sound) (hsized : mp.Sized config) (henabled : cfg.enabled)
    (now : Nat) (order : Arrangement) :
    mp.FormsMatch config now order mode ↔ ∃ index, mp.EnoughIn cfg mode index := by
  rw [FormsMatch, MatchPool.doMatch,
    h.matchModes_iff hcfg hlimit hsized henabled now order mp.modePools.keys_nodup]
  refine and_iff_right_of_imp ?_
  rintro ⟨index, henough⟩
  obtain ⟨pool, hpool, _⟩ := henough.pool
  exact AList.lookup_isSome.mp (by rw [hpool]; rfl)

end

/-- A node that looks for a match could get one together with others, in the score pools around its
own that its range reaches after the time that it has waited. -/
def Fillable (config : ModeConfig) (now : Nat) (mode : GameMode) (mp : MatchPool) : Prop :=
  ∃ (ref : Ref) (center : Nat) (refs : List Ref),
    (mp.heap ref).currentPoolIndex = some center ∧ ref ∈ refs ∧ refs.Nodup ∧
    (∀ ref' ∈ refs, ref' ∈ mp.modeNodes mode ∧ (mp.heap ref').state = .matching ∧
      ∃ index ∈ getCandidatePools center (updateNodeRange config now (mp.heap ref)).matchRange
        (((mp.modePools.lookup mode).map (·.pools.length)).getD 0),
        (mp.heap ref').currentPoolIndex = some index) ∧
    config.playerCount ≤ mp.playersIn refs ∧
    mp.playersIn refs ≤ config.playerCount + config.maxTeamSize

/-- In a mode that could be filled a match is formed exactly if a single score pool has enough
players: the ranges of the nodes do not help. -/
theorem fills_run_iff {config : MatchConfig} (hinit : init config = some mp) {ops : List MatchOp}
    (hkeeps : Along (matchStep config) KeepsId mp ops) {mode : GameMode} {cfg : ModeConfig}
    (hcfg : config.lookup mode = some cfg) (henabled : cfg.enabled)
    (hlimit : cfg.playerCount + cfg.maxTeamSize < 2 ^ 32) (now : Nat) (order : Arrangement) :
    ((run (matchStep config) mp ops).Fillable cfg now mode →
        (run (matchStep config) mp ops).FormsMatch config now order mode) ↔
      ((run (matchStep config) mp ops).Fillable cfg now mode →
        ∃ index, (run (matchStep config) mp ops).EnoughIn cfg mode index) := by
  obtain ⟨hs, hsized⟩ := sized_run hinit hkeeps
  rw [hs.formsMatch_iff hcfg hlimit hsized henabled now order]

def duel (score : Nat) : List MatchOp :=
  [.createNode 0 1 100, .createNode 0 2 score, .startMatch 0 1 .mode1v1Normal,
    .startMatch 0 2 .mode1v1Normal]

def duelConfig : ModeConfig := (initDefaultConfig.lookup .mode1v1Normal).get (by decide +kernel)

theorem lookup_duel : initDefaultConfig.lookup .mode1v1Normal = some duelConfig :=
  (some_get _).symm

/-- Players in one score pool meet at once. -/
theorem fills_run_duel :
    (run (matchStep initDefaultConfig) defaultPool (duel 200)).FormsMatch initDefaultConfig 1000
      ⟨id, List.Perm.refl⟩ .mode1v1Normal := by
  refine (fills_run_iff init_default (by decide +kernel) lookup_duel (by decide +kernel)
    (by decide +kernel) 1000 ⟨id, List.Perm.refl⟩).mpr (fun _ => ⟨0, ?_, ?_⟩)
    ⟨0, 0, [0, 1], ?_, ?_, ?_, ?_, ?_, ?_⟩
  all_goals decide +kernel

/-- Players in two score pools side by side, whose ranges reach each other after ten seconds, do not
meet. -/
theorem not_fills_neighbours :
    ¬((run (matchStep initDefaultConfig) defaultPool (duel 100000)).Fillable duelConfig 10000
        .mode1v1Normal →
      (run (matchStep initDefaultConfig) defaultPool (duel 100000)).FormsMatch initDefaultConfig
        10000 ⟨id, List.Perm.refl⟩ .mode1v1Normal) := by
  have hnone : ¬(run (matchStep initDefaultConfig) defaultPool (duel 100000)).matchesIn
      .mode1v1Normal < ((run (matchStep initDefaultConfig) defaultPool (duel 100000)).doMatch
        initDefaultConfig 10000 ⟨id, List.Perm.refl⟩).matchesIn .mode1v1Normal := by
    decide +kernel
  intro hfills
  refine hnone (hfills ⟨0, 0, [0, 1], ?_, ?_, ?_, ?_, ?_, ?_⟩)
  all_goals decide +kernel

end MatchPool

end ServerLib.Match

import ServerLib.Match.Housing

/-! The player map, the pools of the modes and the score pools agree, as long as no node loses its
first player and node 0 gets no other ones: these change the id of a node, but not the id that it is
stored under. -/

namespace ServerLib.Match

open Lib MatchNode List AList

namespace MatchPool

structure Sound (mp : MatchPool) : Prop where
  housed : mp.Housed
  queued : mp.Queued []

variable {mp : MatchPool}

theorem lookup_insert_iff {map : AList fun _ : Nat => Nat} (hfree : map.lookup playerId = none)
    (nodeId player nodeId' : Nat) (hne : nodeId' ≠ nodeId) :
    (map.insert playerId nodeId).lookup player = some nodeId' ↔
      map.lookup player = some nodeId' := by
  by_cases hplayer : player = playerId
  · subst hplayer
    simp [hfree, hne.symm]
  · rw [lookup_insert_ne hplayer]

theorem Sound.createNode (h : mp.Sound) (now playerId score : Nat) :
    (mp.createNode now playerId score).1.Sound := by
  rw [MatchPool.createNode]
  split_ifs with hfree
  · exact h
  have hfree : mp.playerNodeMap.lookup playerId = none := by simpa using hfree
  have hnode := fun mode nodeId => node?_putNode (mp.modifyNode mp.nextRef fun _ =>
    newNode now playerId score) .mode1v1Normal mode playerId nodeId mp.nextRef h.queued.default
  have hself : (mp.modifyNode mp.nextRef fun _ => newNode now playerId score).heap mp.nextRef =
    newNode now playerId score := heap_modifyNode_self mp mp.nextRef _
  have hother : ∀ ref ≠ mp.nextRef,
      (mp.modifyNode mp.nextRef fun _ => newNode now playerId score).heap ref = mp.heap ref :=
    fun ref hne => heap_modifyNode_of_ne mp _ hne
  constructor
  · refine h.housed.replace .mode1v1Normal (fun hlt => absurd hlt (lt_irrefl _)) (Nat.le_succ _)
      (Nat.lt_succ_self _) hother
      (Eq.subst (motive := (Named playerId ·)) hself.symm (named_newNode now playerId score))
      ?_ ?_ ?_ ?_
    · intro mode ref href
      have href := (hnode mode playerId).symm.trans href
      split_ifs at href with hplace
      · exact ⟨hplace.1, (Option.some.inj href).symm⟩
      · exact absurd href (h.housed.unused hfree)
    · intro mode nodeId hne
      exact (hnode mode nodeId).trans (if_neg fun hboth => hne hboth.2)
    · intro player
      refine Iff.trans ?_ (and_iff_right ((hnode _ playerId).trans (if_pos ⟨rfl, rfl⟩))).symm
      change (mp.playerNodeMap.insert playerId playerId).lookup player = _ ↔ player ∈
        ((mp.modifyNode mp.nextRef fun _ => newNode now playerId score).heap mp.nextRef).playerIds
      rw [hself]
      by_cases hplayer : player = playerId
      · subst hplayer
        exact iff_of_true (lookup_insert _) (mem_singleton_self _)
      · rw [lookup_insert_ne hplayer, h.housed.home]
        refine iff_of_false ?_ fun hmem => hplayer (mem_singleton.mp hmem)
        rintro ⟨mode, ref, href, _⟩
        exact h.housed.unused hfree href
    · exact fun player nodeId => lookup_insert_iff hfree playerId player nodeId
  · refine h.queued.mono (fun mode index => scorePool?_putNode _ _ mode playerId mp.nextRef index)
      (isSome_lookup_modifyMode _ _ _ _) ?_ ?_
    · intro mode nodeId ref href hactive
      have hheap := hother ref (h.housed.below href).ne
      refine ⟨⟨nodeId, (hnode mode nodeId).trans ?_⟩, (congrArg state hheap).trans hactive,
        congrArg currentPoolIndex hheap⟩
      rw [if_neg]
      · exact href
      · rintro ⟨_, rfl⟩
        exact h.housed.unused hfree href
    · intro mode nodeId ref href hactive
      have href := (hnode mode nodeId).symm.trans href
      split at href
      · -- the new node is idle
        cases href
        cases (congrArg state hself).symm.trans hactive
      · have hheap := hother ref (h.housed.below href).ne
        exact ⟨(congrArg state hheap).symm.trans hactive, nodeId, href⟩

variable {nodeId : Nat} {modePools : AList fun _ : GameMode => ModePool}

section

variable (h : mp.Sound)
include h

theorem Sound.change (href : mp.node? mode nodeId = some ref) (f : MatchNode → MatchNode)
    {map : AList fun _ : Nat => Nat} (hnamed : (f (mp.heap ref)).Named nodeId)
    (hstate : (f (mp.heap ref)).state = (mp.heap ref).state)
    (hindex : (f (mp.heap ref)).currentPoolIndex = (mp.heap ref).currentPoolIndex)
    (hself : ∀ playerId, map.lookup playerId = some nodeId ↔
      playerId ∈ (f (mp.heap ref)).playerIds)
    (hmap : ∀ playerId nodeId', nodeId' ≠ nodeId → (map.lookup playerId = some nodeId' ↔
      mp.playerNodeMap.lookup playerId = some nodeId')) :
    Sound { mp.modifyNode ref f with playerNodeMap := map } := by
  have hnew := heap_modifyNode_self mp ref f
  constructor
  · refine h.housed.replace mode (fun _ => ⟨mode, href⟩) le_rfl (h.housed.below href)
      (fun _ hne => heap_modifyNode_of_ne mp f hne)
      (Eq.subst (motive := (Named nodeId ·)) hnew.symm hnamed) ?_ (fun _ _ _ => rfl) ?_ hmap
    · intro mode' ref' href'
      obtain rfl := h.housed.one href' href
      exact ⟨rfl, Option.some.inj (href'.symm.trans href)⟩
    · intro playerId
      change _ ↔ _ ∧ playerId ∈ ((mp.modifyNode ref f).heap ref).playerIds
      rw [hnew, hself]
      exact (and_iff_right href).symm
  · exact h.queued.of_eq (fun _ _ => rfl) rfl (fun _ _ => rfl)
      (fun ref' => proj_modifyNode mp ref ref' f state hstate)
      (fun ref' => proj_modifyNode mp ref ref' f currentPoolIndex hindex)

theorem Sound.addPlayerToNode (config : MatchConfig) (hzero : nodeId ≠ 0)
    (playerId score : Nat) : (mp.addPlayerToNode config nodeId playerId score).1.Sound := by
  rw [MatchPool.addPlayerToNode]
  split_ifs with hfree
  · exact h
  have hfree : mp.playerNodeMap.lookup playerId = none := by simpa using hfree
  split
  · exact h
  rename_i mode ref hlocate
  split
  · exact h
  have href := locate_some hlocate
  have hnew : playerId ∉ (mp.heap ref).playerIds := by
    rw [← h.housed.home_iff href, hfree]
    nofun
  refine h.change href (·.addPlayer playerId score)
    ((h.housed.named href).addPlayer hzero hnew score) rfl rfl ?_
    fun player nodeId' => lookup_insert_iff hfree nodeId player nodeId'
  intro player
  rw [playerIds_addPlayer, mem_append, mem_singleton, ← h.housed.home_iff href]
  change (mp.playerNodeMap.insert playerId nodeId).lookup player = _ ↔ _
  by_cases hplayer : player = playerId
  · subst hplayer
    simp
  · simp [lookup_insert_ne hplayer, hplayer]

theorem Sound.removePlayerFromNode
    (hfirst : ∀ ref ∈ mp.getNode nodeId, (mp.heap ref).playerIds.head? ≠ some playerId) :
    (mp.removePlayerFromNode nodeId playerId).1.Sound := by
  rw [MatchPool.removePlayerFromNode]
  split
  · exact h
  rename_i ref hgetNode
  split
  · exact h
  rename_i node hremove
  obtain ⟨mode, href⟩ := getNode_some hgetNode
  have hnamed := h.housed.named href
  have hother : playerId ≠ nodeId := by
    rintro rfl
    exact hfirst ref hgetNode hnamed.first
  obtain ⟨hmem, hids, _, hstate, hindex, _⟩ := removePlayer_spec hremove
  refine h.change href (fun _ => node) (hnamed.removePlayer hremove hother) hstate hindex ?_ ?_
  · intro player
    rw [hids, hnamed.nodup.mem_erase_iff, ← h.housed.home_iff href]
    change (mp.playerNodeMap.erase playerId).lookup player = _ ↔ _
    by_cases hplayer : player = playerId
    · subst hplayer
      simp
    · simp [lookup_erase_ne hplayer, hplayer]
  · intro player nodeId' hne
    change (mp.playerNodeMap.erase playerId).lookup player = _ ↔ _
    by_cases hplayer : player = playerId
    · subst hplayer
      simp [(h.housed.home_iff href player).mpr hmem, hne.symm]
    · rw [lookup_erase_ne hplayer]

theorem Sound.move (href : mp.node? source nodeId = some ref) (hidle : (mp.heap ref).state = .idle)
    (hmode : (mp.modePools.lookup mode).isSome) :
    ((mp.eraseNode source nodeId).putNode mode nodeId ref).Sound := by
  have hnode : ∀ mode' nodeId', ((mp.eraseNode source nodeId).putNode mode nodeId ref).node? mode'
      nodeId' = if mode' = mode ∧ nodeId' = nodeId then some ref
        else if mode' = source ∧ nodeId' = nodeId then none else mp.node? mode' nodeId' := by
    intro mode' nodeId'
    rw [node?_putNode, node?_eraseNode]
    rw [eraseNode, isSome_lookup_modifyMode]
    exact hmode
  have hself : ∀ mode' ref', ((mp.eraseNode source nodeId).putNode mode nodeId ref).node? mode'
      nodeId = some ref' ↔ mode' = mode ∧ ref' = ref := by
    intro mode' ref'
    rw [hnode]
    by_cases hplace : mode' = mode
    · simp [hplace, eq_comm]
    have hnone : (if mode' = source ∧ nodeId = nodeId then none else mp.node? mode' nodeId) =
        none := by
      split_ifs with hsource
      · rfl
      · by_contra hsome
        obtain ⟨ref₁, href₁⟩ := Option.ne_none_iff_exists'.mp hsome
        exact hsource ⟨h.housed.one href₁ href, rfl⟩
    rw [if_neg fun hboth => hplace hboth.1, hnone]
    simp [hplace]
  have hother : ∀ mode' nodeId', nodeId' ≠ nodeId →
      ((mp.eraseNode source nodeId).putNode mode nodeId ref).node? mode' nodeId' =
        mp.node? mode' nodeId' := by
    intro mode' nodeId' hne
    rw [hnode, if_neg fun hboth => hne hboth.2, if_neg fun hboth => hne hboth.2]
  refine ⟨h.housed.move href hself hother rfl rfl rfl, ?_⟩
  have hactive : ¬Active [] ref (mp.heap ref) := by
    rw [Active, hidle, if_neg not_mem_nil]
    decide
  refine h.queued.mono (fun mode' index => ?_) ?_ ?_ ?_
  · rw [scorePool?_putNode, scorePool?_eraseNode]
  · rw [putNode, isSome_lookup_modifyMode, eraseNode, isSome_lookup_modifyMode]
  · intro mode' nodeId' ref' href' hactive'
    refine ⟨⟨nodeId', ?_⟩, hactive', rfl⟩
    rw [hother]
    · exact href'
    · rintro rfl
      obtain rfl := h.housed.one href' href
      cases href'.symm.trans href
      exact hactive hactive'
  · intro mode' nodeId' ref' href' hactive'
    by_cases hsame : nodeId' = nodeId
    · subst hsame
      obtain ⟨_, rfl⟩ := (hself mode' ref').mp href'
      exact absurd hactive' hactive
    · rw [hother mode' nodeId' hsame] at href'
      exact ⟨hactive', nodeId', href'⟩

/-- A node that is idle and not too large begins to look for a match.  Before, it is moved to the
pool of the mode, if it is in another one. -/
theorem Sound.startMatch_cases (config : MatchConfig) (now nodeId : Nat) (mode : GameMode) :
    (mp.startMatch config now nodeId mode).1 = mp ∨
      ∃ (cfg : ModeConfig) (ref : Ref) (index : Nat) (mp₁ : MatchPool),
        config.lookup mode = some cfg ∧ (mp.heap ref).state = .idle ∧
        (mp.heap ref).getPlayerCount ≤ cfg.maxTeamSize ∧ mp₁.Sound ∧ mp₁.heap = mp.heap ∧
        mp₁.node? mode nodeId = some ref ∧ (mp₁.scorePool? mode index).isSome ∧
        (∀ {mode' nodeId' ref'}, ref' ≠ ref → mp₁.node? mode' nodeId' = some ref' →
          mp.node? mode' nodeId' = some ref') ∧
        (mp.startMatch config now nodeId mode).1 =
          (mp₁.modifyNode ref (·.enter now index)).modifyListed mode index (· ++ [ref]) := by
  unfold MatchPool.startMatch
  split
  · rename_i cfg source ref hcfg hlocate
    dsimp only
    split
    · exact .inl rfl
    rename_i hready
    obtain ⟨hidle, hsize⟩ := not_or.mp hready
    have hidle : (mp.heap ref).state = .idle := not_not.mp hidle
    split
    · exact .inl rfl
    rename_i index hindex
    have href := locate_some hlocate
    obtain ⟨pool, hpool, hfound⟩ := Option.bind_eq_some_iff.mp hindex
    have hmode : (mp.modePools.lookup mode).isSome := by
      rw [hpool]
      rfl
    have hscore : (mp.scorePool? mode index).isSome := by
      rw [scorePool?, hpool, Option.bind_some]
      obtain ⟨hlt, _⟩ := findIdx?_eq_some_iff_getElem.mp hfound
      simp [hlt]
    refine .inr ⟨cfg, ref, index, _, (Option.filter_eq_some_iff.mp hcfg).1, hidle,
      Nat.not_lt.mp hsize, ?_, ?_, ?_, ?_, ?_, rfl⟩
    all_goals split
    all_goals rename_i hsource
    · exact h
    · exact h.move href hidle hmode
    · rfl
    · rfl
    · rw [← hsource]
      exact href
    · rw [node?_putNode, if_pos ⟨rfl, rfl⟩]
      rw [eraseNode, isSome_lookup_modifyMode]
      exact hmode
    · exact hscore
    · rw [scorePool?_putNode, scorePool?_eraseNode]
      exact hscore
    · exact fun _ => id
    · intro mode' nodeId' ref' hne href'
      rw [node?_putNode, node?_eraseNode] at href'
      · split at href'
        · exact absurd (Option.some.inj href').symm hne
        split at href'
        · cases href'
        · exact href'
      · rw [eraseNode, isSome_lookup_modifyMode]
        exact hmode
  · exact .inl rfl

theorem Sound.startMatch (config : MatchConfig) (now nodeId : Nat)
    (mode : GameMode) : (mp.startMatch config now nodeId mode).1.Sound := by
  obtain hsame | ⟨cfg, ref, index, mp₁, _, hidle, _, h₁, hheap, href, hscore, _, hstart⟩ :=
    h.startMatch_cases config now nodeId mode
  · rw [hsame]
    exact h
  rw [hstart]
  constructor
  · exact h₁.housed.of_eq (fun mode' nodeId' => node?_modifyListed _ _ _ _ _ _) rfl rfl
      (fun ref' => proj_modifyNode mp₁ ref ref' (·.enter now index) MatchNode.nodeId rfl)
      (fun ref' => proj_modifyNode mp₁ ref ref' (·.enter now index) MatchNode.players rfl)
  · refine h₁.queued.enlist h₁.housed href ?_ hscore rfl rfl
    rw [hheap]
    exact hidle

theorem Sound.cancelMatch (now nodeId : Nat) : (mp.cancelMatch now nodeId).1.Sound := by
  rw [MatchPool.cancelMatch]
  split
  · exact h
  rename_i mode ref hlocate
  obtain ⟨href, hstate⟩ := locateMatching_some hlocate
  obtain ⟨index, hdelisted⟩ := h.queued.removeFromPool h.housed href hstate
  generalize mp.removeFromPool mode (mp.heap ref).currentPoolIndex nodeId = mp₁ at hdelisted
  constructor
  · exact (h.housed.delist hdelisted).of_eq (fun _ _ => rfl) rfl rfl
      (fun ref' => proj_modifyNode mp₁ ref ref' (·.reset now) MatchNode.nodeId rfl)
      (fun ref' => proj_modifyNode mp₁ ref ref' (·.reset now) MatchNode.players rfl)
  · refine h.queued.delist h.housed hdelisted rfl (fun _ _ => rfl) (fun _ _ _ _ => Iff.rfl) ?_
      (fun ref' hne => heap_modifyNode_of_ne mp₁ (·.reset now) hne) (fun _ _ => Iff.rfl)
    intro mode' nodeId' _ hactive
    rw [heap_modifyNode_self] at hactive
    cases hactive

theorem Sound.cancelMatch_frame (now nodeId : Nat) :
    (∀ mode nodeId', (mp.cancelMatch now nodeId).1.node? mode nodeId' = mp.node? mode nodeId') ∧
      (mp.cancelMatch now nodeId).1.playerNodeMap = mp.playerNodeMap ∧
      ∀ {mode ref}, mp.node? mode nodeId = some ref →
        ((mp.cancelMatch now nodeId).1.heap ref).players = (mp.heap ref).players ∧
          ((mp.cancelMatch now nodeId).1.heap ref).state ≠ .matching := by
  rw [MatchPool.cancelMatch]
  split
  · rename_i hlocate
    exact ⟨fun _ _ => rfl, rfl, fun href => ⟨rfl, locateMatching_none hlocate href⟩⟩
  rename_i mode ref hlocate
  obtain ⟨href, hstate⟩ := locateMatching_some hlocate
  obtain ⟨index, hdelisted⟩ := h.queued.removeFromPool h.housed href hstate
  refine ⟨hdelisted.node?, hdelisted.playerNodeMap, ?_⟩
  intro mode' ref' href'
  obtain rfl := h.housed.one href' href
  cases href'.symm.trans href
  rw [heap_modifyNode_self, hdelisted.heap_self]
  exact ⟨rfl, nofun⟩

theorem Sound.drop (href : mp.node? mode nodeId = some ref)
    (hstate : (mp.heap ref).state ≠ .matching) :
    ((mp.erasePlayers (mp.heap ref).players).eraseEverywhere nodeId).Sound := by
  have hnode := fun mode' nodeId' =>
    node?_eraseEverywhere (mp.erasePlayers (mp.heap ref).players) mode' nodeId nodeId'
  constructor
  · exact h.housed.drop href hnode (fun playerId => lookup_erasePlayers mp _ playerId) rfl rfl
  · refine h.queued.mono
      (fun mode' index => scorePool?_eraseEverywhere _ mode' nodeId index) ?_ ?_ ?_
    · rw [eraseEverywhere]
      rw [lookup_mapWithKey, Option.isSome_map]
      rfl
    · intro mode' nodeId' ref' href' hactive
      refine ⟨⟨nodeId', ?_⟩, hactive, rfl⟩
      rw [hnode, if_neg]
      · exact href'
      · rintro rfl
        obtain rfl := h.housed.one href' href
        cases href'.symm.trans href
        exact hstate hactive
    · intro mode' nodeId' ref' href' hactive
      rw [hnode] at href'
      split at href'
      · cases href'
      · exact ⟨hactive, nodeId', href'⟩

theorem Sound.playerOffline (now playerId : Nat) : (mp.playerOffline now playerId).1.Sound := by
  rw [MatchPool.playerOffline]
  split
  · exact h
  rename_i ref hfound
  obtain ⟨nodeId, _, hgetNode⟩ := Option.bind_eq_some_iff.mp hfound
  obtain ⟨mode, href⟩ := getNode_some hgetNode
  obtain ⟨hnode, _, hself⟩ := h.cancelMatch_frame now nodeId
  dsimp only
  rw [(h.housed.named href).nodeId, ← (hself href).1]
  exact (h.cancelMatch now nodeId).drop ((hnode mode nodeId).trans href) (hself href).2

end

/-- Only match ranges have changed. -/
structure Reranged (mp mp' : MatchPool) : Prop where
  modePools : mp'.modePools = mp.modePools
  playerNodeMap : mp'.playerNodeMap = mp.playerNodeMap
  nextRef : mp'.nextRef = mp.nextRef
  log : mp'.log = mp.log
  heap : ∀ ref, ∃ matchRange, mp'.heap ref = { mp.heap ref with matchRange }

theorem Reranged.trans (h : Reranged mp mp₁) (h₁ : Reranged mp₁ mp₂) : Reranged mp mp₂ where
  modePools := h₁.modePools.trans h.modePools
  playerNodeMap := h₁.playerNodeMap.trans h.playerNodeMap
  nextRef := h₁.nextRef.trans h.nextRef
  log := h₁.log.trans h.log
  heap ref := by
    obtain ⟨matchRange, hheap⟩ := h.heap ref
    obtain ⟨matchRange₁, hheap₁⟩ := h₁.heap ref
    exact ⟨matchRange₁, by rw [hheap₁, hheap]⟩

theorem reranged_updateRanges (config : ModeConfig) (now : Nat) (mode : GameMode)
    (mp : MatchPool) : Reranged mp (mp.updateRanges config now mode) := by
  rw [updateRanges]
  generalize mp.modeNodes mode = refs
  induction refs generalizing mp with
  | nil => exact ⟨rfl, rfl, rfl, rfl, fun ref => ⟨(mp.heap ref).matchRange, rfl⟩⟩
  | cons ref refs ih =>
    rw [foldl_cons]
    refine .trans ?_ (ih _)
    split
    · refine ⟨rfl, rfl, rfl, rfl, fun ref' => ?_⟩
      by_cases hsame : ref' = ref
      · subst hsame
        rw [heap_modifyNode_self]
        exact ⟨_, rfl⟩
      · rw [heap_modifyNode_of_ne mp _ hsame]
        exact ⟨(mp.heap ref').matchRange, rfl⟩
    · exact ⟨rfl, rfl, rfl, rfl, fun ref' => ⟨(mp.heap ref').matchRange, rfl⟩⟩

theorem Reranged.proj (h : Reranged mp mp') {α : Type} (g : MatchNode → α)
    (hg : ∀ node matchRange, g { node with matchRange } = g node) (ref : Ref) :
    g (mp'.heap ref) = g (mp.heap ref) := by
  obtain ⟨matchRange, hheap⟩ := h.heap ref
  rw [hheap, hg]

theorem Sound.rerange (h : mp.Sound) (hrange : Reranged mp mp') : mp'.Sound := by
  have hnode : ∀ mode nodeId, mp'.node? mode nodeId = mp.node? mode nodeId := fun mode nodeId => by
    rw [node?, hrange.modePools, node?]
  constructor
  · exact h.housed.of_eq hnode hrange.playerNodeMap hrange.nextRef
      (hrange.proj MatchNode.nodeId fun _ _ => rfl) (hrange.proj MatchNode.players fun _ _ => rfl)
  · refine h.queued.of_eq (fun mode index => ?_) ?_ hnode
      (hrange.proj state fun _ _ => rfl)
      (hrange.proj currentPoolIndex fun _ _ => rfl)
    · rw [scorePool?, hrange.modePools, scorePool?]
    · rw [hrange.modePools]

theorem heap_setMatched (refs : List Ref) (mp : MatchPool) (ref : Ref) :
    (mp.setMatched refs).heap ref =
      if ref ∈ refs then { mp.heap ref with state := .matched } else mp.heap ref := by
  rw [setMatched]
  induction refs generalizing mp with
  | nil => rfl
  | cons ref' refs ih =>
    rw [foldl_cons, ih]
    by_cases hsame : ref = ref'
    · subst hsame
      rw [heap_modifyNode_self]
      simp
    · rw [heap_modifyNode_of_ne mp _ hsame]
      simp [hsame]

theorem setMatched_frame (refs : List Ref) (mp : MatchPool) :
    (mp.setMatched refs).modePools = mp.modePools ∧
      (mp.setMatched refs).playerNodeMap = mp.playerNodeMap ∧
      (mp.setMatched refs).nextRef = mp.nextRef ∧ (mp.setMatched refs).log = mp.log := by
  rw [setMatched]
  induction refs generalizing mp with
  | nil => exact ⟨rfl, rfl, rfl, rfl⟩
  | cons ref refs ih => exact ih (mp.modifyNode ref fun node => { node with state := .matched })

theorem Sound.setMatched (h : mp.Sound)
    (hmatching : ∀ ref ∈ refs, (mp.heap ref).state = .matching) :
    (mp.setMatched refs).Housed ∧ (mp.setMatched refs).Queued refs := by
  obtain ⟨hpools, hmap, hnext, _⟩ := setMatched_frame refs mp
  have hnode : ∀ mode nodeId, (mp.setMatched refs).node? mode nodeId = mp.node? mode nodeId :=
    fun mode nodeId => by rw [node?, hpools, node?]
  have hproj : ∀ {α : Type} (g : MatchNode → α),
      (∀ node, g { node with state := .matched } = g node) →
      ∀ ref, g ((mp.setMatched refs).heap ref) = g (mp.heap ref) := by
    intro α g hg ref
    rw [heap_setMatched]
    split
    · exact hg _
    · rfl
  have hactive : ∀ ref, Active refs ref ((mp.setMatched refs).heap ref) ↔
      Active [] ref (mp.heap ref) := by
    intro ref
    rw [Active, Active, heap_setMatched]
    by_cases hmem : ref ∈ refs
    · simp [hmem, hmatching ref hmem]
    · simp [hmem]
  refine ⟨h.housed.of_eq hnode hmap hnext (hproj MatchNode.nodeId fun _ => rfl)
    (hproj MatchNode.players fun _ => rfl), ?_⟩
  refine h.queued.mono (fun mode index => ?_) ?_ (fun {mode nodeId ref} href hactive' => ?_)
    fun {mode nodeId ref} href hactive' => ?_
  · rw [scorePool?, hpools, scorePool?]
  · rw [hpools]
  · exact ⟨⟨nodeId, (hnode mode nodeId).trans href⟩, (hactive ref).mpr hactive',
      hproj currentPoolIndex (fun _ => rfl) ref⟩
  · exact ⟨(hactive ref).mp hactive', nodeId, (hnode mode nodeId).symm.trans href⟩

theorem removeMatchedNode_frame (hh : mp.Housed) (hq : mp.Queued (ref :: pending))
    (href : mp.node? mode nodeId = some ref) (hmatched : (mp.heap ref).state = .matched) :
    (mp.removeMatchedNode mode ref).Housed ∧ (mp.removeMatchedNode mode ref).Queued pending ∧
      ∀ ref', ref' ≠ ref → (mp.removeMatchedNode mode ref).heap ref' = mp.heap ref' ∧
        ∀ nodeId', mp.node? mode nodeId' = some ref' →
          (mp.removeMatchedNode mode ref).node? mode nodeId' = some ref' := by
  have hactive : Active (ref :: pending) ref (mp.heap ref) := by
    rw [Active, if_pos mem_cons_self]
    exact hmatched
  obtain ⟨index, hdelisted⟩ := hq.removeFromPool hh href hactive
  rw [removeMatchedNode, (hh.named href).nodeId]
  generalize mp.removeFromPool mode (mp.heap ref).currentPoolIndex nodeId = mp₁ at hdelisted
  have hhoused := hh.delist hdelisted
  have href₁ : mp₁.node? mode nodeId = some ref := (hdelisted.node? mode nodeId).trans href
  have hplayers : (mp₁.heap ref).players = (mp.heap ref).players := by rw [hdelisted.heap_self]
  rw [← hplayers]
  -- the node was stored in this pool only
  have hnode : ∀ mode' nodeId', ((mp₁.erasePlayers (mp₁.heap ref).players).eraseNode mode
      nodeId).node? mode' nodeId' = if nodeId' = nodeId then none else mp₁.node? mode' nodeId' := by
    intro mode' nodeId'
    rw [node?_eraseNode]
    by_cases hnodeId : nodeId' = nodeId
    · subst hnodeId
      by_cases hmode : mode' = mode
      · rw [if_pos ⟨hmode, rfl⟩, if_pos rfl]
      · rw [if_neg fun hboth => hmode hboth.1, if_pos rfl]
        by_contra hsome
        obtain ⟨ref', href'⟩ := Option.ne_none_iff_exists'.mp hsome
        exact hmode (hhoused.one href' href₁)
    · rw [if_neg fun hboth => hnodeId hboth.2, if_neg hnodeId]
      rfl
  have hstay : ∀ {mode' nodeId' ref'}, ref' ≠ ref → mp₁.node? mode' nodeId' = some ref' →
      nodeId' ≠ nodeId := by
    rintro mode' nodeId' ref' hne href' rfl
    obtain rfl := hhoused.one href' href₁
    exact hne (Option.some.inj (href'.symm.trans href₁))
  refine ⟨hhoused.drop href₁ hnode (fun playerId => lookup_erasePlayers mp₁ _ playerId) rfl rfl,
    ?_, fun ref' hne => ⟨hdelisted.heap_of_ne hne, fun nodeId' href' => ?_⟩⟩
  · refine hq.delist hh hdelisted (isSome_lookup_modifyMode _ _ _ _)
      (fun mode' index' => scorePool?_eraseNode _ mode mode' nodeId index')
      (fun mode' nodeId' ref' hne => ?_) (fun mode' nodeId' href' => ?_) (fun _ _ => rfl)
      fun ref' hne => ?_
    · rw [hnode]
      constructor
      · intro href'
        split at href'
        · cases href'
        · exact href'
      · intro href'
        rw [if_neg (hstay hne href')]
        exact href'
    · -- the node is not stored any more
      rw [hnode] at href'
      split at href'
      · cases href'
      · rename_i hnodeId
        exact absurd (hhoused.place_eq href' href₁).2 hnodeId
    · rw [mem_cons]
      simp [hne]
  · rw [← hdelisted.node?] at href'
    rw [hnode, if_neg (hstay hne href')]
    exact href'

theorem sound_removeMatched (mode : GameMode) (hnodup : pending.Nodup) (hh : mp.Housed)
    (hq : mp.Queued pending) (hpending : ∀ ref ∈ pending,
      (mp.heap ref).state = .matched ∧ ∃ nodeId, mp.node? mode nodeId = some ref) :
    (pending.foldl (removeMatchedNode mode) mp).Sound ∧
      ∀ ref ∉ pending, (pending.foldl (removeMatchedNode mode) mp).heap ref = mp.heap ref := by
  induction pending generalizing mp with
  | nil => exact ⟨⟨hh, hq⟩, fun _ _ => rfl⟩
  | cons ref pending ih =>
    obtain ⟨hnew, hnodup⟩ := nodup_cons.mp hnodup
    obtain ⟨hmatched, nodeId, href⟩ := hpending ref mem_cons_self
    obtain ⟨hh', hq', hothers⟩ := removeMatchedNode_frame hh hq href hmatched
    rw [foldl_cons]
    obtain ⟨hsound, hheap⟩ := ih hnodup hh' hq' fun ref' hmem => by
      have hne : ref' ≠ ref := by
        rintro rfl
        exact hnew hmem
      obtain ⟨hstate, nodeId', href'⟩ := hpending ref' (mem_cons_of_mem ref hmem)
      obtain ⟨hheap, hstay⟩ := hothers ref' hne
      rw [hheap]
      exact ⟨hstate, nodeId', hstay nodeId' href'⟩
    refine ⟨hsound, fun ref' hmem => ?_⟩
    obtain ⟨hne, hmem⟩ := not_or.mp (mt mem_cons.mpr hmem)
    exact (hheap ref' hmem).trans (hothers ref' hne).1

theorem Sound.formMatch (h : mp.Sound) (hnodup : refs.Nodup)
    (hrefs : ∀ ref ∈ refs, (mp.heap ref).state = .matching ∧ ref ∈ mp.modeNodes mode) :
    (mp.formMatch mode refs).Sound ∧
      ∀ ref ∉ refs, (mp.formMatch mode refs).heap ref = mp.heap ref := by
  obtain ⟨hh, hq⟩ := h.setMatched fun ref hmem => (hrefs ref hmem).1
  obtain ⟨hremoved, hheap⟩ := sound_removeMatched mode hnodup hh hq fun ref hmem => by
    obtain ⟨nodeId, href⟩ := mem_modeNodes.mp (hrefs ref hmem).2
    refine ⟨?_, nodeId, ?_⟩
    · rw [heap_setMatched, if_pos hmem]
    · rw [node?, (setMatched_frame refs mp).1]
      exact href
  rw [MatchPool.formMatch]
  refine ⟨⟨?_, ?_⟩, fun ref hmem => (hheap ref hmem).trans ?_⟩
  · exact hremoved.housed.of_eq (fun mode' nodeId => node?_modifyMode _ _ mode' nodeId fun _ => rfl)
      rfl rfl (fun _ => rfl) (fun _ => rfl)
  · exact hremoved.queued.of_eq
      (fun mode' index => scorePool?_modifyMode _ _ mode' index fun _ => rfl)
      (isSome_lookup_modifyMode _ _ _ _)
      (fun mode' nodeId => node?_modifyMode _ _ mode' nodeId fun _ => rfl) (fun _ => rfl)
      (fun _ => rfl)
  · rw [heap_setMatched, if_neg hmem]

theorem Housed.nodup_modeNodes (h : mp.Housed) (mode : GameMode) : (mp.modeNodes mode).Nodup := by
  rw [modeNodes]
  cases hpool : mp.modePools.lookup mode with
  | none => exact nodup_nil
  | some pool =>
    rw [Option.map_some, Option.getD_some]
    -- the ids of the nodes are the keys, which are all different
    have hkeys : (pool.nodes.entries.map Sigma.snd).map (fun ref => (mp.heap ref).nodeId) =
        pool.nodes.keys := by
      rw [map_map]
      refine map_congr_left fun entry hmem => ?_
      have href : mp.node? mode entry.1 = some entry.2 := by
        rw [node?, hpool]
        exact mem_lookup_iff.mpr hmem
      exact (h.named href).nodeId
    apply List.Nodup.of_map fun ref => (mp.heap ref).nodeId
    rw [hkeys]
    exact pool.nodes.keys_nodup

theorem tryMatchInPool_some (h : mp.tryMatchInPool config now order mode scorePool = some refs) :
    ∃ sorted : List Ref, sorted.Perm (mp.candidates mode scorePool.poolIndex) ∧
      refs.Sublist sorted := by
  rw [tryMatchInPool] at h
  split at h
  · cases h
  dsimp only at h
  split at h
  · cases h
  split at h
  · cases h
  · rw [← Option.some.inj h]
    exact ⟨_, (perm_insertionSort _ _).trans (order.perm _), collect_sublist ..⟩

section

variable (config : ModeConfig) (now : Nat) (order : Arrangement) (mode : GameMode)

/-- What is done with a score pool: nothing, or a match is formed of nodes that look for one. -/
theorem Housed.matchRound_cases (h : mp.Housed) (index : Nat) :
    mp.matchRound config now order mode index = mp ∨
      ∃ refs : List Ref, refs.Nodup ∧
        (∀ ref ∈ refs, (mp.heap ref).state = .matching ∧ ref ∈ mp.modeNodes mode) ∧
        mp.matchRound config now order mode index = mp.formMatch mode refs := by
  rw [MatchPool.matchRound]
  split
  · exact .inl rfl
  split
  · exact .inl rfl
  rename_i refs hmatch
  obtain ⟨sorted, hperm, hsublist⟩ := tryMatchInPool_some hmatch
  have hcandidates : ∀ ref ∈ refs, ref ∈ mp.candidates mode _ := fun ref hmem =>
    hperm.mem_iff.mp (hsublist.subset hmem)
  refine .inr ⟨refs, ?_, fun ref hmem => ?_, rfl⟩
  · exact hsublist.nodup (hperm.nodup_iff.mpr ((h.nodup_modeNodes mode).filter _))
  · obtain ⟨hnode, hstate⟩ := mem_filter.mp (hcandidates ref hmem)
    exact ⟨(of_decide_eq_true hstate).1, hnode⟩

end

section

variable (h : mp.Sound) (config : MatchConfig) (now : Nat) (order : Arrangement)
include h

/-- What the new ranges and each match in a mode keep, matching in the mode keeps. -/
theorem Sound.matchEnabled_keeps {I : MatchPool → Prop} (hI : I mp)
    (hrange : ∀ config, I (mp.updateRanges config now mode))
    (hform : ∀ {mp' : MatchPool} {refs : List Ref}, mp'.Sound → I mp' → refs.Nodup →
      (∀ ref ∈ refs, (mp'.heap ref).state = .matching ∧ ref ∈ mp'.modeNodes mode) →
      I (mp'.formMatch mode refs)) :
    (mp.matchEnabled config now order mode).Sound ∧ I (mp.matchEnabled config now order mode) := by
  rw [MatchPool.matchEnabled]
  split
  · exact ⟨h, hI⟩
  refine run_preserves (I := fun mp => mp.Sound ∧ I mp) (fun mp' index h' => ?_)
    ⟨h.rerange (reranged_updateRanges _ now mode mp), hrange _⟩ _
  obtain hsame | ⟨refs, hnodup, hrefs, hmatch⟩ :=
    h'.1.housed.matchRound_cases _ now order mode index
  · rw [hsame]
    exact h'
  · rw [hmatch]
    exact ⟨(h'.1.formMatch hnodup hrefs).1, hform h'.1 h'.2 hnodup hrefs⟩

theorem Sound.matchEnabled (mode : GameMode) : (mp.matchEnabled config now order mode).Sound :=
  (h.matchEnabled_keeps (I := fun _ => True) config now order trivial (fun _ => trivial)
    fun _ _ _ _ => trivial).1

theorem Sound.doMatch : (mp.doMatch config now order).Sound :=
  run_preserves (fun _ mode h => h.matchEnabled config now order mode) h _

end

/-- The pool of a mode has no nodes, and its score pools are numbered and empty. -/
structure Fresh (pool : ModePool) : Prop where
  nodes : pool.nodes = ∅
  pools : ∀ {index : Nat} {scorePool : ScorePool}, pool.pools[index]? = some scorePool →
    scorePool.poolIndex = index ∧ scorePool.nodes = []

theorem fresh_newModePool (config : ModeConfig) : Fresh (newModePool config) := by
  refine ⟨rfl, fun {index scorePool} hpool => ?_⟩
  rw [newModePool, getElem?_mapIdx] at hpool
  obtain ⟨_, _, rfl⟩ := Option.map_eq_some_iff.mp hpool
  exact ⟨rfl, rfl⟩

def AllFresh (modePools : AList fun _ : GameMode => ModePool) : Prop :=
  ∀ mode pool, modePools.lookup mode = some pool → Fresh pool

theorem AllFresh.insert (h : AllFresh modePools) (mode : GameMode) (hpool : Fresh pool) :
    AllFresh (modePools.insert mode pool) := by
  intro mode' pool' hlookup
  by_cases hmode : mode' = mode
  · rw [hmode, lookup_insert] at hlookup
    cases hlookup
    exact hpool
  · rw [lookup_insert_ne hmode] at hlookup
    exact h mode' pool' hlookup

theorem allFresh_foldl (entries : List (Sigma fun _ : GameMode => ModeConfig))
    (h : AllFresh modePools) :
    AllFresh (entries.foldl
      (fun modePools entry =>
        if entry.2.enabled then modePools.insert entry.1 (newModePool entry.2) else modePools)
      modePools) := by
  induction entries generalizing modePools with
  | nil => exact h
  | cons entry entries ih =>
    rw [foldl_cons]
    apply ih
    split
    · exact h.insert entry.1 (fresh_newModePool entry.2)
    · exact h

theorem sound_of_allFresh (h : AllFresh modePools)
    (hdefault : (modePools.lookup .mode1v1Normal).isSome) : Sound { modePools } := by
  have hnode : ∀ mode nodeId ref, ({ modePools } : MatchPool).node? mode nodeId ≠ some ref := by
    intro mode nodeId ref href
    obtain ⟨pool, hpool, hlookup⟩ := Option.bind_eq_some_iff.mp href
    rw [(h mode pool hpool).nodes] at hlookup
    cases hlookup
  have hscore : ∀ {mode index scorePool},
      ({ modePools } : MatchPool).scorePool? mode index = some scorePool →
      scorePool.poolIndex = index ∧ scorePool.nodes = [] := by
    intro mode index scorePool hsome
    obtain ⟨pool, hpool, hindex⟩ := Option.bind_eq_some_iff.mp hsome
    exact (h mode pool hpool).pools hindex
  have hlisted : ∀ mode index, ({ modePools } : MatchPool).listed mode index = [] := by
    intro mode index
    rw [listed]
    cases hpool : ({ modePools } : MatchPool).scorePool? mode index with
    | none => rfl
    | some scorePool => exact (hscore hpool).2
  constructor
  · constructor
    · exact fun href => absurd href (hnode _ _ _)
    · exact fun href => absurd href (hnode _ _ _)
    · exact fun href => absurd href (hnode _ _ _)
    · intro playerId nodeId
      simp [hnode]
  · constructor
    · exact hdefault
    · intro mode index scorePool hpool
      exact (hscore hpool).1
    · intro mode index ref hmem
      rw [hlisted] at hmem
      cases hmem
    · exact fun href => absurd href (hnode _ _ _)
    · intro mode index
      rw [hlisted]
      exact nodup_nil

theorem sound_init (h : init config = some mp) : mp.Sound := by
  rw [init] at h
  split at h
  · cases h
  have hempty : AllFresh ∅ := nofun
  have hfold := allFresh_foldl config.entries hempty
  rw [← Option.some.inj h]
  split_ifs with hdefault
  · exact sound_of_allFresh hfold hdefault
  · refine sound_of_allFresh (hfold.insert _ ⟨rfl, nofun⟩) ?_
    rw [lookup_insert]
    rfl

/-- The player map, the pools of the modes and the score pools agree. -/
structure Agrees (mp : MatchPool) : Prop where
  home : ∀ playerId nodeId, mp.playerNodeMap.lookup playerId = some nodeId ↔
    ∃ mode ref, mp.node? mode nodeId = some ref ∧ playerId ∈ (mp.heap ref).playerIds
  one : ∀ mode mode' nodeId, (mp.node? mode nodeId).isSome → (mp.node? mode' nodeId).isSome →
    mode = mode'
  apart : ∀ mode mode' nodeId nodeId' ref ref' playerId, mp.node? mode nodeId = some ref →
    mp.node? mode' nodeId' = some ref' → playerId ∈ (mp.heap ref).playerIds →
    playerId ∈ (mp.heap ref').playerIds → ref = ref'
  matching : ∀ mode nodeId ref, mp.node? mode nodeId = some ref →
    ((mp.heap ref).state = .matching ↔
      ∃ index, (mp.heap ref).currentPoolIndex = some index ∧ ref ∈ mp.listed mode index)
  listed : ∀ mode index ref, ref ∈ mp.listed mode index →
    (mp.heap ref).state = .matching ∧ (mp.heap ref).currentPoolIndex = some index ∧
      ∃ nodeId, mp.node? mode nodeId = some ref

theorem Sound.agrees (h : mp.Sound) : mp.Agrees where
  home := h.housed.home
  one mode mode' nodeId href href' := by
    obtain ⟨ref, href⟩ := Option.isSome_iff_exists.mp href
    obtain ⟨ref', href'⟩ := Option.isSome_iff_exists.mp href'
    exact h.housed.one href href'
  apart mode mode' nodeId nodeId' ref ref' playerId href href' hmem hmem' :=
    (h.housed.home_eq href href' hmem hmem').2.2
  matching mode nodeId ref href := by
    constructor
    · intro hstate
      obtain ⟨index, hmem⟩ := h.queued.active href hstate
      exact ⟨index, (h.queued.listed hmem).2.1, hmem⟩
    · rintro ⟨index, _, hmem⟩
      exact (h.queued.listed hmem).1
  listed mode index ref hmem := h.queued.listed hmem

/-- No node loses its first player, and node 0 gets no other players. -/
def KeepsId (mp : MatchPool) : MatchOp → Prop
  | .addPlayerToNode nodeId _ _ => nodeId ≠ 0
  | .removePlayerFromNode nodeId playerId =>
    ∀ ref ∈ mp.getNode nodeId, (mp.heap ref).playerIds.head? ≠ some playerId
  | _ => True

instance (mp : MatchPool) : (op : MatchOp) → Decidable (mp.KeepsId op)
  | .addPlayerToNode nodeId _ _ => inferInstanceAs (Decidable (nodeId ≠ 0))
  | .removePlayerFromNode _ _ => inferInstanceAs (Decidable (∀ _ ∈ _, _))
  | .createNode _ _ _ | .startMatch _ _ _ | .cancelMatch _ _ | .playerOffline _ _ | .doMatch _ _ =>
    inferInstanceAs (Decidable True)

theorem sound_step (config : MatchConfig) (mp : MatchPool) (op : MatchOp) (h : mp.Sound)
    (hkeeps : mp.KeepsId op) : (mp.matchStep config op).Sound := by
  cases op with
  | createNode now playerId score => exact h.createNode now playerId score
  | addPlayerToNode nodeId playerId score =>
    exact h.addPlayerToNode config hkeeps playerId score
  | removePlayerFromNode nodeId playerId => exact h.removePlayerFromNode hkeeps
  | startMatch now nodeId mode => exact h.startMatch config now nodeId mode
  | cancelMatch now nodeId => exact h.cancelMatch now nodeId
  | playerOffline now playerId => exact h.playerOffline now playerId
  | doMatch now order => exact h.doMatch config now order

theorem sound_run (hinit : init config = some mp)
    (hkeeps : Along (matchStep config) KeepsId mp ops) : (run (matchStep config) mp ops).Sound :=
  run_invariant (sound_step config) (sound_init hinit) hkeeps

/-- Whatever is done, as long as nodes keep their ids, everything agrees. -/
theorem mapsAgree_run {config : MatchConfig} (hinit : init config = some mp) {ops : List MatchOp}
    (hkeeps : Along (matchStep config) KeepsId mp ops) : (run (matchStep config) mp ops).Agrees :=
  (sound_run hinit hkeeps).agrees

def defaultPool : MatchPool := (init initDefaultConfig).get (by decide +kernel)

theorem init_default : init initDefaultConfig = some defaultPool := (Option.some_get _).symm

def team (first second : Nat) : List MatchOp :=
  [.createNode 0 first 100, .startMatch 0 first .mode2v2Ranked, .cancelMatch 0 first,
    .addPlayerToNode first second 100]

/-- Two teams meet, and a player goes offline and another one leaves a team. -/
theorem mapsAgree_run_teams :
    (run (matchStep initDefaultConfig) defaultPool
      (team 1 2 ++ team 3 4 ++ team 5 6 ++ [.playerOffline 0 6, .removePlayerFromNode 3 4,
        .addPlayerToNode 3 7 100, .startMatch 0 1 .mode2v2Ranked, .startMatch 0 3 .mode2v2Ranked,
        .doMatch 1000 ⟨reverse, reverse_perm⟩])).Agrees :=
  mapsAgree_run init_default (by decide +kernel)

/-- The first player of a team leaves it, and the second goes offline.  The team stays, and the
second player is in it, but the player map does not know. -/
theorem not_mapsAgree_firstLeaves :
    ¬(run (matchStep initDefaultConfig) defaultPool
      (team 1 2 ++ [.removePlayerFromNode 1 1, .playerOffline 0 2])).Agrees := by
  intro h
  have hlookup := (h.home 2 1).mpr ⟨.mode2v2Ranked, 0, by decide +kernel, by decide +kernel⟩
  exact absurd hlookup (by decide +kernel)

end MatchPool

end ServerLib.Match

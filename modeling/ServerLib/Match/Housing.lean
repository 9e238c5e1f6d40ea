import ServerLib.Match.Views

/-! The two halves of the invariant of the match pool: where the nodes and their players are, and
which nodes are in the score pools. -/

namespace ServerLib.Match

open Lib MatchNode List Option

namespace MatchNode

/-- The node has the id of its first player, and no player twice. -/
structure Named (key : Nat) (node : MatchNode) : Prop where
  nodeId : node.nodeId = key
  first : node.playerIds.head? = some key
  nodup : node.playerIds.Nodup

variable {node node' : MatchNode} {nodeId playerId : Nat}

theorem Named.of_eq (h : node.Named nodeId) (hnodeId : node'.nodeId = node.nodeId)
    (hplayers : node'.players = node.players) : node'.Named nodeId := by
  have hids : node'.playerIds = node.playerIds := congrArg (map Prod.fst) hplayers
  constructor
  · exact hnodeId.trans h.nodeId
  · rw [hids]
    exact h.first
  · rw [hids]
    exact h.nodup

theorem playerIds_addPlayer (node : MatchNode) (playerId score : Nat) :
    (node.addPlayer playerId score).playerIds = node.playerIds ++ [playerId] := by
  simp [playerIds, addPlayer]

theorem Named.addPlayer (h : node.Named nodeId) (hzero : nodeId ≠ 0)
    (hnew : playerId ∉ node.playerIds) (score : Nat) :
    (node.addPlayer playerId score).Named nodeId := by
  constructor
  · rw [MatchNode.addPlayer]
    rw [h.nodeId, if_neg hzero]
  · rw [playerIds_addPlayer, head?_append, h.first]
    rfl
  · rw [playerIds_addPlayer, ← concat_eq_append]
    exact h.nodup.concat hnew

theorem map_fst_eraseP (players : List (Nat × Nat)) (playerId : Nat) :
    (players.eraseP (·.1 = playerId)).map Prod.fst = (players.map Prod.fst).erase playerId := by
  induction players with
  | nil => rfl
  | cons player players ih =>
    by_cases hplayer : player.1 = playerId
    · simp [hplayer]
    · simp [hplayer, ih]

theorem removePlayer_spec (h : node.removePlayer playerId = some node') :
    playerId ∈ node.playerIds ∧ node'.playerIds = node.playerIds.erase playerId ∧
      node'.nodeId = node'.playerIds.head?.getD 0 ∧ node'.state = node.state ∧
      node'.currentPoolIndex = node.currentPoolIndex ∧
      node'.getPlayerCount ≤ node.getPlayerCount := by
  rw [removePlayer] at h
  split at h
  · rename_i hmem
    rw [← some.inj h]
    refine ⟨hmem, map_fst_eraseP node.players playerId, ?_, rfl, rfl, eraseP_sublist.length_le⟩
    rw [playerIds, head?_map]
  · cases h

theorem Named.removePlayer (h : node.Named nodeId)
    (hremove : node.removePlayer playerId = some node') (hother : playerId ≠ nodeId) :
    node'.Named nodeId := by
  obtain ⟨_, hids, hnodeId, _⟩ := removePlayer_spec hremove
  have hfirst : node'.playerIds.head? = some nodeId := by
    rw [hids]
    cases hplayers : node.playerIds with
    | nil =>
      have hnone := h.first
      rw [hplayers] at hnone
      cases hnone
    | cons first rest =>
      have hsome := h.first
      rw [hplayers] at hsome
      cases hsome
      rw [erase_cons_tail (by simpa using Ne.symm hother)]
      rfl
  refine ⟨?_, hfirst, ?_⟩
  · rw [hnodeId, hfirst]
    rfl
  · rw [hids]
    exact h.nodup.erase playerId

end MatchNode

namespace MatchPool

/-- The nodes are stored under their own ids, each in one pool, and the player map says where a
player is. -/
structure Housed (mp : MatchPool) : Prop where
  below : ∀ {mode nodeId ref}, mp.node? mode nodeId = some ref → ref < mp.nextRef
  named : ∀ {mode nodeId ref}, mp.node? mode nodeId = some ref → (mp.heap ref).Named nodeId
  one : ∀ {mode mode' nodeId ref ref'}, mp.node? mode nodeId = some ref →
    mp.node? mode' nodeId = some ref' → mode = mode'
  home : ∀ playerId nodeId, mp.playerNodeMap.lookup playerId = some nodeId ↔
    ∃ mode ref, mp.node? mode nodeId = some ref ∧ playerId ∈ (mp.heap ref).playerIds

theorem named_newNode (now playerId score : Nat) : (newNode now playerId score).Named playerId :=
  ⟨rfl, rfl, nodup_singleton playerId⟩

namespace Housed

variable {mp mp' : MatchPool} {nodeId playerId : Nat} (h : mp.Housed)

include h

theorem place_eq (href : mp.node? mode nodeId = some ref)
    (href' : mp.node? mode' nodeId' = some ref) : mode = mode' ∧ nodeId = nodeId' := by
  have hnodeId : nodeId = nodeId' := (h.named href).nodeId.symm.trans (h.named href').nodeId
  subst hnodeId
  exact ⟨h.one href href', rfl⟩

theorem home_eq (href : mp.node? mode nodeId = some ref)
    (href' : mp.node? mode' nodeId' = some ref') (hmem : playerId ∈ (mp.heap ref).playerIds)
    (hmem' : playerId ∈ (mp.heap ref').playerIds) :
    mode = mode' ∧ nodeId = nodeId' ∧ ref = ref' := by
  have hlookup := (h.home playerId nodeId).mpr ⟨mode, ref, href, hmem⟩
  have hlookup' := (h.home playerId nodeId').mpr ⟨mode', ref', href', hmem'⟩
  obtain rfl : nodeId = nodeId' := some.inj (hlookup.symm.trans hlookup')
  obtain rfl := h.one href href'
  exact ⟨rfl, rfl, some.inj (href.symm.trans href')⟩

theorem home_iff (href : mp.node? mode nodeId = some ref) (playerId : Nat) :
    mp.playerNodeMap.lookup playerId = some nodeId ↔ playerId ∈ (mp.heap ref).playerIds := by
  rw [h.home]
  constructor
  · rintro ⟨mode', ref', href', hmem⟩
    obtain rfl := h.one href' href
    cases href'.symm.trans href
    exact hmem
  · intro hmem
    exact ⟨mode, ref, href, hmem⟩

theorem of_eq (hnode : ∀ mode nodeId, mp'.node? mode nodeId = mp.node? mode nodeId)
    (hmap : mp'.playerNodeMap = mp.playerNodeMap) (hnext : mp'.nextRef = mp.nextRef)
    (hnodeId : ∀ ref, (mp'.heap ref).nodeId = (mp.heap ref).nodeId)
    (hplayers : ∀ ref, (mp'.heap ref).players = (mp.heap ref).players) : mp'.Housed where
  below href := by
    rw [hnode] at href
    rw [hnext]
    exact h.below href
  named href := by
    rw [hnode] at href
    exact (h.named href).of_eq (hnodeId _) (hplayers _)
  one href href' := by
    rw [hnode] at href href'
    exact h.one href href'
  home playerId nodeId := by
    rw [hmap, h.home]
    simp only [hnode, playerIds, hplayers]

theorem unused (hfree : mp.playerNodeMap.lookup playerId = none) :
    mp.node? mode playerId ≠ some ref := by
  intro href
  have hmem := mem_of_head? (h.named href).first
  rw [(h.home_iff href playerId).mpr hmem] at hfree
  cases hfree

/-- A step that changes what is stored under one id and what is in the heap at one place, and keeps
the map up to date. -/
theorem replace (mode : GameMode)
    (hold : ref < mp.nextRef → ∃ source, mp.node? source nodeId = some ref)
    (hnext : mp.nextRef ≤ mp'.nextRef) (hbelow : ref < mp'.nextRef)
    (hheap : ∀ ref', ref' ≠ ref → mp'.heap ref' = mp.heap ref')
    (hnamed : (mp'.heap ref).Named nodeId)
    (hplace : ∀ {mode' ref'}, mp'.node? mode' nodeId = some ref' → mode' = mode ∧ ref' = ref)
    (hnode : ∀ mode' nodeId', nodeId' ≠ nodeId → mp'.node? mode' nodeId' = mp.node? mode' nodeId')
    (hself : ∀ playerId, mp'.playerNodeMap.lookup playerId = some nodeId ↔
      mp'.node? mode nodeId = some ref ∧ playerId ∈ (mp'.heap ref).playerIds)
    (hmap : ∀ playerId nodeId', nodeId' ≠ nodeId →
      (mp'.playerNodeMap.lookup playerId = some nodeId' ↔
        mp.playerNodeMap.lookup playerId = some nodeId')) : mp'.Housed := by
  have hother : ∀ {mode' nodeId' ref'}, nodeId' ≠ nodeId → mp'.node? mode' nodeId' = some ref' →
      mp.node? mode' nodeId' = some ref' ∧ mp'.heap ref' = mp.heap ref' := by
    intro mode' nodeId' ref' hne href'
    rw [hnode mode' nodeId' hne] at href'
    refine ⟨href', hheap ref' ?_⟩
    rintro rfl
    obtain ⟨source, href⟩ := hold (h.below href')
    exact hne (h.place_eq href' href).2
  constructor
  · intro mode' nodeId' ref' href'
    by_cases hne : nodeId' = nodeId
    · subst hne
      rw [(hplace href').2]
      exact hbelow
    · exact (h.below (hother hne href').1).trans_le hnext
  · intro mode' nodeId' ref' href'
    by_cases hne : nodeId' = nodeId
    · subst hne
      rw [(hplace href').2]
      exact hnamed
    · rw [(hother hne href').2]
      exact h.named (hother hne href').1
  · intro mode₁ mode₂ nodeId' ref₁ ref₂ href₁ href₂
    by_cases hne : nodeId' = nodeId
    · subst hne
      rw [(hplace href₁).1, (hplace href₂).1]
    · exact h.one (hother hne href₁).1 (hother hne href₂).1
  · intro playerId nodeId'
    by_cases hne : nodeId' = nodeId
    · subst hne
      rw [hself]
      constructor
      · exact fun hmem => ⟨mode, ref, hmem⟩
      · rintro ⟨mode', ref', href', hmem⟩
        obtain ⟨rfl, rfl⟩ := hplace href'
        exact ⟨href', hmem⟩
    · rw [hmap playerId nodeId' hne, h.home]
      refine exists_congr fun mode' => exists_congr fun ref' => ?_
      rw [← hnode mode' nodeId' hne]
      refine and_congr_right fun href' => ?_
      rw [(hother hne href').2]

theorem move (href : mp.node? source nodeId = some ref)
    (hself : ∀ mode' ref', mp'.node? mode' nodeId = some ref' ↔ mode' = mode ∧ ref' = ref)
    (hother : ∀ mode' nodeId', nodeId' ≠ nodeId → mp'.node? mode' nodeId' = mp.node? mode' nodeId')
    (hheap : mp'.heap = mp.heap) (hmap : mp'.playerNodeMap = mp.playerNodeMap)
    (hnext : mp'.nextRef = mp.nextRef) : mp'.Housed := by
  refine h.replace mode (fun _ => ⟨source, href⟩) hnext.ge (hnext ▸ h.below href)
    (fun ref' _ => congrFun hheap ref') (hheap ▸ h.named href) (hself _ _).mp hother
    (fun playerId => ?_) fun playerId nodeId' _ => by rw [hmap]
  rw [hmap, hheap, h.home_iff href]
  exact (and_iff_right ((hself mode ref).mpr ⟨rfl, rfl⟩)).symm

theorem drop (href : mp.node? mode nodeId = some ref)
    (hnode : ∀ mode' nodeId', mp'.node? mode' nodeId' =
      if nodeId' = nodeId then none else mp.node? mode' nodeId')
    (hmap : ∀ playerId, mp'.playerNodeMap.lookup playerId =
      if playerId ∈ (mp.heap ref).playerIds then none else mp.playerNodeMap.lookup playerId)
    (hheap : mp'.heap = mp.heap) (hnext : mp'.nextRef = mp.nextRef) : mp'.Housed := by
  have hnone : ∀ {mode' ref'}, mp'.node? mode' nodeId ≠ some ref' := by
    intro mode' ref'
    rw [hnode, if_pos rfl]
    nofun
  refine h.replace mode (fun _ => ⟨mode, href⟩) hnext.ge (hnext ▸ h.below href)
    (fun ref' _ => congrFun hheap ref') (hheap ▸ h.named href) (fun href' => absurd href' hnone)
    (fun mode' nodeId' hne => (hnode mode' nodeId').trans (if_neg hne)) (fun playerId => ?_)
    fun playerId nodeId' hne => ?_
  · refine iff_of_false ?_ fun hboth => hnone hboth.1
    rw [hmap]
    split
    · nofun
    · rwa [h.home_iff href]
  · rw [hmap]
    split
    · rename_i hmem
      simp [(h.home_iff href playerId).mpr hmem, hne.symm]
    · rfl

end Housed

/-- The node looks for a match, or it has got one and is about to be taken away. -/
def Active (pending : List Ref) (ref : Ref) (node : MatchNode) : Prop :=
  node.state = if ref ∈ pending then .matched else .matching

/-- The nodes in the score pools are the active ones, each in the score pool that it names.  While a
match is formed, the nodes in it are pending. -/
structure Queued (pending : List Ref) (mp : MatchPool) : Prop where
  default : (mp.modePools.lookup .mode1v1Normal).isSome
  poolIndex : ∀ {mode index pool}, mp.scorePool? mode index = some pool → pool.poolIndex = index
  listed : ∀ {mode index ref}, ref ∈ mp.listed mode index →
    Active pending ref (mp.heap ref) ∧ (mp.heap ref).currentPoolIndex = some index ∧
      ∃ nodeId, mp.node? mode nodeId = some ref
  active : ∀ {mode nodeId ref}, mp.node? mode nodeId = some ref →
    Active pending ref (mp.heap ref) → ∃ index, ref ∈ mp.listed mode index
  once : ∀ mode index, (mp.listed mode index).Nodup

section Queued

variable {mp mp' : MatchPool}

theorem Queued.mono (h : mp.Queued pending)
    (hpool : ∀ mode index, mp'.scorePool? mode index = mp.scorePool? mode index)
    (hdefault : (mp'.modePools.lookup .mode1v1Normal).isSome =
      (mp.modePools.lookup .mode1v1Normal).isSome)
    (hstay : ∀ {mode nodeId ref}, mp.node? mode nodeId = some ref →
      Active pending ref (mp.heap ref) → (∃ nodeId', mp'.node? mode nodeId' = some ref) ∧
        Active pending' ref (mp'.heap ref) ∧
        (mp'.heap ref).currentPoolIndex = (mp.heap ref).currentPoolIndex)
    (hback : ∀ {mode nodeId ref}, mp'.node? mode nodeId = some ref →
      Active pending' ref (mp'.heap ref) →
        Active pending ref (mp.heap ref) ∧ ∃ nodeId', mp.node? mode nodeId' = some ref) :
    mp'.Queued pending' := by
  have hlisted : ∀ mode index, mp'.listed mode index = mp.listed mode index := fun mode index => by
    rw [MatchPool.listed, hpool, MatchPool.listed]
  constructor
  · rw [hdefault]
    exact h.default
  · intro mode index pool hsome
    rw [hpool] at hsome
    exact h.poolIndex hsome
  · intro mode index ref hmem
    rw [hlisted] at hmem
    obtain ⟨hactive, hindex, nodeId, href⟩ := h.listed hmem
    obtain ⟨hstored, hactive', hindex'⟩ := hstay href hactive
    exact ⟨hactive', hindex'.trans hindex, hstored⟩
  · intro mode nodeId ref href hactive
    obtain ⟨hactive, nodeId', href⟩ := hback href hactive
    simp only [hlisted]
    exact h.active href hactive
  · intro mode index
    rw [hlisted]
    exact h.once mode index

theorem Queued.of_eq (h : mp.Queued pending)
    (hpool : ∀ mode index, mp'.scorePool? mode index = mp.scorePool? mode index)
    (hdefault : (mp'.modePools.lookup .mode1v1Normal).isSome =
      (mp.modePools.lookup .mode1v1Normal).isSome)
    (hnode : ∀ mode nodeId, mp'.node? mode nodeId = mp.node? mode nodeId)
    (hstate : ∀ ref, (mp'.heap ref).state = (mp.heap ref).state)
    (hindex : ∀ ref, (mp'.heap ref).currentPoolIndex = (mp.heap ref).currentPoolIndex) :
    mp'.Queued pending := by
  refine h.mono hpool hdefault (fun {mode nodeId ref} href hactive => ?_)
    fun {mode nodeId ref} href hactive => ?_
  · refine ⟨⟨nodeId, (hnode mode nodeId).trans href⟩, ?_, hindex ref⟩
    rw [Active, hstate]
    exact hactive
  · rw [Active, hstate] at hactive
    exact ⟨hactive, nodeId, (hnode mode nodeId).symm.trans href⟩

theorem Queued.enlist (h : mp.Queued []) {nodeId : Nat} (hh : mp.Housed)
    (href : mp.node? mode nodeId = some ref) (hidle : (mp.heap ref).state = .idle)
    (hpool : (mp.scorePool? mode index).isSome) (hstate : (f (mp.heap ref)).state = .matching)
    (hindex : (f (mp.heap ref)).currentPoolIndex = some index) :
    ((mp.modifyNode ref f).modifyListed mode index (· ++ [ref])).Queued [] := by
  have hlisted := fun mode' index' => listed_modifyListed (mp.modifyNode ref f) mode mode' index
    index' (g := (· ++ [ref])) hpool
  have hnode := fun mode' nodeId' => node?_modifyListed (mp.modifyNode ref f) mode mode' nodeId'
    index (· ++ [ref])
  have hheap : ∀ {ref'}, ref' ≠ ref →
      ((mp.modifyNode ref f).modifyListed mode index (· ++ [ref])).heap ref' = mp.heap ref' :=
    fun hne => heap_modifyNode_of_ne mp f hne
  have hself : ((mp.modifyNode ref f).modifyListed mode index (· ++ [ref])).heap ref =
      f (mp.heap ref) := heap_modifyNode_self mp ref f
  -- the node was in no score pool
  have hout : ∀ {mode' index'}, ref ∉ mp.listed mode' index' := by
    intro mode' index' hmem
    have hactive := (h.listed hmem).1
    rw [Active, hidle] at hactive
    cases hactive
  constructor
  · rw [modifyListed, isSome_lookup_modifyMode]
    exact h.default
  · intro mode' index' pool hsome
    obtain ⟨pool', hpool', hsame⟩ := poolIndex_modifyListed hsome
    rw [hsame]
    exact h.poolIndex hpool'
  · intro mode' index' ref' hmem
    rw [hlisted] at hmem
    simp only [hnode]
    have hcases : ref' ∈ mp.listed mode' index' ∨ mode' = mode ∧ index' = index ∧ ref' = ref := by
      split_ifs at hmem with hplace
      · rcases mem_append.mp hmem with hold | hnew
        · exact .inl hold
        · exact .inr ⟨hplace.1, hplace.2, mem_singleton.mp hnew⟩
      · exact .inl hmem
    rcases hcases with hold | ⟨rfl, rfl, rfl⟩
    · have hne : ref' ≠ ref := by
        rintro rfl
        exact hout hold
      rw [hheap hne]
      exact h.listed hold
    · rw [hself]
      exact ⟨hstate, hindex, nodeId, href⟩
  · intro mode' nodeId' ref' href' hactive
    rw [hnode] at href'
    simp only [hlisted]
    by_cases hsame : ref' = ref
    · subst hsame
      obtain ⟨rfl, _⟩ := hh.place_eq href' href
      refine ⟨index, ?_⟩
      rw [if_pos ⟨rfl, rfl⟩]
      exact mem_append_right _ (mem_singleton_self ref')
    · rw [hheap hsame] at hactive
      obtain ⟨index', hmem⟩ := h.active href' hactive
      refine ⟨index', ?_⟩
      split
      · exact mem_append_left _ hmem
      · exact hmem
  · intro mode' index'
    rw [hlisted]
    split
    · rw [← concat_eq_append]
      exact (h.once mode' index').concat hout
    · exact h.once mode' index'

/-- The node was taken out of its score pool. -/
structure Delisted (mode : GameMode) (index : Nat) (ref : Ref) (mp mp' : MatchPool) : Prop where
  mem : ref ∈ mp.listed mode index
  default : (mp'.modePools.lookup .mode1v1Normal).isSome =
    (mp.modePools.lookup .mode1v1Normal).isSome
  scorePool? : ∀ mode' index', mp'.scorePool? mode' index' =
    (mp.modifyListed mode index (·.erase ref)).scorePool? mode' index'
  node? : ∀ mode' nodeId, mp'.node? mode' nodeId = mp.node? mode' nodeId
  playerNodeMap : mp'.playerNodeMap = mp.playerNodeMap
  nextRef : mp'.nextRef = mp.nextRef
  heap_self : mp'.heap ref = { mp.heap ref with currentPoolIndex := none }
  heap_of_ne : ∀ {ref'}, ref' ≠ ref → mp'.heap ref' = mp.heap ref'

theorem delisted_modifyListed (hmem : ref ∈ mp.listed mode index) :
    Delisted mode index ref mp ((mp.modifyNode ref fun node =>
      { node with currentPoolIndex := none }).modifyListed mode index (·.erase ref)) where
  mem := hmem
  default := isSome_lookup_modifyMode _ _ _ _
  scorePool? _ _ := rfl
  node? mode' nodeId := node?_modifyListed mp mode mode' nodeId index (·.erase ref)
  playerNodeMap := rfl
  nextRef := rfl
  heap_self := heap_modifyNode_self mp ref fun node => { node with currentPoolIndex := none }
  heap_of_ne := heap_modifyNode_of_ne mp fun node => { node with currentPoolIndex := none }

theorem Housed.delist (h : mp.Housed) (hdelisted : Delisted mode index ref mp mp') :
    mp'.Housed := by
  have hproj : ∀ {α : Type} (g : MatchNode → α),
      g { mp.heap ref with currentPoolIndex := none } = g (mp.heap ref) →
      ∀ ref', g (mp'.heap ref') = g (mp.heap ref') := by
    intro α g hself ref'
    by_cases hsame : ref' = ref
    · rw [hsame, hdelisted.heap_self, hself]
    · rw [hdelisted.heap_of_ne hsame]
  exact h.of_eq hdelisted.node? hdelisted.playerNodeMap hdelisted.nextRef
    (hproj nodeId rfl) (hproj players rfl)

theorem Queued.removeFromPool (h : mp.Queued pending) (hh : mp.Housed) {nodeId : Nat}
    (href : mp.node? mode nodeId = some ref) (hactive : Active pending ref (mp.heap ref)) :
    ∃ index, Delisted mode index ref mp
      (mp.removeFromPool mode (mp.heap ref).currentPoolIndex nodeId) := by
  obtain ⟨index, hmem⟩ := h.active href hactive
  have hfind : (mp.listed mode index).find? (fun ref' => (mp.heap ref').nodeId = nodeId) =
      some ref := by
    cases hfound : (mp.listed mode index).find? fun ref' => (mp.heap ref').nodeId = nodeId with
    | none =>
      have hnot := find?_eq_none.mp hfound ref hmem
      exact absurd (decide_eq_true (hh.named href).nodeId) hnot
    | some ref' =>
      obtain ⟨_, _, nodeId', href'⟩ := h.listed (mem_of_find?_eq_some hfound)
      have hfound := find?_some hfound
      have hnodeId : (mp.heap ref').nodeId = nodeId := of_decide_eq_true hfound
      rw [(hh.named href').nodeId] at hnodeId
      rw [hnodeId, href] at href'
      exact href'.symm
  refine ⟨index, ?_⟩
  rw [(h.listed hmem).2.1, MatchPool.removeFromPool, hfind]
  exact delisted_modifyListed hmem

theorem Queued.delist (h : mp.Queued pending) (hh : mp.Housed)
    (hdelisted : Delisted mode index ref mp mp₁)
    (hdefault : (mp'.modePools.lookup .mode1v1Normal).isSome =
      (mp₁.modePools.lookup .mode1v1Normal).isSome)
    (hpool : ∀ mode' index', mp'.scorePool? mode' index' = mp₁.scorePool? mode' index')
    (hnode : ∀ mode' nodeId ref', ref' ≠ ref →
      (mp'.node? mode' nodeId = some ref' ↔ mp₁.node? mode' nodeId = some ref'))
    (hself : ∀ mode' nodeId, mp'.node? mode' nodeId = some ref →
      ¬Active pending' ref (mp'.heap ref))
    (hheap : ∀ ref', ref' ≠ ref → mp'.heap ref' = mp₁.heap ref')
    (hpending : ∀ ref', ref' ≠ ref → (ref' ∈ pending' ↔ ref' ∈ pending)) : mp'.Queued pending' := by
  have hlisted : ∀ mode' index', mp'.listed mode' index' =
      if mode' = mode ∧ index' = index then (mp.listed mode' index').erase ref
      else mp.listed mode' index' := by
    intro mode' index'
    rw [← listed_modifyListed mp mode mode' index index' (g := (·.erase ref))
      (scorePool?_of_mem_listed hdelisted.mem), MatchPool.listed, hpool, hdelisted.scorePool?,
      MatchPool.listed]
  have hnode : ∀ mode' nodeId ref', ref' ≠ ref →
      (mp'.node? mode' nodeId = some ref' ↔ mp.node? mode' nodeId = some ref') := by
    intro mode' nodeId ref' hne
    rw [hnode mode' nodeId ref' hne, hdelisted.node?]
  have hheap : ∀ ref', ref' ≠ ref → mp'.heap ref' = mp.heap ref' := fun ref' hne =>
    (hheap ref' hne).trans (hdelisted.heap_of_ne hne)
  have hactive : ∀ {ref'}, ref' ≠ ref →
      (Active pending' ref' (mp'.heap ref') ↔ Active pending ref' (mp.heap ref')) := by
    intro ref' hne
    rw [Active, Active, hheap ref' hne]
    simp only [hpending ref' hne]
  -- the node was in this score pool only
  have hothers : ∀ {mode' index' ref'}, ref' ∈ mp'.listed mode' index' →
      ref' ≠ ref ∧ ref' ∈ mp.listed mode' index' := by
    intro mode' index' ref' hmem'
    rw [hlisted] at hmem'
    split_ifs at hmem' with hplace
    · exact ⟨fun hsame => (h.once mode' index').not_mem_erase (hsame ▸ hmem'),
        mem_of_mem_erase hmem'⟩
    · refine ⟨?_, hmem'⟩
      rintro rfl
      obtain ⟨_, hindex, nodeId, href⟩ := h.listed hdelisted.mem
      obtain ⟨_, hindex', nodeId', href'⟩ := h.listed hmem'
      exact hplace ⟨(hh.place_eq href' href).1, some.inj (hindex'.symm.trans hindex)⟩
  constructor
  · rw [hdefault, hdelisted.default]
    exact h.default
  · intro mode' index' pool hsome
    rw [hpool, hdelisted.scorePool?] at hsome
    obtain ⟨pool', hpool', hsame⟩ := poolIndex_modifyListed hsome
    rw [hsame]
    exact h.poolIndex hpool'
  · intro mode' index' ref' hmem'
    obtain ⟨hne, hmem'⟩ := hothers hmem'
    obtain ⟨hactive', hindex, nodeId, href⟩ := h.listed hmem'
    refine ⟨(hactive hne).mpr hactive', ?_, nodeId, (hnode mode' nodeId ref' hne).mpr href⟩
    rw [hheap ref' hne]
    exact hindex
  · intro mode' nodeId ref' href' hactive'
    have hne : ref' ≠ ref := by
      rintro rfl
      exact hself mode' nodeId href' hactive'
    obtain ⟨index', hmem'⟩ := h.active ((hnode mode' nodeId ref' hne).mp href')
      ((hactive hne).mp hactive')
    refine ⟨index', ?_⟩
    rw [hlisted]
    split
    · exact (mem_erase_of_ne hne).mpr hmem'
    · exact hmem'
  · intro mode' index'
    rw [hlisted]
    split
    · exact (h.once mode' index').erase ref
    · exact h.once mode' index'

end Queued

end MatchPool

end ServerLib.Match

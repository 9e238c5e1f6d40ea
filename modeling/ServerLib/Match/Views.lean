import ServerLib.Match.Pool

/-! What the changes of the match pool do to the three views of it that the proofs look at: which
node is stored where, which nodes are in a score pool, and what a node is. -/

namespace ServerLib.Match

open Lib Option AList

namespace MatchPool

section Views

variable (mp : MatchPool) (mode mode' : GameMode) (nodeId nodeId' : Nat) (ref ref' : Ref)
  (index index' : Nat) (f : MatchNode → MatchNode)

@[simp] theorem heap_modifyNode_self : (mp.modifyNode ref f).heap ref = f (mp.heap ref) :=
  Function.update_self ..

theorem heap_modifyNode_of_ne {ref ref' : Ref} (h : ref' ≠ ref) :
    (mp.modifyNode ref f).heap ref' = mp.heap ref' :=
  Function.update_of_ne h ..

theorem proj_modifyNode {α : Type} (g : MatchNode → α) (h : g (f (mp.heap ref)) = g (mp.heap ref)) :
    g ((mp.modifyNode ref f).heap ref') = g (mp.heap ref') := by
  by_cases hsame : ref' = ref
  · subst hsame
    rw [heap_modifyNode_self]
    exact h
  · rw [heap_modifyNode_of_ne mp f hsame]

theorem bind_modifyMode {α : Type} (f : ModePool → ModePool) (g : ModePool → Option α) :
    ((mp.modifyMode mode f).modePools.lookup mode').bind g =
      (mp.modePools.lookup mode').bind fun pool => g (if mode' = mode then f pool else pool) := by
  rw [modifyMode]
  by_cases hmode : mode' = mode
  · subst hmode
    rw [lookup_modify_self]
    cases mp.modePools.lookup mode' with
    | none => rfl
    | some pool => simp
  · simp [lookup_modify_of_ne _ hmode, hmode]

theorem node?_putNode (h : (mp.modePools.lookup mode).isSome) :
    (mp.putNode mode nodeId ref).node? mode' nodeId' =
      if mode' = mode ∧ nodeId' = nodeId then some ref else mp.node? mode' nodeId' := by
  obtain ⟨pool, hpool⟩ := isSome_iff_exists.mp h
  rw [node?, putNode, bind_modifyMode, node?]
  by_cases hmode : mode' = mode
  · subst hmode
    rw [hpool, bind_some, bind_some, if_pos rfl]
    by_cases hnode : nodeId' = nodeId
    · subst hnode
      rw [if_pos ⟨rfl, rfl⟩]
      exact lookup_insert _
    · rw [if_neg fun hboth => hnode hboth.2]
      exact lookup_insert_ne hnode
  · simp [hmode]

theorem node?_eraseNode :
    (mp.eraseNode mode nodeId).node? mode' nodeId' =
      if mode' = mode ∧ nodeId' = nodeId then none else mp.node? mode' nodeId' := by
  rw [node?, eraseNode, bind_modifyMode, node?]
  by_cases hmode : mode' = mode
  · subst hmode
    cases mp.modePools.lookup mode' with
    | none => simp
    | some pool =>
      by_cases hnode : nodeId' = nodeId
      · subst hnode
        simp
      · simp [hnode, lookup_erase_ne hnode]
  · simp [hmode]

theorem scorePool?_modifyMode {f : ModePool → ModePool} (h : ∀ pool, (f pool).pools = pool.pools) :
    (mp.modifyMode mode f).scorePool? mode' index = mp.scorePool? mode' index := by
  rw [scorePool?, bind_modifyMode, scorePool?]
  by_cases hmode : mode' = mode
  · simp [hmode, h]
  · simp [hmode]

theorem node?_modifyMode {f : ModePool → ModePool} (h : ∀ pool, (f pool).nodes = pool.nodes) :
    (mp.modifyMode mode f).node? mode' nodeId = mp.node? mode' nodeId := by
  rw [node?, bind_modifyMode, node?]
  by_cases hmode : mode' = mode
  · simp [hmode, h]
  · simp [hmode]

theorem scorePool?_putNode :
    (mp.putNode mode nodeId ref).scorePool? mode' index = mp.scorePool? mode' index :=
  scorePool?_modifyMode mp mode mode' index fun _ => rfl

theorem scorePool?_eraseNode :
    (mp.eraseNode mode nodeId).scorePool? mode' index = mp.scorePool? mode' index :=
  scorePool?_modifyMode mp mode mode' index fun _ => rfl

theorem node?_modifyListed (g : List Ref → List Ref) :
    (mp.modifyListed mode index g).node? mode' nodeId = mp.node? mode' nodeId :=
  node?_modifyMode mp mode mode' nodeId fun _ => rfl

theorem scorePool?_modifyListed (g : List Ref → List Ref) :
    (mp.modifyListed mode index g).scorePool? mode' index' =
      if mode' = mode ∧ index' = index then
        (mp.scorePool? mode' index').map fun pool => { pool with nodes := g pool.nodes }
      else mp.scorePool? mode' index' := by
  rw [scorePool?, modifyListed, bind_modifyMode, scorePool?]
  by_cases hmode : mode' = mode
  · subst hmode
    cases mp.modePools.lookup mode' with
    | none => simp
    | some pool =>
      by_cases hindex : index' = index
      · subst hindex
        simp
      · simp [hindex, Ne.symm hindex]
  · simp [hmode]

theorem poolIndex_modifyListed {mp : MatchPool} {mode mode' : GameMode} {index index' : Nat}
    {g : List Ref → List Ref} {pool : ScorePool}
    (h : (mp.modifyListed mode index g).scorePool? mode' index' = some pool) :
    ∃ pool', mp.scorePool? mode' index' = some pool' ∧ pool.poolIndex = pool'.poolIndex := by
  rw [scorePool?_modifyListed] at h
  split at h
  · obtain ⟨pool', hpool', rfl⟩ := map_eq_some_iff.mp h
    exact ⟨pool', hpool', rfl⟩
  · exact ⟨pool, h, rfl⟩

theorem listed_modifyListed (h : (mp.scorePool? mode index).isSome) :
    (mp.modifyListed mode index g).listed mode' index' =
      if mode' = mode ∧ index' = index then g (mp.listed mode' index')
      else mp.listed mode' index' := by
  rw [listed, scorePool?_modifyListed, listed]
  split_ifs with hsame
  · obtain ⟨rfl, rfl⟩ := hsame
    obtain ⟨pool, hpool⟩ := isSome_iff_exists.mp h
    rw [hpool]
    rfl
  · rfl

@[simp] theorem isSome_lookup_modifyMode (f : ModePool → ModePool) :
    ((mp.modifyMode mode f).modePools.lookup mode').isSome =
      (mp.modePools.lookup mode').isSome := by
  rw [modifyMode]
  by_cases hmode : mode' = mode
  · rw [hmode, lookup_modify_self, isSome_map]
  · rw [lookup_modify_of_ne _ hmode]

theorem node?_eraseEverywhere :
    (mp.eraseEverywhere nodeId).node? mode nodeId' =
      if nodeId' = nodeId then none else mp.node? mode nodeId' := by
  rw [node?, eraseEverywhere, node?]
  rw [lookup_mapWithKey]
  cases mp.modePools.lookup mode with
  | none => simp
  | some pool =>
    by_cases hnode : nodeId' = nodeId
    · subst hnode
      simp
    · simp [hnode, lookup_erase_ne hnode]

theorem scorePool?_eraseEverywhere :
    (mp.eraseEverywhere nodeId).scorePool? mode index = mp.scorePool? mode index := by
  rw [scorePool?, eraseEverywhere, scorePool?]
  rw [lookup_mapWithKey]
  cases mp.modePools.lookup mode with
  | none | some pool => rfl

theorem lookup_erasePlayers (players : List (Nat × Nat)) (playerId : Nat) :
    (mp.erasePlayers players).playerNodeMap.lookup playerId =
      if playerId ∈ players.map Prod.fst then none else mp.playerNodeMap.lookup playerId := by
  rw [erasePlayers]
  generalize mp.playerNodeMap = map
  induction players generalizing map with
  | nil => rfl
  | cons player players ih =>
    rw [List.foldl_cons, ih, List.map_cons]
    by_cases hplayer : playerId = player.1
    · rw [hplayer, lookup_erase]
      simp
    · rw [lookup_erase_ne hplayer]
      simp only [List.mem_cons, hplayer, false_or]

theorem scorePool?_of_mem_listed {mp : MatchPool} {mode : GameMode} {index : Nat} {ref : Ref}
    (h : ref ∈ mp.listed mode index) : (mp.scorePool? mode index).isSome := by
  rw [listed] at h
  cases hpool : mp.scorePool? mode index with
  | none =>
    rw [hpool] at h
    cases h
  | some pool => rfl

end Views

variable {mp : MatchPool}

theorem locate_some (h : mp.locate nodeId = some (mode, ref)) :
    mp.node? mode nodeId = some ref := by
  obtain ⟨entry, hmem, hentry⟩ := List.exists_of_findSome?_eq_some h
  obtain ⟨ref', href, hsame⟩ := map_eq_some_iff.mp hentry
  obtain ⟨rfl, rfl⟩ := Prod.mk.inj hsame
  have hlookup : mp.modePools.lookup entry.1 = some entry.2 := mem_lookup_iff.mpr hmem
  rw [node?, hlookup]
  exact href

theorem getNode_some (h : mp.getNode nodeId = some ref) :
    ∃ mode, mp.node? mode nodeId = some ref := by
  obtain ⟨⟨mode, ref'⟩, hlocate, rfl⟩ := map_eq_some_iff.mp h
  exact ⟨mode, locate_some hlocate⟩

theorem mem_modeNodes : ref ∈ mp.modeNodes mode ↔ ∃ nodeId, mp.node? mode nodeId = some ref := by
  rw [modeNodes]
  simp only [node?]
  cases mp.modePools.lookup mode with
  | none => simp
  | some pool =>
    simp only [map_some, getD_some, bind_some, List.mem_map]
    constructor
    · rintro ⟨entry, hmem, rfl⟩
      exact ⟨entry.1, mem_lookup_iff.mpr hmem⟩
    · rintro ⟨nodeId, hlookup⟩
      exact ⟨⟨nodeId, ref⟩, mem_lookup_iff.mp hlookup, rfl⟩

theorem locateMatching_some (h : mp.locateMatching nodeId = some (mode, ref)) :
    mp.node? mode nodeId = some ref ∧ (mp.heap ref).state = .matching := by
  obtain ⟨entry, hmem, hentry⟩ := List.exists_of_findSome?_eq_some h
  obtain ⟨ref', href, hsame⟩ := map_eq_some_iff.mp hentry
  obtain ⟨rfl, rfl⟩ := Prod.mk.inj hsame
  obtain ⟨href, hstate⟩ := filter_eq_some_iff.mp href
  have hlookup : mp.modePools.lookup entry.1 = some entry.2 := mem_lookup_iff.mpr hmem
  refine ⟨?_, of_decide_eq_true hstate⟩
  rw [node?, hlookup]
  exact href

theorem locateMatching_none (h : mp.locateMatching nodeId = none)
    (href : mp.node? mode nodeId = some ref) : (mp.heap ref).state ≠ .matching := by
  intro hstate
  rw [node?] at href
  obtain ⟨pool, hlookup, href⟩ := bind_eq_some_iff.mp href
  have hentry := List.findSome?_eq_none_iff.mp h ⟨mode, pool⟩ (mem_lookup_iff.mp hlookup)
  have hnone := map_eq_none_iff.mp hentry
  rw [href, filter_some, if_pos (decide_eq_true hstate)] at hnone
  cases hnone

end MatchPool

end ServerLib.Match

import Mathlib.Data.List.AList

/-! Finite tables with a value for each key, on top of association lists: changing one value,
changing all values, and counting values. -/

namespace ServerLib.Lib

open List

variable {κ α : Type}

def mapWithKey (t : AList fun _ : κ => α) (f : κ → α → α) : AList fun _ : κ => α where
  entries := t.entries.map fun e => ⟨e.1, f e.1 e.2⟩
  nodupKeys := by
    have hnodup := t.nodupKeys
    simp only [List.NodupKeys, List.keys, map_map] at hnodup ⊢
    exact hnodup

variable (t : AList fun _ : κ => α)

theorem mapWithKey_mapWithKey (f g : κ → α → α) :
    mapWithKey (mapWithKey t f) g = mapWithKey t fun k a => g k (f k a) := by
  apply AList.ext
  simp [mapWithKey]

theorem mapWithKey_id : mapWithKey t (fun _ a => a) = t := by
  apply AList.ext
  simp [mapWithKey]

variable [DecidableEq κ]

theorem lookup_mk_map (entries : List (Sigma fun _ : κ => α)) (f : κ → α → α) (k : κ) :
    List.dlookup k (entries.map fun e => ⟨e.1, f e.1 e.2⟩ : List (Sigma fun _ : κ => α)) =
      (List.dlookup k entries).map (f k) := by
  induction entries with
  | nil => rfl
  | cons e entries ih =>
    obtain ⟨k', a⟩ := e
    by_cases h : k' = k
    · subst h
      simp [dlookup_cons_eq]
    · have hne : k ≠ k' := Ne.symm h
      rw [map_cons, dlookup_cons_ne _ _ hne, dlookup_cons_ne _ _ hne]
      exact ih

theorem lookup_mapWithKey (f : κ → α → α) (k : κ) :
    (mapWithKey t f).lookup k = (t.lookup k).map (f k) :=
  lookup_mk_map t.entries f k

def modify (t : AList fun _ : κ => α) (k : κ) (f : α → α) : AList fun _ : κ => α :=
  mapWithKey t fun k' a => if k' = k then f a else a

@[simp] theorem lookup_modify_self (k : κ) (f : α → α) :
    (modify t k f).lookup k = (t.lookup k).map f := by
  rw [modify, lookup_mapWithKey]
  simp

@[simp] theorem lookup_modify_of_ne (h : k' ≠ k) (f : α → α) :
    (modify t k f).lookup k' = t.lookup k' := by
  rw [modify, lookup_mapWithKey]
  simp [h]

theorem modify_modify (k : κ) (f g : α → α) :
    modify (modify t k f) k g = modify t k fun a => g (f a) := by
  rw [modify, modify, mapWithKey_mapWithKey, modify]
  congr 1
  funext k' a
  split <;> rfl

theorem modify_id (k : κ) : modify t k (fun a => a) = t := by
  rw [modify]
  simp only [ite_self]
  exact mapWithKey_id t

theorem modify_eq_self {t : AList fun _ : κ => α} {k : κ} {f : α → α}
    (h : ∀ a, t.lookup k = some a → f a = a) : modify t k f = t := by
  apply AList.ext
  have hentry : ∀ e ∈ t.entries,
      (⟨e.1, if e.1 = k then f e.2 else e.2⟩ : Sigma fun _ : κ => α) = id e := by
    rintro ⟨k', a⟩ hmem
    by_cases hk : k' = k
    · subst hk
      have ha : f a = a := h a (AList.mem_lookup_iff.mpr hmem)
      simp [ha]
    · simp [hk]
  exact (map_congr_left hentry).trans (map_id _)

def mapValues (t : AList fun _ : κ => α) (f : α → α) : AList fun _ : κ => α :=
  mapWithKey t fun _ => f

@[simp] theorem lookup_mapValues (f : α → α) (k : κ) :
    (mapValues t f).lookup k = (t.lookup k).map f :=
  lookup_mapWithKey t _ k

def count (t : AList fun _ : κ => α) (p : α → Bool) : Nat :=
  (t.entries.filter fun e => p e.2).length

theorem count_le_length {t : AList fun _ : κ => α} {p : α → Bool} {keys : List κ}
    (h : ∀ k a, t.lookup k = some a → p a = true → k ∈ keys) : count t p ≤ keys.length := by
  have hnodup : ((t.entries.filter fun e => p e.2).map Sigma.fst).Nodup :=
    (filter_sublist.map Sigma.fst).nodup t.nodupKeys
  have hsubset : (t.entries.filter fun e => p e.2).map Sigma.fst ⊆ keys := by
    intro k hk
    obtain ⟨e, he, rfl⟩ := mem_map.mp hk
    obtain ⟨hmem, hp⟩ := mem_filter.mp he
    exact h e.1 e.2 (AList.mem_lookup_iff.mpr hmem) hp
  have hle := (subperm_of_subset hnodup hsubset).length_le
  rwa [length_map] at hle

end ServerLib.Lib

import Mathlib.Data.List.Basic

/-! Trees with a value at each node and at most one child for each key.  What a tree holds is the
value that it has for each path of keys, and the operations are described by what they do to it. -/

namespace ServerLib.Lib

open Option

/-- A node with its value and its children. -/
inductive Trie (κ α : Type)
  | node (value : α) (children : List (κ × Trie κ α))

namespace Trie

variable {κ α : Type}

def value : Trie κ α → α
  | node value _ => value

def children : Trie κ α → List (κ × Trie κ α)
  | node _ children => children

mutual

def mapValues (f : α → α) : Trie κ α → Trie κ α
  | node value children => node (f value) (mapChildren f children)

def mapChildren (f : α → α) : List (κ × Trie κ α) → List (κ × Trie κ α)
  | [] => []
  | (k, t) :: children => (k, mapValues f t) :: mapChildren f children

end

variable [DecidableEq κ]

variable (t : Trie κ α) (k : κ)

def child : Option (Trie κ α) := t.children.lookup k

def insertChild (k : κ) (t : Trie κ α) : List (κ × Trie κ α) → List (κ × Trie κ α)
  | [] => [(k, t)]
  | (k', t') :: children =>
    if k' = k then (k, t) :: children else (k', t') :: insertChild k t children

/-- The node at the end of a path. -/
def find? : Trie κ α → List κ → Option (Trie κ α)
  | t, [] => some t
  | t, k :: ks => (t.child k).bind (find? · ks)

/-- Changes the value at the end of a path.  The nodes that are missing are created, with the value
`init`. -/
def modifyAt (init : α) (f : α → α) : List κ → Trie κ α → Trie κ α
  | [], t => node (f t.value) t.children
  | k :: ks, t =>
    node t.value (insertChild k (modifyAt init f ks ((t.child k).getD (node init []))) t.children)

/-- Changes the value at the end of a path, if there is a node. -/
def updateAt (f : α → α) : List κ → Trie κ α → Trie κ α
  | [], t => node (f t.value) t.children
  | k :: ks, t =>
    match t.child k with
    | none => t
    | some c => node t.value (insertChild k (updateAt f ks c) t.children)

/-- The value at the end of a path, which is `init` if there is no node. -/
def valueAt (init : α) (t : Trie κ α) (path : List κ) : α := ((t.find? path).map value).getD init

variable (init : α) (f : α → α)

theorem lookup_insertChild (k' : κ) (t : Trie κ α) (children : List (κ × Trie κ α)) :
    (insertChild k t children).lookup k' = if k' = k then some t else children.lookup k' := by
  fun_induction insertChild k t children with
  | case1 | case2 =>
    by_cases h : k' = k
    · simp [h]
    · simp [List.lookup_cons, h, beq_eq_false_iff_ne.mpr h]
  | case3 k'' t' children hne ih =>
    by_cases h : k' = k''
    · subst h
      simp [hne]
    · simp [List.lookup_cons, beq_eq_false_iff_ne.mpr h, ih]

@[simp] theorem child_insertChild (value : α) (k k' : κ) (t : Trie κ α)
    (children : List (κ × Trie κ α)) :
    (node value (insertChild k t children)).child k' =
      if k' = k then some t else children.lookup k' :=
  lookup_insertChild k k' t children

@[simp] theorem valueAt_nil : t.valueAt init [] = t.value := rfl

theorem valueAt_cons (ks : List κ) :
    t.valueAt init (k :: ks) = ((t.child k).map (valueAt init · ks)).getD init := by
  rw [valueAt, find?]
  cases t.child k with
  | none | some c => rfl

theorem valueAt_new (path : List κ) : (node init [] : Trie κ α).valueAt init path = init := by
  cases path with
  | nil | cons k ks => rfl

theorem valueAt_modifyAt (path path' : List κ) (t : Trie κ α) :
    (t.modifyAt init f path).valueAt init path' =
      if path' = path then f (t.valueAt init path) else t.valueAt init path' := by
  induction path generalizing t path' with
  | nil =>
    cases path' with
    | nil => rfl
    | cons k' ks' =>
      rw [valueAt_cons, valueAt_cons]
      simp [modifyAt, child, children]
  | cons k ks ih =>
    cases path' with
    | nil => simp [modifyAt, value]
    | cons k' ks' =>
      rw [modifyAt, valueAt_cons, child_insertChild]
      by_cases hk : k' = k
      · subst hk
        have hold : ((t.child k').getD (node init [])).valueAt init = fun path =>
            t.valueAt init (k' :: path) := by
          funext path
          rw [valueAt_cons]
          cases t.child k' with
          | none => exact valueAt_new init path
          | some c => rfl
        simp only [if_true, map_some, getD_some, ih, hold, List.cons.injEq, true_and]
      · rw [if_neg hk, if_neg (fun h => hk (List.cons.inj h).1), valueAt_cons]
        rfl

theorem valueAt_updateAt (hinit : f init = init) (path path' : List κ) (t : Trie κ α) :
    (t.updateAt f path).valueAt init path' =
      if path' = path then f (t.valueAt init path) else t.valueAt init path' := by
  induction path generalizing t path' with
  | nil =>
    cases path' with
    | nil => rfl
    | cons k' ks' =>
      rw [valueAt_cons, valueAt_cons]
      simp [updateAt, child, children]
  | cons k ks ih =>
    rw [updateAt]
    cases hchild : t.child k with
    | none =>
      have hnone : t.valueAt init (k :: ks) = init := by
        rw [valueAt_cons, hchild]
        rfl
      split_ifs with hpath
      · rw [hpath, hnone, hinit]
      · rfl
    | some c =>
      cases path' with
      | nil => simp [value]
      | cons k' ks' =>
        rw [valueAt_cons, child_insertChild]
        by_cases hk : k' = k
        · subst hk
          simp only [if_true, map_some, getD_some, ih, List.cons.injEq, true_and,
            valueAt_cons, hchild]
        · rw [if_neg hk, if_neg (fun h => hk (List.cons.inj h).1), valueAt_cons]
          rfl

theorem lookup_mapChildren (children : List (κ × Trie κ α)) (k : κ) :
    (mapChildren f children).lookup k = (children.lookup k).map (mapValues f) := by
  induction children with
  | nil => simp [mapChildren]
  | cons c children ih =>
    obtain ⟨k', t⟩ := c
    by_cases h : k = k'
    · simp [mapChildren, h]
    · simp [mapChildren, List.lookup_cons, beq_eq_false_iff_ne.mpr h, ih]

theorem child_mapValues : (t.mapValues f).child k = (t.child k).map (mapValues f) := by
  cases t with
  | node value children =>
    rw [mapValues]
    exact lookup_mapChildren f children k

theorem valueAt_mapValues (hinit : f init = init) (path : List κ) (t : Trie κ α) :
    (t.mapValues f).valueAt init path = f (t.valueAt init path) := by
  induction path generalizing t with
  | nil =>
    cases t with
    | node value children =>
      rw [mapValues]
      rfl
  | cons k ks ih =>
    rw [valueAt_cons, valueAt_cons, child_mapValues]
    cases t.child k with
    | none => exact hinit.symm
    | some c => exact ih c

end Trie

end ServerLib.Lib

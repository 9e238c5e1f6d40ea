import Mathlib.Data.List.Infix
import Mathlib.Data.List.Pairwise

/-! Binary trees of code words.  A code word is a path from the root, and the node at its end
carries the symbol.  In a tree that is built from a prefix-free table, every code word leads to its
own symbol and passes no symbol before. -/

namespace ServerLib.Lib

open List

/-- A binary tree in which a node may carry a symbol, and children may be absent. -/
inductive CodeTree (α : Type) where
  | absent
  | node (symbol : Option α) (child0 child1 : CodeTree α)

namespace CodeTree

variable {α : Type}

def symbol : CodeTree α → Option α
  | absent => none
  | node s _ _ => s

def child : CodeTree α → Bool → CodeTree α
  | absent, _ => absent
  | node _ c0 _, false => c0
  | node _ _ c1, true => c1

def present : CodeTree α → Bool
  | absent => false
  | node _ _ _ => true

def size : CodeTree α → Nat
  | absent => 0
  | node _ c0 c1 => c0.size + c1.size + 1

def walk (t : CodeTree α) (bits : List Bool) : CodeTree α := bits.foldl child t

/-- Follows the path `bits`, adding the nodes that are absent, and puts `a` at its end. -/
def insert : CodeTree α → List Bool → α → CodeTree α
  | t, [], a => node (some a) (t.child false) (t.child true)
  | t, false :: bits, a => node t.symbol ((t.child false).insert bits a) (t.child true)
  | t, true :: bits, a => node t.symbol (t.child false) ((t.child true).insert bits a)

/-- The path `bits` passes no symbol before its end. -/
def Clear : CodeTree α → List Bool → Prop
  | _, [] => True
  | t, b :: bits => t.symbol = none ∧ (t.child b).Clear bits

/-- The path `bits` leads to the symbol `a` and passes none before. -/
def Leads : CodeTree α → List Bool → α → Prop
  | t, [], a => t.symbol = some a
  | t, b :: bits, a => t.symbol = none ∧ (t.child b).Leads bits a

@[simp] theorem symbol_insert_cons (t : CodeTree α) (b : Bool) (bits : List Bool) (a : α) :
    (t.insert (b :: bits) a).symbol = t.symbol := by
  cases b <;> rfl

@[simp] theorem child_insert_self (t : CodeTree α) (b : Bool) (bits : List Bool) (a : α) :
    (t.insert (b :: bits) a).child b = (t.child b).insert bits a := by
  cases b <;> rfl

theorem child_insert_of_ne (t : CodeTree α) (h : b' ≠ b) (bits : List Bool) (a : α) :
    (t.insert (b :: bits) a).child b' = t.child b' := by
  cases b <;> cases b' <;> first | contradiction | rfl

theorem clear_absent (bits : List Bool) : (absent : CodeTree α).Clear bits := by
  induction bits with
  | nil => trivial
  | cons b bits ih => exact ⟨rfl, ih⟩

variable {t : CodeTree α}

theorem walk_append (t : CodeTree α) (bits bits' : List Bool) :
    t.walk (bits ++ bits') = (t.walk bits).walk bits' := foldl_append

theorem walk_absent (bits : List Bool) : (absent : CodeTree α).walk bits = absent := by
  induction bits with
  | nil => rfl
  | cons b bits ih => exact ih

theorem symbol_walk_root (bits : List Bool) :
    ((node none absent absent : CodeTree α).walk bits).symbol = none := by
  cases bits with
  | nil => rfl
  | cons b bits => cases b <;> exact congrArg symbol (walk_absent bits)

theorem symbol_walk_insert (h : ((t.insert bits a).walk bits').symbol = some a') :
    (bits', a') = (bits, a) ∨ (t.walk bits').symbol = some a' := by
  induction bits generalizing t bits' with
  | nil =>
    cases bits' with
    | nil => exact .inl (by simpa [walk, insert, symbol, eq_comm] using h)
    | cons b' bits' => exact .inr (by cases b' <;> exact h)
  | cons b bits ih =>
    cases bits' with
    | nil => exact .inr (by rwa [walk, foldl_nil, symbol_insert_cons] at h)
    | cons b' bits' =>
      rw [walk, foldl_cons] at h ⊢
      by_cases hb : b' = b
      · subst hb
        rw [child_insert_self] at h
        simpa [walk] using ih h
      · rw [child_insert_of_ne t hb] at h
        exact .inr h

theorem leads_insert (h : t.Clear bits) (a : α) : (t.insert bits a).Leads bits a := by
  induction bits generalizing t with
  | nil => rfl
  | cons b bits ih =>
    refine ⟨(symbol_insert_cons t b bits a).trans h.1, ?_⟩
    rw [child_insert_self]
    exact ih h.2

theorem Clear.insert (h : t.Clear bits) (hne : ¬bits' <+: bits) (a : α) :
    (t.insert bits' a).Clear bits := by
  induction bits generalizing t bits' with
  | nil => trivial
  | cons b bits ih =>
    cases bits' with
    | nil => exact absurd nil_prefix hne
    | cons b' bits' =>
      refine ⟨(symbol_insert_cons t b' bits' a).trans h.1, ?_⟩
      by_cases hb : b = b'
      · subst hb
        rw [child_insert_self]
        exact ih h.2 fun hp => hne (cons_prefix_cons.mpr ⟨rfl, hp⟩)
      · rw [child_insert_of_ne t hb]
        exact h.2

theorem Leads.present (h : t.Leads bits a) : t.present = true := by
  induction bits generalizing t with
  | nil =>
    cases t with
    | absent => exact absurd h (Option.some_ne_none a).symm
    | node s c0 c1 => rfl
  | cons b bits ih =>
    cases t with
    | absent => exact ih h.2
    | node s c0 c1 => rfl

theorem Leads.insert (h : t.Leads bits a) (hne : ¬bits <+: bits') (hne' : ¬bits' <+: bits)
    (a' : α) : (t.insert bits' a').Leads bits a := by
  induction bits generalizing t bits' with
  | nil => exact absurd nil_prefix hne
  | cons b bits ih =>
    cases bits' with
    | nil => exact absurd nil_prefix hne'
    | cons b' bits' =>
      refine ⟨(symbol_insert_cons t b' bits' a').trans h.1, ?_⟩
      by_cases hb : b = b'
      · subst hb
        rw [child_insert_self]
        exact ih h.2 (fun hp => hne (cons_prefix_cons.mpr ⟨rfl, hp⟩))
          fun hp => hne' (cons_prefix_cons.mpr ⟨rfl, hp⟩)
      · rw [child_insert_of_ne t hb]
        exact h.2

/-- Two code words of which neither continues the other. -/
def Apart (bits bits' : List Bool) : Prop := ¬bits <+: bits' ∧ ¬bits' <+: bits

/-- The rests of the code words that begin with `b`. -/
def tailsAt (b : Bool) (words : List (List Bool)) : List (List Bool) :=
  words.filterMap fun
    | [] => none
    | c :: bits => if c = b then some bits else none

/-- A check that no code word continues another, which splits the words by their first bit.  It
looks at each bit once. -/
def prefixFree : Nat → List (List Bool) → Bool
  | _, [] => true
  | _, [_] => true
  | 0, _ => false
  | n + 1, words =>
    words.all (fun bits => !bits.isEmpty) && prefixFree n (tailsAt false words) &&
      prefixFree n (tailsAt true words)

theorem apart_cons (h : b = b' → Apart bits bits') : Apart (b :: bits) (b' :: bits') := by
  constructor
  · intro hp
    obtain ⟨hb, hbits⟩ := cons_prefix_cons.mp hp
    exact (h hb).1 hbits
  · intro hp
    obtain ⟨hb, hbits⟩ := cons_prefix_cons.mp hp
    exact (h hb.symm).2 hbits

theorem pairwise_of_tailsAt {words : List (List Bool)} (hne : ∀ bits ∈ words, bits ≠ [])
    (h0 : (tailsAt false words).Pairwise Apart) (h1 : (tailsAt true words).Pairwise Apart) :
    words.Pairwise Apart := by
  rw [tailsAt, pairwise_filterMap] at h0 h1
  refine (h0.and h1).imp_of_mem ?_
  rintro bits bits' hbits hbits' ⟨hfalse, htrue⟩
  cases bits with
  | nil => exact absurd rfl (hne _ hbits)
  | cons b bits =>
    cases bits' with
    | nil => exact absurd rfl (hne _ hbits')
    | cons b' bits' =>
      apply apart_cons
      rintro rfl
      cases b with
      | false => exact hfalse bits rfl bits' rfl
      | true => exact htrue bits rfl bits' rfl

theorem pairwise_of_prefixFree (n : Nat) {words : List (List Bool)}
    (h : prefixFree n words = true) : words.Pairwise Apart := by
  fun_induction prefixFree n words with
  | case1 => exact List.Pairwise.nil
  | case2 => exact pairwise_singleton _ _
  | case3 => contradiction
  | case4 n words _ _ ih0 ih1 =>
    simp only [Bool.and_eq_true, all_eq_true] at h
    refine pairwise_of_tailsAt (fun bits hbits => ?_) (ih0 h.1.2) (ih1 h.2)
    simpa using h.1.1 bits hbits

def ofTable (t : CodeTree α) (table : List (List Bool × α)) : CodeTree α :=
  table.foldl (fun t e => t.insert e.1 e.2) t

theorem symbol_walk_ofTable (h : ((t.ofTable table).walk bits).symbol = some a) :
    (bits, a) ∈ table ∨ (t.walk bits).symbol = some a := by
  induction table generalizing t with
  | nil => exact .inr h
  | cons e table ih =>
    rcases ih h with hmem | hwalk
    · exact .inl (mem_cons_of_mem _ hmem)
    · rcases symbol_walk_insert hwalk with he | hsymbol
      · exact .inl (he ▸ mem_cons_self)
      · exact .inr hsymbol

theorem Leads.ofTable (h : t.Leads bits a) (hapart : ∀ e ∈ table, Apart bits e.1) :
    (t.ofTable table).Leads bits a := by
  induction table generalizing t with
  | nil => exact h
  | cons e table ih =>
    obtain ⟨⟨hne, hne'⟩, hapart⟩ := forall_mem_cons.mp hapart
    exact ih (h.insert hne hne' e.2) hapart

theorem leads_ofTable (hfree : (table.map Prod.fst).Pairwise Apart)
    (hclear : ∀ e ∈ table, t.Clear e.1) (he : e ∈ table) : (t.ofTable table).Leads e.1 e.2 := by
  rw [pairwise_map] at hfree
  induction table generalizing t with
  | nil => simp at he
  | cons first table ih =>
    obtain ⟨hfirst, hrest⟩ := pairwise_cons.mp hfree
    rcases mem_cons.mp he with rfl | he
    · exact (leads_insert (hclear e mem_cons_self) e.2).ofTable hfirst
    · refine ih hrest (fun e' he' => ?_) he
      exact (hclear e' (mem_cons_of_mem first he')).insert (hfirst e' he').1 first.2

end CodeTree

end ServerLib.Lib

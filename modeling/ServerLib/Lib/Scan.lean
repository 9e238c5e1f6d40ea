import Mathlib.Data.List.Infix

/-!
Parsers that are started again when more has come.  A scan moves a state over a list of tokens,
and it fails at the end of the tokens with a failure that asks for more.  `Meets` says what a scan
makes of a text, with anything after the text and with only a part of it.  `ahead s tokens` stands
for the tokens before the state `s`.
-/

namespace ServerLib.Lib

open List

inductive Step (σ ε α : Type)
  | done (value : α) (s : σ)
  | failed (failure : ε) (s : σ)

namespace Step

variable {σ ε α : Type}

def state : Step σ ε α → σ
  | done _ s => s
  | failed _ s => s

def verdict : Step σ ε α → Except ε α
  | done a _ => .ok a
  | failed e _ => .error e

end Step

def Scan (σ ε α : Type) : Type := σ → Step σ ε α

namespace Scan

variable {σ ε ε' α β : Type}

instance : Monad (Scan σ ε) where
  pure a := fun s => .done a s
  bind m f := fun s =>
    match m s with
    | .done a s => f a s
    | .failed e s => .failed e s

def fail (e : ε) : Scan σ ε α := fun s => .failed e s

/-- The value of a state, which stays as it is. -/
def look (f : σ → α) : Scan σ ε α := fun s => .done (f s) s

def mapFailure (g : ε → ε') (m : Scan σ ε α) : Scan σ ε' α := fun s =>
  match m s with
  | .done a s => .done a s
  | .failed e s => .failed (g e) s

/-- With a failure that asks for more, the state is put back, and the failure is `e₀`. -/
def checkpoint (more : ε → Bool) (e₀ : ε) (m : Scan σ ε α) : Scan σ ε α := fun s =>
  match m s with
  | .done a s' => .done a s'
  | .failed e s' => if more e then .failed e₀ s else .failed e s'

theorem bind_of_done (h : m s = .done a s') (f : α → Scan σ ε β) : (m >>= f) s = f a s' := by
  change (match m s with | .done a s => f a s | .failed e s => .failed e s) = _
  rw [h]

theorem bind_of_failed (h : m s = .failed e s') (f : α → Scan σ ε β) :
    (m >>= f) s = .failed e s' := by
  change (match m s with | .done a s => f a s | .failed e s => .failed e s) = _
  rw [h]

end Scan

/-- A value, or a failure with the part of the text that is then still unread. -/
inductive Outcome (τ ε α : Type)
  | value (value : α)
  | stop (failure : ε) (unread : List τ)

namespace Outcome

variable {τ ε ε' α β : Type}

/-- What is made of a text before `text`, with `f` for `text`. -/
def andThen (out : Outcome τ ε α) (text : List τ) (f : α → Outcome τ ε β) : Outcome τ ε β :=
  match out with
  | value a => f a
  | stop e unread => stop e (unread ++ text)

def map (f : α → β) (out : Outcome τ ε α) : Outcome τ ε β := out.andThen [] fun a => value (f a)

def mapFailure (g : ε → ε') : Outcome τ ε α → Outcome τ ε' α
  | value a => value a
  | stop e unread => stop (g e) unread

def checkpoint (more : ε → Bool) (e₀ : ε) (text : List τ) : Outcome τ ε α → Outcome τ ε α
  | value a => value a
  | stop e unread => if more e then stop e₀ text else stop e unread

theorem andThen_eq_value {out : Outcome τ ε α} {text : List τ} {f : α → Outcome τ ε β} {b : β} :
    out.andThen text f = value b ↔ ∃ a, out = value a ∧ f a = value b := by
  cases out with
  | value a | stop e unread => simp [andThen]

/-- Nothing but a failure in the middle of the text, which is known before the text is complete. -/
def Settled (more : ε → Bool) : Outcome τ ε α → Prop
  | value _ => True
  | stop e unread => unread = [] ∨ more e = true

end Outcome

section Meets

variable {σ τ ε ε' α β : Type} (ahead : σ → List τ → Prop) (more : ε → Bool)

/-- A step ends as `out` says, and `rest` comes after the text. -/
def Step.Ends (step : Step σ ε α) (out : Outcome τ ε α) (rest : List τ) : Prop :=
  match out with
  | .value a => ∃ s, step = .done a s ∧ ahead s rest
  | .stop e unread => ∃ s, step = .failed e s ∧ ahead s (unread ++ rest)

def Step.AsksMore (step : Step σ ε α) : Prop := ∃ e s, step = .failed e s ∧ more e = true

theorem Scan.checkpoint_of_asksMore {m : Scan σ ε α} (h : (m.checkpoint more e₀ s).AsksMore more) :
    m.checkpoint more e₀ s = .failed e₀ s := by
  obtain ⟨e, s', hfailed, hmore⟩ := h
  rw [Scan.checkpoint] at hfailed ⊢
  generalize m s = step at hfailed ⊢
  cases step with
  | done a s => cases hfailed
  | failed e' s' =>
    by_cases hmore' : more e' = true
    · exact if_pos hmore'
    · simp only [if_neg hmore', Step.failed.injEq] at hfailed
      exact absurd (hfailed.1 ▸ hmore) hmore'

/-- With at most `n` tokens there, the scan ends with `text` as `out` says, whatever follows it,
and asks for more with a part of `text`. -/
structure Meets (n : Nat) (m : Scan σ ε α) (text : List τ) (out : Outcome τ ε α) : Prop where
  whole : ∀ {s rest}, ahead s (text ++ rest) → (text ++ rest).length ≤ n →
    (m s).Ends ahead out rest
  early : out.Settled more → ∀ {s front}, ahead s front → front.length ≤ n → front <+: text →
    front ≠ text → (m s).AsksMore more

variable {ahead} {more} {text : List τ}

variable {out : Outcome τ ε α} {f : α → Scan σ ε β}

theorem Meets.mono {k : Nat} (h : Meets ahead more n m text out) (hk : k ≤ n) :
    Meets ahead more k m text out :=
  ⟨fun hs hlength => h.whole hs (hlength.trans hk),
    fun hout _ _ hs hlength => h.early hout hs (hlength.trans hk)⟩

theorem prefix_append_cases {front first second : List τ} (h : front <+: first ++ second)
    (hne : front ≠ first ++ second) :
    (front <+: first ∧ front ≠ first) ∨
      ∃ part, front = first ++ part ∧ part <+: second ∧ part ≠ second := by
  rcases prefix_or_prefix_of_prefix (prefix_append first second) h with hfirst | hpart
  · obtain ⟨part, rfl⟩ := hfirst
    refine .inr ⟨part, rfl, (prefix_append_right_inj first).mp h, ?_⟩
    rintro rfl
    exact hne rfl
  · by_cases heq : front = first
    · subst heq
      refine .inr ⟨[], (append_nil front).symm, nil_prefix, ?_⟩
      rintro rfl
      exact hne (append_nil front).symm
    · exact .inl ⟨hpart, heq⟩

theorem meets_pure (a : α) : Meets ahead more n (pure a) ([] : List τ) (.value a) where
  whole hs _ := ⟨_, rfl, hs⟩
  early _ _ _ _ _ hfront hne := absurd (prefix_nil.mp hfront) hne

theorem meets_fail (e : ε) (text : List τ) :
    Meets ahead more n (Scan.fail e : Scan σ ε α) text (.stop e text) where
  whole hs _ := ⟨_, rfl, hs⟩
  early hout _ _ _ _ hfront hne := by
    rcases hout with rfl | hmore
    · exact absurd (prefix_nil.mp hfront) hne
    · exact ⟨e, _, rfl, hmore⟩

theorem Meets.bind {text' : List τ} {g : α → Outcome τ ε β} (hm : Meets ahead more n m text out)
    (hf : ∀ a, out = .value a → Meets ahead more (n - text.length) (f a) text' (g a)) :
    Meets ahead more n (m >>= f) (text ++ text') (out.andThen text' g) where
  whole {s rest} hs hlength := by
    rw [append_assoc] at hs hlength
    have hfirst := hm.whole hs hlength
    cases out with
    | value a =>
      obtain ⟨s', hdone, hs'⟩ := hfirst
      rw [Scan.bind_of_done hdone]
      rw [length_append] at hlength
      exact (hf a rfl).whole hs' (by omega)
    | stop e unread =>
      obtain ⟨s', hfailed, hs'⟩ := hfirst
      rw [Scan.bind_of_failed hfailed]
      refine ⟨s', rfl, ?_⟩
      rw [append_assoc]
      exact hs'
  early hout s front hs hlength hfront hne := by
    rcases prefix_append_cases hfront hne with ⟨hpart, hpartne⟩ | ⟨part, rfl, hpart, hpartne⟩
    · -- the first scan asks for more
      have hsettled : out.Settled more := by
        cases out with
        | value a => trivial
        | stop e unread => exact hout.imp_left fun h => (append_eq_nil_iff.mp h).1
      obtain ⟨e, s', hfailed, hmore⟩ := hm.early hsettled hs hlength hpart hpartne
      exact ⟨e, s', Scan.bind_of_failed hfailed f, hmore⟩
    · -- the first scan has its whole text
      have hfirst := hm.whole hs hlength
      cases out with
      | value a =>
        obtain ⟨s', hdone, hs'⟩ := hfirst
        rw [Scan.bind_of_done hdone]
        rw [length_append] at hlength
        exact (hf a rfl).early hout hs' (by omega) hpart hpartne
      | stop e unread =>
        obtain ⟨s', hfailed, -⟩ := hfirst
        rcases hout with hnil | hmore
        · obtain ⟨-, rfl⟩ := append_eq_nil_iff.mp hnil
          exact absurd (prefix_nil.mp hpart) hpartne
        · exact ⟨e, s', Scan.bind_of_failed hfailed f, hmore⟩

theorem Meets.bind_value {out : Outcome τ ε β} (hm : Meets ahead more n m text (.value a))
    (hf : Meets ahead more (n - text.length) (f a) text' out) :
    Meets ahead more n (m >>= f) (text ++ text') out :=
  hm.bind (g := fun _ => out) fun b hb => by
    cases hb
    exact hf

theorem Meets.bind_end {out : Outcome τ ε β} (hm : Meets ahead more n m text (.value a))
    (hf : Meets ahead more (n - text.length) (f a) [] out) :
    Meets ahead more n (m >>= f) text out := by
  have h := hm.bind_value hf
  rwa [append_nil] at h

theorem Meets.map_value (hm : Meets ahead more n m text out) (f : α → β) :
    Meets ahead more n (m >>= fun a => pure (f a)) text (out.map f) := by
  have h : Meets ahead more n (m >>= fun a => pure (f a)) (text ++ []) (out.map f) :=
    hm.bind fun a _ => meets_pure (f a)
  rwa [append_nil] at h

theorem look_bind (f : σ → α) (g : α → Scan σ ε β) (s : σ) :
    (Scan.look f >>= g) s = g (f s) s := rfl

theorem Meets.mapFailure {g : ε → ε'} {more' : ε' → Bool} (hg : ∀ e, more' (g e) = more e)
    (hm : Meets ahead more n m text out) :
    Meets ahead more' n (m.mapFailure g) text (out.mapFailure g) where
  whole {s rest} hs hlength := by
    have h := hm.whole hs hlength
    cases out with
    | value a =>
      obtain ⟨s', hdone, hs'⟩ := h
      exact ⟨s', by rw [Scan.mapFailure, hdone], hs'⟩
    | stop e unread =>
      obtain ⟨s', hfailed, hs'⟩ := h
      exact ⟨s', by rw [Scan.mapFailure, hfailed], hs'⟩
  early hout s front hs hlength hfront hne := by
    have hsettled : out.Settled more := by
      cases out with
      | value a => trivial
      | stop e unread => exact hout.imp_right fun h => (hg e).symm.trans h
    obtain ⟨e, s', hfailed, hmore⟩ := hm.early hsettled hs hlength hfront hne
    exact ⟨g e, s', by rw [Scan.mapFailure, hfailed], (hg e).trans hmore⟩

theorem Meets.checkpoint (he₀ : more e₀) (hm : Meets ahead more n m text out) :
    Meets ahead more n (m.checkpoint more e₀) text (out.checkpoint more e₀ text) where
  whole {s rest} hs hlength := by
    have h := hm.whole hs hlength
    cases out with
    | value a =>
      obtain ⟨s', hdone, hs'⟩ := h
      exact ⟨s', by rw [Scan.checkpoint, hdone], hs'⟩
    | stop e unread =>
      obtain ⟨s', hfailed, hs'⟩ := h
      rw [Outcome.checkpoint, Scan.checkpoint, hfailed]
      by_cases hmore : more e
      · simp only [hmore, if_true]
        exact ⟨s, rfl, hs⟩
      · simp only [hmore, Bool.false_eq_true, if_false]
        exact ⟨s', rfl, hs'⟩
  early hout s front hs hlength hfront hne := by
    have hsettled : out.Settled more := by
      cases out with
      | value a => trivial
      | stop e unread =>
        rw [Outcome.checkpoint] at hout
        by_cases hmore : more e
        · exact .inr hmore
        · rw [if_neg hmore] at hout
          exact hout
    obtain ⟨e, s', hfailed, hmore⟩ := hm.early hsettled hs hlength hfront hne
    refine ⟨e₀, s, ?_, he₀⟩
    rw [Scan.checkpoint, hfailed]
    exact if_pos hmore

end Meets

section Agrees

variable {σ₁ σ₂ τ ε ε' α β : Type} (ahead₁ : σ₁ → List τ → Prop) (ahead₂ : σ₂ → List τ → Prop)

/-- Two steps from `tokens` with one result, and with the same tokens left. -/
inductive Step.Agree (tokens : List τ) : Step σ₁ ε α → Step σ₂ ε α → Prop
  | done {a s₁ s₂} (rest : List τ) (hrest : rest <:+ tokens) (h₁ : ahead₁ s₁ rest)
      (h₂ : ahead₂ s₂ rest) : Agree tokens (.done a s₁) (.done a s₂)
  | failed {e s₁ s₂} (rest : List τ) (hrest : rest <:+ tokens) (h₁ : ahead₁ s₁ rest)
      (h₂ : ahead₂ s₂ rest) : Agree tokens (.failed e s₁) (.failed e s₂)

/-- Nothing but the tokens matters to the scans. -/
def Agrees (m₁ : Scan σ₁ ε α) (m₂ : Scan σ₂ ε α) : Prop :=
  ∀ ⦃s₁ s₂ tokens⦄, ahead₁ s₁ tokens → ahead₂ s₂ tokens →
    Step.Agree ahead₁ ahead₂ tokens (m₁ s₁) (m₂ s₂)

variable {ahead₁ ahead₂} {m₂ : Scan σ₂ ε α}

theorem Step.Agree.mono {tokens tokens' : List τ} {step₁ : Step σ₁ ε α} {step₂ : Step σ₂ ε α}
    (h : Step.Agree ahead₁ ahead₂ tokens step₁ step₂) (htokens : tokens <:+ tokens') :
    Step.Agree ahead₁ ahead₂ tokens' step₁ step₂ := by
  cases h with
  | done rest hrest h₁ h₂ => exact .done rest (hrest.trans htokens) h₁ h₂
  | failed rest hrest h₁ h₂ => exact .failed rest (hrest.trans htokens) h₁ h₂

theorem agrees_pure (a : α) : Agrees ahead₁ ahead₂ (pure a : Scan σ₁ ε α) (pure a : Scan σ₂ ε α) :=
  fun _ _ _ h₁ h₂ => .done _ suffix_rfl h₁ h₂

theorem agrees_fail (e : ε) :
    Agrees ahead₁ ahead₂ (Scan.fail e : Scan σ₁ ε α) (Scan.fail e : Scan σ₂ ε α) :=
  fun _ _ _ h₁ h₂ => .failed _ suffix_rfl h₁ h₂

theorem agrees_look (hf : ∀ {s₁ s₂ tokens}, ahead₁ s₁ tokens → ahead₂ s₂ tokens → f₁ s₁ = f₂ s₂) :
    Agrees ahead₁ ahead₂ (Scan.look f₁ : Scan σ₁ ε α) (Scan.look f₂ : Scan σ₂ ε α) := by
  intro s₁ s₂ tokens h₁ h₂
  rw [Scan.look, Scan.look, hf h₁ h₂]
  exact .done tokens suffix_rfl h₁ h₂

theorem Agrees.bind {f₁ : α → Scan σ₁ ε β} {f₂ : α → Scan σ₂ ε β}
    (hm : Agrees ahead₁ ahead₂ m₁ m₂) (hf : ∀ a, Agrees ahead₁ ahead₂ (f₁ a) (f₂ a)) :
    Agrees ahead₁ ahead₂ (m₁ >>= f₁) (m₂ >>= f₂) := by
  intro s₁ s₂ tokens h₁ h₂
  have hfirst := hm h₁ h₂
  generalize hstep₁ : m₁ s₁ = step₁ at hfirst
  generalize hstep₂ : m₂ s₂ = step₂ at hfirst
  cases hfirst with
  | @done a s₁' s₂' rest hrest h₁' h₂' =>
    rw [Scan.bind_of_done hstep₁, Scan.bind_of_done hstep₂]
    exact (hf a h₁' h₂').mono hrest
  | failed rest hrest h₁' h₂' =>
    rw [Scan.bind_of_failed hstep₁, Scan.bind_of_failed hstep₂]
    exact .failed rest hrest h₁' h₂'

theorem Agrees.mapFailure (g : ε → ε') (hm : Agrees ahead₁ ahead₂ m₁ m₂) :
    Agrees ahead₁ ahead₂ (m₁.mapFailure g) (m₂.mapFailure g) := by
  intro s₁ s₂ tokens h₁ h₂
  have h := hm h₁ h₂
  rw [Scan.mapFailure, Scan.mapFailure]
  generalize m₁ s₁ = step₁ at h
  generalize m₂ s₂ = step₂ at h
  cases h with
  | done rest hrest h₁' h₂' => exact .done rest hrest h₁' h₂'
  | failed rest hrest h₁' h₂' => exact .failed rest hrest h₁' h₂'

theorem Agrees.checkpoint (more : ε → Bool) (e₀ : ε) (hm : Agrees ahead₁ ahead₂ m₁ m₂) :
    Agrees ahead₁ ahead₂ (m₁.checkpoint more e₀) (m₂.checkpoint more e₀) := by
  intro s₁ s₂ tokens h₁ h₂
  have h := hm h₁ h₂
  rw [Scan.checkpoint, Scan.checkpoint]
  generalize m₁ s₁ = step₁ at h
  generalize m₂ s₂ = step₂ at h
  cases h with
  | done rest hrest h₁' h₂' => exact .done rest hrest h₁' h₂'
  | @failed e s₁' s₂' rest hrest h₁' h₂' =>
    by_cases hmore : more e
    · simp only [hmore, if_true]
      exact .failed tokens suffix_rfl h₁ h₂
    · simp only [hmore, Bool.false_eq_true, if_false]
      exact .failed rest hrest h₁' h₂'

end Agrees

end ServerLib.Lib

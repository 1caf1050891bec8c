import Mathlib

/-! A run folds a step function over its calls. Invariants pass from steps to runs, also
when every step of the run is known to meet a condition on its own state and call. -/
namespace Memora.RunLaws

variable {σ α : Type*} {step : σ → α → σ} {P : σ → Prop} {R : σ → σ → Prop} {s : σ}

lemma foldl_invariant (hstep : ∀ s a, P s → P (step s a)) (h : P s) (calls : List α) :
    P (calls.foldl step s) := by
  induction calls generalizing s with
  | nil => exact h
  | cons a calls ih => exact ih (hstep s a h)

def Along (step : σ → α → σ) (good : σ → α → Prop) : σ → List α → Prop
  | _, [] => True
  | s, a::calls => good s a ∧ Along step good (step s a) calls

variable {good : σ → α → Prop} {calls : List α} {good' : σ → α → Prop}

instance decidableAlong [∀ s a, Decidable (good s a)] :
    (s : σ) → (calls : List α) → Decidable (Along step good s calls)
  | _, [] => isTrue trivial
  | s, a::calls =>
    have := decidableAlong (step s a) calls
    inferInstanceAs (Decidable (good s a ∧ Along step good (step s a) calls))

lemma along_invariant (hstep : ∀ s a, good s a → P s → P (step s a)) (h : P s)
    (hg : Along step good s calls) : P (calls.foldl step s) := by
  induction calls generalizing s with
  | nil => exact h
  | cons a calls ih => exact ih (hstep s a hg.1 h) hg.2

lemma along_of_mem (h : ∀ s, ∀ a ∈ calls, good s a) (s : σ) :
    Along step good s calls := by
  induction calls generalizing s with
  | nil => trivial
  | cons a calls ih => exact ⟨h s a (by simp),ih (fun s b hb => h s b (by simp [hb])) _⟩

theorem along_imp (hstep : ∀ s a, good s a → P s → P (step s a))
    (himp : ∀ s a, good s a → P s → good' s a) (h : P s)
    (hg : Along step good s calls) : Along step good' s calls := by
  induction calls generalizing s with
  | nil => trivial
  | cons a calls ih => exact ⟨himp s a hg.1 h,ih (hstep s a hg.1 h) hg.2⟩

lemma along_and (h : Along step good s calls) (h' : Along step good' s calls) :
    Along step (fun s a => good s a ∧ good' s a) s calls := by
  induction calls generalizing s with
  | nil => trivial
  | cons a calls ih => exact ⟨⟨h.1,h'.1⟩,ih h.2 h'.2⟩

lemma along_append {c₁ c₂ : List α} :
    Along step good s (c₁++c₂) ↔ Along step good s c₁ ∧ Along step good (c₁.foldl step s) c₂ := by
  induction c₁ generalizing s with
  | nil => simp [Along]
  | cons a c₁ ih => simp [Along,ih,and_assoc]

theorem foldl_relation (hrefl : ∀ s, R s s) (htrans : ∀ {a b c}, R a b → R b c → R a c)
    (hinv : ∀ s a, P s → P (step s a)) (hstep : ∀ s a, P s → R s (step s a)) (h : P s)
    (calls : List α) : R s (calls.foldl step s) := by
  induction calls generalizing s with
  | nil => exact hrefl s
  | cons a calls ih => exact htrans (hstep s a h) (ih (hinv s a h))

theorem foldlM_invariant {f : σ → α → Option σ} {s s' : σ} {items : List α}
    (hstep : ∀ s, ∀ a ∈ items, ∀ s', f s a = some s' → P s → P s') (h : P s)
    (hf : items.foldlM f s = some s') : P s' := by
  induction items generalizing s with
  | nil =>
    obtain rfl : s = s' := by simpa using hf
    exact h
  | cons a items ih =>
    obtain ⟨m,hm,hf⟩ := Option.bind_eq_some_iff.mp hf
    exact ih (fun s b hb => hstep s b (by simp [hb])) (hstep s a (by simp) m hm h) hf

end Memora.RunLaws

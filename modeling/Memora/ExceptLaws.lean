import Mathlib

/-! What a successful computation went through: both halves of a bind, every item of a loop. -/
namespace Memora.ExceptLaws

variable {ε α β σ : Type}

variable {f : α → Except ε β}

lemma bind_ok {x : Except ε α} {b : β} (h : (x >>= f) = .ok b) :
    ∃ a, x = .ok a ∧ f a = .ok b := by
  cases x with
  | error e => exact absurd h (by simp [bind,Except.bind])
  | ok a => exact ⟨a,rfl,h⟩

variable {items : List α} {P : σ → Prop}

theorem foldlM_invariant {f : σ → α → Except ε σ} {s s' : σ}
    (hstep : ∀ s, ∀ a ∈ items, ∀ s', f s a = .ok s' → P s → P s') (h : P s)
    (hf : items.foldlM f s = .ok s') : P s' := by
  induction items generalizing s with
  | nil =>
    obtain rfl : s = s' := Except.ok.inj hf
    exact h
  | cons a items ih =>
    obtain ⟨s₁,h₁,hrest⟩ := bind_ok hf
    exact ih (fun s b hb => hstep s b (List.mem_cons_of_mem _ hb)) (hstep s a (by simp) s₁ h₁ h) hrest

lemma forM_ok {f : α → Except ε Unit} (h : items.forM f = .ok ()) :
    ∀ a ∈ items, f a = .ok () := by
  induction items with
  | nil => simp
  | cons a items ih =>
    obtain ⟨_,h₁,hrest⟩ := bind_ok h
    intro b hb
    rcases List.mem_cons.mp hb with rfl | hb
    · exact h₁
    · exact ih hrest b hb

theorem foldlM_total {f : σ → α → Except ε σ}
    (hstep : ∀ s, ∀ a ∈ items, P s → ∃ s', f s a = .ok s' ∧ P s') {s : σ} (h : P s) :
    ∃ s', items.foldlM f s = .ok s' ∧ P s' := by
  induction items generalizing s with
  | nil => exact ⟨s,rfl,h⟩
  | cons a items ih =>
    obtain ⟨s₁,h₁,hs₁⟩ := hstep s a (by simp) h
    obtain ⟨s',hs',h'⟩ := ih (fun s b hb => hstep s b (List.mem_cons_of_mem _ hb)) hs₁
    exact ⟨s',by rw [List.foldlM_cons,h₁]; exact hs',h'⟩

lemma foldlM_congr {f g : σ → α → Except ε σ} (h : ∀ s, ∀ a ∈ items, f s a = g s a) (s : σ) :
    items.foldlM f s = items.foldlM g s := by
  induction items generalizing s with
  | nil => rfl
  | cons a items ih =>
    rw [List.foldlM_cons,List.foldlM_cons,h s a (by simp)]
    congr 1
    funext s₁
    exact ih (fun s b hb => h s b (List.mem_cons_of_mem _ hb)) s₁

lemma forM_of_ok {f : α → Except ε Unit} (h : ∀ a ∈ items, f a = .ok ()) :
    items.forM f = .ok () := by
  induction items with
  | nil => rfl
  | cons a items ih =>
    have hrest := ih fun b hb => h b (List.mem_cons_of_mem _ hb)
    change (f a >>= fun _ => items.forM f) = .ok ()
    rw [h a (by simp)]
    exact hrest

lemma mapM_ok {results : List β} (h : items.mapM f = .ok results) :
    ∀ b ∈ results, ∃ a ∈ items, f a = .ok b := by
  induction items generalizing results with
  | nil =>
    obtain rfl : [] = results := Except.ok.inj h
    simp
  | cons a items ih =>
    rw [List.mapM_cons] at h
    obtain ⟨b,hb,h⟩ := bind_ok h
    obtain ⟨rest,hrest,h⟩ := bind_ok h
    cases h
    intro b' hb'
    rcases List.mem_cons.mp hb' with rfl | hb'
    · exact ⟨a,List.mem_cons_self,hb⟩
    · obtain ⟨a',ha',h'⟩ := ih hrest b' hb'
      exact ⟨a',List.mem_cons_of_mem a ha',h'⟩

lemma mapM_map_ok {g : β → α} {items : List β} (h : ∀ b ∈ items, f (g b) = .ok b) :
    (items.map g).mapM f = .ok items := by
  induction items with
  | nil => rfl
  | cons b items ih =>
    rw [List.map_cons,List.mapM_cons,h b List.mem_cons_self, ih fun b' hb' => h b' (List.mem_cons_of_mem b hb')]
    rfl

lemma map_ok_injective {f : α → β} (hf : ∀ a b, f a = f b → a = b) {x y : Except ε α}
    (h : x.map f = y.map f) : x = y := by
  cases x with
  | error e =>
    cases y with
    | error e' => exact congrArg Except.error (Except.error.inj h)
    | ok b => cases h
  | ok a =>
    cases y with
    | error e => cases h
    | ok b => exact congrArg Except.ok (hf a b (Except.ok.inj h))

end Memora.ExceptLaws

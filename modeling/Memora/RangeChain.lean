import Mathlib

/-! A list of ranges tiles `[a, b)` when each starts where the one before it ends. -/
namespace Memora.RangeChain

variable {α : Type*} [LinearOrder α]

def Tiles : α → List (α × α) → α → Prop
  | a, [], b => a = b
  | a, r::rs, b => r.1 = a ∧ r.1 < r.2 ∧ Tiles r.2 rs b

variable {a b c x : α} {l l₁ l₂ : List (α × α)} {r t : α × α}

@[simp] lemma tiles_nil : Tiles a [] b ↔ a = b := Iff.rfl

@[simp] lemma tiles_cons : Tiles a (r::l) b ↔ r.1 = a ∧ r.1 < r.2 ∧ Tiles r.2 l b := Iff.rfl

lemma tiles_append : Tiles a (l₁++l₂) c ↔ ∃ b, Tiles a l₁ b ∧ Tiles b l₂ c := by
  induction l₁ generalizing a with
  | nil => simp
  | cons r l ih =>
    simp only [List.cons_append,tiles_cons,ih]
    constructor
    · rintro ⟨h1,h2,b,h3,h4⟩
      exact ⟨b,⟨h1,h2,h3⟩,h4⟩
    · rintro ⟨b,⟨h1,h2,h3⟩,h4⟩
      exact ⟨h1,h2,b,h3,h4⟩

lemma Tiles.le (h : Tiles a l b) : a ≤ b := by
  induction l generalizing a with
  | nil => exact le_of_eq h
  | cons r l ih =>
    obtain ⟨rfl,hlt,h⟩ := h
    exact hlt.le.trans (ih h)

lemma Tiles.bounds (h : Tiles a l b) (hr : r ∈ l) : a ≤ r.1 ∧ r.1 < r.2 ∧ r.2 ≤ b := by
  induction l generalizing a with
  | nil => simp at hr
  | cons t l ih =>
    obtain ⟨rfl,hlt,h⟩ := h
    rcases List.mem_cons.mp hr with rfl | hr
    · exact ⟨le_rfl,hlt,h.le⟩
    · obtain ⟨h1,h2,h3⟩ := ih h hr
      exact ⟨hlt.le.trans h1,h2,h3⟩

theorem Tiles.pairwise (h : Tiles a l b) : l.Pairwise fun r t => r.2 ≤ t.1 := by
  induction l generalizing a with
  | nil => exact List.Pairwise.nil
  | cons r l ih =>
    obtain ⟨rfl,_,h⟩ := h
    exact List.Pairwise.cons (fun t ht => (h.bounds ht).1) (ih h)

theorem Tiles.cover (h : Tiles a l b) (ha : a ≤ x) (hb : x < b) : ∃ r ∈ l, r.1 ≤ x ∧ x < r.2 := by
  induction l generalizing a with
  | nil =>
    obtain rfl : a = b := h
    exact absurd hb (not_lt.mpr ha)
  | cons r l ih =>
    obtain ⟨rfl,_,h⟩ := h
    by_cases hx : x < r.2
    · exact ⟨r,by simp,ha,hx⟩
    · obtain ⟨t,ht,h1,h2⟩ := ih h (not_lt.mp hx)
      exact ⟨t,by simp [ht],h1,h2⟩

theorem Tiles.split (h : Tiles a l b) (hc : c = a ∨ ∃ r ∈ l, r.2 = c) :
    ∃ l₁ l₂, l = l₁++l₂ ∧ Tiles a l₁ c ∧ Tiles c l₂ b := by
  rcases hc with rfl | ⟨r,hr,rfl⟩
  · exact ⟨[],l,rfl,rfl,h⟩
  · obtain ⟨l₁,l₂,rfl⟩ := List.append_of_mem hr
    rw [List.append_cons,tiles_append] at h
    obtain ⟨m,h1,h2⟩ := h
    obtain ⟨n,_,h3⟩ := tiles_append.mp h1
    obtain rfl : r.2 = m := by simpa using h3.2.2
    exact ⟨l₁++[r],l₂,by simp,h1,h2⟩

lemma Tiles.end_mem (h : Tiles a l b) : b = a ∨ ∃ r ∈ l, r.2 = b := by
  induction l generalizing a with
  | nil => exact .inl (Eq.symm h)
  | cons r l ih =>
    obtain ⟨rfl,_,h⟩ := h
    right
    rcases ih h with rfl | ⟨t,ht,rfl⟩
    · exact ⟨r,by simp,rfl⟩
    · exact ⟨t,by simp [ht],rfl⟩

theorem Tiles.boundary_outside (h : Tiles a l b) (hc : c = a ∨ ∃ r ∈ l, r.2 = c) (ht : t ∈ l) :
    c ≤ t.1 ∨ t.2 ≤ c := by
  obtain ⟨l₁,l₂,rfl,h₁,h₂⟩ := h.split hc
  rcases List.mem_append.mp ht with ht | ht
  · exact .inr (h₁.bounds ht).2.2
  · exact .inl (h₂.bounds ht).1

theorem eq_or_apart {β : Type*} {f : β → α × α} {js : List β}
    (h : (js.map f).Pairwise fun r t => r.2 ≤ t.1) {r t : β} (hr : r ∈ js) (ht : t ∈ js) :
    r = t ∨ (f r).2 ≤ (f t).1 ∨ (f t).2 ≤ (f r).1 := by
  by_cases hne : r = t
  · exact .inl hne
  · have hsym : Std.Symm fun r t : β => (f r).2 ≤ (f t).1 ∨ (f t).2 ≤ (f r).1 := ⟨fun _ _ => Or.symm⟩
    have hp : js.Pairwise fun r t => (f r).2 ≤ (f t).1 ∨ (f t).2 ≤ (f r).1 :=
      (List.pairwise_map.mp h).imp Or.inl
    exact .inr (hp.forall hr ht hne)

theorem Tiles.mem_of_meets {β : Type*} {f : β → α × α} {path js : List β}
    (h : Tiles a (path.map f) b) (hsub : ∀ t ∈ path, t ∈ js)
    (hd : (js.map f).Pairwise fun r t => r.2 ≤ t.1) {r : β} (hr : r ∈ js)
    (hlt : (f r).1 < (f r).2) (h1 : (f r).1 < b) (h2 : a < (f r).2) (hab : a < b) : r ∈ path := by
  obtain ⟨q,hq,h3,h4⟩ := h.cover (x := max a (f r).1) (le_max_left _ _) (max_lt hab h1)
  obtain ⟨t,ht,rfl⟩ := List.mem_map.mp hq
  have hlow : (f t).1 < (f r).2 := h3.trans_lt (max_lt h2 hlt)
  have hhigh : (f r).1 < (f t).2 := (le_max_right _ _).trans_lt h4
  rcases eq_or_apart hd hr (hsub t ht) with rfl | h | h
  · exact ht
  · exact absurd hlow (not_lt.mpr h)
  · exact absurd hhigh (not_lt.mpr h)

end Memora.RangeChain

import Mathlib

/-! A cursor remembers who was served last. Next comes the first one waiting behind the cursor, or
the first one of all where nobody waits behind it. Whoever keeps waiting is then served before
anybody is served twice. -/
namespace Memora.Rotations

variable {σ : Type*} [LinearOrder σ] {waiting : σ → Prop} {c x y z : σ}

structure Serves (waiting : σ → Prop) (c z : σ) : Prop where
  front : ∀ y, waiting y → c < y → c < z ∧ z ≤ y
  wrapped : z ≤ c → ∀ y, waiting y → z ≤ y

/-- On the way from `x` around to `y`, the cursor has not reached `y`. -/
def Ahead (x y c : σ) : Prop := if x < y then x ≤ c ∧ c < y else x ≤ c ∨ c < y

lemma ahead_self : Ahead x y x := by
  unfold Ahead
  split
  · rename_i h
    exact ⟨le_rfl,h⟩
  · exact .inl le_rfl

/-- While `y` waits and is not served, the cursor stays ahead of it and does not come back to
where it started. -/
theorem Serves.ahead (h : Serves waiting c z) (hy : waiting y) (hzy : z ≠ y) (hc : Ahead x y c) :
    Ahead x y z ∧ z ≠ x := by
  unfold Ahead at hc ⊢
  by_cases hxy : x < y
  · rw [if_pos hxy] at hc ⊢
    obtain ⟨hcz,hle⟩ := h.front y hy hc.2
    have hxz : x < z := hc.1.trans_lt hcz
    exact ⟨⟨hxz.le,lt_of_le_of_ne hle hzy⟩,hxz.ne'⟩
  · rw [if_neg hxy] at hc ⊢
    rcases hc with hxc | hcy
    · by_cases hcz : c < z
      · have hxz : x < z := hxc.trans_lt hcz
        exact ⟨.inl hxz.le,hxz.ne'⟩
      · have hzlt : z < y := lt_of_le_of_ne (h.wrapped (not_lt.mp hcz) y hy) hzy
        exact ⟨.inr hzlt,(hzlt.trans_le (not_lt.mp hxy)).ne⟩
    · obtain ⟨-,hle⟩ := h.front y hy hcy
      have hzlt : z < y := lt_of_le_of_ne hle hzy
      exact ⟨.inr hzlt,(hzlt.trans_le (not_lt.mp hxy)).ne⟩

end Memora.Rotations

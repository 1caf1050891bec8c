import Mathlib

/-! When two parts joined by a symbol that may also occur inside them are the same text. -/
namespace Memora.JoinedPairs

variable {α : Type*} {sep : α} {a b c d : List α}

/-- The first part of the one pair reaches into the second part of the other. -/
def Shadows (sep : α) (a b c d : List α) : Prop := ∃ rest, c = a++sep::rest ∧ b = rest++sep::d

/-- Two joined pairs are equal when the pairs are, or when one of them shadows the other. -/
theorem join_eq_join_iff :
    a++sep::b = c++sep::d ↔ (a = c ∧ b = d) ∨ Shadows sep a b c d ∨ Shadows sep c d a b := by
  constructor
  · intro h
    rcases List.append_eq_append_iff.mp h with ⟨mid,hc,hb⟩ | ⟨mid,ha,hd⟩
    · cases mid with
      | nil =>
        simp only [List.append_nil,List.nil_append,List.cons.injEq,true_and] at hc hb
        exact .inl ⟨hc.symm,hb⟩
      | cons x rest =>
        simp only [List.cons_append,List.cons.injEq] at hb
        obtain ⟨rfl,hb⟩ := hb
        exact .inr (.inl ⟨rest,hc,hb⟩)
    · cases mid with
      | nil =>
        simp only [List.append_nil,List.nil_append,List.cons.injEq,true_and] at ha hd
        exact .inl ⟨ha,hd.symm⟩
      | cons x rest =>
        simp only [List.cons_append,List.cons.injEq] at hd
        obtain ⟨rfl,hd⟩ := hd
        exact .inr (.inr ⟨rest,ha,hd⟩)
  · rintro (⟨rfl,rfl⟩ | ⟨rest,rfl,rfl⟩ | ⟨rest,rfl,rfl⟩)
    · rfl
    · simp
    · simp

lemma Shadows.ne (h : Shadows sep a b c d) : a ≠ c := by
  obtain ⟨rest,rfl,-⟩ := h
  intro heq
  have := congrArg List.length heq
  simp at this

/-- A first part without the separator is found again, whatever the second part is. -/
theorem span_join [DecidableEq α] (h : sep ∉ a) (b : List α) :
    (a++sep::b).span (· ≠ sep) = (a,sep::b) := by
  rw [List.span_eq_takeWhile_dropWhile]
  have hall : ∀ x ∈ a, decide (x ≠ sep) = true := by
    intro x hx
    simp only [ne_eq,decide_eq_true_eq]
    rintro rfl
    exact h hx
  rw [List.takeWhile_append_of_pos hall,List.dropWhile_append_of_pos hall]
  simp

end Memora.JoinedPairs

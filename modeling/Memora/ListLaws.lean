import Mathlib

/-! Lists that are cut into slices, and lists that are related item by item. -/
namespace Memora.ListLaws

variable {α β : Type*} {R : α → β → Prop} {l : List α} {l' : List β}

lemma flatten_slices {size k : ℕ} (h : l.length ≤ size * k) :
    ((List.range k).map fun i => (l.drop (size * i)).take size).flatten = l := by
  have hslices : ∀ k, ((List.range k).map fun i => (l.drop (size * i)).take size).flatten =
      l.take (size * k) := by
    intro k
    induction k with
    | zero => simp
    | succ k ih =>
      rw [List.range_succ,List.map_append,List.flatten_append,ih,Nat.mul_succ,List.take_add,
        List.map_singleton,List.flatten_singleton]
  rw [hslices,List.take_of_length_le h]

lemma forall₂_left (h : List.Forall₂ R l l') {a : α} (ha : a ∈ l) : ∃ b ∈ l', R a b := by
  induction h with
  | nil => cases ha
  | cons hab _ ih =>
    rcases List.mem_cons.mp ha with rfl | ha
    · exact ⟨_,List.mem_cons_self,hab⟩
    · obtain ⟨b,hb,hrel⟩ := ih ha
      exact ⟨b,List.mem_cons_of_mem _ hb,hrel⟩

lemma forall₂_right (h : List.Forall₂ R l l') {b : β} (hb : b ∈ l') : ∃ a ∈ l, R a b :=
  forall₂_left (R := flip R) h.flip hb

end Memora.ListLaws

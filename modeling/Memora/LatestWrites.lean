import Mathlib

/-! A register holds a value with the time of its write. Writes at distinct times leave the same
value in whatever order they come. -/
namespace Memora.LatestWrites

variable {τ β : Type*} [LinearOrder τ] {ws zs : List (τ × β)} {held other : Option (τ × β)}

def keep (held : Option (τ × β)) (w : τ × β) : Option (τ × β) :=
  match held with
  | none => some w
  | some h => if h.1 ≤ w.1 then some w else some h

structure Latest (ws : List (τ × β)) (held : Option (τ × β)) : Prop where
  empty : held = none → ws = []
  mem : ∀ h ∈ held, h ∈ ws
  newest : ∀ h ∈ held, ∀ w ∈ ws, w.1 ≤ h.1

lemma latest_nil : Latest ([] : List (τ × β)) none := ⟨fun _ => rfl,by simp,by simp⟩

lemma Latest.keep (h : Latest ws held) (w : τ × β) : Latest (ws++[w]) (keep held w) := by
  cases held with
  | none =>
    rw [h.empty rfl]
    exact ⟨by simp [LatestWrites.keep],by simp [LatestWrites.keep],by simp [LatestWrites.keep]⟩
  | some k =>
    by_cases hle : k.1 ≤ w.1
    · rw [LatestWrites.keep,if_pos hle]
      refine ⟨nofun,by simp,?_⟩
      rintro _ ⟨⟩ v hv
      rcases List.mem_append.mp hv with hv | hv
      · exact (h.newest k rfl v hv).trans hle
      · rw [List.mem_singleton.mp hv]
    · rw [LatestWrites.keep,if_neg hle]
      refine ⟨nofun,?_,?_⟩
      · rintro _ ⟨⟩
        exact List.mem_append_left _ (h.mem k rfl)
      · rintro _ ⟨⟩ v hv
        rcases List.mem_append.mp hv with hv | hv
        · exact h.newest k rfl v hv
        · rw [List.mem_singleton.mp hv]
          exact (not_le.mp hle).le

lemma Latest.unique (h : Latest ws held) (h' : Latest zs other) (hmem : ∀ w, w ∈ ws ↔ w ∈ zs)
    (hdistinct : ∀ w ∈ ws, ∀ v ∈ ws, w.1 = v.1 → w = v) : held = other := by
  cases held with
  | none =>
    cases other with
    | none => rfl
    | some k =>
      have hk := (hmem k).mpr (h'.mem k rfl)
      rw [h.empty rfl] at hk
      cases hk
  | some k =>
    cases other with
    | none =>
      have hk := (hmem k).mp (h.mem k rfl)
      rw [h'.empty rfl] at hk
      cases hk
    | some l =>
      have hl := (hmem l).mpr (h'.mem l rfl)
      have hk := h.mem k rfl
      have htime : k.1 = l.1 := le_antisymm (h'.newest l rfl k ((hmem k).mp hk)) (h.newest k rfl l hl)
      rw [hdistinct k hk l hl htime]

end Memora.LatestWrites

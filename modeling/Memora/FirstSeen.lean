import Mathlib

/-! `firstSeen key` keeps the first item of each key. `keepLast n` keeps the newest entries of a
history; an entry with fewer than `n` newer ones is among them. -/
namespace Memora.FirstSeen

variable {α κ : Type*}

section FirstSeen

variable [DecidableEq κ] {key : α → κ} {seen : List κ} {l r : List α}

def firstSeen (key : α → κ) : List κ → List α → List α
  | _, [] => []
  | seen, a::l =>
    if key a ∈ seen then firstSeen key seen l else a::firstSeen key (key a::seen) l

lemma firstSeen_sublist : (firstSeen key seen l).Sublist l := by
  induction l generalizing seen with
  | nil => exact List.Sublist.slnil
  | cons a l ih =>
    rw [firstSeen]
    by_cases ha : key a ∈ seen
    · rw [if_pos ha]
      exact ih.cons a
    · rw [if_neg ha]
      exact ih.cons_cons a

lemma firstSeen_distinct (seen : List κ) (l : List α) :
    ((firstSeen key seen l).map key).Nodup ∧ ∀ a ∈ firstSeen key seen l, key a ∉ seen := by
  induction l generalizing seen with
  | nil => exact ⟨List.nodup_nil,by simp [firstSeen]⟩
  | cons a l ih =>
    rw [firstSeen]
    by_cases ha : key a ∈ seen
    · rw [if_pos ha]
      exact ih seen
    · obtain ⟨hnodup,hout⟩ := ih (key a::seen)
      rw [if_neg ha,List.map_cons,List.nodup_cons]
      refine ⟨⟨?_,hnodup⟩,?_⟩
      · intro hmem
        obtain ⟨b,hb,hkey⟩ := List.mem_map.mp hmem
        exact hout b hb (by simp [hkey])
      · intro b hb
        rcases List.mem_cons.mp hb with rfl | hb
        · exact ha
        · exact fun hmem => hout b hb (List.mem_cons_of_mem _ hmem)

lemma firstSeen_of_distinct (h : (l.map key).Nodup) (hout : ∀ a ∈ l, key a ∉ seen) :
    firstSeen key seen l = l := by
  induction l generalizing seen with
  | nil => rfl
  | cons a l ih =>
    rw [List.map_cons,List.nodup_cons] at h
    rw [firstSeen,if_neg (hout a (by simp)),ih h.2]
    intro b hb hmem
    rcases List.mem_cons.mp hmem with heq | hmem
    · exact h.1 (List.mem_map.mpr ⟨b,hb,heq⟩)
    · exact hout b (by simp [hb]) hmem

theorem firstSeen_append (key : α → κ) (seen : List κ) (l r : List α) :
    ∃ later, firstSeen key seen (l++r) = firstSeen key seen l++later ∧ later.Sublist r := by
  induction l generalizing seen with
  | nil => exact ⟨firstSeen key seen r,rfl,firstSeen_sublist⟩
  | cons a l ih =>
    rw [List.cons_append,firstSeen,firstSeen]
    by_cases ha : key a ∈ seen
    · rw [if_pos ha,if_pos ha]
      exact ih seen
    · rw [if_neg ha,if_neg ha]
      obtain ⟨later,heq,hsub⟩ := ih (key a::seen)
      exact ⟨later,by rw [heq,List.cons_append],hsub⟩

end FirstSeen

def keepLast (n : ℕ) (l : List α) : List α := l.drop (l.length - n)

/-- The entry is in the history, and at most `d` entries are newer. -/
def Recent (a : α) (d : ℕ) (l : List α) : Prop :=
  ∃ older newer, l = older++a::newer ∧ newer.length ≤ d

variable {a b : α} {d n : ℕ} {l : List α}

lemma Recent.mem (h : Recent a d l) : a ∈ l := by
  obtain ⟨older,newer,rfl,-⟩ := h
  simp

lemma recent_newest (l : List α) (a : α) : Recent a 0 (l++[a]) :=
  ⟨l,[],rfl,le_rfl⟩

lemma Recent.mono (h : Recent a d l) {e : ℕ} (hle : d ≤ e) : Recent a e l := by
  obtain ⟨older,newer,heq,hlength⟩ := h
  exact ⟨older,newer,heq,hlength.trans hle⟩

lemma Recent.append (h : Recent a d l) (b : α) : Recent a (d+1) (l++[b]) := by
  obtain ⟨older,newer,rfl,hlength⟩ := h
  refine ⟨older,newer++[b],by simp,?_⟩
  rw [List.length_append,List.length_singleton]
  omega

lemma Recent.filter (h : Recent a d l) {p : α → Bool} (ha : p a = true) :
    Recent a d (l.filter p) := by
  obtain ⟨older,newer,rfl,hlength⟩ := h
  refine ⟨older.filter p,newer.filter p,?_,?_⟩
  · rw [List.filter_append,List.filter_cons_of_pos ha]
  · exact (List.length_filter_le p newer).trans hlength

lemma Recent.keepLast (h : Recent a d l) (hlt : d < n) : Recent a d (FirstSeen.keepLast n l) := by
  obtain ⟨older,newer,rfl,hlength⟩ := h
  have hdrop : (older++a::newer).length - n ≤ older.length := by
    rw [List.length_append,List.length_cons]
    omega
  refine ⟨older.drop ((older++a::newer).length - n),newer,?_,hlength⟩
  rw [FirstSeen.keepLast,List.drop_append_of_le_length hdrop]

end Memora.FirstSeen

import Mathlib

/-! Cutting a text at white space and joining the words by one separator. A part of a text that is
set apart by a visible symbol keeps its words, up to what is glued to the first and the last. -/
namespace Memora.TextWords

variable {α : Type*}

def flush : List α → List (List α)
  | [] => []
  | c::word => [c::word]

section
variable (space : α → Bool)

/-- The scan behind `words`; the first list is the word that is open. -/
def wordsFrom (word : List α) : List α → List (List α)
  | [] => flush word
  | c::s => if space c then flush word++wordsFrom [] s else wordsFrom (word++[c]) s

/-- `str.split`. -/
def words (s : List α) : List (List α) := wordsFrom space [] s

/-- `sep.join(text.split())`. -/
def collapse (sep : α) (s : List α) : List α := List.intercalate [sep] (words space s)

def openWord (word : List α) : List α → List α
  | [] => word
  | c::s => if space c then openWord [] s else openWord (word++[c]) s

def closedWords (word : List α) : List α → List (List α)
  | [] => []
  | c::s => if space c then flush word++closedWords [] s else closedWords (word++[c]) s

end

variable {space : α → Bool} {front : List α}

@[simp] lemma flush_nil : flush ([] : List α) = [] := rfl

lemma flush_of_ne {word : List α} (h : word ≠ []) : flush word = [word] := by
  cases word with
  | nil => exact absurd rfl h
  | cons c word => rfl

lemma wordsFrom_append (word x y : List α) : wordsFrom space word (x++y) =
      closedWords space word x++wordsFrom space (openWord space word x) y := by
  induction x generalizing word with
  | nil => rfl
  | cons c x ih =>
    rw [List.cons_append,wordsFrom,closedWords,openWord]
    by_cases hc : space c
    · simp only [if_pos hc,ih,List.append_assoc]
    · simp only [if_neg hc,ih]

lemma wordsFrom_eq (word x : List α) :
    wordsFrom space word x = closedWords space word x++flush (openWord space word x) := by
  have h : wordsFrom space word (x++[]) =
      closedWords space word x++wordsFrom space (openWord space word x) [] :=
    wordsFrom_append word x []
  rwa [List.append_nil] at h

lemma wordsFrom_glue (hfront : front ≠ []) (word y : List α) :
    ∃ first rest, wordsFrom space (front++word) y = (front++first)::rest ∧
      wordsFrom space word y = flush first++rest := by
  induction y generalizing word with
  | nil => exact ⟨word,[],flush_of_ne (by simp [hfront]),(List.append_nil _).symm⟩
  | cons c y ih =>
    rw [wordsFrom,wordsFrom]
    by_cases hc : space c
    · simp only [if_pos hc]
      refine ⟨word,wordsFrom space [] y,?_,rfl⟩
      rw [flush_of_ne (by simp [hfront])]
      rfl
    · simp only [if_neg hc]
      rw [List.append_assoc]
      exact ih (word++[c])

lemma ne_nil_of_mem_wordsFrom {word s w : List α} (h : w ∈ wordsFrom space word s) : w ≠ [] := by
  have hflush : ∀ v : List α, w ∈ flush v → w ≠ [] := by
    intro v hw
    cases v with
    | nil => cases hw
    | cons c v =>
      rw [List.mem_singleton.mp hw]
      simp
  induction s generalizing word with
  | nil => exact hflush word h
  | cons c s ih =>
    rw [wordsFrom] at h
    split at h
    · rcases List.mem_append.mp h with h | h
      · exact hflush word h
      · exact ih h
    · exact ih h

lemma words_append_left (h : ∀ c ∈ front, space c) (s : List α) :
    words space (front++s) = words space s := by
  induction front with
  | nil => rfl
  | cons c front ih =>
    unfold words at ih ⊢
    rw [List.cons_append,wordsFrom,if_pos (h c List.mem_cons_self)]
    exact ih fun d hd => h d (List.mem_cons_of_mem c hd)

lemma wordsFrom_spaces {back : List α} (h : ∀ c ∈ back, space c) (word : List α) :
    wordsFrom space word back = flush word := by
  induction back generalizing word with
  | nil => rfl
  | cons c back ih =>
    rw [wordsFrom,if_pos (h c List.mem_cons_self),ih fun d hd => h d (List.mem_cons_of_mem c hd)]
    exact List.append_nil _

lemma words_append_right {back : List α} (h : ∀ c ∈ back, space c) (s : List α) :
    words space (s++back) = words space s := by
  unfold words
  rw [wordsFrom_append,wordsFrom_spaces h,wordsFrom_eq]

lemma wordsFrom_ne_nil {word s : List α} (h : word ≠ [] ∨ ∃ c ∈ s, space c = false) :
    wordsFrom space word s ≠ [] := by
  induction s generalizing word with
  | nil =>
    have hword : word ≠ [] := h.resolve_right (by simp)
    rw [wordsFrom,flush_of_ne hword]
    simp
  | cons c s ih =>
    rw [wordsFrom]
    by_cases hc : space c
    · rw [if_pos hc]
      rcases h with hword | ⟨d,hd,hvisible⟩
      · rw [flush_of_ne hword]
        simp
      · have hs : d ∈ s := (List.mem_cons.mp hd).resolve_left fun heq => by
          rw [heq,hc] at hvisible
          cases hvisible
        simpa using fun _ => ih (.inr ⟨d,hs,hvisible⟩)
    · rw [if_neg hc]
      exact ih (.inl (by simp))

lemma collapse_ne_nil {sep : α} {s : List α} (h : ∃ c ∈ s, space c = false) :
    collapse space sep s ≠ [] := by
  have hwords : words space s ≠ [] := wordsFrom_ne_nil (.inr h)
  unfold collapse
  cases hcase : words space s with
  | nil => exact absurd hcase hwords
  | cons w ws =>
    have hw : w ≠ [] := ne_nil_of_mem_wordsFrom (hcase ▸ List.mem_cons_self : w ∈ words space s)
    cases ws with
    | nil => simpa [List.intercalate] using hw
    | cons v vs =>
      simp

lemma intercalate_suffix (sep : List α) (ds ws : List (List α)) :
    List.intercalate sep ws <:+ List.intercalate sep (ds++ws) := by
  induction ds with
  | nil => exact List.suffix_rfl
  | cons d ds ih =>
    by_cases hrest : ds++ws = []
    · obtain ⟨rfl,rfl⟩ := List.append_eq_nil_iff.mp hrest
      exact List.nil_suffix
    · rw [List.cons_append,List.intercalate_cons_of_ne_nil hrest]
      exact ih.trans (List.suffix_append _ _)

lemma intercalate_begins (sep : List α) (ds ws : List (List α)) :
    List.intercalate sep ds <+: List.intercalate sep (ds++ws) := by
  induction ds with
  | nil => exact List.nil_prefix
  | cons d ds ih =>
    by_cases hds : ds = []
    · subst hds
      cases ws with
      | nil => exact List.prefix_rfl
      | cons w ws =>
        rw [List.cons_append,List.nil_append,List.intercalate_cons_cons,
          List.intercalate_singleton,List.append_assoc]
        exact List.prefix_append _ _
    · rw [List.cons_append,List.intercalate_cons_of_ne_nil hds,
        List.intercalate_cons_of_ne_nil (by simp [hds])]
      exact (List.prefix_append_right_inj _).mpr ih

lemma intercalate_begins_glued (sep : List α) (ds ws : List (List α)) (w back : List α) :
    List.intercalate sep (ds++[w]) <+: List.intercalate sep (ds++(w++back)::ws) := by
  induction ds with
  | nil =>
    have h := intercalate_begins sep [w++back] ws
    rw [List.intercalate_singleton] at h
    rw [List.nil_append,List.intercalate_singleton]
    exact (List.prefix_append w back).trans h
  | cons d ds ih =>
    rw [List.cons_append,List.cons_append,List.intercalate_cons_of_ne_nil (by simp),
      List.intercalate_cons_of_ne_nil (by simp)]
    exact (List.prefix_append_right_inj _).mpr ih

variable {sep c : α}

lemma words_around (hc : space c = false) (x y : List α) :
    ∃ first rest, words space (x++c::y) = closedWords space []
    x++(openWord space [] x++c::first)::rest ∧
      words space y = flush first++rest := by
  have hfront : openWord space [] x++[c] ≠ [] := by simp
  obtain ⟨first,rest,hglued,hy⟩ := wordsFrom_glue hfront [] y
  refine ⟨first,rest,?_,hy⟩
  unfold words
  rw [wordsFrom_append,wordsFrom,if_neg (by simp [hc])]
  rw [List.append_nil] at hglued
  rw [hglued,List.append_assoc]
  rfl

lemma collapse_infix_left (hc : space c = false) (x y : List α) :
    collapse space sep x <:+: collapse space sep (x++c::y) := by
  obtain ⟨first,rest,hwords,-⟩ := words_around hc x y
  have hx : words space x = closedWords space [] x++flush (openWord space [] x) := wordsFrom_eq [] x
  unfold collapse
  rw [hwords,hx]
  by_cases hopen : openWord space [] x = []
  · rw [hopen,flush_nil,List.append_nil]
    exact (intercalate_begins _ _ _).isInfix
  · rw [flush_of_ne hopen]
    exact (intercalate_begins_glued _ _ _ _ _).isInfix

lemma collapse_infix_right (hc : space c = false) (x y : List α) :
    collapse space sep y <:+: collapse space sep (x++c::y) := by
  obtain ⟨first,rest,hwords,hy⟩ := words_around hc x y
  unfold collapse
  rw [hwords,hy]
  refine List.IsInfix.trans ?_ (intercalate_suffix _ _ _).isInfix
  cases first with
  | nil => exact (intercalate_suffix [sep] [openWord space [] x++[c]] rest).isInfix
  | cons d first =>
    -- what stands before the word is cut off
    have hcut : ∀ v : List α, List.intercalate [sep] ((v++d::first)::rest) =
        v++List.intercalate [sep] ((d::first)::rest) := by
      intro v
      cases rest with
      | nil | cons => simp
    have hglue : openWord space [] x++c::d::first = (openWord space [] x++[c])++d::first := by simp
    rw [hglue,hcut]
    exact (List.suffix_append _ _).isInfix

end Memora.TextWords

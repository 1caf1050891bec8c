import Memora.RepresentationTargets

/-! A text joined from facts holds each of them, up to composition, case and white space. -/
namespace Memora.Representation
open Canonical TextWords

/-- What compatibility composition and case folding are relied on for: white space and the
separator compose with nothing, white space stays white space, the separator becomes a
semicolon, and what can be seen stays visible. -/
structure Unicode.Lawful (u : Unicode) : Prop where
  empty : u.nfkc [] = []
  cut : ∀ a c b, pythonIsSpace c = true ∨ c = '；' →
    u.nfkc (a++c::b) = u.nfkc a++(u.nfkc [c]++u.nfkc b)
  space : ∀ c, pythonIsSpace c = true → ∀ d ∈ u.folded [c], pythonIsSpace d = true
  separator : u.folded ['；'] = [';']
  visible : ∀ s, (∃ c ∈ s, pythonIsSpace c = false) → ∃ c ∈ u.folded s, pythonIsSpace c = false

variable {u : Unicode}

lemma Unicode.Lawful.folded_cut (h : u.Lawful) {c : Char} (hc : pythonIsSpace c = true ∨ c = '；')
    (a b : List Char) : u.folded (a++c::b) = u.folded a++(u.folded [c]++u.folded b) := by
  unfold Unicode.folded
  rw [h.cut a c b hc,List.flatMap_append,List.flatMap_append]

lemma Unicode.Lawful.folded_nil (h : u.Lawful) : u.folded [] = [] := by
  unfold Unicode.folded
  rw [h.empty]
  rfl

lemma Unicode.Lawful.folded_front (h : u.Lawful) {front : List Char}
    (hfront : ∀ c ∈ front, pythonIsSpace c = true) (s : List Char) :
    ∃ spaces, (∀ c ∈ spaces, pythonIsSpace c = true) ∧
    u.folded (front++s) = spaces++u.folded s := by
  induction front with
  | nil => exact ⟨[],by simp,rfl⟩
  | cons c front ih =>
    have hc := hfront c List.mem_cons_self
    obtain ⟨spaces,hspaces,heq⟩ := ih fun d hd => hfront d (List.mem_cons_of_mem c hd)
    refine ⟨u.folded [c]++spaces,fun d hd => ?_,?_⟩
    · rcases List.mem_append.mp hd with hd | hd
      · exact h.space c hc d hd
      · exact hspaces d hd
    · have hcut := h.folded_cut (.inl hc) [] (front++s)
      rw [List.nil_append,h.folded_nil,List.nil_append,heq] at hcut
      rw [List.cons_append,hcut,List.append_assoc]

lemma Unicode.Lawful.folded_back (h : u.Lawful) {back : List Char}
    (hback : ∀ c ∈ back, pythonIsSpace c = true) (s : List Char) :
    ∃ spaces, (∀ c ∈ spaces, pythonIsSpace c = true) ∧ u.folded (s++back) = u.folded s++spaces := by
  cases back with
  | nil => exact ⟨[],by simp,by simp⟩
  | cons c back =>
    refine ⟨u.folded (c::back),fun d hd => ?_,?_⟩
    · obtain ⟨spaces,hspaces,heq⟩ := h.folded_front hback []
      rw [List.append_nil,h.folded_nil,List.append_nil] at heq
      exact hspaces d (heq ▸ hd)
    · have hc := Or.inl (b := c = '；') (hback c List.mem_cons_self)
      have hown := h.folded_cut hc [] back
      rw [List.nil_append,h.folded_nil,List.nil_append] at hown
      rw [h.folded_cut hc,hown]

lemma normalizeFact_pythonStrip (h : u.Lawful) (s : String) :
    normalizeFact u (pythonStrip s) = normalizeFact u s := by
  obtain ⟨front,back,hfront,hback,hsplit⟩ := pythonStrip_split s
  obtain ⟨before,hbefore,hfolded⟩ := h.folded_front hfront ((pythonStrip s).toList++back)
  obtain ⟨after,hafter,hrest⟩ := h.folded_back hback (pythonStrip s).toList
  unfold normalizeFact collapse
  rw [hsplit,hfolded,hrest,words_append_left hbefore,words_append_right hafter]

lemma normalizeFact_ne_nil (h : u.Lawful) {s : String} (hs : blank s = false) :
    normalizeFact u s ≠ [] := by
  refine collapse_ne_nil (h.visible _ ?_)
  by_contra hnone
  have hblank : blank s = true := by
    refine blank_iff.mpr fun c hc => ?_
    by_contra hvisible
    exact hnone ⟨c,hc,by simpa using hvisible⟩
  rw [hs] at hblank
  cases hblank

lemma collapse_infix_join (h : u.Lawful) {facts : List (List Char)} {fact : List Char}
    (hfact : fact ∈ facts) : collapse pythonIsSpace ' ' (u.folded fact) <:+:
      collapse pythonIsSpace ' ' (u.folded (List.intercalate ['；'] facts)) := by
  have hseparator : pythonIsSpace ';' = false := by decide
  induction facts with
  | nil => cases hfact
  | cons first facts ih =>
    by_cases hmore : facts = []
    · subst hmore
      rw [List.mem_singleton.mp hfact,List.intercalate_singleton]
    · have hjoin : u.folded (List.intercalate ['；'] (first::facts)) =
          u.folded first ++ ';'::u.folded (List.intercalate ['；'] facts) := by
        rw [List.intercalate_cons_of_ne_nil hmore,List.append_assoc,List.singleton_append,
          h.folded_cut (.inr rfl),h.separator]
        rfl
      rw [hjoin]
      rcases List.mem_cons.mp hfact with rfl | hlater
      · exact collapse_infix_left hseparator _ _
      · exact (ih hlater).trans (collapse_infix_right hseparator _ _)

lemma normalizeFact_infix (h : u.Lawful) {facts : List String} {fact : String}
    (hfact : fact ∈ facts) :
    normalizeFact u fact <:+: normalizeFact u (joinFacts facts) := by
  unfold normalizeFact joinFacts
  rw [String.toList_intercalate]
  exact collapse_infix_join h (List.mem_map_of_mem hfact)

lemma factInContent_of_infix {content s : String} (hne : normalizeFact u s ≠ [])
    (h : normalizeFact u s <:+: normalizeFact u content) :
    factInContent u content (.str s) = true := by
  obtain ⟨rest, hprefix,hsuffix⟩ := List.infix_iff_prefix_suffix.mp h
  unfold factInContent
  rw [Bool.and_eq_true,decide_eq_true_eq]
  refine ⟨hne,List.any_eq_true.mpr ⟨rest,(List.mem_tails ..).mpr hsuffix,?_⟩⟩
  exact List.isPrefixOf_iff_prefix.mpr hprefix

variable {items : List Json}

lemma length_normalizeFacts (h : items.all Json.isFact = true) :
    (normalizeFacts (some (.arr items))).length = items.length := by
  change (items.filterMap factText).length = items.length
  induction items with
  | nil => rfl
  | cons item items ih =>
    rw [List.all_cons,Bool.and_eq_true] at h
    obtain ⟨hitem,hitems⟩ := h
    cases item with
    | str s =>
      have hs : blank s = false := by simpa [Json.isFact] using hitem
      have hfact : factText (.str s) = some (pythonStrip s) := by simp [factText,hs]
      rw [List.filterMap_cons_some hfact,List.length_cons,ih hitems,List.length_cons]
    | _ => cases hitem

lemma pythonStrip_mem_normalizeFacts {s : String} (hs : blank s = false)
    (hitem : Json.str s ∈ items) : pythonStrip s ∈ normalizeFacts (some (.arr items)) :=
  List.mem_filterMap.mpr ⟨.str s,hitem,by simp [factText,hs]⟩

/-- A text that joins the facts is aligned with them where all of them are texts, each with its
evidence; where one is not, nothing can be determined. -/
theorem factsAligned_join (h : u.Lawful) {groups : List Json} {content : String}
    (hcontent : content = joinFacts (normalizeFacts (some (.arr items))))
    (hvisible : blank content = false) (hgroups : groups ≠ [])
    (hpaired : groups.length = (normalizeFacts (some (.arr items))).length) :
    factsAligned u (some content) (some (.arr items)) (some (.arr groups)) = .aligned ↔
      items.all Json.isFact = true := by
  have hnonempty : items ≠ [] := by
    rintro rfl
    exact hgroups (List.length_eq_zero_iff.mp hpaired)
  constructor
  · intro haligned
    by_contra hbad
    have hpairs : pairedFacts (some (.arr items)) (some (.arr groups)) = none := by
      simp [pairedFacts,hbad]
    simp [factsAligned,hpairs] at haligned
  · intro hfacts
    have hlength : groups.length = items.length := hpaired.trans (length_normalizeFacts hfacts)
    have hpairs : pairedFacts (some (.arr items)) (some (.arr groups)) = some items := by
      simp [pairedFacts,hfacts,hlength,hnonempty]
    have hall : items.all (factInContent u content) = true := by
      rw [List.all_eq_true] at hfacts ⊢
      intro item hitem
      have hfact := hfacts item hitem
      cases item with
      | str s =>
        have hs : blank s = false := by simpa [Json.isFact] using hfact
        refine factInContent_of_infix (normalizeFact_ne_nil h hs) ?_
        rw [← normalizeFact_pythonStrip h,hcontent]
        exact normalizeFact_infix h (pythonStrip_mem_normalizeFacts hs hitem)
      | _ => cases hfact
    simp [factsAligned,hpairs,hvisible,hall]

end Memora.Representation

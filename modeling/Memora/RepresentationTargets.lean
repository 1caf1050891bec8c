import Memora.RepresentationCodec

/-! What a row looks like after its target has been written: the old text is kept, the facts stand
in the new text, and the row calls for no second rewrite. -/
namespace Memora.Representation
open Canonical

variable {m : Metadata} {text : String} {r : Row} {content : Option String}

lemma blank_iff {s : String} : blank s = true ↔ ∀ c ∈ s.toList, pythonIsSpace c = true := by
  unfold blank pythonStrip stripWhere
  rw [decide_eq_true_eq,String.ofList_eq_empty_iff,List.reverse_eq_nil_iff,
    List.dropWhile_eq_nil_iff]
  simp only [List.mem_reverse]
  constructor
  · intro h c hc
    by_contra hvisible
    have hkept : c ∈ s.toList.dropWhile pythonIsSpace := by
      by_contra hdropped
      have hsplit := List.takeWhile_append_dropWhile (p := pythonIsSpace) (l := s.toList)
      rw [← hsplit,List.mem_append] at hc
      exact hvisible (List.mem_takeWhile_imp (hc.resolve_right hdropped))
    exact hvisible (h c hkept)
  · intro h c hc
    exact h c (List.dropWhile_sublist _ |>.subset hc)

lemma pythonStrip_split (s : String) : ∃ front back,
    (∀ c ∈ front, pythonIsSpace c = true) ∧ (∀ c ∈ back, pythonIsSpace c = true) ∧
      s.toList = front++((pythonStrip s).toList++back) := by
  have hfirst := List.takeWhile_append_dropWhile (p := pythonIsSpace) (l := s.toList)
  have hlast := List.takeWhile_append_dropWhile (p := pythonIsSpace)
    (l := (s.toList.dropWhile pythonIsSpace).reverse)
  refine ⟨s.toList.takeWhile pythonIsSpace,
    ((s.toList.dropWhile pythonIsSpace).reverse.takeWhile pythonIsSpace).reverse,
    fun c hc => List.mem_takeWhile_imp hc,
    fun c hc => List.mem_takeWhile_imp (List.mem_reverse.mp hc),?_⟩
  have hmiddle : (pythonStrip s).toList =
      ((s.toList.dropWhile pythonIsSpace).reverse.dropWhile pythonIsSpace).reverse := by
    unfold pythonStrip stripWhere
    rw [String.toList_ofList]
  rw [hmiddle,← List.reverse_append,hlast,List.reverse_reverse,hfirst]

structure Applicable (m : Metadata) (text : String) : Prop where
  recallable : recallable m = true
  evidence : evidenceAligned (m.get? "fact_source_evidence")
    (normalizeFacts (m.get? "key_facts")).length = true
  content : blank (targetContent m text) = false
  preserved : contentChanged m text = true → persona m ≠ "" → persona m = text

def Row.listed (r : Row) : Bool := r.target.reasonCode = none && r.target.changed

lemma target_of_applicable (h : Applicable m (content.getD "")) :
    computeRepresentationTarget content (some m) = {
      writeKind := if contentChanged m (content.getD "") then .content
        else if (metadataUpdates m (content.getD "")).isEmpty then .none else .metadata
      content := targetContent m (content.getD "")
      metadataUpdates := metadataUpdates m (content.getD "")
      changed := contentChanged m (content.getD "") ||
        !(metadataUpdates m (content.getD "")).isEmpty } := by
  obtain ⟨hrecallable,hevidence,hcontent,hpreserved⟩ := h
  have hkept : ¬(contentChanged m (content.getD "") && persona m ≠ "" &&
      persona m ≠ content.getD "") = true := by
    simp only [Bool.and_eq_true,decide_eq_true_eq,not_and,not_not,and_imp]
    exact hpreserved
  unfold computeRepresentationTarget
  simp only [hrecallable,hevidence,hcontent,Bool.not_true,Bool.false_eq_true,if_false,hkept]

lemma applicable_of_target (h : (computeRepresentationTarget content (some m)).reasonCode = none) :
    Applicable m (content.getD "") := by
  unfold computeRepresentationTarget at h
  simp only at h
  split at h
  · cases h
  · rename_i hrecallable
    split at h
    · cases h
    · rename_i hevidence
      split at h
      · cases h
      · rename_i hcontent
        split at h
        · cases h
        · rename_i hkept
          simp only [Bool.and_eq_true,decide_eq_true_eq,not_and,not_not,and_imp] at hkept
          exact ⟨by simpa using hrecallable,by simpa using hevidence,by simpa using hcontent,hkept⟩

lemma listed_iff : r.listed = true ↔ ∃ m, r.metadata = some m ∧ Applicable m (r.text.getD "") ∧
    (contentChanged m (r.text.getD "") = true ∨ (metadataUpdates m (r.text.getD "")).isEmpty = false) := by
  unfold Row.listed Row.target
  rw [Bool.and_eq_true,decide_eq_true_eq]
  constructor
  · rintro ⟨hreason,hchanged⟩
    cases hmetadata : r.metadata with
    | none =>
      rw [hmetadata] at hreason
      cases hreason
    | some m =>
      rw [hmetadata] at hreason hchanged
      have happlicable := applicable_of_target hreason
      rw [target_of_applicable happlicable,Bool.or_eq_true,Bool.not_eq_true'] at hchanged
      exact ⟨m,rfl,happlicable,hchanged⟩
  · rintro ⟨m,hmetadata,happlicable,hchanged⟩
    rw [hmetadata,target_of_applicable happlicable]
    refine ⟨rfl,?_⟩
    rw [Bool.or_eq_true,Bool.not_eq_true']
    exact hchanged

lemma get?_setText {key k : String} {value : Option String} :
    (setText key value m).get? k = if k = key then (value.map Json.str).or (m.get? k)
      else m.get? k := by
  cases value with
  | none => simp [setText]
  | some s =>
    rw [setText,Dict.get?_set]
    split <;> rfl

lemma get?_updates {k : String} : (metadataUpdates m text).get? k =
    if k = "summary_schema_version" then
      (missing (m.get? "summary_schema_version") targetRepresentationVersion).map Json.str
    else if k = "canonical_summary" then
      (missing (m.get? "canonical_summary") (targetContent m text)).map Json.str
    else if k = "persona_summary" then (narrativeUpdate m text).map Json.str
    else none := by
  unfold metadataUpdates
  simp only [get?_setText,Dict.get?_empty,Option.or_none]
  split
  · rename_i hk
    subst hk
    simp
  · split
    · rename_i hk
      subst hk
      simp
    · rfl

def Migrated (m m' : Metadata) (text : String) : Prop :=
  m' = m.update (metadataUpdates m text)

variable {m' : Metadata}

lemma Migrated.get?_other (h : Migrated m m' text) {k : String}
    (hversion : k ≠ "summary_schema_version") (hcanonical : k ≠ "canonical_summary")
    (hpersona : k ≠ "persona_summary") : m'.get? k = m.get? k := by
  rw [h,Dict.get?_update,get?_updates,if_neg hversion,if_neg hcanonical,if_neg hpersona]
  rfl

lemma isText_missing {value : Option Json} {s : String} :
    isText (((missing value s).map Json.str).or value) s = true := by
  unfold missing
  by_cases hvalue : isText value s = true
  · simp [hvalue]
  · rw [if_neg hvalue]
    simp [isText]

lemma Migrated.canonical (h : Migrated m m' text) :
    isText (m'.get? "canonical_summary") (targetContent m text) = true := by
  rw [h,Dict.get?_update,get?_updates,if_neg (by decide),if_pos rfl]
  exact isText_missing

lemma Migrated.version (h : Migrated m m' text) :
    isText (m'.get? "summary_schema_version") targetRepresentationVersion = true := by
  rw [h,Dict.get?_update,get?_updates,if_pos rfl]
  exact isText_missing

lemma Migrated.narrative (h : Migrated m m' text) : m'.get? "persona_summary" =
      ((narrativeUpdate m text).map Json.str).or (m.get? "persona_summary") := by
  rw [h,Dict.get?_update,get?_updates,if_neg (by decide),if_neg (by decide),if_pos rfl]

lemma Migrated.facts (h : Migrated m m' text) : m'.get? "key_facts" = m.get? "key_facts" :=
  h.get?_other (by decide) (by decide) (by decide)

lemma Migrated.evidence (h : Migrated m m' text) :
    m'.get? "fact_source_evidence" = m.get? "fact_source_evidence" :=
  h.get?_other (by decide) (by decide) (by decide)

lemma Migrated.recallable (h : Migrated m m' text) :
    Representation.recallable m' = Representation.recallable m := by
  have hmemory := h.get?_other (k := "memory_status") (by decide) (by decide) (by decide)
  have hstatus := h.get?_other (k := "status") (by decide) (by decide) (by decide)
  have horphan := h.get?_other (k := "summary_source_orphan") (by decide) (by decide) (by decide)
  unfold Representation.recallable
  rw [hmemory,hstatus,horphan]

lemma targetContent_idem : targetContent m (targetContent m text) = targetContent m text := by
  unfold targetContent
  simp only
  split <;> simp_all

lemma Migrated.targetContent (h : Migrated m m' text) (t : String) :
    Representation.targetContent m' t = Representation.targetContent m t := by
  unfold Representation.targetContent
  rw [h.facts]

lemma Migrated.unchanged (h : Migrated m m' text) :
    contentChanged m' (Representation.targetContent m text) = false := by
  unfold contentChanged
  rw [h.targetContent,targetContent_idem]
  simp

lemma contentChanged_eq : contentChanged m text = (text ≠ targetContent m text : Bool) := by
  unfold contentChanged targetContent
  by_cases hfacts : normalizeFacts (m.get? "key_facts") = []
  · simp
  · simp

lemma firstText_of_ne {values : List (Option Json)} (h : firstText values ≠ "") :
    blank (firstText values) = false := by
  induction values using firstText.induct with
  | case1 => exact absurd rfl h
  | case2 s rest hs ih =>
    rw [firstText,if_pos hs] at h ⊢
    exact ih h
  | case3 s rest hs =>
    rw [firstText,if_neg hs]
    rw [blank_pythonStrip]
    simpa using hs
  | case4 value rest hvalue ih =>
    have hnext : firstText (value::rest) = firstText rest := by
      rw [firstText]
      exact hvalue
    rw [hnext] at h ⊢
    exact ih h

lemma Migrated.told (h : Migrated m m' text) (happlicable : Applicable m text)
    (htext : contentChanged m text = true → m.get? "persona_summary" = none → blank text = false) :
    (m'.get? "persona_summary").isSome = true := by
  rw [h.narrative,Option.isSome_or,Bool.or_eq_true,Option.isSome_map]
  cases hpersona : m.get? "persona_summary" with
  | some value => exact .inr rfl
  | none =>
    left
    unfold narrativeUpdate
    by_cases hchanged : contentChanged m text = true
    · have hvisible := htext hchanged hpersona
      simp [hchanged,hvisible,hpersona,isText]
    · have hsame : text = Representation.targetContent m text := by
        rw [contentChanged_eq] at hchanged
        simpa using hchanged
      have hvisible : blank text = false := by
        rw [hsame]
        exact happlicable.content
      rw [if_neg hchanged,hpersona]
      by_cases hown : persona m = ""
      · simp [hown,hvisible]
      · have htold : blank (persona m) = false := firstText_of_ne hown
        simp [hown,htold]

lemma Migrated.settled (h : Migrated m m' text) (happlicable : Applicable m text)
    (htext : contentChanged m text = true → m.get? "persona_summary" = none → blank text = false) :
    ∀ k, (metadataUpdates m' (Representation.targetContent m text)).get? k = none := by
  intro k
  have htold := h.told happlicable htext
  have hnarrative : narrativeUpdate m' (Representation.targetContent m text) = none := by
    unfold narrativeUpdate
    rw [h.unchanged]
    obtain ⟨value,hvalue⟩ := Option.isSome_iff_exists.mp htold
    simp [hvalue]
  rw [get?_updates,hnarrative,h.targetContent,targetContent_idem]
  have hversion := h.version
  have hcanonical := h.canonical
  unfold missing
  split
  · rfl
  · split
    · rfl
    · split <;> rfl

/-- A row that had neither text nor narrative calls for a second rewrite. -/
theorem Migrated.again (h : Migrated m m' text) (happlicable : Applicable m text)
    (hchanged : contentChanged m text = true) (hpersona : m.get? "persona_summary" = none)
    (hblank : blank text = true) :
    (metadataUpdates m' (Representation.targetContent m text)).get? "persona_summary" ≠ none := by
  have hnone : m'.get? "persona_summary" = none := by
    rw [h.narrative,hpersona]
    simp [narrativeUpdate,hchanged,hblank]
  rw [get?_updates,if_neg (by decide),if_neg (by decide),if_pos rfl]
  unfold narrativeUpdate
  rw [h.unchanged,hnone]
  by_cases hown : persona m' = ""
  · simp [hown,happlicable.content]
  · have htold : blank (persona m') = false := firstText_of_ne hown
    simp [hown,htold]

lemma Migrated.keeps (h : Migrated m m' text) (hvisible : blank text = false) :
    Representation.targetContent m text = text ∨ isText (m'.get? "persona_summary") text = true := by
  by_cases hchanged : contentChanged m text = true
  · right
    rw [h.narrative]
    unfold narrativeUpdate
    rw [if_pos hchanged]
    by_cases hheld : isText (m.get? "persona_summary") text = true
    · simp [hheld]
    · rw [if_pos (by simp [hvisible,hheld])]
      simp [isText]
  · left
    rw [contentChanged_eq] at hchanged
    have hsame : text = Representation.targetContent m text := by simpa using hchanged
    exact hsame.symm

def Row.field (r : Row) (key : String) : Option Json := r.metadata.bind fun m => m.get? key

def Row.migrated (stamp : String) (r : Row) : Row :=
  { r with
    text := (if r.target.writeKind = .content then some r.target.content else none).or r.text
    metadata := some ((r.metadata.getD {}).update r.target.metadataUpdates)
    updatedAt := some stamp }

lemma migrated_spec (h : r.listed = true) (stamp : String) : ∃ m m', r.metadata = some m ∧
    Applicable m (r.text.getD "") ∧ (r.migrated stamp).metadata = some m' ∧
    Migrated m m' (r.text.getD "") ∧
    (r.migrated stamp).text = some (targetContent m (r.text.getD "")) := by
  obtain ⟨m,hmetadata,happlicable,hchanged⟩ := listed_iff.mp h
  have htarget : r.target = _ :=
    (congrArg (computeRepresentationTarget r.text) hmetadata).trans
    (target_of_applicable happlicable)
  refine ⟨m,m.update (metadataUpdates m (r.text.getD "")),hmetadata,happlicable,?_,rfl,?_⟩
  · unfold Row.migrated
    rw [hmetadata,htarget]
    rfl
  · unfold Row.migrated
    rw [htarget]
    by_cases hcontent : contentChanged m (r.text.getD "") = true
    · simp [hcontent]
    · have hkind : ∀ b : Bool, (if b then WriteKind.none else WriteKind.metadata) ≠ .content := by
        intro b
        cases b <;> simp
      simp only [hcontent,Bool.false_eq_true,if_false,hkind]
      have hsame : r.text.getD "" = targetContent m (r.text.getD "") := by
        rw [contentChanged_eq] at hcontent
        simpa using hcontent
      -- a missing text is blank, which the target is not
      cases htext : r.text with
      | none =>
        rw [htext] at hsame
        have hvisible := happlicable.content
        rw [htext,← hsame] at hvisible
        exact absurd hvisible (by decide)
      | some text =>
        rw [htext] at hsame
        exact congrArg some hsame

lemma field_migrated {stamp key : String} (h : r.listed = true)
    (hversion : key ≠ "summary_schema_version") (hcanonical : key ≠ "canonical_summary")
    (hpersona : key ≠ "persona_summary") : (r.migrated stamp).field key = r.field key := by
  obtain ⟨m,m',hmetadata,-,hmetadata',hmigrated,-⟩ := migrated_spec h stamp
  unfold Row.field
  rw [hmetadata,hmetadata']
  exact hmigrated.get?_other hversion hcanonical hpersona

lemma Migrated.none_of_same (h : Migrated m m text) (k : String) :
    (metadataUpdates m text).get? k = none := by
  have hnarrative : narrativeUpdate m text = none := by
    cases hupdate : narrativeUpdate m text with
    | none => rfl
    | some s =>
      have hheld := h.narrative
      rw [hupdate] at hheld
      have htext : m.get? "persona_summary" = some (.str s) := hheld
      unfold narrativeUpdate at hupdate
      rw [htext] at hupdate
      split at hupdate
      · split at hupdate
        · rename_i hnew
          cases hupdate
          simp [isText] at hnew
        · cases hupdate
      · cases hupdate
  have hversion := h.version
  have hcanonical := h.canonical
  rw [get?_updates,hnarrative]
  unfold missing
  split
  · rfl
  · split
    · rfl
    · split <;> rfl

lemma migrated_ne (h : r.listed = true) (stamp : String) : r.migrated stamp ≠ r := by
  intro hsame
  obtain ⟨m,m',hmetadata,-,hmetadata',hmigrated,htext⟩ := migrated_spec h stamp
  obtain ⟨m₀,hmetadata₀,-,hchanged⟩ := listed_iff.mp h
  rw [hmetadata] at hmetadata₀
  obtain rfl := Option.some.inj hmetadata₀
  rw [hsame] at htext hmetadata'
  rw [hmetadata] at hmetadata'
  cases hmetadata'
  rcases hchanged with hcontent | hupdates
  · rw [contentChanged_eq,htext] at hcontent
    simp [targetContent_idem] at hcontent
  · rw [Dict.isEmpty_iff.mpr (Migrated.none_of_same hmigrated)] at hupdates
    cases hupdates

def Row.untold (r : Row) : Bool :=
  normalizeFacts (r.field "key_facts") ≠ [] && blank (r.text.getD "") &&
  (r.field "persona_summary").isNone

lemma migrated_settled (h : r.listed = true) (htold : r.untold = false) (stamp : String) :
    (r.migrated stamp).listed = false := by
  obtain ⟨m,m',hmetadata,happlicable,hmetadata',hmigrated,htext⟩ := migrated_spec h stamp
  by_contra hlisted
  obtain ⟨m₀,hmetadata₀,-,hchanged⟩ := listed_iff.mp (by simpa using hlisted)
  rw [hmetadata'] at hmetadata₀
  obtain rfl := Option.some.inj hmetadata₀
  rw [htext,Option.getD_some] at hchanged
  rcases hchanged with hcontent | hupdates
  · rw [hmigrated.unchanged] at hcontent
    cases hcontent
  · have hnone := hmigrated.settled happlicable fun hcontent hpersona => by
      by_contra hblank
      have hfacts : normalizeFacts (m.get? "key_facts") ≠ [] := by
        unfold contentChanged at hcontent
        rw [Bool.and_eq_true,decide_eq_true_eq] at hcontent
        exact hcontent.1
      simp [Row.untold,Row.field,hmetadata,hfacts,hpersona,hblank] at htold
    rw [Dict.isEmpty_iff.mpr hnone] at hupdates
    cases hupdates

lemma migrated_listed (h : r.listed = true) (huntold : r.untold = true) (stamp : String) :
    (r.migrated stamp).listed = true := by
  obtain ⟨m,m',hmetadata,happlicable,hmetadata',hmigrated,htext⟩ := migrated_spec h stamp
  simp only [Row.untold,Row.field,hmetadata,Option.bind_some,Bool.and_eq_true,
    decide_eq_true_eq,Option.isNone_iff_eq_none] at huntold
  obtain ⟨⟨hfacts,hblank⟩,hpersona⟩ := huntold
  have hcontent : contentChanged m (r.text.getD "") = true := by
    rw [contentChanged_eq,decide_eq_true_eq]
    intro hsame
    have hvisible := happlicable.content
    rw [← hsame,hblank] at hvisible
    cases hvisible
  refine listed_iff.mpr ⟨m',hmetadata',?_,.inr ?_⟩
  · rw [htext,Option.getD_some]
    refine ⟨hmigrated.recallable.trans happlicable.recallable,?_,?_,fun hchanged => ?_⟩
    · rw [hmigrated.evidence,hmigrated.facts]
      exact happlicable.evidence
    · rw [hmigrated.targetContent,targetContent_idem]
      exact happlicable.content
    · rw [hmigrated.unchanged] at hchanged
      cases hchanged
  · rw [htext,Option.getD_some]
    have hagain := hmigrated.again happlicable hcontent hpersona hblank
    by_contra hempty
    exact hagain (Dict.isEmpty_iff.mp (by simpa using hempty) _)

end Memora.Representation

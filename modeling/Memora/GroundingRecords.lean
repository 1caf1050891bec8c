import Memora.GroundingAttribution
import Memora.ListLaws

/-! A candidate from its verdicts to the stored record: which facts are admitted, whose evidence
they carry, and what the bindings of the record name. -/
namespace Memora.Grounding
open Memora.Canonical (pythonStrip)
open Memora.Representation (Json Metadata blank joinFacts)
open Memora.Atoms (hasUserSourceEvidence)
open Memora.Merging (refKey RefKey)

structure StoredRecord where
  admission : FactAdmission
  content : String
  metadata : Metadata

def storeCandidate (env : GroundingEnv) (judge : GroundingResult → JudgeOutcome) (mem : Metadata)
    (messages : List Message) (isGroupChat : Bool) (profile : GateProfile)
    (seqs : Option (List (Option ℤ))) (gateEnabled : Bool) (topics : List String) (importance : ℚ)
    (fallbackExcerpt : String) (trusted : List String) : Option StoredRecord := do
  let admission ← admitCandidateFacts env judge mem messages isGroupChat profile seqs gateEnabled importance
  let applied := (applyFactAdmission env mem admission topics).1
  let record ← buildStorageFormat env fallbackExcerpt applied isGroupChat
  some ⟨admission,record.1,applyAdmissionMetadata record.2 admission messages trusted⟩

section Pick

variable {α : Type*} {l : List α} {indices : List ℕ} {P : ℕ → α → Prop}

lemma pick_append (h : ∀ i ∈ indices, i < l.length) (r : List α) :
    pick (l++r) indices = pick l indices :=
  List.filterMap_congr fun i hi => List.getElem?_append_left (h i hi)

lemma forall₂_pick (h : ∀ i ∈ indices, ∃ a, l[i]? = some a ∧ P i a) :
    List.Forall₂ P indices (pick l indices) := by
  induction indices with
  | nil => exact List.Forall₂.nil
  | cons i indices ih =>
    obtain ⟨a,ha,hP⟩ := h i (by simp)
    unfold pick
    rw [List.filterMap_cons_some ha]
    exact List.Forall₂.cons hP (ih fun j hj => h j (by simp [hj]))

lemma flatten_ne_nil {P : ℕ → List α → Prop} {groups : List (List α)}
    (h : List.Forall₂ P indices groups) (hindices : indices ≠ [])
    (hne : ∀ i group, P i group → group ≠ []) : groups.flatten ≠ [] := by
  intro hempty
  cases h with
  | nil => exact hindices rfl
  | cons hfirst _ => exact hne _ _ hfirst (List.flatten_eq_nil_iff.mp hempty _ (by simp))

end Pick

lemma pick_indicesWhere (verdict : Bool) (results : List GroundingResult) :
    pick results (indicesWhere verdict results) = results.filter fun r => r.allowed = verdict := by
  induction results using List.reverseRecOn with
  | nil => rfl
  | append_singleton results r ih =>
    have hold : (List.range results.length).filter (fun i => ((results++[r])[i]?).any (·.allowed = verdict)) =
          indicesWhere verdict results := by
      refine List.filter_congr ?_
      intro i hi
      rw [List.getElem?_append_left (List.mem_range.mp hi)]
    have hin : ∀ i ∈ indicesWhere verdict results, i < results.length := fun i hi =>
      List.mem_range.mp (List.mem_filter.mp hi).1
    rw [List.filter_append,← ih,← pick_append hin [r]]
    unfold indicesWhere
    rw [List.length_append,List.length_singleton,List.range_succ,List.filter_append,hold]
    unfold pick
    rw [List.filterMap_append]
    congr 1
    by_cases hr : r.allowed = verdict <;> simp [hr]

section Projection

variable {facts : List String} {results : List GroundingResult} {summaryAllowed : Bool}
  {summaryEvidence : List Metadata} {importance : ℚ}

lemma project_keyFacts :
    (projectFactAdmission facts results summaryAllowed summaryEvidence importance).keyFacts =
      pick facts (indicesWhere true results) := by
  unfold projectFactAdmission
  cases indicesWhere true results <;> rfl

lemma project_groups : (projectFactAdmission facts results summaryAllowed summaryEvidence
    importance).factSourceEvidence = (pick results (indicesWhere true results)).map
    (·.evidence) := by
  unfold projectFactAdmission
  cases indicesWhere true results <;> rfl

lemma project_allowed : (projectFactAdmission facts results summaryAllowed summaryEvidence
    importance).grounding.allowed = !(indicesWhere true results).isEmpty := by
  unfold projectFactAdmission
  cases indicesWhere true results <;> rfl

lemma project_summary (hsome : indicesWhere true results ≠ [])
    (h : (projectFactAdmission facts results summaryAllowed summaryEvidence importance).summaryRebuilt = true) :
    (projectFactAdmission facts results summaryAllowed summaryEvidence importance).grounding.evidence =
      (projectFactAdmission facts results summaryAllowed summaryEvidence
        importance).factSourceEvidence.flatten := by
  unfold projectFactAdmission at h ⊢
  dsimp only at h ⊢
  rw [h,List.isEmpty_eq_false_iff.mpr hsome]
  rfl

lemma project_subjects (h : (projectFactAdmission facts results summaryAllowed summaryEvidence
    importance).factSourceEvidence.flatten ≠ []) :
    (projectFactAdmission facts results summaryAllowed summaryEvidence importance).subjectEvidence =
      (projectFactAdmission facts results summaryAllowed summaryEvidence
        importance).factSourceEvidence.flatten := by
  have hsame : (results.filter (·.allowed)).flatMap (·.evidence) =
      ((pick results (indicesWhere true results)).map (·.evidence)).flatten := by
    rw [pick_indicesWhere,List.flatMap_def]
    simp
  rw [project_groups] at h ⊢
  unfold projectFactAdmission
  dsimp only
  rw [hsame,List.isEmpty_eq_false_iff.mpr h]
  rfl

end Projection

lemma get?_setWhere_of_ne {condition : Bool} {d : Metadata} {key key' : String} {value : Json}
    (h : key' ≠ key) : (setWhere condition d key value).get? key' = d.get? key' := by
  cases condition with
  | false => rfl
  | true => exact Dict.get?_set_of_ne h

lemma get?_setWhere {condition : Bool} {d : Metadata} {key : String} {value : Json} :
    (setWhere condition d key value).get? key = if condition then some value else d.get? key := by
  cases condition with
  | false => rfl
  | true => exact Dict.get?_set_self

variable {env : GroundingEnv} {mem data : Metadata} {messages : List Message}
  {profile : GateProfile} {seqs : Option (List (Option ℤ))} {isGroupChat : Bool} {key : String}

lemma storageMetadata_get? (hp : key ≠ "participants") (he : key ≠ "entities") :
    (storageMetadata env data isGroupChat).get? key =
    ([("topics",(data.get? "topics").getD (.arr [])),
        ("key_facts",textsJson (storedFacts (data.get? "key_facts"))),
        ("fact_source_evidence",(data.get? "fact_source_evidence").getD (.arr [])),
        ("sentiment",(data.get? "sentiment").getD (.str "neutral")),
        ("interaction_type",.str (if isGroupChat then "group_chat" else "private_chat")),
        ("privacy_level",.str (if isGroupChat then "public" else "confidential")),
        ("canonical_summary",.str (if (storedFacts (data.get? "key_facts")).isEmpty then
          textOr env (data.get? "summary") else joinFacts (storedFacts (data.get? "key_facts")))),
        ("persona_summary",.str (textOr env (data.get? "summary"))),
        ("summary_schema_version",.str "v2")].find? fun e => e.1 = key).map Prod.snd := by
  unfold storageMetadata
  rw [get?_setWhere_of_ne he]
  cases data.get? "participants" with
  | none => rfl
  | some participants => rw [get?_setWhere_of_ne hp]; rfl

variable {metadata : Metadata}

lemma validBinding_fact {facts : List String} {raw : Json} {b : FactBinding}
    (h : validBinding metadata facts raw = some (some b)) : facts[b.factIndex]? = some b.fact := by
  unfold validBinding at h
  split at h
  · cases h
  · split at h
    · rename_i index target _ _
      split at h
      · cases h
      · rename_i fact hfact
        by_cases hindex : index < 0
        · rw [if_pos hindex] at hfact
          cases hfact
        rw [if_neg hindex] at hfact
        split at h
        · cases h
        · cases h
        · split at h
          · cases h
          · split at h
            · cases h
              exact hfact
            · cases h
        · cases h
    · cases h

lemma validatedFactBindings_fact {raw : Option Json} {facts : List String}
    {bindings : List FactBinding} (h : validatedFactBindings raw metadata facts = some bindings) :
    ∀ b ∈ bindings, facts[b.factIndex]? = some b.fact := by
  unfold validatedFactBindings at h
  split at h
  · split at h
    · cases h
      simp
    · obtain ⟨kept,hkept,rfl⟩ := Option.map_eq_some_iff.mp h
      intro b hb
      have hmem := FirstSeen.firstSeen_sublist.subset hb
      obtain ⟨entry,hentry,hsome⟩ := List.mem_filterMap.mp hmem
      obtain ⟨i,hi⟩ := List.mem_iff_getElem?.mp hentry
      obtain ⟨raw,-,hraw⟩ := (mapM_getElem? hkept).2 i entry hi
      exact validBinding_fact (hraw.trans (congrArg some hsome))
  · cases h
    simp

lemma storedFacts_texts {facts : List String} (h : ∀ fact ∈ facts, blank fact = false) :
    storedFacts (some (textsJson facts)) = facts.map pythonStrip := by
  induction facts with
  | nil => rfl
  | cons fact facts ih =>
    have htail := ih fun f hf => h f (by simp [hf])
    unfold storedFacts textsJson at htail ⊢
    simp only at htail ⊢
    rw [List.map_cons,List.filterMap_cons_some (b := pythonStrip fact),htail,List.map_cons]
    simp [factString,h fact (by simp)]

variable {admission : FactAdmission} {fallback content : String} {topics : List String}

lemma applyFactAdmission_get?
    (hkey : key = "key_facts" ∨ key = "fact_source_evidence")
    (h : admission.grounding.allowed = true) :
    (applyFactAdmission env mem admission topics).1.get? key =
      ((mem.set "key_facts" (textsJson admission.keyFacts)).set "fact_source_evidence"
        (.arr (admission.factSourceEvidence.map groupJson))).get? key := by
  have hne : key ≠ "summary" ∧ key ≠ "fact_bindings" ∧ key ≠ "topics" ∧ key ≠ "causal_relations" := by
    rcases hkey with rfl | rfl <;> decide
  unfold applyFactAdmission
  rw [if_pos h]
  cases admission.rejected.isEmpty <;> cases admission.summaryRebuilt <;>
    simp [Dict.get?_set_of_ne,hne]

lemma applyFactAdmission_refused (h : admission.grounding.allowed = false) :
    (applyFactAdmission env mem admission topics).1.get? "fact_source_evidence" =
    some (.arr []) := by
  unfold applyFactAdmission
  rw [h,if_neg (by decide),Dict.get?_set_of_ne (by decide),Dict.get?_set_self]

lemma applyAdmissionMetadata_get? {trusted : List String}
    (hstatus : key ≠ "grounding_status") (hevidence : key ≠ "source_evidence")
    (hids : key ≠ "subject_ids") :
    (applyAdmissionMetadata metadata admission messages trusted).get? key = metadata.get? key := by
  unfold applyAdmissionMetadata
  rw [get?_setWhere_of_ne hids,Dict.get?_set_of_ne hevidence,Dict.get?_set_of_ne hstatus]

lemma buildStorageFormat_spec (h : buildStorageFormat env fallback data isGroupChat =
    some (content,metadata)) :
    ∃ bindings, validatedFactBindings (data.get? "fact_bindings")
      (storageMetadata env data isGroupChat) (storedFacts (data.get? "key_facts")) = some bindings ∧
      metadata = setWhere (!bindings.isEmpty) (storageMetadata env data isGroupChat)
        "fact_bindings" (.arr (bindings.map FactBinding.json)) := by
  unfold buildStorageFormat at h
  simp only [Option.bind_eq_bind,Option.bind_eq_some_iff,Option.some.injEq] at h
  obtain ⟨bindings,hbindings,hrecord⟩ := h
  exact ⟨bindings,hbindings,(congrArg Prod.snd hrecord).symm⟩

def BindingsNameFacts (metadata : Metadata) : Prop :=
  ∃ facts, metadata.get? "key_facts" = some (textsJson facts) ∧
    ∀ value, metadata.get? "fact_bindings" = some value →
      ∃ bindings : List FactBinding, value = .arr (bindings.map FactBinding.json) ∧
        ∀ b ∈ bindings, facts[b.factIndex]? = some b.fact

lemma buildStorageFormat_bindings
    (h : buildStorageFormat env fallback data isGroupChat = some (content,metadata)) :
    BindingsNameFacts metadata := by
  obtain ⟨bindings,hbindings,rfl⟩ := buildStorageFormat_spec h
  refine ⟨storedFacts (data.get? "key_facts"),?_,?_⟩
  · rw [get?_setWhere_of_ne (by decide),storageMetadata_get? (by decide) (by decide)]
    rfl
  · intro value hvalue
    unfold setWhere at hvalue
    by_cases hempty : bindings.isEmpty = true
    · rw [hempty,Bool.not_true,if_neg (by decide), storageMetadata_get? (by decide) (by decide)] at hvalue
      cases hvalue
    · rw [Bool.not_eq_true] at hempty
      rw [hempty,Bool.not_false,if_pos rfl,Dict.get?_set_self] at hvalue
      exact ⟨bindings,(Option.some.inj hvalue).symm,validatedFactBindings_fact hbindings⟩

/-- What a stored record says about the facts of its candidate: `accepted` are the indices of
the admitted facts. -/
structure Attributed (env : GroundingEnv) (mem : Metadata) (messages : List Message)
    (profile : GateProfile) (seqs : Option (List (Option ℤ))) (trusted : List String)
    (s : StoredRecord) (accepted : List ℕ) : Prop where
  increasing : accepted.Pairwise (· < ·)
  inRange : ∀ i ∈ accepted, i < (candidateFacts mem).length
  partition : ∀ i < (candidateFacts mem).length, i ∈ accepted ↔ i ∉ s.admission.rejected
  facts : List.Forall₂ (fun i fact => (candidateFacts mem)[i]? = some fact) accepted
    s.admission.keyFacts
  /-- Every admitted fact has the evidence of its own references. -/
  groups : List.Forall₂ (fun i group => ∃ groups refs,
    validGroups (mem.get? "fact_source_refs") = some groups ∧ groups[i]? = some refs ∧
      OwnEvidence env messages profile seqs refs group) accepted s.admission.factSourceEvidence
  stored : accepted ≠ [] →
    s.metadata.get? "key_facts" = some (textsJson (s.admission.keyFacts.map pythonStrip)) ∧
      s.metadata.get? "fact_source_evidence" =
        some (.arr (s.admission.factSourceEvidence.map groupJson))
  storedNone : accepted = [] → s.metadata.get? "fact_source_evidence" = some (.arr [])
  /-- A rebuilt summary has the evidence and the subjects of the admitted facts. -/
  rebuilt : accepted ≠ [] → s.admission.summaryRebuilt = true →
    s.metadata.get? "source_evidence" =
        some (groupJson s.admission.factSourceEvidence.flatten) ∧
      s.metadata.get? "subject_ids" =
        (let ids := referencedSubjectIds s.admission.factSourceEvidence.flatten messages trusted
         if ids.isEmpty then none else some (textsJson ids))
  bindings : BindingsNameFacts s.metadata

lemma judged_open {judge : GroundingResult → JudgeOutcome} {judged : List GroundingResult}
    (hjudged : (validateFacts env mem messages isGroupChat profile seqs).mapM (askJudge judge) =
      some judged) {i : ℕ} {r : GroundingResult} (hr : judged[i]? = some r)
    (hallowed : r.allowed = true) :
    ∃ fact groups refs, (candidateFacts mem)[i]? = some fact ∧ blank fact = false ∧
      validGroups (mem.get? "fact_source_refs") = some groups ∧ groups[i]? = some refs ∧
      OwnEvidence env messages profile seqs refs r.evidence := by
  obtain ⟨before,hbefore,hask⟩ := (mapM_getElem? hjudged).2 i r hr
  obtain ⟨hevidence,hopen⟩ := askJudge_spec hask
  obtain ⟨facts,groups,fact,refs,hfacts,hgroups,hfact,hrefs,hverdict⟩ :=
    validateFacts_open hbefore (hopen hallowed)
  obtain ⟨rfl,-,hblank⟩ := validFacts_eq hfacts
  have hown := validateFact_open hverdict (hopen hallowed)
  exact ⟨fact,groups,refs,hfact,hblank fact (List.mem_of_getElem? hfact),hgroups,hrefs,
    hevidence ▸ hown⟩

/-- Admitting a candidate and storing it attributes to every admitted fact its own user
evidence, and nothing of a refused fact to anything else. -/
theorem storeCandidate_attributes (env : GroundingEnv) (judge : GroundingResult → JudgeOutcome)
    (mem : Metadata) (messages : List Message) (isGroupChat : Bool) (profile : GateProfile)
    (seqs : Option (List (Option ℤ))) (gateEnabled : Bool) (topics : List String) (importance : ℚ)
    (fallbackExcerpt : String) (trusted : List String) (s : StoredRecord)
    (h : storeCandidate env judge mem messages isGroupChat profile seqs gateEnabled topics
      importance fallbackExcerpt trusted = some s) :
    ∃ accepted, Attributed env mem messages profile seqs trusted s accepted := by
  unfold storeCandidate at h
  simp only [Option.bind_eq_bind,Option.bind_eq_some_iff,Option.some.injEq] at h
  obtain ⟨admission,hadmission,⟨content,metadata⟩,hrecord,rfl⟩ := h
  unfold admitCandidateFacts at hadmission
  simp only [Option.bind_eq_bind,Option.bind_eq_some_iff,Option.some.injEq] at hadmission
  obtain ⟨judged,hjudged,hproject⟩ := hadmission
  have hlength : judged.length = max 1 (candidateFacts mem).length :=
    (mapM_getElem? hjudged).1.trans validateFacts_length
  have hopen : ∀ i ∈ indicesWhere true judged, ∃ r, judged[i]? = some r ∧ r.allowed = true :=
    fun i hi => mem_indicesWhere.mp hi
  have hgroups : admission.factSourceEvidence =
      (pick judged (indicesWhere true judged)).map (·.evidence) := hproject ▸ project_groups
  have hkeys : admission.keyFacts = pick (candidateFacts mem) (indicesWhere true judged) :=
    hproject ▸ project_keyFacts
  have hallowed : admission.grounding.allowed = !(indicesWhere true judged).isEmpty :=
    hproject ▸ project_allowed
  have hfacts : List.Forall₂ (fun i fact => (candidateFacts mem)[i]? = some fact ∧
      blank fact = false) (indicesWhere true judged) admission.keyFacts := by
    rw [hkeys]
    refine forall₂_pick ?_
    intro i hi
    obtain ⟨r,hr,hverdict⟩ := hopen i hi
    obtain ⟨fact,-,-,hfact,hblank,-⟩ := judged_open hjudged hr hverdict
    exact ⟨fact,hfact,hfact,hblank⟩
  have hown : List.Forall₂ (fun i group => ∃ groups refs,
      validGroups (mem.get? "fact_source_refs") = some groups ∧ groups[i]? = some refs ∧
        OwnEvidence env messages profile seqs refs group) (indicesWhere true judged)
      admission.factSourceEvidence := by
    rw [hgroups,List.forall₂_map_right_iff]
    refine forall₂_pick ?_
    intro i hi
    obtain ⟨r,hr,hverdict⟩ := hopen i hi
    obtain ⟨-,groups,refs,-,-,hvalid,hrefs,hevidence⟩ := judged_open hjudged hr hverdict
    exact ⟨r,hr,groups,refs,hvalid,hrefs,hevidence⟩
  have hflatten : indicesWhere true judged ≠ [] → admission.factSourceEvidence.flatten ≠ [] := by
    intro hsome
    refine flatten_ne_nil hown hsome ?_
    rintro i group ⟨_,_,_,_,hevidence⟩ rfl
    exact absurd hevidence.user (by decide)
  have hmetadata : ∀ key, key = "key_facts" ∨ key = "fact_source_evidence" →
      (applyAdmissionMetadata metadata admission messages trusted).get? key =
        (storageMetadata env (applyFactAdmission env mem admission topics).1 isGroupChat).get?
          key := by
    intro key hkey
    obtain ⟨bindings,-,rfl⟩ := buildStorageFormat_spec hrecord
    rcases hkey with rfl | rfl
    · rw [applyAdmissionMetadata_get? (by decide) (by decide) (by decide), get?_setWhere_of_ne (by decide)]
    · rw [applyAdmissionMetadata_get? (by decide) (by decide) (by decide), get?_setWhere_of_ne (by decide)]
  refine ⟨indicesWhere true judged,?_⟩
  exact {
    increasing := indicesWhere_increasing true judged
    inRange := by
      intro i hi
      obtain ⟨r,hr,hverdict⟩ := hopen i hi
      obtain ⟨fact,-,-,hfact,-⟩ := judged_open hjudged hr hverdict
      exact (List.getElem?_eq_some_iff.mp hfact).1
    partition := by
      intro i hi
      have hin : i < judged.length := by omega
      rw [indicesWhere_partition hin,← hproject]
      rfl
    facts := hfacts.imp fun _ _ hfact => hfact.1
    groups := hown
    stored := by
      intro hsome
      rw [List.isEmpty_eq_false_iff.mpr hsome] at hallowed
      have hblank : ∀ fact ∈ admission.keyFacts, blank fact = false := by
        intro fact hfact
        obtain ⟨i,_,hi⟩ := ListLaws.forall₂_right hfacts hfact
        exact hi.2
      rw [hmetadata _ (.inl rfl),hmetadata _ (.inr rfl),
        storageMetadata_get? (by decide) (by decide),storageMetadata_get? (by decide) (by decide),
        applyFactAdmission_get? (.inl rfl) hallowed,
        applyFactAdmission_get? (.inr rfl) hallowed,Dict.get?_set_self,
        Dict.get?_set_of_ne (by decide),Dict.get?_set_self,storedFacts_texts hblank]
      exact ⟨rfl,rfl⟩
    storedNone := by
      intro hnone
      rw [hnone] at hallowed
      rw [hmetadata _ (.inr rfl),storageMetadata_get? (by decide) (by decide),
        applyFactAdmission_refused hallowed]
      rfl
    rebuilt := by
      intro hsome hrebuilt
      have hsummary : admission.grounding.evidence = admission.factSourceEvidence.flatten := by
        subst hproject
        exact project_summary hsome hrebuilt
      have hsubjects : admission.subjectEvidence = admission.factSourceEvidence.flatten := by
        have hne := hflatten hsome
        subst hproject
        exact project_subjects hne
      obtain ⟨bindings,-,rfl⟩ := buildStorageFormat_spec hrecord
      unfold applyAdmissionMetadata
      dsimp only
      rw [get?_setWhere_of_ne (by decide),Dict.get?_set_self,hsummary,hsubjects]
      refine ⟨rfl,?_⟩
      rw [get?_setWhere,Dict.get?_set_of_ne (by decide),Dict.get?_set_of_ne (by decide),
        get?_setWhere_of_ne (by decide),storageMetadata_get? (by decide) (by decide)]
      cases (referencedSubjectIds admission.factSourceEvidence.flatten messages trusted).isEmpty
      · rfl
      · rfl
    bindings := by
      obtain ⟨facts,hfacts,hbindings⟩ := buildStorageFormat_bindings hrecord
      refine ⟨facts,?_,?_⟩
      · rw [applyAdmissionMetadata_get? (by decide) (by decide) (by decide),hfacts]
      · intro value hvalue
        rw [applyAdmissionMetadata_get? (by decide) (by decide) (by decide)] at hvalue
        exact hbindings value hvalue }

def cupsEnv : GroundingEnv where
  fingerprint _ _ := "0000000000000000000000000000000000000000000000000000000000000000"
  lower s := s
  casefold s := s
  text _ := ""
  supportScore _ _ _ := 1
  validateGroupSubject _ _ _ _ _ := none
  validateNumbers claim _ _ :=
    if claim.toList.contains '3' then some "grounding_numeric_conflict" else none
  validateNegation _ _ _ := none

def cupsMessage : Message := ⟨7,"user","2 cups","u1"⟩

def cupsReference : Json :=
  .obj [("message_index",.int 0),("start",.int 0),("end",.int 6)]

variable (facts : List String)

def cupsCandidate : Metadata where
  entries := [("summary",.str "2 cups a day"),("key_facts",textsJson facts),
    ("source_refs",.arr [cupsReference]), ("fact_source_refs",.arr (facts.map fun _ => .arr [cupsReference]))]

def cupsRecord : Option StoredRecord :=
  storeCandidate cupsEnv (fun _ => .unavailable) (cupsCandidate facts) [cupsMessage] false {}
    (some [some 4]) true [] (1 / 2) "" ["u1"]

def cupsEvidence : List (List RefKey) :=
  (validateFacts cupsEnv (cupsCandidate facts) [cupsMessage] false {} (some [some 4])).map
    fun r => r.evidence.map refKey

def cupsKey : RefKey :=
  ⟨7,4,"user",0,6,"0000000000000000000000000000000000000000000000000000000000000000"⟩

theorem storeCandidate_attributes_sample :
    ∃ s accepted, cupsRecord ["2 cups","3 cups"] = some s ∧
      Attributed cupsEnv (cupsCandidate ["2 cups","3 cups"]) [cupsMessage] {} (some [some 4])
        ["u1"] s accepted := by
  have hsome : (cupsRecord ["2 cups","3 cups"]).isSome = true := by decide +kernel
  obtain ⟨s,hs⟩ := Option.isSome_iff_exists.mp hsome
  obtain ⟨accepted,h⟩ := storeCandidate_attributes cupsEnv (fun _ => .unavailable)
    (cupsCandidate ["2 cups","3 cups"]) [cupsMessage] false {} (some [some 4]) true []
    (1 / 2) "" ["u1"] s hs
  exact ⟨s,accepted,hs,h⟩

/-- A refused fact cites the span that an admitted one cites: its evidence stands among the
facts' evidence and in the evidence of the rebuilt summary. Where the only fact is refused, its
evidence stays with the summary, and the subject is taken from it. -/
theorem refused_fact_shares_evidence :
    ((cupsRecord ["2 cups","3 cups"]).map fun s => (s.admission.summaryRebuilt,
      s.admission.rejected,s.admission.factSourceEvidence.map (·.map refKey),
      s.admission.grounding.evidence.map refKey)) = some (true,[1],[[cupsKey]],[cupsKey]) ∧
    cupsEvidence ["2 cups","3 cups"] = [[cupsKey],[cupsKey]] ∧
    ((cupsRecord ["3 cups"]).map fun s => (s.admission.summaryRebuilt,s.admission.rejected,
      s.admission.grounding.evidence.map refKey,s.admission.subjectEvidence.map refKey)) =
        some (true,[0],[cupsKey],[cupsKey]) ∧
    cupsEvidence ["3 cups"] = [[cupsKey]] := by
  refine ⟨?_,?_,?_,?_⟩
  · decide +kernel
  · decide +kernel
  · decide +kernel
  · decide +kernel

end Memora.Grounding

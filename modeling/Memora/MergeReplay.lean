import Memora.MergeModels

/-! A merge changes only the fields it counts with, and keeps a memory mergeable for every candidate
it was mergeable for. So a candidate is recognised as long as its key is remembered, which it is
until as many other keys have come as a memory remembers. -/
namespace Memora.Merging
open FirstSeen
open Memora.Representation (Json Metadata Row Unicode FactTextAlignment blank token recallable
  factsAligned pairedFacts normalizeFact)
open Memora.Atoms (hasUserSourceEvidence isResolvedSourceReference sourceRole)

variable {env : MergeEnv} {c d : MergeCandidate} {m : Metadata} {row : Row} {key : String}
    {α β : Type*}

def mergeFields : List String :=
  ["importance","merge_count","last_merged_at","merged_idempotency_keys","source_refs",
    "topics","fact_source_evidence","topic_observed_at"]

lemma get?_setItems_of_ne {key key' : String} (h : key' ≠ key) (l : List Json)
    (updates : Metadata) : (setItems key l updates).get? key' = updates.get? key' := by
  unfold setItems
  by_cases hempty : l.isEmpty = true
  · rw [if_pos hempty]
  · rw [if_neg hempty]
    exact Dict.get?_set_of_ne h

lemma get?_mergeUpdates_of_ne (htopic : key ≠ "topic_observed_at")
    (c : MergeCandidate) (m : Metadata) (evidence : List (List Metadata)) (clock : ℚ) :
    (mergeUpdates env c m evidence clock).get? key =
      if key = "fact_source_evidence" then some (evidenceJson evidence)
      else (setItems "topics" (union env (m.get? "topics") (c.metadata.get? "topics") maxTopics)
        (setItems "source_refs" (union env (m.get? "source_refs") (c.metadata.get? "source_refs")
          maxSourceRefs) (countUpdates env c m clock))).get? key := by
  unfold mergeUpdates
  dsimp only
  split
  · rw [Dict.get?_set_of_ne htopic,Dict.get?_set]
  · rw [Dict.get?_set]

lemma get?_mergeUpdates_evidence (c : MergeCandidate) (m : Metadata)
    (evidence : List (List Metadata)) (clock : ℚ) :
    (mergeUpdates env c m evidence clock).get? "fact_source_evidence" =
    some (evidenceJson evidence) := by
  rw [get?_mergeUpdates_of_ne (by decide),if_pos rfl]

lemma get?_mergeUpdates_keys (c : MergeCandidate) (m : Metadata) (evidence : List (List Metadata))
    (clock : ℚ) :
    (mergeUpdates env c m evidence clock).get? "merged_idempotency_keys" =
      some (.arr ((mergeKeys m c.idempotencyKey).map .str)) := by
  rw [get?_mergeUpdates_of_ne (by decide),if_neg (by decide),get?_setItems_of_ne (by decide),
    get?_setItems_of_ne (by decide)]
  unfold countUpdates
  rw [Dict.get?_set,if_pos rfl]

lemma get?_mergeUpdates_other (h : key ∉ mergeFields) (c : MergeCandidate)
    (m : Metadata) (evidence : List (List Metadata)) (clock : ℚ) :
    (mergeUpdates env c m evidence clock).get? key = none := by
  simp only [mergeFields,List.mem_cons,List.not_mem_nil,or_false,not_or] at h
  obtain ⟨himportance,hcount,hlast,hkeys,hrefs,htopics,hevidence,hobserved⟩ := h
  rw [get?_mergeUpdates_of_ne hobserved,if_neg hevidence,get?_setItems_of_ne htopics,
    get?_setItems_of_ne hrefs]
  unfold countUpdates
  rw [Dict.get?_set_of_ne hkeys,Dict.get?_set_of_ne hlast,Dict.get?_set_of_ne hcount,
    Dict.get?_set_of_ne himportance]
  rfl

lemma get?_written_other (h : key ∉ mergeFields) (c : MergeCandidate) (row : Row)
    (evidence : List (List Metadata)) (clock : ℚ) (stamp : String) :
    ((written env c row evidence clock stamp).metadata.getD {}).get? key =
    (row.metadata.getD {}).get? key := by
  unfold written
  rw [Option.getD_some,Dict.get?_update,get?_mergeUpdates_other h]
  rfl

lemma get?_written_evidence (c : MergeCandidate) (row : Row) (evidence : List (List Metadata))
    (clock : ℚ) (stamp : String) :
    ((written env c row evidence clock stamp).metadata.getD {}).get? "fact_source_evidence" =
      some (evidenceJson evidence) := by
  unfold written
  rw [Option.getD_some,Dict.get?_update,get?_mergeUpdates_evidence]
  rfl

lemma mergedKeys_written (c : MergeCandidate) (row : Row) (evidence : List (List Metadata))
    (clock : ℚ) (stamp : String) : mergedKeys
    ((written env c row evidence clock stamp).metadata.getD {}) =
      (mergeKeys (row.metadata.getD {}) c.idempotencyKey).filter fun s => !blank s := by
  have hkeys : ((written env c row evidence clock stamp).metadata.getD {}).get? "merged_idempotency_keys" =
        some (.arr ((mergeKeys (row.metadata.getD {}) c.idempotencyKey).map .str)) := by
    unfold written
    rw [Option.getD_some,Dict.get?_update,get?_mergeUpdates_keys]
    rfl
  unfold mergedKeys
  rw [hkeys,items,List.filterMap_map,← List.filterMap_eq_filter]
  apply List.filterMap_congr
  intro s _
  simp only [Function.comp_apply,keyText,Option.guard]
  by_cases hblank : blank s = true <;> simp [hblank]

/-- A group a merge retains: complete, with a message of the user, bounded and without
repetitions. -/
structure Retained (group : List Metadata) : Prop where
  user : hasUserSourceEvidence group = true
  bounded : group.length ≤ maxSourceEvidence
  distinct : (group.map refKey).Nodup

lemma mergeGroup_retained {group additions merged : List Metadata}
    (h : mergeGroup group additions = some merged) : Retained merged := by
  unfold mergeGroup at h
  by_cases huser : hasUserSourceEvidence
      ((firstSeen refKey [] (group++additions)).take maxSourceEvidence) = true
  · rw [if_pos huser] at h
    cases h
    refine ⟨huser,List.length_take_le _ _,?_⟩
    rw [List.map_take]
    exact (firstSeen_distinct _ _).1.sublist (List.take_sublist _ _)
  · rw [if_neg huser] at h
    cases h

lemma hasUserSourceEvidence_append {group later : List Metadata}
    (h : hasUserSourceEvidence group = true)
    (hlater : ∀ d ∈ later, isResolvedSourceReference d = true) :
    hasUserSourceEvidence (group++later) = true := by
  unfold hasUserSourceEvidence at h ⊢
  simp only [Bool.and_eq_true,Bool.not_eq_true',List.all_eq_true,List.any_eq_true] at h ⊢
  obtain ⟨⟨hne,hall⟩,user,huser,hrole⟩ := h
  refine ⟨⟨?_,?_⟩,user,List.mem_append_left _ huser,hrole⟩
  · cases group with
    | nil => cases hne
    | cons d group => rfl
  · intro d hd
    rcases List.mem_append.mp hd with hd | hd
    · exact hall d hd
    · exact hlater d hd

lemma Retained.mergeGroup {group additions : List Metadata} (h : Retained group)
    (hadd : ∀ d ∈ additions, isResolvedSourceReference d = true) :
    ∃ merged, mergeGroup group additions = some merged := by
  obtain ⟨later,hseen,hsub⟩ := firstSeen_append refKey [] group additions
  rw [firstSeen_of_distinct h.distinct (by simp)] at hseen
  unfold Merging.mergeGroup
  rw [hseen,List.take_append,List.take_of_length_le h.bounded]
  rw [if_pos]
  · exact ⟨_,rfl⟩
  · refine hasUserSourceEvidence_append h.user ?_
    intro d hd
    exact hadd d (hsub.subset (List.mem_of_mem_take hd))

lemma reference_entries (d : Metadata) : reference (.obj d.entries) = some d := by
  exact congrArg some (Dict.ofEntries_entries d)

lemma mapM_reference (group : List Metadata) :
    (group.map fun d => Json.obj d.entries).mapM reference = some group := by
  induction group with
  | nil => rfl
  | cons d group ih =>
    rw [List.map_cons,List.mapM_cons,reference_entries,ih]
    rfl

lemma mapM_userGroup {groups : List (List Metadata)}
    (h : ∀ group ∈ groups, hasUserSourceEvidence group = true) :
    (groups.map fun group => Json.arr (group.map fun d => .obj d.entries)).mapM userGroup =
      some groups := by
  induction groups with
  | nil => rfl
  | cons group groups ih =>
    have hgroup : userGroup (.arr (group.map fun d => .obj d.entries)) = some group := by
      rw [userGroup,mapM_reference,Option.filter_some,if_pos (h group (by simp))]
    rw [List.map_cons,List.mapM_cons,hgroup,ih fun g hg => h g (by simp [hg])]
    rfl

lemma pairedFacts_some {keyFacts evidence : Option Json} {facts : List Json}
    (h : pairedFacts keyFacts evidence = some facts) :
    keyFacts = some (.arr facts) ∧ facts.length = (items evidence).length ∧
      ∀ groups : List Json, groups.length = facts.length →
        pairedFacts keyFacts (some (.arr groups)) = some facts := by
  unfold pairedFacts at h
  split at h
  · rename_i l groups
    by_cases hok : (!l.isEmpty && l.all Json.isFact && groups.length = l.length) = true
    · rw [if_pos hok] at h
      cases h
      simp only [Bool.and_eq_true,decide_eq_true_eq] at hok
      refine ⟨rfl,hok.2.symm,?_⟩
      intro groups' hlength
      unfold pairedFacts
      simp only
      rw [if_pos]
      simp only [Bool.and_eq_true,decide_eq_true_eq]
      exact ⟨hok.1,hlength⟩
    · rw [if_neg hok] at h
      cases h
  · cases h

theorem mapM_eq_some {f : α → Option β} {l : List α} {r : List β} :
    l.mapM f = some r ↔ List.Forall₂ (fun a b => f a = some b) l r := by
  induction l generalizing r with
  | nil =>
    rw [List.mapM_nil,List.forall₂_nil_left_iff]
    exact ⟨fun h => (Option.some.inj h).symm,fun h => congrArg some h.symm⟩
  | cons a l ih =>
    rw [List.mapM_cons,List.forall₂_cons_left_iff]
    constructor
    · intro h
      obtain ⟨b,hb,h⟩ := Option.bind_eq_some_iff.mp h
      obtain ⟨bs,hbs,h⟩ := Option.bind_eq_some_iff.mp h
      cases h
      exact ⟨b,bs,hb,ih.mp hbs,rfl⟩
    · rintro ⟨b,bs,hb,hbs,rfl⟩
      rw [hb,ih.mpr hbs]
      rfl

lemma mapM_mem {f : α → Option β} {l : List α} {r : List β}
    (h : l.mapM f = some r) {b : β} (hb : b ∈ r) : ∃ a ∈ l, f a = some b := by
  have hall := mapM_eq_some.mp h
  clear h
  induction hall with
  | nil => simp at hb
  | @cons a b' l r hab _ ih =>
    rcases List.mem_cons.mp hb with rfl | hb
    · exact ⟨a,by simp,hab⟩
    · obtain ⟨a',ha',hf⟩ := ih hb
      exact ⟨a',by simp [ha'],hf⟩

lemma factGroups_written {owner : List (String × List Metadata)}
    (howner : factGroups (row.metadata.getD {}) = some owner) {evidence : List (List Metadata)}
    (hlength : evidence.length = owner.length)
    (huser : ∀ group ∈ evidence, hasUserSourceEvidence group = true) (c : MergeCandidate)
    (clock : ℚ) (stamp : String) : factGroups
    ((written env c row evidence clock stamp).metadata.getD {}) =
      some ((owner.map Prod.fst).zip evidence) := by
  unfold factGroups at howner
  split at howner
  · rename_i facts hpaired
    obtain ⟨groups,hgroups,rfl⟩ := Option.map_eq_some_iff.mp howner
    obtain ⟨-,hitems,hother⟩ := pairedFacts_some hpaired
    have hcount : groups.length = facts.length := by
      rw [hitems]
      exact (mapM_eq_some.mp hgroups).length_eq.symm
    have hsame : evidence.length = facts.length := by
      rw [hlength,List.length_zip,List.length_map,hcount,min_self]
    have hnew := hother
      (evidence.map fun group => Json.arr (group.map fun d => .obj d.entries)) (by simpa using hsame)
    unfold factGroups
    rw [get?_written_evidence,get?_written_other (by decide),evidenceJson,hnew]
    simp only [items]
    rw [mapM_userGroup huser,Option.map_some,List.map_fst_zip]
    rw [List.length_map,hcount]
  · cases howner

lemma resolved_additions {incoming : Metadata} {added : List (String × List Metadata)}
    (h : factGroups incoming = some added) (fact : String) :
    ∀ d ∈ additions env added fact, isResolvedSourceReference d = true := by
  intro d hd
  obtain ⟨g,hg,hmem⟩ := List.mem_flatMap.mp hd
  have hadded : g ∈ added := (List.mem_filter.mp hg).1
  unfold factGroups at h
  split at h
  · obtain ⟨groups,hgroups,rfl⟩ := Option.map_eq_some_iff.mp h
    obtain ⟨j,-,hj⟩ := mapM_mem hgroups (List.of_mem_zip hadded).2
    have huser : hasUserSourceEvidence g.2 = true := by
      unfold userGroup at hj
      split at hj
      · exact (Option.filter_eq_some_iff.mp hj).2
      · cases hj
    unfold hasUserSourceEvidence at huser
    simp only [Bool.and_eq_true,List.all_eq_true] at huser
    exact huser.1.2 d hmem
  · cases h

lemma mergeFactEvidence_spec {existing incoming : Metadata} {evidence : List (List Metadata)}
    (h : mergeFactEvidence env existing incoming = some evidence) :
    ∃ owner added, factGroups existing = some owner ∧ factGroups incoming = some added ∧
      (added.all fun a => owner.any fun o => factKey env o.1 = factKey env a.1) = true ∧
      evidence.length = owner.length ∧ ∀ group ∈ evidence, Retained group := by
  unfold mergeFactEvidence at h
  split at h
  · rename_i owner added howner hadded
    by_cases hall : (added.all fun a => owner.any fun o => factKey env o.1 = factKey env a.1) = true
    · rw [if_pos hall] at h
      refine ⟨owner,added,howner,hadded,hall,(mapM_eq_some.mp h).length_eq.symm,?_⟩
      intro group hgroup
      obtain ⟨o,-,ho⟩ := mapM_mem h hgroup
      exact mergeGroup_retained ho
    · rw [if_neg hall] at h
      cases h
  · cases h

lemma mapM_isSome {f : α → Option β} {l : List α}
    (h : ∀ a ∈ l, ∃ b, f a = some b) : ∃ r, l.mapM f = some r := by
  induction l with
  | nil => exact ⟨[],rfl⟩
  | cons a l ih =>
    obtain ⟨b,hb⟩ := h a (by simp)
    obtain ⟨r,hr⟩ := ih fun x hx => h x (by simp [hx])
    refine ⟨b::r,?_⟩
    rw [List.mapM_cons,hb,hr]
    rfl

/-- A candidate whose evidence can be merged can still be merged after another merge. -/
theorem mergeFactEvidence_written {evidence merged : List (List Metadata)}
    (hc : mergeFactEvidence env (row.metadata.getD {}) c.metadata = some merged)
    (hd : mergeFactEvidence env (row.metadata.getD {}) d.metadata = some evidence) (clock : ℚ)
    (stamp : String) : ∃ again, mergeFactEvidence env
      ((written env d row evidence clock stamp).metadata.getD {}) c.metadata = some again := by
  obtain ⟨owner,added,howner,hadded,hall,-,-⟩ := mergeFactEvidence_spec hc
  obtain ⟨owner',-,howner',-,-,hlength,hretained⟩ := mergeFactEvidence_spec hd
  obtain rfl : owner = owner' := Option.some.inj (howner.symm.trans howner')
  have hnew : factGroups ((written env d row evidence clock stamp).metadata.getD {}) =
      some ((owner.map Prod.fst).zip evidence) :=
    factGroups_written howner hlength (fun g hg => (hretained g hg).user) d clock stamp
  have hfacts : ((owner.map Prod.fst).zip evidence).map Prod.fst = owner.map Prod.fst :=
    List.map_fst_zip (by rw [List.length_map,hlength])
  unfold mergeFactEvidence
  rw [hnew,hadded]
  simp only
  have hsame : (added.all fun a => ((owner.map Prod.fst).zip evidence).any fun o =>
      factKey env o.1 = factKey env a.1) = true := by
    rw [List.all_eq_true] at hall ⊢
    intro a ha
    obtain ⟨o,ho,hkey⟩ := List.any_eq_true.mp (hall a ha)
    have hmem : o.1 ∈ ((owner.map Prod.fst).zip evidence).map Prod.fst := by
      rw [hfacts]
      exact List.mem_map_of_mem ho
    obtain ⟨o',ho',heq⟩ := List.mem_map.mp hmem
    exact List.any_eq_true.mpr ⟨o',ho',by rw [heq]; exact hkey⟩
  rw [if_pos hsame]
  refine mapM_isSome ?_
  intro o ho
  exact (hretained o.2 (List.of_mem_zip ho).2).mergeGroup (resolved_additions hadded o.1)

section Written

variable {evidence : List (List Metadata)} (clock : ℚ) (stamp : String)
    {merged : List (List Metadata)}

lemma pairedFacts_written (hd : mergeFactEvidence env (row.metadata.getD {}) d.metadata =
    some evidence) :
    pairedFacts (((written env d row evidence clock stamp).metadata.getD {}).get? "key_facts")
      (((written env d row evidence clock stamp).metadata.getD {}).get? "fact_source_evidence") =
      pairedFacts ((row.metadata.getD {}).get? "key_facts")
        ((row.metadata.getD {}).get? "fact_source_evidence") := by
  obtain ⟨owner,-,howner,-,-,hlength,-⟩ := mergeFactEvidence_spec hd
  unfold factGroups at howner
  split at howner
  · rename_i facts hpaired
    obtain ⟨groups,hgroups,rfl⟩ := Option.map_eq_some_iff.mp howner
    obtain ⟨-,hitems,hother⟩ := pairedFacts_some hpaired
    have hcount : groups.length = facts.length := by
      rw [hitems]
      exact (mapM_eq_some.mp hgroups).length_eq.symm
    have hsame : evidence.length = facts.length := by
      rw [hlength,List.length_zip,List.length_map,hcount,min_self]
    rw [get?_written_evidence,get?_written_other (by decide),evidenceJson,hpaired]
    exact hother _ (by simpa using hsame)
  · cases howner

lemma storedScope_written (d : MergeCandidate) (row : Row) :
    storedScope ((written env d row evidence clock stamp).metadata.getD {}) =
      storedScope (row.metadata.getD {}) := by
  have hother : ∀ key, key ∉ mergeFields →
      ((written env d row evidence clock stamp).metadata.getD {}).get? key = (row.metadata.getD {}).get? key :=
    fun key h => get?_written_other h d row evidence clock stamp
  unfold storedScope buildScope
  rw [hother "scope_key" (by decide),hother "privacy_level" (by decide),
    hother "session_id" (by decide),hother "persona_id" (by decide),
    hother "chat_type" (by decide),hother "participant_ids" (by decide)]

lemma recallable_written (d : MergeCandidate) (row : Row) :
    recallable ((written env d row evidence clock stamp).metadata.getD {}) =
      recallable (row.metadata.getD {}) := by
  have hother : ∀ key, key ∉ mergeFields →
      ((written env d row evidence clock stamp).metadata.getD {}).get? key = (row.metadata.getD {}).get? key :=
    fun key h => get?_written_other h d row evidence clock stamp
  unfold recallable
  rw [hother "memory_status" (by decide),hother "status" (by decide),
    hother "summary_source_orphan" (by decide)]

lemma mergeable_some {document : DedupDocument} : mergeable env c document row = some merged ↔
      ∃ incoming stored, candidateScope c = some incoming ∧ storedScope (row.metadata.getD {}) = some stored ∧
        (recallable (row.metadata.getD {}) = true ∧ row.text = some document.content ∧
          factsAligned env.unicode row.text ((row.metadata.getD {}).get? "key_facts")
            ((row.metadata.getD {}).get? "fact_source_evidence") = .aligned ∧
          sameDedupScope incoming stored = true ∧
          env.equal (c.metadata.get? "revision_token") ((row.metadata.getD {}).get? "revision_token") = true ∧
          env.equal (c.metadata.get? "resolver_revision")
            ((row.metadata.getD {}).get? "resolver_revision") = true) ∧
        mergeFactEvidence env (row.metadata.getD {}) c.metadata = some merged := by
  unfold mergeable
  dsimp only
  constructor
  · intro h
    split at h
    · rename_i incoming stored hincoming hstored
      obtain ⟨hchecks,hmerged⟩ := Option.ite_none_right_eq_some.mp h
      simp only [Bool.and_eq_true,decide_eq_true_eq] at hchecks
      obtain ⟨⟨⟨⟨⟨h1,h2⟩,h3⟩,h4⟩,h5⟩,h6⟩ := hchecks
      exact ⟨incoming,stored,hincoming,hstored,⟨h1,h2,h3,h4,h5,h6⟩,hmerged⟩
    · cases h
  · rintro ⟨incoming,stored,hincoming,hstored,⟨h1,h2,h3,h4,h5,h6⟩,hmerged⟩
    rw [hincoming,hstored]
    refine Option.ite_none_right_eq_some.mpr ⟨?_,hmerged⟩
    simp only [Bool.and_eq_true,decide_eq_true_eq]
    exact ⟨⟨⟨⟨⟨h1,h2⟩,h3⟩,h4⟩,h5⟩,h6⟩

theorem mergeable_written {document document' : DedupDocument}
    (hc : mergeable env c document row = some merged)
    (hd : mergeable env d document' row = some evidence) :
    ∃ again, mergeable env c document (written env d row evidence clock stamp) = some again := by
  obtain ⟨incoming,stored,hincoming,hstored,⟨h1,h2,h3,h4,h5,h6⟩,hmerged⟩ := mergeable_some.mp hc
  obtain ⟨-,-,-,-,-,hevidence⟩ := mergeable_some.mp hd
  obtain ⟨again,hagain⟩ := mergeFactEvidence_written hmerged hevidence clock stamp
  have hother : ∀ key, key ∉ mergeFields →
      ((written env d row evidence clock stamp).metadata.getD {}).get? key = (row.metadata.getD {}).get? key :=
    fun key h => get?_written_other h d row evidence clock stamp
  refine ⟨again,mergeable_some.mpr ⟨incoming,stored,hincoming,?_,⟨?_,h2,?_,h4,?_,?_⟩, hagain⟩⟩
  · rw [storedScope_written]
    exact hstored
  · rw [recallable_written]
    exact h1
  · unfold factsAligned
    rw [pairedFacts_written clock stamp hevidence]
    exact h3
  · rw [hother "revision_token" (by decide)]
    exact h5
  · rw [hother "resolver_revision" (by decide)]
    exact h6

end Written

structure MergeCall where
  candidate : MergeCandidate
  document : DedupDocument
  answers : Answers

def MergeCall.apply (env : MergeEnv) (owner : Option Row) (call : MergeCall) : Option Row :=
  (applyMerge env call.candidate call.document call.answers owner).2

def runMerges (env : MergeEnv) (owner : Option Row) (calls : List MergeCall) : Option Row :=
  calls.foldl (MergeCall.apply env) owner

def WriteAnswer.stamp : WriteAnswer → Option String
  | .applied stamp | .unconfirmed stamp => some stamp
  | .refused => none
  | .cancelled stamp => stamp

def MergeCall.committed (env : MergeEnv) (owner : Option Row) (call : MergeCall) : Option Row :=
  if call.answers.loads then
    owner.bind fun row => (mergeable env call.candidate call.document row).bind fun evidence =>
      if remembered call.candidate (row.metadata.getD {}) || memoryRevision env row = "" then none
      else call.answers.write.stamp.map (written env call.candidate row evidence call.answers.clock)
  else none

def recorded (env : MergeEnv) : Option Row → List MergeCall → ℕ
  | _, [] => 0
  | owner, call::calls =>
    (if (call.committed env owner).isSome && call.candidate.idempotencyKey ≠ "" then 1 else 0) +
      recorded env (call.apply env owner) calls

lemma apply_eq (env : MergeEnv) (owner : Option Row) (call : MergeCall) :
    call.apply env owner = (call.committed env owner).or owner := by
  unfold MergeCall.apply MergeCall.committed applyMerge
  cases hloads : call.answers.loads with
  | false => rfl
  | true =>
    cases owner with
    | none => rfl
    | some row =>
      simp only [Bool.not_true,Bool.false_eq_true,if_false,if_true,Option.bind_some]
      cases hm : mergeable env call.candidate call.document row with
      | none => rfl
      | some evidence =>
        by_cases hr : remembered call.candidate (row.metadata.getD {}) = true
        · simp [hr]
        · by_cases hrev : memoryRevision env row = ""
          · simp [hr,hrev]
          · simp only [hr,hrev,Bool.false_eq_true,if_false,decide_false,Bool.or_false]
            cases call.answers.write with
            | cancelled stamp => cases stamp <;> rfl
            | _ => rfl

variable {owner : Option Row} {age : ℕ}

lemma committed_some {call : MergeCall} {row' : Row} (h : call.committed env owner = some row') :
    ∃ row evidence stamp, owner = some row ∧ mergeable env call.candidate call.document row =
    some evidence ∧
      row' = written env call.candidate row evidence call.answers.clock stamp := by
  obtain ⟨-,h1⟩ := Option.ite_none_right_eq_some.mp h
  obtain ⟨row,hrow,h2⟩ := Option.bind_eq_some_iff.mp h1
  obtain ⟨evidence,hevidence,h3⟩ := Option.bind_eq_some_iff.mp h2
  obtain ⟨-,h4⟩ := Option.ite_none_left_eq_some.mp h3
  obtain ⟨stamp,-,hwritten⟩ := Option.map_eq_some_iff.mp h4
  exact ⟨row,evidence,stamp,hrow,hevidence,hwritten.symm⟩

/-- The owner takes the candidate, whose key is remembered with at most `age` newer ones. -/
def Takes (env : MergeEnv) (c : MergeCandidate) (document : DedupDocument) (age : ℕ)
    (owner : Option Row) : Prop :=
  ∃ row merged, owner = some row ∧ mergeable env c document row = some merged ∧
    Recent c.idempotencyKey age (mergedKeys (row.metadata.getD {}))

/-- A key stays remembered when another one comes, unless it was the oldest a memory holds. -/
theorem recent_mergeKeys (h : Recent key age (mergedKeys m))
    (newest : String) (hage : age+(if newest ≠ "" then 1 else 0) < maxMergedIdempotencyKeys) :
    Recent key (age+(if newest ≠ "" then 1 else 0)) (mergeKeys m newest) := by
  unfold mergeKeys
  by_cases hnew : (newest ≠ "" && newest ∉ mergedKeys m) = true
  · rw [if_pos hnew]
    simp only [Bool.and_eq_true,decide_eq_true_eq] at hnew
    rw [if_pos hnew.1] at hage ⊢
    exact (h.append newest).keepLast hage
  · rw [if_neg hnew]
    exact (h.keepLast (by omega)).mono (by omega)

variable {document : DedupDocument}

lemma Takes.step (h : Takes env c document age owner) (hkey : blank c.idempotencyKey = false)
    (call : MergeCall)
    (hage : age+(if (call.committed env owner).isSome && call.candidate.idempotencyKey ≠ "" then 1 else 0) < maxMergedIdempotencyKeys) :
    Takes env c document (age+(if (call.committed env owner).isSome &&
      call.candidate.idempotencyKey ≠ "" then 1 else 0)) (call.apply env owner) := by
  obtain ⟨row,merged,rfl,hc,hrecent⟩ := h
  rw [apply_eq]
  cases hcommit : call.committed env (some row) with
  | none =>
    exact ⟨row,merged,rfl,hc,hrecent.mono (by omega)⟩
  | some row' =>
    obtain ⟨row₀,evidence,stamp,heq,hd,rfl⟩ := committed_some hcommit
    cases heq
    obtain ⟨again,hagain⟩ := mergeable_written call.answers.clock stamp hc hd
    rw [hcommit] at hage
    simp only [Option.isSome_some,Bool.true_and,decide_eq_true_eq] at hage ⊢
    refine ⟨_,again,rfl,hagain,?_⟩
    rw [mergedKeys_written]
    exact (recent_mergeKeys hrecent _ hage).filter (by simp [hkey])

lemma Takes.run (hkey : blank c.idempotencyKey = false) (calls : List MergeCall)
    (h : Takes env c document age owner) (hage : age+recorded env owner calls < maxMergedIdempotencyKeys) :
    Takes env c document (age+recorded env owner calls) (runMerges env owner calls) := by
  induction calls generalizing age owner with
  | nil => exact h
  | cons call calls ih =>
    rw [recorded,← Nat.add_assoc] at hage ⊢
    exact ih (h.step hkey call (by omega)) hage

lemma idempotencyKey_ne (hkey : blank c.idempotencyKey = false) : c.idempotencyKey ≠ "" := by
  intro heq
  rw [heq] at hkey
  exact absurd hkey (by decide)

lemma Takes.replay (h : Takes env c document age owner)
    (hkey : blank c.idempotencyKey = false) (answers : Answers) (hloads : answers.loads = true) :
    applyMerge env c document answers owner = (some .merged,owner) := by
  obtain ⟨row,merged,rfl,hc,hrecent⟩ := h
  have hne := idempotencyKey_ne hkey
  have hremembered : remembered c (row.metadata.getD {}) = true := by
    unfold remembered
    simp [hne,hrecent.mem]
  unfold applyMerge
  simp [hloads,hc,hremembered]

/-- A candidate that is merged for the first time is the newest the owner remembers. -/
theorem takes_of_merged {answers : Answers} {row' : Row} (hkey : blank c.idempotencyKey = false)
    (hnew : c.idempotencyKey ∉ mergedKeys (row.metadata.getD {}))
    (hmerged : applyMerge env c document answers (some row) = (some .merged,some row')) :
    Takes env c document 0 (some row') := by
  have hne := idempotencyKey_ne hkey
  have hnot : remembered c (row.metadata.getD {}) = false := by
    unfold remembered
    simp [hnew]
  have hcommit : ∀ evidence stamp, mergeable env c document row = some evidence →
      Takes env c document 0 (some (written env c row evidence answers.clock stamp)) := by
    intro evidence stamp hm
    obtain ⟨again,hagain⟩ := mergeable_written answers.clock stamp hm hm
    refine ⟨_,again,rfl,hagain,?_⟩
    rw [mergedKeys_written]
    refine Recent.filter ?_ (by simp [hkey])
    unfold mergeKeys
    rw [if_pos (by simp [hne,hnew])]
    exact (recent_newest _ _).keepLast (by decide)
  unfold applyMerge at hmerged
  cases hloads : answers.loads with
  | false => simp [hloads] at hmerged
  | true =>
    simp only [hloads,Bool.not_true,Bool.false_eq_true,if_false] at hmerged
    cases hm : mergeable env c document row with
    | none => simp [hm] at hmerged
    | some evidence =>
      simp only [hm,hnot,Bool.false_eq_true,if_false] at hmerged
      by_cases hrev : memoryRevision env row = ""
      · simp [hrev] at hmerged
      · rw [if_neg hrev] at hmerged
        cases hwrite : answers.write with
        | applied stamp | unconfirmed stamp =>
          rw [hwrite] at hmerged
          obtain ⟨-,hrow⟩ := Prod.mk.inj hmerged
          rw [← hrow]
          exact hcommit evidence stamp hm
        | refused =>
          -- the key would have to be there without the update
          rw [hwrite] at hmerged
          obtain ⟨hstatus,-⟩ := Prod.mk.inj hmerged
          simp [mergeLanded,landedStatus,hnew] at hstatus
        | cancelled stamp =>
          rw [hwrite] at hmerged
          cases (Prod.mk.inj hmerged).1

/-- A candidate that was merged is recognised when it comes again, whatever was merged in
between, as long as fewer than sixteen of those merges recorded a key. -/
theorem merge_replays (env : MergeEnv) (c : MergeCandidate) (document : DedupDocument)
    (answers again : Answers) (row row' : Row) (later : List MergeCall)
    (hkey : blank c.idempotencyKey = false) (hnew : c.idempotencyKey ∉ mergedKeys (row.metadata.getD {}))
    (hmerged : applyMerge env c document answers (some row) = (some .merged,some row'))
    (hlater : recorded env (some row') later < maxMergedIdempotencyKeys)
    (hloads : again.loads = true) :
    applyMerge env c document again (runMerges env (some row') later) =
      (some .merged,runMerges env (some row') later) := by
  have htakes := takes_of_merged hkey hnew hmerged
  have hrun := htakes.run hkey later (by omega)
  exact hrun.replay hkey again hloads

def sampleEnv : MergeEnv where
  unicode := ⟨fun s => s,fun ch => [ch]⟩
  identity _ := ""
  equal a b := a.isNone && b.isNone
  parseFloat _ := none
  text _ := ""

def sampleFingerprint : String := String.ofList (List.replicate 64 '0')

/-- The metadata of a memory or a candidate with one fact, from one message of the user. -/
def sampleMetadata (message : ℤ) : Metadata :=
  { entries := [("session_id",.str "a"),("scope_key",.str "scope"),
      ("privacy_level",.str "shared"),("key_facts",.arr [.str "likes tea"]),
      ("fact_source_evidence",.arr [.arr [.obj [("message_id",.int message),
        ("message_seq",.int message),("role",.str "user"),("start",.int 0),("end",.int 9),
        ("message_fingerprint",.str sampleFingerprint)]]])] }

def sampleOwner : Row where
  id := 1
  text := some "likes tea"
  metadata := some (sampleMetadata 1)
  updatedAt := some "t0"

def sampleCandidate (key : String) : MergeCandidate where
  metadata := sampleMetadata 2
  importance := .int 1
  sessionId := "a"
  personaId := none
  idempotencyKey := key

def sampleAnswers : Answers where
  write := .applied "t1"
  clock := 1

def sampleCall (key : String) : MergeCall :=
  ⟨sampleCandidate key,⟨"likes tea"⟩,sampleAnswers⟩

def sampleCount (owner : Option Row) : ℤ := mergeCount ((owner.bind Row.metadata).getD {})

/-- One other merge in between: the candidate is recognised. -/
theorem merge_replays_sample :
    ∃ row', applyMerge sampleEnv (sampleCandidate "key") ⟨"likes tea"⟩ sampleAnswers
        (some sampleOwner) = (some .merged,some row') ∧
      applyMerge sampleEnv (sampleCandidate "key") ⟨"likes tea"⟩ sampleAnswers
        (runMerges sampleEnv (some row') [sampleCall "other"]) =
          (some .merged,runMerges sampleEnv (some row') [sampleCall "other"]) := by
  have hstatus : (applyMerge sampleEnv (sampleCandidate "key") ⟨"likes tea"⟩ sampleAnswers
      (some sampleOwner)).1 = some .merged := by decide +kernel
  have hsome : (applyMerge sampleEnv (sampleCandidate "key") ⟨"likes tea"⟩ sampleAnswers
      (some sampleOwner)).2.isSome = true := by decide +kernel
  obtain ⟨row',hrow⟩ := Option.isSome_iff_exists.mp hsome
  have hmerged : applyMerge sampleEnv (sampleCandidate "key") ⟨"likes tea"⟩ sampleAnswers
      (some sampleOwner) = (some .merged,some row') := Prod.ext hstatus hrow
  refine ⟨row',hmerged,?_⟩
  refine merge_replays sampleEnv (sampleCandidate "key") ⟨"likes tea"⟩ sampleAnswers sampleAnswers
    sampleOwner row' [sampleCall "other"] (by decide) (by decide +kernel) hmerged ?_ rfl
  unfold recorded recorded
  split <;> decide

/-- Sixteen other candidates make the memory forget the first: merging it again counts it a
second time. -/
theorem merge_forgets_key : (applyMerge sampleEnv (sampleCandidate "key") ⟨"likes tea"⟩
    sampleAnswers
      (some sampleOwner)).1 = some .merged ∧
    sampleCount (runMerges sampleEnv (some sampleOwner)
      (sampleCall "key"::("abcdefghijklmnop".toList.map fun ch =>
        sampleCall (String.ofList [ch])))) = 17 ∧
    sampleCount (runMerges sampleEnv (some sampleOwner)
      (sampleCall "key"::("abcdefghijklmnop".toList.map fun ch =>
        sampleCall (String.ofList [ch]))++[sampleCall "key"])) = 18 := by
  refine ⟨?_,?_,?_⟩ <;> decide +kernel

end Memora.Merging

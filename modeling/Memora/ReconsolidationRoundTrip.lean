import Memora.ReconsolidationManager

/-! The engine merges the metadata of a content update into the row. A field the payload leaves out
stays, the summary follows the text, and facts that do not match the text are dropped, so the
row is what the manager compares it with only for some shapes of metadata. -/
namespace Memora.Reconsolidation
open Engine
open Canonical (pythonStrip)

variable {env : Env} {m m' : MemoryRow} {base requested target : Metadata} {k : String}

variable {g : GuardedWrite}

lemma written_get? {content : String} {now : ℚ}
    (h : guardContent env base content (some requested) now = some g) :
    ((base.update g.metadata).popAll g.dropped).get? k =
      if k ∈ g.dropped then none
      else if k = "updated_at" then some (.num now)
      else if k = "canonical_summary" ∧ ((requested.get? k).or (base.get? k)).isSome then
        some (.str content)
      else (requested.get? k).or (base.get? k) := by
  obtain ⟨f,hf,rfl⟩ := Option.map_eq_some_iff.mp h
  have hget := (guardFacts_get? hf).2
  rw [Dict.get?_popAll]
  split
  · rfl
  rename_i hkept
  rw [Dict.get?_update,Dict.get?_set]
  split
  · rfl
  rw [followSummary_get?,hget,if_neg hkept,Dict.get?_update,Option.getD_some]
  split
  · rfl
  · rw [Option.or_assoc,Option.or_self]

/-- Without facts of its own an update drops those that do not match the text. -/
theorem dropped_of_factless {content : String} {now : ℚ}
    (hfacts : requested.get? "key_facts" = none)
    (hevidence : requested.get? "fact_source_evidence" = none)
    (h : guardContent env base content (some requested) now = some g) (hk : k ∈ factKeys) :
    k ∈ g.dropped ↔ ((requested.get? k).or (base.get? k)).isSome ∧
      factsAligned env content (getValue base "key_facts")
        (getValue base "fact_source_evidence") ≠ .aligned := by
  obtain ⟨f,hf,rfl⟩ := Option.map_eq_some_iff.mp h
  have hbase : ∀ k, requested.get? k = none → getValue (base.update requested) k =
      getValue base k := by
    intro k hnone
    rw [getValue,getValue,Dict.get?_update,hnone,Option.none_or]
  rw [guardFacts,if_neg (by simp [hfacts,hevidence]),Option.getD_some,hbase _ hfacts,
    hbase _ hevidence] at hf
  split at hf
  · rename_i hne
    cases hf
    simp [hk,Dict.get?_update,hne]
  · rename_i hal
    cases hf
    simp [not_not.mp hal]

structure Updated (env : Env) (m : MemoryRow) (content : String) (requested : Metadata)
    (expected : String) (write : Write) (m' : MemoryRow) : Prop where
  available : write.available = true
  revision : m.revision env = expected
  unreplaced : (getValue m.metadata "replacement_pending").truthy = false
  content_ne : blank content = false
  text : m'.text = content
  updatedAt : m'.updatedAt = some write.updatedAt.text
  metadata : ∃ g, guardContent env m.metadata content (some requested) write.now = some g ∧
    m'.metadata = (m.metadata.update g.metadata).popAll g.dropped

lemma prepareContent_ok {observed content expected : String} {now : ℚ} :
    prepareContent env base observed content (some requested) expected now = .ok g ↔
      (observed ≠ "" ∧ observed = expected) ∧
        (getValue base "replacement_pending").truthy = false ∧ blank content = false ∧
        guardContent env base content (some requested) now = some g := by
  have hread : (observed ≠ "" ∧ observed = expected) ↔
      ¬(decide (observed = "") || decide (observed ≠ expected)) = true := by simp
  rw [hread]
  unfold prepareContent
  split
  · rename_i hmoved
    constructor
    · intro h
      cases h
    · intro h
      exact absurd hmoved h.1
  rename_i hobserved
  split
  · rename_i hreplace
    simp [hreplace]
  rename_i hreplace
  split
  · rename_i hblank
    simp [hblank]
  rename_i hblank
  have hrest : (getValue base "replacement_pending").truthy = false ∧ blank content = false :=
    ⟨by simpa using hreplace,by simpa using hblank⟩
  cases hg : guardContent env base content (some requested) now with
  | none => simp
  | some g' =>
    constructor
    · intro h
      exact ⟨hobserved,hrest.1,hrest.2,congrArg some (Except.ok.inj h)⟩
    · rintro ⟨-,-,-,h⟩
      exact congrArg Except.ok (Option.some.inj h)

lemma updateMemory_ok {content expected : String} {write : Write}
    (h : updateMemory env (some m) content requested expected write = .ok m') :
    Updated env m content requested expected write m' := by
  unfold updateMemory at h
  cases hp : prepareContent env m.metadata (m.revision env) content (some requested) expected
    write.now with
  | error e => simp [hp] at h
  | ok g =>
    simp only [hp] at h
    obtain ⟨hrevision,hreplace,hblank,hg⟩ := prepareContent_ok.mp hp
    cases hw : write.available with
    | false => simp [hw] at h
    | true =>
      simp only [hw,if_true] at h
      unfold updateContentIfRevision at h
      by_cases hsince : m.unchangedSince expected = true
      · simp [hblank,hsince] at h
        subst h
        exact ⟨hw,hrevision.2,hreplace,hblank,rfl,rfl,g,hg,rfl⟩
      · simp [hsince] at h

/-- On a row with a fresh time stamp an update succeeds where the retriever can write it, nobody
replaces the memory and the facts that are given match the text. -/
theorem updateMemory_of_stamp {content : String} {write : Write} {t : Stamp}
    (h : m.updatedAt = some t.text) (havailable : write.available = true)
    (hreplace : (getValue m.metadata "replacement_pending").truthy = false)
    (hblank : blank content = false)
    (hg : guardContent env m.metadata content (some requested) write.now = some g) :
    ∃ m', updateMemory env (some m) content requested t.text write = .ok m' := by
  have hp : prepareContent env m.metadata (m.revision env) content (some requested) t.text
      write.now = .ok g := by
    rw [prepareContent_ok,revision_of_stamp h]
    exact ⟨⟨t.strip.2,rfl⟩,hreplace,hblank,hg⟩
  unfold updateMemory
  dsimp only
  rw [hp]
  simp [havailable,updateContentIfRevision,hblank,unchangedSince_of_stamp h]

lemma metadataMatches_iff : metadataMatches base requested = true ↔
    ∀ k, k ≠ "updated_at" → (base.get? k).map comparable = (requested.get? k).map comparable := by
  rw [metadataMatches,Dict.same_iff]
  constructor
  · intro h k hk
    have hk' := h k
    rwa [Dict.get?_mapValues,Dict.get?_mapValues,Dict.get?_pop_of_ne hk, Dict.get?_pop_of_ne hk] at hk'
  · intro h k
    rw [Dict.get?_mapValues,Dict.get?_mapValues]
    by_cases hk : k = "updated_at"
    · have hgone : ∀ d : Metadata, (d.pop "updated_at").get? k = none := by
        intro d
        rw [Option.eq_none_iff_forall_ne_some]
        intro v hv
        exact (Dict.get?_pop.mp hv).2 hk
      rw [hgone,hgone]
    · rw [Dict.get?_pop_of_ne hk,Dict.get?_pop_of_ne hk]
      exact h k hk

lemma applyMetadataMatches_iff : applyMetadataMatches base requested = true ↔
    ∀ k, k ∉ factMetadataKeys → k ≠ "updated_at" →
      (base.get? k).map comparable = (requested.get? k).map comparable := by
  rw [applyMetadataMatches,metadataMatches_iff]
  unfold applyTargetMetadata
  constructor
  · intro h k hfact hupdated
    have hk := h k hupdated
    rwa [Dict.get?_popAll,Dict.get?_popAll,if_neg hfact,if_neg hfact] at hk
  · intro h k hupdated
    rw [Dict.get?_popAll,Dict.get?_popAll]
    by_cases hfact : k ∈ factMetadataKeys
    · rw [if_pos hfact,if_pos hfact]
    · rw [if_neg hfact,if_neg hfact]
      exact h k hfact hupdated

/-- Keys the payload of an application never has. -/
def payloadGone : List String :=
  ["key_facts","fact_source_evidence","reconsolidation_history","updated_at"]

lemma buildApplyPayload_get? {now : ℚ} (h : buildApplyPayload env base now = some target) :
    ∃ n : ℤ, ∀ k, target.get? k =
      if k ∈ payloadGone then none
      else if k = "last_reconsolidated_at" then some (.num now)
      else if k = "reconsolidation_count" then some (.num n)
      else base.get? k := by
  obtain ⟨n,-,rfl⟩ := Option.map_eq_some_iff.mp h
  refine ⟨n+1,fun k => ?_⟩
  apply Option.ext
  intro v
  rw [Dict.get?_pop,Dict.get?_pop,Dict.get?_set,Dict.get?_set,applyTargetMetadata, Dict.get?_popAll]
  by_cases hgone : k ∈ payloadGone
  · rw [if_pos hgone]
    simp only [payloadGone,List.mem_cons,List.not_mem_nil,or_false] at hgone
    rcases hgone with rfl | rfl | rfl | rfl <;> simp [factMetadataKeys]
  · rw [if_neg hgone]
    simp only [payloadGone,List.mem_cons,List.not_mem_nil,or_false,not_or] at hgone
    obtain ⟨hfacts,hevidence,hhistory,hupdated⟩ := hgone
    simp [factMetadataKeys,hfacts,hevidence,hhistory,hupdated]

def FactsMatch (env : Env) (m : MemoryRow) (content : String) : Prop :=
  factsAligned env content (getValue m.metadata "key_facts")
    (getValue m.metadata "fact_source_evidence") = .aligned

variable {content expected : String} {now : ℚ} {write : Write} {stamp : ℚ}

lemma Updated.applied_get? (h : Updated env m content target expected write m')
    (ht : buildApplyPayload env m.metadata now = some target) :
    ∃ dropped : List String, (∀ k ∈ dropped, k ∈ factKeys) ∧ (∀ k ∈ factKeys, k ∈ dropped ↔
        (m.metadata.get? k).isSome ∧ ¬FactsMatch env m content) ∧
      ∀ k, k ≠ "updated_at" → m'.metadata.get? k =
        if k ∈ dropped then none
        else if k = "canonical_summary" ∧ (m.metadata.get? k).isSome then some (.str content)
        else (target.get? k).or (m.metadata.get? k) := by
  obtain ⟨g,hg,hm'⟩ := h.metadata
  obtain ⟨n,hget⟩ := buildApplyPayload_get? ht
  have hkept : ∀ k, k ≠ "last_reconsolidated_at" → k ≠ "reconsolidation_count" →
      (target.get? k).or (m.metadata.get? k) = m.metadata.get? k := by
    intro k hlast hcount
    rw [hget,if_neg hlast,if_neg hcount]
    split
    · exact Option.none_or
    · exact Option.or_self
  refine ⟨g.dropped,(guardContent_get? hg).1,fun k hk => ?_,fun k hupdated => ?_⟩
  · have hnot : k ≠ "last_reconsolidated_at" ∧ k ≠ "reconsolidation_count" := by
      constructor <;> rintro rfl <;> simp [factKeys] at hk
    have hfacts : target.get? "key_facts" = none := by rw [hget]; simp [payloadGone]
    have hevidence : target.get? "fact_source_evidence" = none := by rw [hget]; simp [payloadGone]
    rw [dropped_of_factless hfacts hevidence hg hk,hkept k hnot.1 hnot.2]
    rfl
  · rw [hm',written_get? hg,if_neg hupdated]
    by_cases hsummary : k = "canonical_summary"
    · rw [hkept k (by simp [hsummary]) (by simp [hsummary])]
    · simp [hsummary]

/-- An application finds what it meant to write exactly when the memory has no history, its
summary is the new text already, and its bindings go with facts that match the new text. -/
theorem Updated.applyMatches_iff (h : Updated env m content target expected write m')
    (ht : buildApplyPayload env m.metadata now = some target) :
    applyMetadataMatches m'.metadata target = true ↔
    m.metadata.get? "reconsolidation_history" = none ∧
      (∀ v ∈ m.metadata.get? "canonical_summary", comparable v = .str content) ∧
      ((m.metadata.get? "fact_bindings").isSome → FactsMatch env m content) := by
  obtain ⟨dropped,hsub,hdropped,hrow⟩ := h.applied_get? ht
  obtain ⟨n,hget⟩ := buildApplyPayload_get? ht
  have hkeep : ∀ k, k ∉ factKeys → k ∉ dropped := fun k hk hd => hk (hsub k hd)
  rw [applyMetadataMatches_iff]
  constructor
  · intro hall
    refine ⟨?_,fun v hv => ?_,fun hbound => ?_⟩
    · have hk := hall "reconsolidation_history" (by simp [factMetadataKeys]) (by simp)
      rw [hrow _ (by simp),if_neg (hkeep _ (by simp [factKeys])),if_neg (by simp),hget,
        if_pos (by simp [payloadGone])] at hk
      simpa using hk
    · have hk := hall "canonical_summary" (by simp [factMetadataKeys]) (by simp)
      have hsome : (m.metadata.get? "canonical_summary").isSome = true := Option.isSome_iff_exists.mpr ⟨v,hv⟩
      rw [hrow _ (by simp),if_neg (hkeep _ (by simp [factKeys])),if_pos ⟨rfl,hsome⟩,hget,
        if_neg (by simp [payloadGone]),if_neg (by simp),if_neg (by simp),hv] at hk
      exact (Option.some.inj hk).symm
    · by_contra hno
      have hk := hall "fact_bindings" (by simp [factMetadataKeys]) (by simp)
      rw [hrow _ (by simp),if_pos ((hdropped _ (by simp [factKeys])).mpr ⟨hbound,hno⟩),hget,
        if_neg (by simp [payloadGone]),if_neg (by simp),if_neg (by simp)] at hk
      obtain ⟨v,hv⟩ := Option.isSome_iff_exists.mp hbound
      simp [hv] at hk
  · rintro ⟨hhistory,hsummary,hbound⟩ k hfact hupdated
    have hkept : k ∉ dropped := by
      intro hd
      have hfk := hsub k hd
      have hb : k = "fact_bindings" := by
        simp only [factKeys,factMetadataKeys,List.mem_cons,List.not_mem_nil,or_false] at hfk hfact
        tauto
      subst hb
      obtain ⟨hsome,hno⟩ := (hdropped _ hfk).mp hd
      exact hno (hbound hsome)
    rw [hrow k hupdated,if_neg hkept]
    split
    · rename_i hs
      obtain ⟨rfl,hsome⟩ := hs
      obtain ⟨v,hv⟩ := Option.isSome_iff_exists.mp hsome
      rw [hget,if_neg (by simp [payloadGone]),if_neg (by simp),if_neg (by simp),hv]
      exact congrArg some (hsummary v hv).symm
    · by_cases hh : k = "reconsolidation_history"
      · subst hh
        rw [hhistory,Option.or_none]
      · have hgone : k ∉ payloadGone := by
          simp only [payloadGone,factMetadataKeys,List.mem_cons,List.not_mem_nil,or_false] at hfact ⊢
          tauto
        rw [hget,if_neg hgone]
        split
        · rfl
        split
        · rfl
        · rw [Option.or_self]

lemma rollback_guard (hmatch : (m.metadata.get? "key_facts").isSome ∨
      (m.metadata.get? "fact_source_evidence").isSome → FactsMatch env m content) :
    ∃ g, guardContent env base content (some m.metadata) stamp = some g := by
  unfold guardContent guardFacts
  split
  · rename_i hprovided
    have hal : factsAligned env content (getValue m.metadata "key_facts")
        (getValue m.metadata "fact_source_evidence") = .aligned :=
      hmatch (by simpa using hprovided)
    rw [if_neg (by simp [hal])]
    split <;> exact ⟨_,rfl⟩
  · split <;> exact ⟨_,rfl⟩

lemma match_of_rollback_guard (h : guardContent env base content (some m.metadata) stamp = some g)
    (hprovided : (m.metadata.get? "key_facts").isSome ∨ (m.metadata.get? "fact_source_evidence").isSome) :
    FactsMatch env m content := by
  obtain ⟨f,hf,-⟩ := Option.map_eq_some_iff.mp h
  unfold guardFacts at hf
  rw [Option.getD_some,if_pos (by simpa using hprovided)] at hf
  by_contra hno
  rw [FactsMatch] at hno
  rw [if_pos hno] at hf
  cases hf

lemma not_factsMatch (h : m.metadata.get? "key_facts" = none) : ¬FactsMatch env m content := by
  have hnull : getValue m.metadata "key_facts" = .null := by rw [getValue,h]; rfl
  have hnone : pairedFacts env .null (getValue m.metadata "fact_source_evidence") = none := by
    rfl
  rw [FactsMatch,hnull,factsAligned,hnone]
  exact fun hal => nomatch hal

lemma rollback_dropped (h : guardContent env base content (some m.metadata) stamp = some g)
    (hbound : (m.metadata.get? "fact_bindings").isSome → (m.metadata.get? "key_facts").isSome)
    (hk : k ∈ g.dropped) : m.metadata.get? k = none := by
  by_cases hprovided : (m.metadata.get? "key_facts").isSome ∨
    (m.metadata.get? "fact_source_evidence").isSome
  · obtain ⟨f,hf,rfl⟩ := Option.map_eq_some_iff.mp h
    unfold guardFacts at hf
    rw [Option.getD_some,if_pos (by simpa using hprovided)] at hf
    split at hf
    · cases hf
    split at hf
    · rename_i hnone
      cases hf
      obtain rfl : k = "fact_bindings" := by simpa using hk
      simp only [Bool.and_eq_true,Option.isNone_iff_eq_none] at hnone
      exact hnone.1
    · cases hf
      simp at hk
  · push Not at hprovided
    obtain ⟨hfacts,hevidence⟩ := hprovided
    have hfk := (guardContent_get? h).1 k hk
    simp only [factKeys,List.mem_cons,List.not_mem_nil,or_false] at hfk
    rcases hfk with rfl | rfl | rfl
    · simpa using hfacts
    · simpa using hevidence
    · by_contra hsome
      exact hfacts (hbound (Option.isSome_iff_ne_none.mpr hsome))

variable {m'' : MemoryRow} {content' expected' : String} {write' : Write}

/-- What a rollback adds to the old metadata is what the application had put there. -/
theorem Updated.applied_of_missing (h : Updated env m content target expected write m')
    (ht : buildApplyPayload env m.metadata now = some target) (hk : k ≠ "updated_at")
    (hmissing : m.metadata.get? k = none) : (m'.metadata.get? k).isSome = true ↔
      k = "last_reconsolidated_at" ∨ k = "reconsolidation_count" := by
  obtain ⟨dropped,hsub,hdropped,hrow⟩ := h.applied_get? ht
  obtain ⟨n,hget⟩ := buildApplyPayload_get? ht
  have hkept : k ∉ dropped := by
    intro hd
    have hsome := ((hdropped k (hsub k hd)).mp hd).1
    simp [hmissing] at hsome
  rw [hrow k hk,if_neg hkept,if_neg (by simp [hmissing]),hmissing,Option.or_none,hget]
  by_cases hgone : k ∈ payloadGone
  · rw [if_pos hgone]
    simp only [payloadGone,List.mem_cons,List.not_mem_nil,or_false] at hgone
    rcases hgone with rfl | rfl | rfl | rfl <;> simp
  · rw [if_neg hgone]
    by_cases hlast : k = "last_reconsolidated_at"
    · simp [hlast]
    · by_cases hcount : k = "reconsolidation_count"
      · simp [hcount]
      · simp [hcount,hmissing]

/-- A rollback puts the old metadata back when the memory had been reconsolidated before, and
has no summary that follows its text. -/
theorem Updated.rolledBack_get? (h : Updated env m content target expected write m')
    (ht : buildApplyPayload env m.metadata now = some target)
    (h' : Updated env m' content' m.metadata expected' write' m'')
    (hbound : (m.metadata.get? "fact_bindings").isSome → FactsMatch env m content)
    (hsummary : m.metadata.get? "canonical_summary" = none)
    (hcount : (m.metadata.get? "reconsolidation_count").isSome = true)
    (hlast : (m.metadata.get? "last_reconsolidated_at").isSome = true) (hk : k ≠ "updated_at") :
    m''.metadata.get? k = m.metadata.get? k := by
  obtain ⟨g,hg,hm''⟩ := h'.metadata
  have hbound' : (m.metadata.get? "fact_bindings").isSome → (m.metadata.get? "key_facts").isSome := by
    intro hb
    by_contra hnone
    exact not_factsMatch (by simpa using hnone) (hbound hb)
  have hnew : m.metadata.get? k = none → m'.metadata.get? k = none := by
    intro hmissing
    rw [← Option.isNone_iff_eq_none,← Option.not_isSome,Bool.not_eq_true',← Bool.not_eq_true,
      h.applied_of_missing ht hk hmissing]
    rintro (rfl | rfl)
    · simp [hmissing] at hlast
    · simp [hmissing] at hcount
  rw [hm'',written_get? hg,if_neg hk]
  by_cases hd : k ∈ g.dropped
  · rw [if_pos hd,rollback_dropped hg hbound' hd]
  · rw [if_neg hd]
    cases hv : m.metadata.get? k with
    | none => simp [hnew hv]
    | some v =>
      have hnot : k ≠ "canonical_summary" := by
        rintro rfl
        simp [hsummary] at hv
      simp [hnot]

lemma Updated.rollback_mismatch (h : Updated env m content target expected write m')
    (ht : buildApplyPayload env m.metadata now = some target)
    (h' : Updated env m' content' m.metadata expected' write' m'')
    (hsummary : ∀ v ∈ m.metadata.get? "canonical_summary", comparable v = .str content)
    (hne : content ≠ content') (hall : metadataMatches m''.metadata m.metadata = true) :
    m.metadata.get? "canonical_summary" = none ∧
    (m.metadata.get? "reconsolidation_count").isSome = true ∧
      (m.metadata.get? "last_reconsolidated_at").isSome = true := by
  obtain ⟨g,hg,hm''⟩ := h'.metadata
  rw [metadataMatches_iff] at hall
  have hkeep : ∀ k, k ∉ factKeys → k ∉ g.dropped :=
    fun k hk hd => hk ((guardContent_get? hg).1 k hd)
  have hcounted : ∀ k, k ∉ factKeys → k ≠ "updated_at" → k ≠ "canonical_summary" →
      k = "last_reconsolidated_at" ∨ k = "reconsolidation_count" → (m.metadata.get? k).isSome = true := by
    intro k hfact hk hnot hadded
    by_contra hmissing
    have hmissing : m.metadata.get? k = none := by simpa using hmissing
    obtain ⟨v,hv⟩ := Option.isSome_iff_exists.mp ((h.applied_of_missing ht hk hmissing).mpr hadded)
    have hat := hall k hk
    rw [hm'',written_get? hg,if_neg (hkeep k hfact),if_neg hk,if_neg (by simp [hnot]), hmissing,hv] at hat
    simp at hat
  refine ⟨?_,hcounted _ (by simp [factKeys]) (by simp) (by simp) (.inr rfl),
    hcounted _ (by simp [factKeys]) (by simp) (by simp) (.inl rfl)⟩
  by_contra hsome
  obtain ⟨v,hv⟩ := Option.ne_none_iff_exists'.mp hsome
  have hat := hall "canonical_summary" (by simp)
  rw [hm'',written_get? hg,if_neg (hkeep _ (by simp [factKeys])),if_neg (by simp),
    if_pos (by simp [hv]),hv,Option.map_some,Option.map_some,hsummary v hv] at hat
  have heq : Value.str content' = .str content := Option.some.inj hat
  exact hne (Value.str.inj heq).symm

structure Staged (env : Env) (w : World) (id : String) (c : Candidate) (m : MemoryRow) : Prop where
  candidate : w.store.getCandidate id = some c
  status : c.status = .pending
  unapplied : w.store.applyOps.get? id = none
  kept : w.store.rollbackOps.get? id = none
  memory : w.memories.get? c.memoryId = some m
  revision : c.sourceRevision = m.revision env
  content : c.oldContent = m.text
  metadata : c.oldMetadata = m.metadata
  text_ne : blank m.text = false
  proposed_ne : c.proposedContent ≠ m.text

def canonicalUpdate (env : Env) (c : Candidate) (m : MemoryRow) (call : ApplyCall) :
    Option MemoryRow :=
  (buildApplyPayload env c.oldMetadata call.now).bind fun target =>
    (updateMemory env (some m) c.proposedContent target c.sourceRevision call.write).toOption

def Candidate.approve (env : Env) (c : Candidate) (m : MemoryRow) : Candidate :=
  { c with
    status := .approved
    reasonCode := "applied"
    appliedRevision := some (m.revision env)
    appliedMetadata := some m.metadata }

variable {w : World} {id : String} {c : Candidate}

def World.begun (w : World) (id : String) (c : Candidate) (target : Metadata) : Store :=
  { w.store with
    applyOps := w.store.applyOps.set id
      { expectedRevision := c.sourceRevision, targetMetadata := target } }

lemma Staged.startApply (h : Staged env w id c m)
    (ht : buildApplyPayload env m.metadata now = some target) :
    startApply env w.store id now = .ok (w.begun id c target,c,target) := by
  have hbegin : w.store.beginApply id c.sourceRevision target = .ok (w.begun id c target,c) := by
    rw [Store.beginApply,show w.store.candidates.get? id = some c from h.candidate]
    simp [h.status,h.unapplied,World.begun]
  unfold Reconsolidation.startApply
  rw [h.candidate]
  dsimp only
  rw [h.metadata,ht]
  dsimp only
  rw [hbegin]

theorem Staged.apply_verified (h : Staged env w id c m) {call : ApplyCall}
    (ht : buildApplyPayload env m.metadata call.now = some target)
    (hu : updateMemory env (some m) c.proposedContent target c.sourceRevision call.write = .ok m')
    (hverified : applyVerified env c target (some m') = true) :
    ∃ s, s.getCandidate id = some (c.approve env m') ∧ s.rollbackOps = w.store.rollbackOps ∧
      w.applyCandidate env id call = (⟨w.memories.set c.memoryId m',s⟩,.ok (.applied (c.approve env m'))) := by
  have hstamp : m'.revision env = call.write.updatedAt.text :=
    revision_of_stamp (updateMemory_ok hu).updatedAt
  have hpending : (w.begun id c target).applyPending id = true := by
    simp [Store.applyPending,World.begun]
  have hcandidate : (w.begun id c target).candidates.get? id = some c := h.candidate
  have hblank : blank (loadedRevision env (some m')) = false := by
    simp [loadedRevision,hstamp,blank,call.write.updatedAt.strip]
  unfold World.applyCandidate
  rw [h.startApply ht]
  dsimp only
  rw [h.memory,hu]
  dsimp only
  rw [Dict.get?_set_self,finalizeAppliedCandidate,if_pos hverified,Store.completeApply,
    if_neg (by simp [hblank]),if_neg (by simp [hpending]),hcandidate]
  dsimp only
  rw [if_neg (by simp [h.status])]
  refine ⟨_,?_,?_,rfl⟩
  · exact Dict.get?_set_self
  · rfl

theorem Staged.apply_unverified (h : Staged env w id c m) {call : ApplyCall}
    (ht : buildApplyPayload env m.metadata call.now = some target)
    (hu : updateMemory env (some m) c.proposedContent target c.sourceRevision call.write = .ok m')
    (hunverified : applyVerified env c target (some m') = false) :
    (w.applyCandidate env id call).2 = .ok (.refused "apply_result_unverified") := by
  have hcandidate : (w.begun id c target).candidates.get? id = some c := h.candidate
  have hop : (w.begun id c target).applyOps.get? id = some
      { expectedRevision := c.sourceRevision, targetMetadata := target } := Dict.get?_set_self
  unfold World.applyCandidate
  rw [h.startApply ht]
  dsimp only
  rw [h.memory,hu]
  dsimp only
  rw [Dict.get?_set_self,finalizeAppliedCandidate,if_neg (by simp [hunverified]),
    Store.markApplyRecoveryRequired,hcandidate]
  dsimp only
  rw [if_neg (by simp [h.status]),hop]
  rfl

structure Applied (env : Env) (w : World) (id : String) (c : Candidate) (m : MemoryRow)
    (t : Stamp) : Prop where
  candidate : w.store.getCandidate id = some (c.approve env m)
  kept : w.store.rollbackOps.get? id = none
  memory : w.memories.get? c.memoryId = some m
  stamp : m.updatedAt = some t.text
  text : m.text = c.proposedContent

variable {t : Stamp} {call : RollbackCall}

def World.rollingBack (w : World) (id : String) (t : Stamp) : Store :=
  { w.store with rollbackOps := w.store.rollbackOps.set id { expectedRevision := t.text } }

lemma Applied.check (h : Applied env w id c m' t) :
    rollbackCheck env (c.approve env m') (some m') = .ok t.text ∧
      w.store.beginRollback id t.text = .ok (w.rollingBack id t) := by
  have hrevision : m'.revision env = t.text := revision_of_stamp h.stamp
  constructor
  · have hsame : metadataMatches m'.metadata m'.metadata = true := metadataMatches_iff.mpr fun _ _ => rfl
    simp [rollbackCheck,Candidate.approve,hrevision,t.strip,loadedRevision,memoryContent,
      memoryMetadata,h.text,hsame]
  · rw [Store.beginRollback,show w.store.candidates.get? id = some _ from h.candidate]
    simp [Candidate.approve,hrevision,t.strip,h.kept,World.rollingBack]

lemma Applied.rollback_written (h : Applied env w id c m' t)
    (hu : updateMemory env (some m') c.oldContent c.oldMetadata t.text call.write = .ok m) :
    w.rollbackCandidate env id call = settleRollback env (w.memories.set c.memoryId m)
      (w.rollingBack id t) id (c.approve env m') t.text call.refreshes := by
  obtain ⟨hcheck,hbegin⟩ := h.check
  have hmemory : w.memories.get? (c.approve env m').memoryId = some m' := h.memory
  have hu' : updateMemory env (some m') (c.approve env m').oldContent (c.approve env m').oldMetadata
    t.text call.write = .ok m := hu
  unfold World.rollbackCandidate
  rw [h.candidate]
  dsimp only
  rw [if_neg (by simp [Candidate.approve]),hmemory,hcheck]
  dsimp only
  rw [hbegin]
  rw [hu']
  rfl

lemma Applied.rollback_refused (h : Applied env w id c m' t) {reason : String}
    (hu : updateMemory env (some m') c.oldContent c.oldMetadata t.text call.write =
      .error reason) : (w.rollbackCandidate env id call).2 = .ok (.refused reason) := by
  obtain ⟨hcheck,hbegin⟩ := h.check
  have hmemory : w.memories.get? (c.approve env m').memoryId = some m' := h.memory
  have hu' : updateMemory env (some m') (c.approve env m').oldContent (c.approve env m').oldMetadata
    t.text call.write = .error reason := hu
  unfold World.rollbackCandidate
  rw [h.candidate]
  dsimp only
  rw [if_neg (by simp [Candidate.approve]),hmemory,hcheck]
  dsimp only
  rw [hbegin]
  rw [hu']

lemma Applied.rolling (h : Applied env w id c m' t) :
    (w.rollingBack id t).rollbackOps.get? id = some { expectedRevision := t.text } ∧
      (w.rollingBack id t).candidates.get? id = some (c.approve env m') :=
  ⟨Dict.get?_set_self,h.candidate⟩

/-- A rollback restores the memory exactly when its update succeeds, its row is verified and the
derived data follow. -/
theorem Applied.restored_iff (h : Applied env w id c m' t) :
    (w.rollbackCandidate env id call).2 = .ok .restored ↔
      ∃ m, updateMemory env (some m') c.oldContent c.oldMetadata t.text call.write = .ok m ∧
        rollbackVerified env (c.approve env m') t.text (some m) = true ∧ call.refreshes = true := by
  obtain ⟨hop,hcandidate⟩ := h.rolling
  cases hu : updateMemory env (some m') c.oldContent c.oldMetadata t.text call.write with
  | error reason =>
    rw [h.rollback_refused hu]
    simp
  | ok m =>
    have hwritten : (w.memories.set c.memoryId m).get? (c.approve env m').memoryId = some m :=
      Dict.get?_set_self
    rw [h.rollback_written hu,settleRollback,hwritten]
    simp only [Except.ok.injEq,exists_eq_left']
    unfold finishRollback
    cases hverified : rollbackVerified env (c.approve env m') t.text (some m) with
    | false =>
      rw [if_pos (by simp),Store.markRollbackBlocked,hop]
      simp [Except.map]
    | true =>
      rw [if_neg (by simp)]
      cases hrefresh : call.refreshes with
      | false => simp
      | true =>
        rw [if_neg (by simp),Store.completeRollback,hcandidate]
        dsimp only
        rw [if_neg (by simp [Candidate.approve]),hop]
        simp [Except.map]

lemma Applied.of_restored (h : Applied env w id c m' t)
    (hu : updateMemory env (some m') c.oldContent c.oldMetadata t.text call.write = .ok m)
    (hverified : rollbackVerified env (c.approve env m') t.text (some m) = true)
    (hrefresh : call.refreshes = true) :
    ((w.rollbackCandidate env id call).1.store.getCandidate id).map Candidate.status =
    some .rolledBack ∧
      (w.rollbackCandidate env id call).1.memories.get? c.memoryId = some m := by
  obtain ⟨hop,hcandidate⟩ := h.rolling
  have hwritten : (w.memories.set c.memoryId m).get? (c.approve env m').memoryId = some m :=
    Dict.get?_set_self
  rw [h.rollback_written hu,settleRollback,hwritten,finishRollback,
    if_neg (by simp [hverified]),if_neg (by simp [hrefresh]),Store.completeRollback,hcandidate]
  dsimp only
  rw [if_neg (by simp [Candidate.approve]),hop]
  refine ⟨?_,Dict.get?_set_self⟩
  simp [Except.map,Store.getCandidate,Store.audit]

def RoundTrips (env : Env) (w : World) (id : String) (c : Candidate) (m : MemoryRow)
    (call : ApplyCall) (back : RollbackCall) : Prop :=
  let applied := w.applyCandidate env id call
  let restored := applied.1.rollbackCandidate env id back
  (∃ c', applied.2 = .ok (.applied c')) ∧
    (applied.1.store.getCandidate id).map Candidate.status = some .approved ∧
    restored.2 = .ok .restored ∧
    (restored.1.store.getCandidate id).map Candidate.status = some .rolledBack ∧
    ∃ m', restored.1.memories.get? c.memoryId = some m' ∧ m'.text = m.text ∧
      ∀ k, k ≠ "updated_at" → m'.metadata.get? k = m.metadata.get? k

structure Reversible (env : Env) (m : MemoryRow) (c : Candidate) (call : ApplyCall)
    (back : RollbackCall) : Prop where
  history : m.metadata.get? "reconsolidation_history" = none
  summary : m.metadata.get? "canonical_summary" = none
  counted : (m.metadata.get? "reconsolidation_count").isSome = true
  dated : (m.metadata.get? "last_reconsolidated_at").isSome = true
  bindings : (m.metadata.get? "fact_bindings").isSome → FactsMatch env m c.proposedContent
  facts : (m.metadata.get? "key_facts").isSome ∨ (m.metadata.get? "fact_source_evidence").isSome →
    FactsMatch env m m.text
  appliedLater : call.write.updatedAt.text ≠ m.revision env
  restoredLater : back.write.updatedAt.text ≠ call.write.updatedAt.text
  available : back.write.available = true
  refreshes : back.refreshes = true

lemma applyVerified_iff (h : Updated env m c.proposedContent target c.sourceRevision write m')
    (ht : buildApplyPayload env m.metadata now = some target) :
    applyVerified env c target (some m') = true ↔ write.updatedAt.text ≠ m.revision env ∧
      m.metadata.get? "reconsolidation_history" = none ∧
      (∀ v ∈ m.metadata.get? "canonical_summary", comparable v = .str c.proposedContent) ∧
      ((m.metadata.get? "fact_bindings").isSome → FactsMatch env m c.proposedContent) := by
  have hrevision : m'.revision env = write.updatedAt.text := revision_of_stamp h.updatedAt
  rw [← h.applyMatches_iff ht]
  simp [applyVerified,loadedRevision,memoryContent,memoryMetadata,hrevision,
    write.updatedAt.strip,h.text,h.revision]

lemma rollbackVerified_iff (h : Updated env m content c.oldMetadata expected write m')
    (hcontent : content = c.oldContent) : rollbackVerified env c expected (some m') = true ↔
      write.updatedAt.text ≠ expected ∧ metadataMatches m'.metadata c.oldMetadata = true := by
  have hrevision : m'.revision env = write.updatedAt.text := revision_of_stamp h.updatedAt
  simp [rollbackVerified,loadedRevision,memoryContent,memoryMetadata,hrevision,
    write.updatedAt.strip,h.text,hcontent]

lemma Updated.unreplaced_after (h : Updated env m content target expected write m')
    (ht : buildApplyPayload env m.metadata now = some target) :
    (getValue m'.metadata "replacement_pending").truthy = false := by
  obtain ⟨dropped,hsub,-,hrow⟩ := h.applied_get? ht
  obtain ⟨n,hget⟩ := buildApplyPayload_get? ht
  have hkept : "replacement_pending" ∉ dropped := fun hd => by
    have hfk := hsub _ hd
    simp [factKeys] at hfk
  have hsame : m'.metadata.get? "replacement_pending" = m.metadata.get? "replacement_pending" := by
    rw [hrow _ (by simp),if_neg hkept,if_neg (by simp),hget,if_neg (by simp [payloadGone]),
      if_neg (by simp),if_neg (by simp),Option.or_self]
  rw [getValue,hsame]
  exact h.unreplaced

/-- An application whose canonical update succeeds is approved, and a rollback then restores the
memory, exactly for reversible memories. -/
theorem candidate_round_trips (env : Env) (w : World) (id : String) (c : Candidate) (m : MemoryRow)
    (call : ApplyCall) (back : RollbackCall) (h : Staged env w id c m)
    (hupdate : (canonicalUpdate env c m call).isSome = true) :
    RoundTrips env w id c m call back ↔ Reversible env m c call back := by
  obtain ⟨m',hm'⟩ := Option.isSome_iff_exists.mp hupdate
  obtain ⟨target,ht,hok⟩ := Option.bind_eq_some_iff.mp hm'
  have hu : updateMemory env (some m) c.proposedContent target c.sourceRevision call.write =
      .ok m' := by
    cases hr : updateMemory env (some m) c.proposedContent target c.sourceRevision call.write with
    | error e => simp [hr,Except.toOption] at hok
    | ok m => simpa [hr,Except.toOption] using hok
  rw [h.metadata] at ht
  have hup := updateMemory_ok hu
  have hverified := applyVerified_iff hup ht
  cases hv : applyVerified env c target (some m') with
  | false =>
    constructor
    · rintro ⟨⟨c',hc'⟩,-⟩
      rw [h.apply_unverified ht hu hv] at hc'
      cases hc'
    · intro hr
      rw [hverified.mpr ⟨hr.appliedLater,hr.history,by simp [hr.summary],hr.bindings⟩] at hv
      cases hv
  | true =>
    obtain ⟨hlater,hhistory,hsummary,hbound⟩ := hverified.mp hv
    obtain ⟨s,hcandidate,hkept,happlied⟩ := h.apply_verified ht hu hv
    have ha : Applied env ⟨w.memories.set c.memoryId m',s⟩ id c m' call.write.updatedAt :=
      ⟨hcandidate,by rw [hkept]; exact h.kept,Dict.get?_set_self,hup.updatedAt,hup.text⟩
    constructor
    · rintro ⟨-,-,hrestored,-⟩
      rw [happlied,ha.restored_iff,h.content,h.metadata] at hrestored
      obtain ⟨m'',hu'',hv'',hrefresh⟩ := hrestored
      have hup'' := updateMemory_ok hu''
      obtain ⟨g,hg,-⟩ := hup''.metadata
      obtain ⟨hrestoredLater,hmatch⟩ := (rollbackVerified_iff (c := c.approve env m')
        (by rw [← h.metadata] at hup''; exact hup'') h.content.symm).mp hv''
      rw [show (c.approve env m').oldMetadata = m.metadata from h.metadata] at hmatch
      obtain ⟨hnone,hcounted,hdated⟩ := hup.rollback_mismatch ht hup'' hsummary h.proposed_ne hmatch
      exact ⟨hhistory,hnone,hcounted,hdated,hbound,match_of_rollback_guard hg,hlater,
        hrestoredLater,hup''.available,hrefresh⟩
    · intro hr
      have hguard : ∃ g, guardContent env m'.metadata m.text (some m.metadata) back.write.now =
          some g := rollback_guard hr.facts
      obtain ⟨g,hg⟩ := hguard
      obtain ⟨m'',hu''⟩ := updateMemory_of_stamp hup.updatedAt hr.available
        (hup.unreplaced_after ht) h.text_ne hg
      have hup'' := updateMemory_ok hu''
      have hback : ∀ k, k ≠ "updated_at" → m''.metadata.get? k = m.metadata.get? k := fun k hk =>
        hup.rolledBack_get? ht hup'' hr.bindings hr.summary hr.counted hr.dated hk
      rw [← h.content,← h.metadata] at hu''
      have hv'' : rollbackVerified env (c.approve env m') call.write.updatedAt.text (some m'') =
          true := by
        rw [rollbackVerified_iff (c := c.approve env m') (updateMemory_ok hu'') rfl]
        refine ⟨hr.restoredLater,metadataMatches_iff.mpr fun k hk => ?_⟩
        rw [show (c.approve env m').oldMetadata = m.metadata from h.metadata,hback k hk]
      obtain ⟨hstatus,hrow⟩ := ha.of_restored hu'' hv'' hr.refreshes
      unfold RoundTrips
      rw [happlied]
      refine ⟨⟨_,rfl⟩,?_,ha.restored_iff.mpr ⟨m'',hu'',hv'',hr.refreshes⟩,hstatus,m'',hrow, ?_,hback⟩
      · rw [hcandidate]
        rfl
      · rw [(updateMemory_ok hu'').text,h.content]

def sampleStamp (text : String) (h : token (some text) = some text) : Stamp := ⟨text,h⟩

def sampleWrite (updatedAt : Stamp) : Write where
  available := true
  now := 0
  updatedAt := updatedAt

def sampleCall : ApplyCall where
  now := 0
  write := sampleWrite (sampleStamp "r-8" (by decide +kernel))

def sampleBack : RollbackCall where
  write := sampleWrite (sampleStamp "r-9" (by decide +kernel))
  refreshes := true

/-- A memory that is recalled often. -/
def sampleMemory : MemoryRow where
  text := "The user likes tea."
  metadata := Dict.set {} "access_count" (.num 8)
  updatedAt := some "r-7"

def revisedMemory : MemoryRow :=
  { sampleMemory with
    metadata := (sampleMemory.metadata.set "reconsolidation_count" (.num 1)).set
      "last_reconsolidated_at" (.num 0) }

def proposedFor (m : MemoryRow) : Candidate where
  memoryId := 7
  sourceRevision := "r-7"
  oldContent := m.text
  oldMetadata := m.metadata
  proposedContent := "The user likes green tea."

def proposedWorld (m : MemoryRow) : World where
  memories := Dict.set {} 7 m
  store := { candidates := Dict.set {} "c" (proposedFor m) }

/-- A memory that was never reconsolidated keeps the count and the date of an application, and
its rollback is not verified. -/
theorem candidate_not_restored :
    Staged sampleEnv (proposedWorld sampleMemory) "c" (proposedFor sampleMemory) sampleMemory ∧
      (canonicalUpdate sampleEnv (proposedFor sampleMemory) sampleMemory sampleCall).isSome = true ∧
      ¬RoundTrips sampleEnv (proposedWorld sampleMemory) "c" (proposedFor sampleMemory)
        sampleMemory sampleCall sampleBack := by
  refine ⟨⟨by decide +kernel,rfl,rfl,rfl,by decide +kernel,by decide +kernel,rfl,rfl,
    by decide +kernel,by decide +kernel⟩,by decide +kernel,?_⟩
  rintro ⟨-,-,hrestored,-⟩
  revert hrestored
  decide +kernel

theorem candidate_round_trips_sample :
    RoundTrips sampleEnv (proposedWorld revisedMemory) "c" (proposedFor revisedMemory)
      revisedMemory sampleCall sampleBack := by
  have hstaged : Staged sampleEnv (proposedWorld revisedMemory) "c" (proposedFor revisedMemory)
      revisedMemory :=
    ⟨by decide +kernel,rfl,rfl,rfl,by decide +kernel,by decide +kernel,rfl,rfl,
      by decide +kernel,by decide +kernel⟩
  have hreversible : Reversible sampleEnv revisedMemory (proposedFor revisedMemory) sampleCall
      sampleBack :=
    ⟨by decide +kernel,by decide +kernel,by decide +kernel,by decide +kernel,
      fun hb => absurd hb (by decide +kernel),fun hf => absurd hf (by decide +kernel),
      by decide +kernel,by decide +kernel,rfl,rfl⟩
  exact (candidate_round_trips sampleEnv _ "c" _ _ _ _ hstaged (by decide +kernel)).mpr hreversible

end Memora.Reconsolidation

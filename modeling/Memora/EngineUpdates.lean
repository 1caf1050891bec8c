import Memora.EngineModels

/-! What each writer computes from the row it has read, and what its statement does to the row it
finds. -/
namespace Memora.Engine

def updateMetadataIfRevision (m : MemoryRow) (delta : Metadata) (expected : String)
    (advance : Bool) (time : String) : Option MemoryRow :=
  if m.unchangedSince expected then
    some { m with
      metadata := m.metadata.update delta
      updatedAt := if advance then some time else m.updatedAt }
  else none

def updateContentIfRevision (m : MemoryRow) (content : String) (metadata : Metadata)
    (expected : String) (drop : List String) (time : String) : Option MemoryRow :=
  if blank content then none
  else if m.unchangedSince expected then
    some { m with
      text := content
      metadata := (m.metadata.update metadata).popAll drop
      updatedAt := some time }
  else none

structure GuardedWrite where
  metadata : Metadata
  dropped : List String

def factKeys : List String := ["key_facts","fact_source_evidence","fact_bindings"]

/-- The facts of a content update: given ones must match the new text, old ones are dropped
where they do not; none when given facts do not match. -/
def guardFacts (env : Env) (content : String) (requested guarded : Metadata) :
    Option GuardedWrite :=
  if (requested.get? "key_facts").isSome || (requested.get? "fact_source_evidence").isSome then
    if factsAligned env content (getValue requested "key_facts")
        (getValue requested "fact_source_evidence") ≠ .aligned then none
    else if (requested.get? "fact_bindings").isNone && (guarded.get? "fact_bindings").isSome then
      some ⟨guarded.pop "fact_bindings",["fact_bindings"]⟩
    else some ⟨guarded,[]⟩
  else if factsAligned env content (getValue guarded "key_facts")
      (getValue guarded "fact_source_evidence") ≠ .aligned then
    let cleared := factKeys.filter fun k => (guarded.get? k).isSome
    some ⟨guarded.popAll cleared,cleared⟩
  else some ⟨guarded,[]⟩

def followSummary (content : String) (m : Metadata) : Metadata :=
  if (m.get? "canonical_summary").isSome then m.set "canonical_summary" (.str content) else m

def guardContent (env : Env) (current : Metadata) (content : String)
    (requested : Option Metadata) (stamp : ℚ) : Option GuardedWrite :=
  (guardFacts env content (requested.getD {}) (current.update (requested.getD {}))).map fun g =>
    ⟨(followSummary content g.metadata).set "updated_at" (.num stamp),g.dropped⟩

variable {env : Env} {m current requested guarded delta : Metadata} {k content : String}
  {g : GuardedWrite}

lemma followSummary_get? : (followSummary content m).get? k =
    if k = "canonical_summary" ∧ (m.get? k).isSome then some (.str content) else m.get? k := by
  unfold followSummary
  by_cases hk : k = "canonical_summary"
  · subst hk
    split <;> simp_all
  · split
    · simp [Dict.get?_set,hk]
    · simp [hk]

lemma guardFacts_get? (h : guardFacts env content requested guarded = some g) :
    (∀ k ∈ g.dropped, k ∈ factKeys) ∧
      ∀ k, g.metadata.get? k = if k ∈ g.dropped then none else guarded.get? k := by
  unfold guardFacts at h
  split at h
  · split at h
    · cases h
    split at h
    · cases h
      refine ⟨by simp [factKeys],fun k => ?_⟩
      by_cases hk : k = "fact_bindings"
      · simp [hk,Dict.pop,Option.eq_none_iff_forall_ne_some,Dict.get?_filter]
      · simp [hk,Dict.get?_pop_of_ne hk]
    · cases h
      simp
  · split at h
    · cases h
      exact ⟨fun k hk => (List.mem_filter.mp hk).1,fun k => Dict.get?_popAll⟩
    · cases h
      simp

/-- Apart from facts, summary and time a content update writes what it has read and what was
asked for. -/
theorem guardContent_get? {requested : Option Metadata} {stamp : ℚ}
    (h : guardContent env current content requested stamp = some g) :
    (∀ k ∈ g.dropped, k ∈ factKeys) ∧ ∀ k, k ∉ factKeys → k ≠ "canonical_summary" →
      k ≠ "updated_at" → g.metadata.get? k = ((requested.getD {}).get? k).or (current.get? k) := by
  obtain ⟨f,hf,rfl⟩ := Option.map_eq_some_iff.mp h
  obtain ⟨hdropped,hget⟩ := guardFacts_get? hf
  refine ⟨hdropped,fun k hfact hsummary hupdated => ?_⟩
  have hkept : k ∉ f.dropped := fun hk => hfact (hdropped k hk)
  rw [Dict.get?_set_of_ne hupdated,followSummary_get?,if_neg (by simp [hsummary]),hget,
    if_neg hkept,Dict.get?_update]

inductive UpdateReason
  | sourceRevisionMismatch | contentReplacePending | invalidContent | factEvidenceMismatch
  | runtimeMaintenanceFieldRejected | sourceRevisionMissing
  deriving DecidableEq

def UpdateReason.code : UpdateReason → String
  | .sourceRevisionMismatch => "source_revision_mismatch"
  | .contentReplacePending => "content_replace_pending"
  | .invalidContent => "invalid_content"
  | .factEvidenceMismatch => "fact_evidence_mismatch"
  | .runtimeMaintenanceFieldRejected => "runtime_maintenance_field_rejected"
  | .sourceRevisionMissing => "source_revision_missing"

/-- `update_memory` with a content and an expected revision, on the memory it has read and the
revision it has read for it. -/
def prepareContent (env : Env) (current : Metadata) (observed content : String)
    (requested : Option Metadata) (expected : String) (stamp : ℚ) :
    Except UpdateReason GuardedWrite :=
  if observed = "" || observed ≠ expected then .error .sourceRevisionMismatch
  else if (getValue current "replacement_pending").truthy then .error .contentReplacePending
  else if blank content then .error .invalidContent
  else match guardContent env current content requested stamp with
    | none => .error .factEvidenceMismatch
    | some g => .ok g

def operationalMetadataKeys : List String :=
  ["access_count","last_access_time","last_recall_time","last_retrieved_at","recall_count",
    "retrieval_count","updated_at"]

def hasSemanticMetadataChange (current updates : Metadata) : Bool :=
  updates.entries.any fun e => e.1 ∉ operationalMetadataKeys && getValue current e.1 ≠ e.2

/-- The delta of `prepare_semantic_metadata_update`. -/
def observeTopics (current updates : Metadata) (stamp : ℚ) : Metadata :=
  if (updates.get? "topics").isSome && getValue updates "topics" ≠ getValue current "topics" then
    updates.set "topic_observed_at" (.num stamp)
  else updates

lemma observeTopics_get? {stamp : ℚ} (hk : k ≠ "topic_observed_at") :
    (observeTopics current delta stamp).get? k = delta.get? k := by
  unfold observeTopics
  split
  · exact Dict.get?_set_of_ne hk
  · rfl

/-- The delta `update_memory` writes for an importance and a metadata argument. -/
def metadataUpdates (env : Env) (importance : Option Value) (metadata : Option Metadata) :
    Metadata :=
  let base : Metadata := match importance with
    | none => {}
    | some v => Dict.set {} "importance" (.num (clampFloat env v (1 / 2)))
  base.update (metadata.getD {})

def runtimeMaintenanceKeys : List String :=
  ["importance","revised_by","reinforcement_count","ttl_days"]

def isRuntimeMaintenanceDelta (current delta : Metadata) : Bool :=
  delta.entries.all fun e => e.1 ∈ runtimeMaintenanceKeys && getValue current e.1 ≠ e.2

def reinforcementCount (env : Env) (m : Metadata) : ℤ :=
  let v := getValue m "reinforcement_count"
  truncate (safeFloat env (if v.truthy then v else .num 0) 0)

/-- `apply_reinforcement_maintenance_delta`. -/
def reinforcementDelta (env : Env) (m : Metadata) : Metadata :=
  let count := reinforcementCount env m
  let read := safeFloat env (getValue m "ttl_days") 30
  let original := if read ≤ 0 then 30 else read
  let ttl := min (original * 2) (original * (105 / 100) ^ (count+1))
  (Dict.set {} "reinforcement_count" (.num ((count : ℚ)+1))).set "ttl_days" (.num (env.round 2 ttl))

def interferedImportance (env : Env) (m : Metadata) : ℚ :=
  env.round 4 (max (5 / 100) (safeFloat env (getValue m "importance") (1 / 2) * (9 / 10)))

/-- `apply_interference_maintenance_delta`. -/
def interferenceDelta (env : Env) (source : ℤ) (m : Metadata) : Metadata :=
  (Dict.set {} "importance" (.num (interferedImportance env m))).set "revised_by" (.num source)

def accessCount (env : Env) (m : Metadata) : ℤ := intOrZero env (getValue m "access_count")

/-- The metadata `update_access_time` writes inside its transaction; the batch call does the same
to each of its rows. -/
def accessed (env : Env) (active : Bool) (time : ℚ) (m : Metadata) : Metadata :=
  let importance := clampFloat env (getValue m "importance") (1 / 2)
  let step : ℚ := if active then 5 / 100 else 1 / 100
  ((m.set "last_access_time" (.num time)).set "access_count"
    (.num (min (accessCount env m+1) 1000000 : ℤ))).set
    "importance" (.num (env.round 4 (min (95 / 100) (importance+step))))

end Memora.Engine

import Memora.CatalogFencing

/-! The aggregate rows of every scope are those computed from its mappings, whatever replaces,
deletes or moves the mappings. -/
namespace Memora.Catalog

variable {T : Type*} [LinearOrder T] [Zero T] {env : CatalogEnv T} {db db' : Database T}

def Database.Aggregated (db : Database T) : Prop :=
  ∀ generation scope, db.topicsAt generation scope =
    scopeAggregates generation scope (db.sourcesAt generation scope)

variable {rows : List (MappingRow T)} {generation : ℤ} {now : T}

omit [Zero T] in
lemma topicAggregate_scope {scope : Scope} {key : String} {row : ScopeTopic T}
    (h : topicAggregate generation scope key rows = some row) :
    row.generation = generation ∧ row.scope = scope ∧ row.topicKey = key := by
  unfold topicAggregate at h
  split at h
  · cases h
    exact ⟨rfl,rfl,rfl⟩
  · cases h

omit [Zero T] in
lemma mem_scopeAggregates {scope : Scope} {row : ScopeTopic T}
    (h : row ∈ scopeAggregates generation scope rows) : row.generation = generation ∧
    row.scope = scope := by
  obtain ⟨key,-,hrow⟩ := List.mem_filterMap.mp h
  exact ⟨(topicAggregate_scope hrow).1,(topicAggregate_scope hrow).2.1⟩

theorem topicsAt_rebuild (db : Database T) (generation g : ℤ) (scope sc : Scope) :
    (db.rebuildScopeAggregate generation scope).topicsAt g sc =
      if g = generation ∧ sc = scope then
        scopeAggregates generation scope (db.sourcesAt generation scope)
      else db.topicsAt g sc := by
  unfold Database.rebuildScopeAggregate Database.topicsAt
  rw [List.filter_append,List.filter_filter]
  split
  · rename_i hsame
    obtain ⟨rfl,rfl⟩ := hsame
    have hold : db.topics.filter (fun r => (decide (r.generation = g) && decide (r.scope = sc)) &&
        !(decide (r.generation = g) && decide (r.scope = sc))) = [] := by
      simp
    rw [hold,List.nil_append]
    apply List.filter_eq_self.mpr
    intro row hrow
    obtain ⟨hg,hsc⟩ := mem_scopeAggregates hrow
    simp [hg,hsc]
  · rename_i hother
    have hnew : (scopeAggregates generation scope (db.sourcesAt generation scope)).filter
        (fun r => decide (r.generation = g) && decide (r.scope = sc)) = [] := by
      rw [List.filter_eq_nil_iff]
      intro row hrow hkeep
      obtain ⟨hg,hsc⟩ := mem_scopeAggregates hrow
      simp only [Bool.and_eq_true,decide_eq_true_eq] at hkeep
      exact hother ⟨hkeep.1.symm.trans hg,hkeep.2.symm.trans hsc⟩
    rw [hnew,List.append_nil]
    apply List.filter_congr
    intro row _
    by_cases hrow : row.generation = g ∧ row.scope = sc
    · simp only [hrow.1,hrow.2,decide_true,Bool.and_self,Bool.true_and]
      simpa using not_and_or.mp hother
    · have hdrop : (decide (row.generation = g) && decide (row.scope = sc)) = false := by
        simpa using fun hg hsc => hrow ⟨hg,hsc⟩
      rw [hdrop,Bool.false_and]

lemma topicsAt_rebuildScopes (generation g : ℤ) (sc : Scope) (scopes : List Scope)
    (db : Database T) :
    (scopes.foldl (fun db scope => db.rebuildScopeAggregate generation scope) db).topicsAt g sc =
      if g = generation ∧ sc ∈ scopes then
        scopeAggregates g sc (db.sourcesAt g sc)
      else db.topicsAt g sc := by
  induction scopes generalizing db with
  | nil => simp
  | cons scope scopes ih =>
    rw [List.foldl_cons,ih (db.rebuildScopeAggregate generation scope),topicsAt_rebuild]
    have hsources : (db.rebuildScopeAggregate generation scope).sourcesAt g sc =
        db.sourcesAt g sc := rfl
    rw [hsources]
    by_cases hg : g = generation
    · subst hg
      by_cases hin : sc ∈ scopes
      · simp [hin]
      · by_cases hsc : sc = scope
        · subst hsc
          simp
        · simp [hsc]
    · simp [hg]

theorem aggregated_replaceRows (h : db.Aggregated) {generation id : ℤ}
    (hrows : ∀ r ∈ rows, r.generation = generation) :
    (db.replaceRows generation id rows).Aggregated := by
  intro g sc
  unfold Database.replaceRows
  rw [topicsAt_rebuildScopes]
  have hkept := (rebuildScopes_kept generation
    (((db.sources.filter fun r => r.generation = generation && r.memoryId = id)++rows).map
      MappingRow.scope).dedup { db with
        sources := (db.sources.filter fun r => !(r.generation = generation && r.memoryId = id)) ++
          rows }).2.2.2.2
  have hsources : ∀ (x : Database T), x.sources = (db.sources.filter fun r =>
      !(r.generation = generation && r.memoryId = id))++rows →
      x.sourcesAt g sc = (db.sources.filter fun r =>
        !(r.generation = generation && r.memoryId = id)).filter (fun r => r.generation = g && r.scope = sc) ++
        rows.filter fun r => r.generation = g && r.scope = sc := by
    intro x hx
    unfold Database.sourcesAt
    rw [hx,List.filter_append]
  rw [hsources _ hkept,hsources _ rfl]
  split
  · rfl
  · -- neither a removed nor a new row is in this scope
    rename_i hother
    have htopics : ∀ sources : List (MappingRow T),
        ({ db with sources := sources } : Database T).topicsAt g sc = db.topicsAt g sc :=
      fun _ => rfl
    rw [htopics,h g sc]
    congr 1
    have hnew : rows.filter (fun r => decide (r.generation = g) && decide (r.scope = sc)) = [] := by
      rw [List.filter_eq_nil_iff]
      intro r hr hkeep
      simp only [Bool.and_eq_true,decide_eq_true_eq] at hkeep
      refine hother ⟨hkeep.1.symm.trans (hrows r hr),?_⟩
      exact List.mem_dedup.mpr (List.mem_map.mpr ⟨r,List.mem_append_right _ hr,hkeep.2⟩)
    rw [hnew,List.append_nil,List.filter_filter]
    apply List.filter_congr
    intro r hr
    by_cases hkeep : r.generation = g ∧ r.scope = sc
    · have hstays : ¬(r.generation = generation ∧ r.memoryId = id) := by
        rintro ⟨hg,hid⟩
        refine hother ⟨hkeep.1.symm.trans hg,?_⟩
        refine List.mem_dedup.mpr (List.mem_map.mpr ⟨r,List.mem_append_left _ ?_,hkeep.2⟩)
        exact List.mem_filter.mpr ⟨hr,by simp [hg,hid]⟩
      have hstay : (!(decide (r.generation = generation) && decide (r.memoryId = id))) = true := by
        simpa using not_and_or.mp hstays
      rw [hstay,Bool.and_true]
    · have hdrop : (decide (r.generation = g) && decide (r.scope = sc)) = false := by
        simpa using fun hg hsc => hkeep ⟨hg,hsc⟩
      rw [hdrop,Bool.false_and]

omit [Zero T] in
lemma scopeAggregates_nil (generation : ℤ) (scope : Scope) :
    scopeAggregates generation scope ([] : List (MappingRow T)) = [] := by
  simp [scopeAggregates]

lemma filter_generations {ρ : Type*} (generation : ρ → ℤ) (selected : ρ → Bool)
    (keep : ℤ → Bool) {g : ℤ} (hg : ∀ r, selected r = true → generation r = g) (rows : List ρ) :
    (rows.filter fun r => keep (generation r)).filter selected =
      if keep g then rows.filter selected else [] := by
  rw [List.filter_filter]
  split
  · rename_i hkeep
    apply List.filter_congr
    intro r _
    cases hr : selected r with
    | false => rfl
    | true => simp [hg r hr,hkeep]
  · rename_i hkeep
    rw [List.filter_eq_nil_iff]
    intro r _ hr
    obtain ⟨hselected,hkept⟩ := Bool.and_eq_true_iff.mp hr
    rw [hg r hselected] at hkept
    exact hkeep hkept

lemma aggregated_filter (h : db.Aggregated) (keep : ℤ → Bool) : ({ db with
      sources := db.sources.filter fun r => keep r.generation
      topics := db.topics.filter fun r => keep r.generation } : Database T).Aggregated := by
  intro g sc
  have hsources : (db.sources.filter fun r => keep r.generation).filter
      (fun r => decide (r.generation = g) && decide (r.scope = sc)) =
        if keep g then db.sourcesAt g sc else [] :=
    filter_generations MappingRow.generation _ keep (fun r hr => by simp_all) db.sources
  have htopics : (db.topics.filter fun r => keep r.generation).filter
      (fun r => decide (r.generation = g) && decide (r.scope = sc)) =
        if keep g then db.topicsAt g sc else [] :=
    filter_generations ScopeTopic.generation _ keep (fun r hr => by simp_all) db.topics
  change (db.topics.filter fun r => keep r.generation).filter _ =
    scopeAggregates g sc ((db.sources.filter fun r => keep r.generation).filter _)
  rw [hsources,htopics]
  split
  · exact h g sc
  · exact (scopeAggregates_nil g sc).symm

lemma Database.Aggregated.congr (h : db.Aggregated) (hs : db'.sources = db.sources)
    (ht : db'.topics = db.topics) : db'.Aggregated := by
  intro g sc
  unfold Database.topicsAt Database.sourcesAt
  rw [hs,ht]
  exact h g sc

omit [LinearOrder T] in
lemma upsertDirty_tables (db : Database T) (id : ℤ) (operation : DirtyOperation)
    (code : Option String) (now : T) : (db.upsertDirty id operation code now).sources = db.sources ∧
      (db.upsertDirty id operation code now).topics = db.topics := by
  unfold Database.upsertDirty
  split <;> exact ⟨rfl,rfl⟩

omit [LinearOrder T] [Zero T] in
lemma rows_generation {source : CatalogSource T} {r : MappingRow T}
    (h : r ∈ source.rows generation) : r.generation = generation := by
  obtain ⟨topic,-,rfl⟩ := List.mem_map.mp h
  rfl

def Database.entries (db : Database T) : List (ℕ × ℤ) :=
  db.dirty.map fun d => (d.dirtyId,d.memoryId)

inductive Database.Effect (db : Database T) : Database T → Prop
  | noted (state : CatalogState T) (documents : List Document) (id : ℤ)
      (operation : DirtyOperation) (code : Option String) (now : T) : Effect db
        (Database.upsertDirty { db with state := state, documents := documents } id operation code
          now)
  | moved (state : CatalogState T) (documents : List Document) :
      Effect db { db with state := state, documents := documents }
  | worked (dirty : List (DirtyRow T))
      (h : (dirty.map fun d => (d.dirtyId,d.memoryId)) = db.entries) :
      Effect db { db with dirty := dirty }
  | dropped (state : CatalogState T) (keep : ℤ → Bool) : Effect db { db with
      state := state
      sources := db.sources.filter fun r => keep r.generation
      topics := db.topics.filter fun r => keep r.generation }
  | replaced (generation id : ℤ) (rows : List (MappingRow T))
      (h : ∀ r ∈ rows, r.generation = generation) : Effect db (db.replaceRows generation id rows)

omit [LinearOrder T] in
lemma deleteGeneration_twice (db : Database T) (g g' : ℤ) :
    (db.deleteGeneration g).deleteGeneration g' = { db with
      sources := db.sources.filter fun r => decide (r.generation ≠ g) && decide (r.generation ≠ g')
      topics := db.topics.filter fun r =>
        decide (r.generation ≠ g) && decide (r.generation ≠ g') } := by
  simp only [Database.deleteGeneration,List.filter_filter]
  congr 1 <;> exact List.filter_congr fun r _ => Bool.and_comm _ _

lemma effect_claim (db : Database T) (ownerToken : String) (now leaseUntil : T) (limit : ℕ) :
    db.Effect (db.claimDirty ownerToken now leaseUntil limit).1 := by
  unfold Database.claimDirty
  split
  · exact .moved db.state db.documents
  · apply Database.Effect.worked
    refine (RowTable.map_modify _ _ _ _ ?_).trans (RowTable.map_modify _ _ _ _ ?_)
    · exact fun _ _ _ => rfl
    · exact fun _ _ _ => rfl

lemma effect_finish {dirtyId sequence : ℕ} {owner : String} {success : Bool}
    {code : Option String}
    (h : db.finishDirty dirtyId owner sequence success code now = some db') : db.Effect db' := by
  unfold Database.finishDirty at h
  dsimp only at h
  split at h
  · cases h
  split at h
  · cases h
  split at h
  · cases h
    exact .worked _ (RowTable.map_modify _ _ _ _ fun _ _ _ => rfl)
  · cases h

lemma effect_begin {ownerToken : String} {leaseUntil now : T} {total : Option ℤ}
    (h : db.beginGeneration generation ownerToken leaseUntil total now = some db') :
    db.Effect db' := by
  unfold Database.beginGeneration at h
  dsimp only at h
  split at h
  · cases h
  split at h
  · cases h
  split at h
  · cases h
  cases h
  by_cases hresuming : db.state.stagingGeneration = some generation ∧
      db.state.canonicalWriteWatermark = db.state.stagingStartWatermark
  · simp only [if_pos hresuming]
    exact .moved _ db.documents
  · simp only [if_neg hresuming]
    cases db.state.stagingGeneration with
    | none => exact .dropped _ fun g => g ≠ generation
    | some staging =>
      simp only [Option.elim_some,deleteGeneration_twice]
      exact .dropped _ fun g => decide (g ≠ staging) && decide (g ≠ generation)

lemma effect_publish {ownerToken revision : String} {start published : ℤ}
    {sources mappings : Option ℤ}
    (h : db.publishGeneration generation ownerToken start published revision sources mappings now = some db') :
    db.Effect db' := by
  unfold Database.publishGeneration at h
  dsimp only at h
  split at h
  · cases h
  split at h
  · split at h
    · cases h
    split at h
    · cases h
    split at h
    · cases h
    split at h
    · cases h
    split at h
    · cases h
    split at h
    · cases h
    cases h
    exact .moved _ db.documents
  · cases h

lemma attempt_effect {call : CatalogCall T} (h : db.attempt env call now = some db') :
    db.Effect db' := by
  cases call with
  | insert document =>
    simp only [Database.attempt,Database.insertDocument] at h
    split at h
    · cases h
    · cases h
      exact .noted _ _ _ _ _ _
  | update document =>
    simp only [Database.attempt,Database.updateDocument] at h
    split at h
    · cases h
    · cases h
      split
      · exact .noted _ _ _ _ _ _
      · exact .moved db.state _
  | delete id =>
    simp only [Database.attempt,Database.deleteDocument] at h
    split at h
    · cases h
    · cases h
      exact .noted _ _ _ _ _ _
  | registerDirty id operation reasonCode =>
    simp only [Database.attempt,Database.registerDirty] at h
    split at h
    · cases h
    split at h
    · cases h
    · cases h
      exact .noted _ db.documents _ _ _ _
  | claim ownerToken leaseUntil limit =>
    cases h
    exact effect_claim db ownerToken now leaseUntil limit
  | finish dirtyId ownerToken sequence success reasonCode => exact effect_finish h
  | reconcile ownerToken upToSequence covered =>
    simp only [Database.attempt,Database.markDirtyReconciled] at h
    split at h
    · cases h
    split at h
    · cases h
    split at h
    · cases h
    split at h
    · cases h
    · cases h
      exact .worked _ (RowTable.map_modify _ _ _ _ fun _ _ _ => rfl)
  | begin generation ownerToken leaseUntil total => exact effect_begin h
  | renew generation ownerToken leaseUntil =>
    simp only [Database.attempt,Database.renewGenerationLease] at h
    split at h
    · cases h
    split at h
    · cases h
      exact .moved _ db.documents
    · cases h
  | advance generation ownerToken cursor =>
    simp only [Database.attempt,Database.advanceBackfillCursor] at h
    split at h
    · cases h
    split at h
    · cases h
      exact .moved _ db.documents
    · cases h
  | replace id generation owner =>
    obtain ⟨-,-,rows,hrows,-,rfl⟩ := replaceMemoryMappings_some h
    refine .replaced generation id rows fun r hr => ?_
    rw [hrows] at hr
    cases hsource : db.readCurrentSource env id with
    | none =>
      rw [hsource] at hr
      cases hr
    | some source =>
      rw [hsource] at hr
      exact rows_generation hr
  | abandon generation ownerToken reasonCode =>
    simp only [Database.attempt,Database.abandonGeneration] at h
    split at h
    · cases h
    split at h
    · cases h
      exact .dropped _ fun g => g ≠ generation
    · cases h
  | publish generation ownerToken start published revision sources mappings => exact effect_publish h
  | retire generation =>
    simp only [Database.attempt,Database.retireGeneration] at h
    split at h
    · cases h
    split at h
    · cases h
    · cases h
      exact .dropped db.state fun g => g ≠ generation
  | cleanup =>
    cases h
    exact .dropped db.state fun g => g = db.state.activeGeneration.getD 0 ||
      g = db.state.stagingGeneration.getD 0
  | markDegraded reasonCode =>
    simp only [Database.attempt,Database.markDegraded] at h
    split at h
    · cases h
    · cases h
      cases db.state.stagingGeneration with
      | none => exact .moved _ db.documents
      | some staging =>
        dsimp only
        split
        · exact .moved _ db.documents
        · exact .dropped _ fun g => g ≠ staging
  | restore failed previous watermark revision reasonCode =>
    simp only [Database.attempt,Database.restoreGeneration] at h
    split at h
    · cases h
    split at h
    · cases h
    split at h
    · cases h
      exact .dropped _ fun g => g ≠ failed
    · cases h
  | upgrade =>
    cases h
    unfold Database.upgradeSchema
    cases db.state.stagingGeneration with
    | none => exact .moved _ db.documents
    | some staging => exact .dropped _ fun g => g ≠ staging

lemma effect_aggregated (h : db.Aggregated) (heffect : db.Effect db') : db'.Aggregated := by
  cases heffect with
  | noted state documents id operation code now =>
    exact h.congr (upsertDirty_tables _ _ _ _ _).1 (upsertDirty_tables _ _ _ _ _).2
  | moved | worked => exact h.congr rfl rfl
  | dropped state keep => exact (aggregated_filter h keep).congr rfl rfl
  | replaced generation id rows hrows => exact aggregated_replaceRows h hrows

lemma created_aggregated (h : db.Created) : db.Aggregated := by
  intro g sc
  simp [Database.topicsAt,Database.sourcesAt,h.sources,h.topics,scopeAggregates]

lemma run_aggregated (hstart : db.Created) (steps : List (CatalogStep T)) :
    (db.run env steps).Aggregated := by
  refine RunLaws.foldl_invariant (P := Database.Aggregated) (fun db s h => ?_)
    (created_aggregated hstart) steps
  unfold Database.step
  split
  · exact h
  · cases hcall : db.attempt env s.call s.now with
    | none => exact h
    | some db' => exact effect_aggregated h (attempt_effect hcall)

structure Summarises (row : ScopeTopic T) (rows : List (MappingRow T)) : Prop where
  count : row.activeSourceCount = rows.length
  first : IsLeast {t | ∃ r ∈ rows, r.observedAt = t} row.firstSeenAt
  last : IsGreatest {t | ∃ r ∈ rows, r.observedAt = t} row.lastSeenAt

omit [Zero T] in
lemma topicAggregate_summarises {scope : Scope} {key : String} {row : ScopeTopic T}
    (h : topicAggregate generation scope key rows = some row) : Summarises row rows := by
  unfold topicAggregate at h
  split at h
  · rename_i first last display hfirst hlast _
    cases h
    obtain ⟨hmin,hle⟩ := List.min?_eq_some_iff.mp hfirst
    obtain ⟨hmax,hge⟩ := List.max?_eq_some_iff.mp hlast
    refine ⟨rfl,⟨List.mem_map.mp hmin,?_⟩,List.mem_map.mp hmax,?_⟩
    · rintro t ⟨r,hr,rfl⟩
      exact hle _ (List.mem_map_of_mem hr)
    · rintro t ⟨r,hr,rfl⟩
      exact hge _ (List.mem_map_of_mem hr)
  · cases h

omit [Zero T] in
lemma topicAggregate_isSome (generation : ℤ) (scope : Scope) (key : String) :
    (topicAggregate generation scope key rows).isSome = true ↔ rows ≠ [] := by
  cases rows with
  | nil => simp [topicAggregate]
  | cons r rest => simp [topicAggregate,latestMapping]

theorem filter_filterMap_key {κ ρ : Type*} [DecidableEq κ] (make : κ → Option ρ) (key : ρ → κ)
    (hmake : ∀ k row, make k = some row → key row = k) {keys : List κ} (hn : keys.Nodup) (k : κ) :
    (keys.filterMap make).filter (fun row => key row = k) =
      if k ∈ keys then (make k).toList else [] := by
  induction keys with
  | nil => rfl
  | cons x keys ih =>
    obtain ⟨hx,hrest⟩ := List.nodup_cons.mp hn
    have ih := ih hrest
    by_cases hk : k = x
    · subst hk
      rw [if_neg hx] at ih
      cases hrow : make k with
      | none => simp [hrow,ih]
      | some row => simp [hrow,ih,hmake k row hrow]
    · have hmem : k ∈ x::keys ↔ k ∈ keys := by simp [hk]
      simp only [hmem]
      rw [← ih]
      cases hrow : make x with
      | none => simp [hrow]
      | some row =>
        have hne : key row ≠ k := fun heq => hk (heq.symm.trans (hmake x row hrow))
        simp [hrow,hne]

omit [Zero T] in
lemma scopeAggregates_topic (generation : ℤ) (scope : Scope) (rows : List (MappingRow T))
    (key : String) :
    (scopeAggregates generation scope rows).filter (fun row => row.topicKey = key) =
      (topicAggregate generation scope key (rows.filter fun r => r.topicKey = key)).toList := by
  unfold scopeAggregates
  rw [filter_filterMap_key _ ScopeTopic.topicKey
    (fun k row h => (topicAggregate_scope h).2.2) (List.nodup_dedup _) key]
  split
  · rfl
  · rename_i hnone
    have hempty : rows.filter (fun r => r.topicKey = key) = [] := by
      rw [List.filter_eq_nil_iff]
      intro r hr hkey
      exact hnone (List.mem_dedup.mpr (List.mem_map.mpr ⟨r,hr,by simpa using hkey⟩))
    rw [hempty]
    rfl

omit [LinearOrder T] in
lemma count_mappings (generation : ℤ) (scope : Scope) (key : String) :
    ((db.sources.filter fun r => r.generation = generation).map fun r =>
      (r.scope,r.topicKey)).count (scope,key) =
      ((db.sourcesAt generation scope).filter fun r => r.topicKey = key).length := by
  rw [List.count_eq_countP,List.countP_map,List.countP_eq_length_filter,List.filter_filter]
  unfold Database.sourcesAt
  rw [List.filter_filter]
  congr 1
  apply List.filter_congr
  intro r _
  by_cases hg : r.generation = generation <;> by_cases hs : r.scope = scope <;>
    by_cases hk : r.topicKey = key <;> simp [hs,hk]

omit [LinearOrder T] in
lemma filter_aggregateCounts (generation : ℤ) (scope : Scope) (key : String) :
    (db.aggregateCounts generation).filter (fun c => c.1 = (scope,key)) =
      ((db.topicsAt generation scope).filter fun r => r.topicKey = key).map fun r =>
        ((r.scope,r.topicKey),r.activeSourceCount) := by
  unfold Database.aggregateCounts Database.topicsAt
  rw [List.filter_map,List.filter_filter,List.filter_filter]
  congr 1
  apply List.filter_congr
  intro r _
  by_cases hg : r.generation = generation <;> by_cases hs : r.scope = scope <;>
    by_cases hk : r.topicKey = key <;> simp [hs]

lemma aggregateCounts_topic (h : db.Aggregated) (generation : ℤ) (scope : Scope) (key : String) :
    (db.aggregateCounts generation).filter (fun c => c.1 = (scope,key)) =
      if (db.sourcesAt generation scope).filter (fun r => r.topicKey = key) = [] then []
      else [((scope,key), ((db.sourcesAt generation scope).filter fun r => r.topicKey = key).length)] := by
  rw [filter_aggregateCounts,h generation scope,scopeAggregates_topic]
  cases hrow : topicAggregate generation scope key
      ((db.sourcesAt generation scope).filter fun r => r.topicKey = key) with
  | none =>
    have hempty := mt (topicAggregate_isSome generation scope key).mpr (by rw [hrow]; simp)
    rw [if_pos (not_ne_iff.mp hempty)]
    rfl
  | some row =>
    have hsome := (topicAggregate_isSome generation scope key).mp (by rw [hrow]; rfl)
    obtain ⟨-,hscope,hkey⟩ := topicAggregate_scope hrow
    rw [if_neg hsome,Option.toList_some,List.map_singleton,hscope,hkey, (topicAggregate_summarises hrow).count]

omit [LinearOrder T] in
lemma mappingCounts_topic (generation : ℤ) (scope : Scope) (key : String) :
    (db.mappingCounts generation).filter (fun c => c.1 = (scope,key)) =
      if (db.sourcesAt generation scope).filter (fun r => r.topicKey = key) = [] then []
      else [((scope,key), ((db.sourcesAt generation scope).filter fun r => r.topicKey = key).length)] := by
  have hfilter := filter_filterMap_key
    (fun k => some (k,((db.sources.filter fun r => r.generation = generation).map fun r =>
      (r.scope,r.topicKey)).count k)) Prod.fst (fun k row h => by rw [← Option.some.inj h])
    (List.nodup_dedup ((db.sources.filter fun r => r.generation = generation).map fun r =>
      (r.scope,r.topicKey))) (scope,key)
  rw [List.filterMap_eq_map'] at hfilter
  change (List.map _ _).filter _ = _
  have hmem : (scope,key) ∈ ((db.sources.filter fun r => r.generation = generation).map fun r =>
      (r.scope,r.topicKey)).dedup ↔
        (db.sourcesAt generation scope).filter (fun r => r.topicKey = key) ≠ [] := by
    rw [List.mem_dedup,← List.count_pos_iff,count_mappings,List.length_pos_iff]
  rw [hfilter,count_mappings]
  by_cases hempty : (db.sourcesAt generation scope).filter (fun r => r.topicKey = key) = []
  · rw [if_neg fun h => hmem.mp h hempty,if_pos hempty]
  · rw [if_pos (hmem.mpr hempty),if_neg hempty]
    rfl

theorem Database.unmatched_of_same {these those : List ((Scope × String) × ℕ)}
    (h : ∀ k, these.filter (fun c => c.1 = k) = those.filter fun c => c.1 = k)
    (hone : ∀ k, (these.filter fun c => c.1 = k).length ≤ 1) : unmatched these those = false := by
  unfold unmatched
  rw [List.any_eq_false]
  intro c hc hbad
  have hin : c ∈ these.filter fun d => d.1 = c.1 := List.mem_filter.mpr ⟨hc,by simp⟩
  have hsingle : these.filter (fun d => d.1 = c.1) = [c] := by
    obtain ⟨d,hd⟩ := List.length_eq_one_iff.mp (le_antisymm (hone c.1) (List.length_pos_of_mem hin))
    rw [hd] at hin ⊢
    rw [List.mem_singleton.mp hin]
  simp only [← h c.1,hsingle] at hbad
  simp at hbad

lemma aggregated_consistent (h : db.Aggregated) (generation : ℤ) :
    db.aggregateMismatch generation = false := by
  have hsame : ∀ k, (db.mappingCounts generation).filter (fun c => c.1 = k) =
      (db.aggregateCounts generation).filter fun c => c.1 = k :=
    fun k => (mappingCounts_topic generation k.1 k.2).trans (aggregateCounts_topic h generation k.1 k.2).symm
  have hone : ∀ k, ((db.mappingCounts generation).filter fun c => c.1 = k).length ≤ 1 := by
    intro k
    rw [mappingCounts_topic generation k.1 k.2]
    split <;> simp
  unfold Database.aggregateMismatch
  rw [Database.unmatched_of_same hsame hone,Database.unmatched_of_same (fun k => (hsame k).symm)
    (fun k => by rw [← hsame k]; exact hone k)]
  rfl

/-- After any operations the aggregate rows of a topic are one row with the count and the first
and last times of its mappings, or none where it has no mapping; so the check of publish finds
no difference in any generation. -/
theorem aggregates_follow_mappings (env : CatalogEnv T) (hstart : db.Created)
    (steps : List (CatalogStep T)) : (∀ generation scope key,
      let rows := ((db.run env steps).sourcesAt generation scope).filter fun r => r.topicKey = key
      let stored := ((db.run env steps).topicsAt generation scope).filter fun r => r.topicKey = key
      (rows = [] ∧ stored = []) ∨ (rows ≠ [] ∧ ∃ row, stored = [row] ∧ Summarises row rows)) ∧
    ∀ generation, (db.run env steps).aggregateMismatch generation = false := by
  have h : (db.run env steps).Aggregated := run_aggregated hstart steps
  refine ⟨?_,aggregated_consistent h⟩
  intro generation scope key rows stored
  have hstored : stored = (topicAggregate generation scope key rows).toList := by
    change ((db.run env steps).topicsAt generation scope).filter _ = _
    rw [h generation scope,scopeAggregates_topic]
  cases hrow : topicAggregate generation scope key rows with
  | none =>
    have hempty := mt (topicAggregate_isSome generation scope key).mpr (by rw [hrow]; simp)
    exact .inl ⟨not_ne_iff.mp hempty,by rw [hstored,hrow]; rfl⟩
  | some row =>
    have hsome := (topicAggregate_isSome generation scope key).mp (by rw [hrow]; rfl)
    exact .inr ⟨hsome,row,by rw [hstored,hrow]; rfl,topicAggregate_summarises hrow⟩

def teaMetadata : SourceMetadata ℕ where
  sourceProvenanceComplete := some true
  scopeKey := some "chat-1"
  privacyLevel := some "public"
  resolverRevision := some "1"
  chatType := some "private"
  topics := some [.text "tea"]

def teaText : String :=
  "\x7b\"topics\":[\"tea\"],\"scope_key\":\"chat-1\",\"chat_type\":\"private\"," ++
  "\"privacy_level\":\"public\",\"resolver_revision\":\"1\"," ++
  "\"source_provenance_complete\":true\x7d"

def teaEnv : CatalogEnv ℕ := sampleEnv fun raw => if raw = teaText then some teaMetadata else none

def teaDocument : Document where
  id := 1
  text := "likes tea"
  metadata := some teaText
  createdAt := none
  updatedAt := some "2024-01-01"

def backfill : List (CatalogStep ℕ) :=
  [{ call := .insert teaDocument, now := 1 },
   { call := .begin 1 "owner" 90 (some 1), now := 2 },
   { call := .replace 1 1 (some "owner"), now := 3 },
   { call := .advance 1 "owner" 1, now := 4 },
   { call := .reconcile "owner" 1 [1], now := 5 },
   { call := .publish 1 "owner" 1 1 "1" (some 1) (some 1), now := 6 }]

theorem aggregates_follow_mappings_sample :
    ((({} : Database ℕ).run teaEnv backfill).aggregateMismatch 1 = false) ∧
      (({} : Database ℕ).run teaEnv backfill).state.activeGeneration = some 1 ∧
      (({} : Database ℕ).run teaEnv backfill).topics.length = 1 :=
  ⟨(aggregates_follow_mappings teaEnv created_empty backfill).2 1,by decide +kernel⟩

end Memora.Catalog

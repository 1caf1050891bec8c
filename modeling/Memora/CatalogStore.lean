import Memora.CatalogModels
import Memora.RowTable

/-! Every operation of the store is one transaction under the process-wide write lock. It answers
with the database it commits, or with none where it reports a failure and changes nothing. -/
namespace Memora.Catalog

structure Database (T : Type*) [Zero T] where
  state : CatalogState T := {}
  documents : List Document := []
  sources : List (MappingRow T) := []
  topics : List (ScopeTopic T) := []
  dirty : List (DirtyRow T) := []
  nextDirtyId : ℕ := 1

variable {T : Type*} [LinearOrder T] [Zero T] (env : CatalogEnv T)

namespace Database

variable (db : Database T) (generation : ℤ)

def deleteGeneration : Database T :=
  { db with
    sources := db.sources.filter fun r => r.generation ≠ generation
    topics := db.topics.filter fun r => r.generation ≠ generation }

variable (ownerToken : String)

def leasedByOther (now : T) : Bool :=
  db.state.rebuildOwnerToken.any (fun owner => owner ≠ "" && owner ≠ ownerToken) &&
    db.state.rebuildLeaseUntil.any fun lease => now < lease

/-- The staging fence: this owner holds an unexpired lease on this generation. -/
def fenced (now : T) : Bool :=
  decide (db.state.stagingGeneration = some generation) &&
    decide (db.state.rebuildOwnerToken = some ownerToken) &&
    db.state.rebuildLeaseUntil.any fun lease => now < lease

def beginGeneration (leaseUntil : T) (backfillTotal : Option ℤ) (now : T) : Option (Database T) :=
  let current := max 0 now
  if generation ≤ 0 || decide (ownerToken = "") || decide (leaseUntil ≤ current) ||
      backfillTotal.any (fun total => total < 0) then none
  else if db.leasedByOther ownerToken current then none
  else if db.state.activeGeneration.any fun active => generation ≤ active then none
  else
    let s := db.state
    let resuming := s.stagingGeneration = some generation ∧ s.canonicalWriteWatermark = s.stagingStartWatermark
    -- a watermark that has moved on resets the staging rows
    let db' := if resuming then db
      else (s.stagingGeneration.elim db db.deleteGeneration).deleteGeneration generation
    some { db' with state := { s with
      stagingGeneration := some generation
      status := match s.activeGeneration, s.status with
        | none, _ => .backfilling
        | some _, .degraded => .degraded
        | some _, _ => .ready
      backfillCursor := if resuming then s.backfillCursor else 0
      backfillTotal := backfillTotal.getD (if resuming then s.backfillTotal else 0)
      stagingStartWatermark :=
        if resuming then s.stagingStartWatermark else s.canonicalWriteWatermark
      rebuildOwnerToken := some ownerToken
      rebuildLeaseUntil := some leaseUntil
      updatedAt := current
      reasonCode := if resuming then "catalog_backfill_resumed" else "catalog_backfill_reset" } }

def renewGenerationLease (leaseUntil : T) (now : T) : Option (Database T) :=
  let current := max 0 now
  if generation ≤ 0 || decide (ownerToken = "") || decide (leaseUntil ≤ current) then none
  else if db.fenced generation ownerToken current then
    some { db with state := { db.state with
      rebuildLeaseUntil := some leaseUntil
      updatedAt := current } }
  else none

def advanceBackfillCursor (cursor : ℤ) (now : T) : Option (Database T) :=
  let current := max 0 now
  if generation ≤ 0 || decide (ownerToken = "") || cursor < 0 then none
  else if db.fenced generation ownerToken current && decide (db.state.backfillCursor ≤ cursor) then
    some { db with state := { db.state with backfillCursor := cursor, updatedAt := current } }
  else none

def abandonGeneration (reasonCode : String) (now : T) : Option (Database T) :=
  if generation ≤ 0 || decide (ownerToken = "") then none
  else if db.state.stagingGeneration = some generation ∧
      db.state.rebuildOwnerToken = some ownerToken ∧ db.state.activeGeneration ≠ some generation then
    some { db.deleteGeneration generation with state := { db.state with
      stagingGeneration := none
      status := if db.state.activeGeneration.isNone then .degraded else db.state.status
      rebuildOwnerToken := none
      rebuildLeaseUntil := none
      updatedAt := max 0 now
      reasonCode } }
  else none

def retireGeneration : Option (Database T) :=
  if generation ≤ 0 then none
  else if db.state.activeGeneration = some generation ∨
    db.state.stagingGeneration = some generation then none
  else some (db.deleteGeneration generation)

def cleanupOrphanGenerations : Database T :=
  let kept (generation : ℤ) : Bool :=
    generation = db.state.activeGeneration.getD 0 || generation = db.state.stagingGeneration.getD 0
  { db with
    sources := db.sources.filter fun r => kept r.generation
    topics := db.topics.filter fun r => kept r.generation }

def markDegraded (reasonCode : String) (now : T) : Option (Database T) :=
  if reasonCode = "" ∨ 128 < reasonCode.length then none
  else
    let s := db.state
    let db' := match s.stagingGeneration with
      | none => db
      | some staging =>
        if s.activeGeneration = some staging then db else db.deleteGeneration staging
    some { db' with state := { s with
      status := .degraded
      stagingGeneration := none
      rebuildOwnerToken := none
      rebuildLeaseUntil := none
      updatedAt := max 0 now
      reasonCode } }

/-- `restore_generation_after_verify_failure`. Its second update has the condition of the
first, so it never matches where the first did not. -/
def restoreGeneration (failedGeneration : ℤ) (previousGeneration : Option ℤ)
    (previousPublishedDirtyWatermark : ℤ) (previousCanonicalSnapshotRevision : Option String)
    (reasonCode : String) (now : T) : Option (Database T) :=
  if failedGeneration ≤ 0 || previousPublishedDirtyWatermark < 0 || decide (reasonCode = "") ||
      decide (128 < reasonCode.length) then none
  else if previousGeneration.any fun previous => previous ≤ 0 || previous = failedGeneration then
    none
  else if db.state.activeGeneration = some failedGeneration ∧ db.state.stagingGeneration = none then
    some { db.deleteGeneration failedGeneration with state := { db.state with
      activeGeneration := previousGeneration
      status := if previousGeneration.isNone then .degraded else .ready
      canonicalSnapshotRevision := (previousCanonicalSnapshotRevision.map Canonical.pythonStrip).filter (· ≠ "")
      publishedDirtyWatermark := previousPublishedDirtyWatermark.toNat
      rebuildOwnerToken := none
      rebuildLeaseUntil := none
      updatedAt := max 0 now
      reasonCode } }
  else none

/-- `create_topic_catalog_schema` over an older version. -/
def upgradeSchema (now : T) : Database T :=
  let db' := db.state.stagingGeneration.elim db db.deleteGeneration
  { db' with state := { db.state with
    stagingGeneration := none
    backfillCursor := 0
    backfillTotal := 0
    stagingStartWatermark := db.state.canonicalWriteWatermark
    rebuildOwnerToken := none
    rebuildLeaseUntil := none
    status := if db.state.activeGeneration.isNone then .empty else .ready
    updatedAt := max 0 now
    reasonCode := "catalog_schema_upgraded" } }

/-- `GROUP BY scope_key, chat_type, privacy_level, topic_key` with its counts. -/
def mappingCounts : List ((Scope × String) × ℕ) :=
  let keys := (db.sources.filter fun r => r.generation = generation).map fun r =>
    (r.scope,r.topicKey)
  keys.dedup.map fun key => (key,keys.count key)

def aggregateCounts : List ((Scope × String) × ℕ) :=
  (db.topics.filter fun r => r.generation = generation).map fun r =>
    ((r.scope,r.topicKey),r.activeSourceCount)

def unmatched (these those : List ((Scope × String) × ℕ)) : Bool :=
  these.any fun c =>
    let joined := those.filter fun d => d.1 = c.1
    joined.isEmpty || joined.any fun d => c.2 ≠ d.2

/-- The comparison of `publish_generation` and `verify_published_generation`. -/
def aggregateMismatch : Bool :=
  unmatched (db.mappingCounts generation) (db.aggregateCounts generation) ||
    unmatched (db.aggregateCounts generation) (db.mappingCounts generation)

/-- `COALESCE(MAX(id), 0)` of the documents. -/
def maxDocumentId : ℤ := (db.documents.map Document.id).max?.getD 0

def generationCounts : ℕ × ℕ :=
  let rows := db.sources.filter fun r => r.generation = generation
  ((rows.map MappingRow.memoryId).dedup.length,rows.length)

def publishGeneration (startWatermark publishedDirtyWatermark : ℤ)
    (canonicalSnapshotRevision : String) (expectedSourceCount expectedMappingCount : Option ℤ)
    (now : T) : Option (Database T) :=
  let current := max 0 now
  if generation ≤ 0 || decide (ownerToken = "") || startWatermark < 0 ||
      publishedDirtyWatermark < 0 ||
      decide (Canonical.pythonStrip canonicalSnapshotRevision = "") then none
  else match expectedSourceCount, expectedMappingCount with
    | some sourceCount, some mappingCount =>
      if sourceCount < 0 ∨ mappingCount < 0 then none
      else if !db.fenced generation ownerToken current || decide (db.state.status = .empty) ||
          decide ((db.state.canonicalWriteWatermark : ℤ) ≠ startWatermark) ||
          decide ((db.state.stagingStartWatermark : ℤ) ≠ startWatermark) ||
          decide (publishedDirtyWatermark ≠ startWatermark) then none
      else if db.state.backfillCursor < db.maxDocumentId then none
      else if db.dirty.any fun d => (d.sequence : ℤ) ≤ publishedDirtyWatermark && d.state ≠ .completed then none
      else if ((db.generationCounts generation).1 : ℤ) ≠ sourceCount ∨
          ((db.generationCounts generation).2 : ℤ) ≠ mappingCount then none
      else if db.aggregateMismatch generation then none
      else some { db with state := { db.state with
        activeGeneration := some generation
        stagingGeneration := none
        status := .ready
        canonicalSnapshotRevision := some (Canonical.pythonStrip canonicalSnapshotRevision)
        publishedDirtyWatermark := publishedDirtyWatermark.toNat
        rebuildOwnerToken := none
        rebuildLeaseUntil := none
        updatedAt := current
        reasonCode := "catalog_ready" } }
    | _, _ => none

def sourcesAt (scope : Scope) : List (MappingRow T) :=
  db.sources.filter fun r => r.generation = generation && r.scope = scope

def topicsAt (scope : Scope) : List (ScopeTopic T) :=
  db.topics.filter fun r => r.generation = generation && r.scope = scope

end Database

/-- `ORDER BY observed_at DESC, memory_id DESC LIMIT 1`. -/
def latestMapping : List (MappingRow T) → Option (MappingRow T)
  | [] => none
  | r::rest => some (rest.foldl (fun latest r =>
      if latest.observedAt < r.observedAt ∨
          (latest.observedAt = r.observedAt ∧ latest.memoryId < r.memoryId) then r
      else latest) r)

def topicAggregate (generation : ℤ) (scope : Scope) (topicKey : String)
    (rows : List (MappingRow T)) : Option (ScopeTopic T) :=
  match (rows.map MappingRow.observedAt).min?, (rows.map MappingRow.observedAt).max?,
      latestMapping rows with
  | some first, some last, some display => some {
      generation, scope, topicKey
      displayTopic := display.displayTopic
      activeSourceCount := rows.length
      firstSeenAt := first
      lastSeenAt := last }
  | _, _, _ => none

def scopeAggregates (generation : ℤ) (scope : Scope) (rows : List (MappingRow T)) :
    List (ScopeTopic T) :=
  (rows.map MappingRow.topicKey).dedup.filterMap fun key =>
    topicAggregate generation scope key (rows.filter fun r => r.topicKey = key)

namespace Database

variable (db : Database T)

def rebuildScopeAggregate (generation : ℤ) (scope : Scope) : Database T :=
  { db with
    topics := (db.topics.filter fun r => !(r.generation = generation && r.scope = scope)) ++
      scopeAggregates generation scope (db.sourcesAt generation scope) }

def document? (id : ℤ) : Option Document := db.documents.find? fun d => d.id = id

def readCurrentSource (memoryId : ℤ) : Option (CatalogSource T) :=
  (db.document? memoryId).bind (sourceFromValues env)

def replaceRows (generation memoryId : ℤ) (rows : List (MappingRow T)) :
    Database T :=
  let old := db.sources.filter fun r => r.generation = generation && r.memoryId = memoryId
  let db' := { db with
    sources := (db.sources.filter fun r => !(r.generation = generation && r.memoryId = memoryId))++rows }
  ((old++rows).map MappingRow.scope).dedup.foldl
  (fun db scope => db.rebuildScopeAggregate generation scope) db'

/-- The fence of `replace_memory_mappings`: without an owner only the active generation of a
ready catalog may be written. -/
def mayReplace (generation : ℤ) (ownerToken : Option String) (now : T) : Bool :=
  match ownerToken with
  | none => decide (db.state.activeGeneration = some generation) && decide (db.state.status = .ready)
  | some owner => db.fenced generation owner now

/-- A row that breaks a constraint rolls everything back. -/
def replaceMemoryMappings (memoryId generation : ℤ) (ownerToken : Option String) (now : T) :
    Option (Database T) :=
  if memoryId ≤ 0 || generation ≤ 0 then none
  else if !db.mayReplace generation ownerToken (max 0 now) then none
  else
    let rows := (db.readCurrentSource env memoryId).elim [] fun source => source.rows generation
    if rows.all MappingRow.checked then some (db.replaceRows generation memoryId rows) else none

end Database

end Memora.Catalog

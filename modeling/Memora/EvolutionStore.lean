import Memora.EvolutionModels
import Memora.RowTable
import Memora.RunLaws

/-! Every operation is one transaction under the store's write lock. It answers with what it
commits, or with the error that rolls it back. -/
namespace Memora.Evolution

variable {T : Type}

structure MemoryEvolutionStore (T : Type) where
  documents : List (CanonicalRow T) := []
  relations : List RelationRow := []
  projections : List (ProjectionRow T) := []
  mappings : List (SourceMapping T) := []
  reviews : List ReviewRow := []

structure Expectations where
  revisions : Dict ℤ String
  scopes : List (ℤ × String) := []
  privacies : List (ℤ × PrivacyLevel) := []

def Expectations.add (e : Expectations) (id : ℤ) (revision : String) (scopeKey : Option String)
    (privacyLevel : Option PrivacyLevel) : Except String Expectations :=
  if revision ≠ "" ∧ (e.revisions.get? id).any
    (fun previous => previous ≠ "" && previous ≠ revision)
  then .error "source_revision_mismatch"
  else .ok {
    revisions := if revision = "" then e.revisions else e.revisions.set id revision
    scopes := e.scopes++((scopeKey.filter (· ≠ "")).map (id,·)).toList
    privacies := e.privacies++(privacyLevel.map (id,·)).toList }

namespace MemoryEvolutionStore

variable (db : MemoryEvolutionStore T)

def document? (id : ℤ) : Option (CanonicalRow T) :=
  db.documents.find? fun row => row.id = id

def checkSource (e : Expectations) (id : ℤ) (revision : String) :
    Except String Unit :=
  match db.document? id with
  | none => .error "source_memory_not_found"
  | some row =>
    let scopes := (e.scopes.filter fun s => s.1 = id).map Prod.snd
    if revision ≠ "" ∧ row.revision ≠ revision then .error "source_revision_mismatch"
    else if !isMemoryActive row.metadata then .error "source_inactive"
    else if !scopes.isEmpty && !scopes.contains row.scopeKey then .error "source_scope_mismatch"
    else if e.privacies.any fun p => p.1 = id && !privacyAllowed row.privacyLevel p.2 then
      .error "source_privacy_mismatch"
    else .ok ()

def validatePlanSources (plan : DerivedApplyPlan T) :
    Except String Unit := do
  let e ← plan.relations.foldlM (fun (e : Expectations) rel => do
    let e ← e.add rel.sourceMemoryId (plan.revisionOf rel.sourceRevision rel.sourceMemoryId)
      (some rel.scopeKey) (some rel.privacyLevel)
    e.add rel.targetMemoryId (plan.revisionOf rel.targetRevision rel.targetMemoryId)
      (some rel.scopeKey) (some rel.privacyLevel)) { revisions := plan.sourceRevisions }
  let e ← plan.projectionSources.foldlM (fun (e : Expectations) source =>
    let projection := plan.projections.find? fun p => p.projectionId = source.projectionId
    e.add source.memoryId source.revisionToken (projection.map ProjectionView.scopeKey)
      (projection.map ProjectionView.privacyLevel)) e
  e.revisions.entries.forM fun expected => db.checkSource e expected.1 expected.2

end MemoryEvolutionStore

def relationKey (rel : RelationView) (sourceRevision targetRevision : String) : String :=
  toString rel.sourceMemoryId++":"++sourceRevision++":"++toString rel.targetMemoryId++":" ++
    targetRevision++":"++rel.relationType.value

/-- `ON CONFLICT(relation_key) DO UPDATE`; an active relation stays active. -/
def RelationRow.reproposed (row : RelationRow) (rel : RelationView) (originJobId : Option String) :
    RelationRow :=
  { row with
    revision := row.revision+1
    state := if row.state = .active then .active else rel.state
    confidence := rel.confidence
    scopeKey := rel.scopeKey
    privacyLevel := rel.privacyLevel
    originJobId }

/-- One relation of a plan; a rejected relation is left as it is. -/
def upsertRelation (plan : DerivedApplyPlan T) (rows : List RelationRow) (rel : RelationView) :
    Except String (List RelationRow) :=
  let sourceRevision := plan.revisionOf rel.sourceRevision rel.sourceMemoryId
  let targetRevision := plan.revisionOf rel.targetRevision rel.targetMemoryId
  if sourceRevision = "" ∨ targetRevision = "" then
    .error "relation source revisions must be non-empty"
  else
    let key := relationKey rel sourceRevision targetRevision
    if rows.any fun r => r.relationKey = key then
      .ok (RowTable.modify (fun r => r.relationKey = key && r.state ≠ .rejected)
        (fun r => r.reproposed rel plan.originJobId) rows)
    else if rows.any fun r => r.relationId = rel.relationId then .error "UNIQUE constraint failed"
    else .ok (rows++[{
      relationId := rel.relationId
      relationKey := key
      revision := 1
      sourceMemoryId := rel.sourceMemoryId
      targetMemoryId := rel.targetMemoryId
      sourceRevision, targetRevision
      relationType := rel.relationType
      state := rel.state
      confidence := rel.confidence
      scopeKey := rel.scopeKey
      privacyLevel := rel.privacyLevel
      originJobId := plan.originJobId }])

def projectionKey (projection : ProjectionView T) (sources : List (SourceMapping T)) : String :=
  let sorted := sources.insertionSort fun a b => a.memoryId < b.memoryId ∨
    (a.memoryId = b.memoryId ∧ a.revisionToken ≤ b.revisionToken)
  let sourceKey := ",".intercalate (sorted.map fun s => toString s.memoryId++"@"++s.revisionToken)
  projection.projectionType.value++":"++projection.scopeKey++":"++sourceKey

/-- `ON CONFLICT(projection_key) DO UPDATE`. -/
def ProjectionRow.reproposed (row : ProjectionRow T) (projection : ProjectionView T) (primary : ℤ)
    (originJobId : Option String) : ProjectionRow T :=
  { row with
    revision := row.revision+1
    state := projection.state
    summary := projection.summary
    primarySourceMemoryId := primary
    scopeKey := projection.scopeKey
    privacyLevel := projection.privacyLevel
    confidence := projection.confidence
    validFrom := projection.validFrom
    validTo := projection.validTo
    invalidAt := projection.invalidAt
    originJobId }

def bothSides (sources : List (SourceMapping T)) : Bool :=
  sources.any (fun s => s.role = .conflictLeft) && sources.any fun s => s.role = .conflictRight

structure ProjectionWrites (T : Type) where
  projections : List (ProjectionRow T)
  mappings : List (SourceMapping T)
  ids : Dict String String := {}
  seen : List String := []

/-- One projection of a plan; its old mappings are deleted. -/
def upsertProjection (plan : DerivedApplyPlan T) (w : ProjectionWrites T)
    (projection : ProjectionView T) : Except String (ProjectionWrites T) :=
  let sources := plan.projectionSources.filter fun s => s.projectionId = projection.projectionId
  match sources.filter fun s => s.role = .primary with
  | [primary] =>
    let ids := sources.map SourceMapping.memoryId
    if !(projection.sourceMemoryIds.all ids.contains && ids.all projection.sourceMemoryIds.contains)
    then .error "projection source mappings must match source ids"
    else if projection.projectionType = .conflictSet ∧ bothSides sources = false then
      .error "conflict projection must include both sides"
    else
      let key := projectionKey projection sources
      if w.seen.contains key then .error "duplicate_projection"
      else match w.projections.find? fun r => r.projectionKey = key with
        | some stored => .ok {
            projections := RowTable.modify (fun r => r.projectionKey = key)
              (fun r => r.reproposed projection primary.memoryId plan.originJobId) w.projections
            mappings := w.mappings.filter fun m => m.projectionId ≠ stored.projectionId
            ids := w.ids.set projection.projectionId stored.projectionId
            seen := key::w.seen }
        | none =>
          if w.projections.any fun r => r.projectionId = projection.projectionId then
            .error "UNIQUE constraint failed"
          else .ok {
            projections := w.projections++[{
              projectionId := projection.projectionId
              projectionKey := key
              projectionType := projection.projectionType
              revision := 1
              state := projection.state
              summary := projection.summary
              primarySourceMemoryId := primary.memoryId
              scopeKey := projection.scopeKey
              privacyLevel := projection.privacyLevel
              confidence := projection.confidence
              validFrom := projection.validFrom
              validTo := projection.validTo
              invalidAt := projection.invalidAt
              originJobId := plan.originJobId }]
            mappings := w.mappings.filter fun m => m.projectionId ≠ projection.projectionId
            ids := w.ids.set projection.projectionId projection.projectionId
            seen := key::w.seen }
  | _ => .error "projection must have exactly one primary source"

def insertMapping (ids : Dict String String) (mappings : List (SourceMapping T))
    (source : SourceMapping T) : Except String (List (SourceMapping T)) :=
  match ids.get? source.projectionId with
  | none => .error "projection source references an unknown projection"
  | some stored =>
    if mappings.any fun m => m.projectionId = stored && m.memoryId = source.memoryId then
      .error "UNIQUE constraint failed"
    else .ok (mappings++[{ source with projectionId := stored }])

def MemoryEvolutionStore.applyDerivedPlan (db : MemoryEvolutionStore T)
    (plan : DerivedApplyPlan T) :
    Except String (MemoryEvolutionStore T) := do
  db.validatePlanSources plan
  let relations ← plan.relations.foldlM (upsertRelation plan) db.relations
  let w ← plan.projections.foldlM (upsertProjection plan)
    { projections := db.projections, mappings := db.mappings }
  let mappings ← plan.projectionSources.foldlM (insertMapping w.ids) w.mappings
  return { db with
    relations
    projections := w.projections
    mappings }

/-- `_HIGH_IMPACT_RELATION_TYPES` of the review. -/
def RelationType.reviewable : RelationType → Bool
  | .updates | .contradicts | .preferenceChange | .supersedes => true
  | _ => false

def nextReviewState : DerivedState → ReviewAction → Option DerivedState
  | .candidate, .approve => some .active
  | .candidate, .reject => some .rejected
  | .rejected, .replay => some .candidate
  | .invalidated, .replay => some .candidate
  | _, _ => none

/-- The plan that `_validate_review_relation_sources` checks. -/
def RelationRow.reviewPlan (row : RelationRow) : DerivedApplyPlan T where
  relations := [{
    relationId := row.relationId
    sourceMemoryId := row.sourceMemoryId
    targetMemoryId := row.targetMemoryId
    relationType := row.relationType
    confidence := row.confidence
    scopeKey := row.scopeKey
    privacyLevel := row.privacyLevel
    state := row.state
    sourceRevision := some row.sourceRevision
    targetRevision := some row.targetRevision }]
  sourceRevisions := (({} : Dict ℤ String).set row.sourceMemoryId row.sourceRevision).set
    row.targetMemoryId row.targetRevision

namespace MemoryEvolutionStore

def reviewRelationCandidate (db : MemoryEvolutionStore T) (relationId : String)
    (action : ReviewAction) (expectedRevision : ℕ) : Except String (MemoryEvolutionStore T) :=
  if expectedRevision = 0 then .error "invalid_expected_revision"
  else if Canonical.pythonStrip relationId = "" then .error "derived_candidate_not_found"
  else match db.relations.find? fun r => r.relationId = Canonical.pythonStrip relationId with
    | none => .error "derived_candidate_not_found"
    | some row =>
      if !row.relationType.reviewable then .error "relation_not_reviewable"
      else if row.revision ≠ expectedRevision then .error "derived_candidate_revision_conflict"
      else match nextReviewState row.state action with
        | none => .error "derived_review_transition_not_allowed"
        | some newState =>
          -- a rejection needs no valid source
          match if action = .reject then .ok () else db.validatePlanSources row.reviewPlan with
          | .error e => .error e
          | .ok () =>
            let matching (r : RelationRow) : Bool := r.relationId = relationId &&
              r.revision = row.revision && r.state = row.state
            if db.relations.countP matching ≠ 1 then .error "derived_candidate_revision_conflict"
            else .ok { db with
              relations := RowTable.modify matching
                (fun r => { r with state := newState, revision := row.revision+1 }) db.relations
              reviews := db.reviews++[{
                relationId, action
                expectedRevision := row.revision
                previousState := row.state
                newState
                resultRevision := row.revision+1 }] }

def mappingsOf (db : MemoryEvolutionStore T) (projectionId : String) : List (SourceMapping T) :=
  db.mappings.filter fun m => m.projectionId = projectionId

end MemoryEvolutionStore

def RelationRow.invalidated (r : RelationRow) : RelationRow := { r with state := .invalidated }

def ProjectionRow.invalidated (p : ProjectionRow T) (now : T) : ProjectionRow T :=
  { p with state := .invalidated, invalidAt := some now }

def invalidateRelations (selected : RelationRow → Bool) (rows : List RelationRow) :
    List RelationRow :=
  RowTable.modify (fun r => r.state ≠ .invalidated && selected r) RelationRow.invalidated rows

def invalidateProjections (now : T) (selected : ProjectionRow T → Bool)
    (rows : List (ProjectionRow T)) : List (ProjectionRow T) :=
  RowTable.modify (fun p => p.state ≠ .invalidated && selected p) (fun p => p.invalidated now) rows

def primaryLost (p : ProjectionRow T) (mappings : List (SourceMapping T)) : Bool :=
  !mappings.any fun m => m.memoryId = p.primarySourceMemoryId

namespace MemoryEvolutionStore

variable (db : MemoryEvolutionStore T)

def invalidateForSourceRevision (id : ℤ) (revision : String) (now : T) : MemoryEvolutionStore T :=
  let stale (m : SourceMapping T) : Bool := m.memoryId = id && m.revisionToken ≠ revision
  let left : MemoryEvolutionStore T := { db with mappings := db.mappings.filter fun m => !stale m }
  { left with
    relations := invalidateRelations (fun r =>
      (r.sourceMemoryId = id && r.sourceRevision ≠ revision) ||
        (r.targetMemoryId = id && r.targetRevision ≠ revision)) db.relations
    projections := invalidateProjections now (fun p =>
      (db.mappingsOf p.projectionId).any stale && ((left.mappingsOf p.projectionId).isEmpty ||
          primaryLost p (left.mappingsOf p.projectionId) ||
          decide (p.projectionType = .semanticSummary) ||
          (decide (p.projectionType = .conflictSet) && !bothSides (left.mappingsOf p.projectionId))))
      db.projections }

def invalidateForDeletedSource (id : ℤ) (now : T) :
    MemoryEvolutionStore T :=
  let left : MemoryEvolutionStore T := { db with mappings := db.mappings.filter fun m => m.memoryId ≠ id }
  { left with
    relations := invalidateRelations (fun r => r.sourceMemoryId = id || r.targetMemoryId = id) db.relations
    projections := invalidateProjections now (fun p =>
      (db.mappingsOf p.projectionId).any (fun m => m.memoryId = id) &&
        (p.primarySourceMemoryId = id || decide (p.projectionType = .semanticSummary) ||
          (left.mappingsOf p.projectionId).isEmpty)) db.projections }

def rollbackJob (jobId : String) (now : T) : MemoryEvolutionStore T :=
  let ids := (db.projections.filter fun p : ProjectionRow T =>
    p.originJobId = some jobId && decide (p.state ≠ .invalidated)).map ProjectionRow.projectionId
  { db with
    relations := invalidateRelations (fun r => r.originJobId = some jobId) db.relations
    projections := RowTable.modify (fun p => ids.contains p.projectionId) (fun p => p.invalidated now)
      db.projections
    mappings := db.mappings.filter fun m => !ids.contains m.projectionId }

def invalidateAllDerived (now : T) : MemoryEvolutionStore T :=
  { db with
    relations := invalidateRelations (fun _ => true) db.relations
    projections := invalidateProjections now (fun _ => true) db.projections
    mappings := [] }

def sourceValid (id : ℤ) (revision scopeKey : String) (privacyLevel : PrivacyLevel) : Bool :=
  (db.document? id).any fun row => (revision = "" || row.revision = revision) &&
    row.scopeKey = scopeKey && privacyAllowed row.privacyLevel privacyLevel

def cleanupOrphanedDerived (now : T) : MemoryEvolutionStore T :=
  let orphaned (p : ProjectionRow T) (m : SourceMapping T) : Bool :=
    m.projectionId = p.projectionId &&
      !db.sourceValid m.memoryId m.revisionToken p.scopeKey p.privacyLevel
  let left : MemoryEvolutionStore T := { db with
    mappings := db.mappings.filter fun m =>
      !db.projections.any fun p => decide (p.state ≠ .invalidated) && orphaned p m }
  { left with
    relations := invalidateRelations (fun r =>
      !db.sourceValid r.sourceMemoryId r.sourceRevision r.scopeKey r.privacyLevel ||
        !db.sourceValid r.targetMemoryId r.targetRevision r.scopeKey r.privacyLevel) db.relations
    projections := invalidateProjections now (fun p =>
      (left.mappingsOf p.projectionId).isEmpty ||
        primaryLost p (left.mappingsOf p.projectionId) ||
        ((db.mappingsOf p.projectionId).any (orphaned p) &&
          decide (p.projectionType = .semanticSummary))) db.projections }

end MemoryEvolutionStore

inductive EvolutionCall (T : Type)
  | canonical (documents : List (CanonicalRow T))
  | applyPlan (plan : DerivedApplyPlan T)
  | review (relationId : String) (action : ReviewAction) (expectedRevision : ℕ)
  | sourceRevision (id : ℤ) (revision : String)
  | deletedSource (id : ℤ)
  | rollback (jobId : String)
  | invalidateAll
  | cleanup

structure EvolutionStep (T : Type) where
  call : EvolutionCall T
  now : T
  raised : Bool := false

namespace MemoryEvolutionStore

variable (db : MemoryEvolutionStore T)

/-- What a call commits; an error where it is refused. The evidence plane may change in any
way between two calls, and the review page strips the id it is given. -/
def attempt (call : EvolutionCall T) (now : T) : Except String (MemoryEvolutionStore T) :=
  match call with
  | .canonical documents => .ok { db with documents }
  | .applyPlan plan => db.applyDerivedPlan plan
  | .review relationId action expectedRevision =>
    db.reviewRelationCandidate (Canonical.pythonStrip relationId) action expectedRevision
  | .sourceRevision id revision => .ok (db.invalidateForSourceRevision id revision now)
  | .deletedSource id => .ok (db.invalidateForDeletedSource id now)
  | .rollback jobId => .ok (db.rollbackJob jobId now)
  | .invalidateAll => .ok (db.invalidateAllDerived now)
  | .cleanup => .ok (db.cleanupOrphanedDerived now)

def step (s : EvolutionStep T) : MemoryEvolutionStore T :=
  if s.raised then db else ((db.attempt s.call s.now).toOption).getD db

def run (steps : List (EvolutionStep T)) : MemoryEvolutionStore T :=
  steps.foldl step db

end MemoryEvolutionStore

end Memora.Evolution

import Memora.LearningActions

/-! Everything else that changes the manager's records. -/
namespace Memora.Learning

variable {F γ : Type*} (env : LearningEnv F γ)

namespace Manager

def dropUnreferenced (m : Manager F) : Manager F :=
  { m with candidates := m.candidates.filter fun candidateId _ =>
      m.candidateIsReferenced candidateId }

/-- The candidate that `rebuild_candidates` stores: a candidate with the same bindings keeps
its id, and evidence that differs from the stored artifact rejects it. -/
def rebuiltCandidate (m : Manager F) (record : Candidate F) (candidateId : String)
    (artifactDiffers : Bool) : Candidate F :=
  let record' := match m.findSameCandidate record.binding with
    | some existing =>
      { record with candidateId := existing.candidateId, createdAt := existing.createdAt }
    | none => { record with candidateId }
  if artifactDiffers then
    { record' with status := .rejected, reasonCode := "quality_gate_failed" }
  else record'

/-- `rebuild_candidates` with aggregates; none where it changes nothing. -/
def rebuildCandidates (m : Manager F) (record : Candidate F) (candidateId : String)
    (artifactDiffers : Bool) : Option (Manager F) :=
  if !m.enabled || m.writesBlocked || !m.operationClaims.isEmpty then none
  else
    let candidate := m.rebuiltCandidate record candidateId artifactDiffers
    some { m with
      candidates := m.dropUnreferenced.candidates.set candidate.candidateId candidate }

/-- `_replace_with_referenced_candidates`. -/
def replaceWithReferenced (m : Manager F) : Option (Manager F) :=
  if !m.enabled || !m.operationClaims.isEmpty then none else some m.dropUnreferenced

structure Protected where
  operationIds : List String := []
  candidateIds : List String := []
  publicationRevisions : List String := []

/-- `_collect_protected_record`. -/
def Protected.collect (p : Protected) (operationId candidateId publicationRevision :
    Option String) :
    Protected where
  operationIds := (operationId.filter isOpaqueId).toList++p.operationIds
  candidateIds := (candidateId.filter isOpaqueId).toList++p.candidateIds
  publicationRevisions := (publicationRevision.filter isOpaqueId).toList++p.publicationRevisions

/-- The walk over the parents of the active publication; none where the chain is odd. -/
def protectChain (m : Manager F) : ℕ → List String → Option String → Protected → Option Protected
  | _, _, none, p => some p
  | 0, _, some _, _ => none
  | fuel+1, seen, some current, p =>
    if !isOpaqueId current || seen.contains current then none
    else match m.publications.get? current with
      | none => none
      | some publication =>
        if publication.publicationRevision ≠ current || !isOpaqueId publication.candidateId then
          none
        else m.protectChain fuel (current::seen) publication.parentPublicationRevision
          { p with
            candidateIds := publication.candidateId::p.candidateIds
            publicationRevisions := current::p.publicationRevisions }

/-- `_protected_tombstone_references_unlocked`; each step of the walk meets a publication
it has not seen, so their number bounds it. -/
def protectedReferences (m : Manager F) : Option Protected :=
  let p₁ := m.publishIntents.values.foldl
    (fun p i => p.collect (some i.operationId) (some i.candidateId) (some i.publicationRevision)) {}
  let p₂ := m.operationClaims.values.foldl
    (fun p c => p.collect (some c.operationId) (some c.candidateId) none) p₁
  let p₃ := m.recoveryRecords.values.foldl (fun p r => p.collect (some r.operationId) none none) p₂
  m.protectChain (m.publications.entries.length+1) [] m.activePublicationRevision p₃

structure Prunable where
  tombstoneId : String
  completedAt : ℤ
  terminalOperationKey : String

/-- `_safe_prunable_tombstone_unlocked`. -/
def safePrunable (m : Manager F) (p : Protected) (tombstoneId : String) (t : Tombstone) :
    Option Prunable :=
  if t.tombstoneId ≠ tombstoneId || !isOpaqueId t.tombstoneId || !isOpaqueId t.operationId ||
      !isOpaqueId t.candidateId || !isOpaqueId t.publicationRevision then none
  else match env.parseUtc t.completedAt with
    | none => none
    | some completedAt =>
      if p.operationIds.contains t.operationId || p.candidateIds.contains t.candidateId ||
          p.publicationRevisions.contains t.publicationRevision then none
      else match m.publications.get? t.publicationRevision, m.candidates.get? t.candidateId with
        | some publication, some candidate =>
          if publication.publicationRevision = t.publicationRevision ∧
              publication.candidateId = t.candidateId ∧ publication.status = .rolledBack ∧
              candidate.candidateId = t.candidateId ∧ candidate.status = .rolledBack then
            match m.terminalOperations.entries.filter fun e =>
                e.2.operationId = some t.operationId && (e.2.action = .rollback && e.2.ok) with
            | [e] => some ⟨t.tombstoneId,completedAt,e.1⟩
            | _ => none
          else none
        | _, _ => none

def tombstoneTtl : ℤ := 30 * 24 * 3600 * 1000000
def tombstoneMaxEntries : ℕ := 10000

/-- `_prune_tombstones_unlocked` at a time in microseconds: the expired ones, and the oldest
ones over the limit. -/
def pruneTombstones (m : Manager F) (now : ℤ) : Manager F :=
  match m.protectedReferences with
  | none => m
  | some p =>
    let safe := (m.tombstones.entries.filterMap fun e => m.safePrunable env p e.1 e.2).insertionSort
      fun a b => a.completedAt < b.completedAt ∨ (a.completedAt = b.completedAt ∧ a.tombstoneId ≤ b.tombstoneId)
    let expired := safe.filter fun item => item.completedAt < now - tombstoneTtl
    let remaining := safe.filter fun item => ¬ item.completedAt < now - tombstoneTtl
    let overflow := m.tombstones.entries.length - expired.length - tombstoneMaxEntries
    (expired++remaining.take overflow).foldl (fun m item =>
      { m with
        tombstones := m.tombstones.pop item.tombstoneId
        terminalOperations := m.terminalOperations.pop item.terminalOperationKey }) m

/-- None where it refuses. -/
def reset (m : Manager F) (now : ℤ) : Option (Manager F) :=
  if !m.enabled || m.writesBlocked || !m.operationClaims.isEmpty then none
  else some (m.dropUnreferenced.pruneTombstones env now)

end Manager

/-- What `normalize_candidate` and the evidence check say of a stored candidate. -/
structure Judge (F : Type*) where
  valid : Candidate F → Bool
  evidenceValid : Candidate F → Bool

def invalidCandidate (candidateId : String) : Candidate F where
  candidateId := candidateId
  binding := ⟨"invalid","invalid","invalid","invalid"⟩
  baselineSnapshotHash := "invalid"
  targetSnapshotHash := "invalid"
  proposed := env.defaultWeights
  status := .invalidState
  reasonCode := "invalid_state"
  createdAt := "invalid"

/-- A restored candidate: damaged records become invalid, a ready one without valid
evidence is rejected. -/
def restoreCandidate (judge : Judge F) (c : Candidate F) : Candidate F :=
  if !judge.valid c then invalidCandidate env c.candidateId
  else if c.status = .readyForReview ∧ judge.evidenceValid c = false then
    { c with status := .rejected, reasonCode := "quality_gate_failed" }
  else c

def visibleAscii (s : String) (longest : ℕ) : Bool :=
  decide (1 ≤ s.length) && decide (s.length ≤ longest) && s.toList.all fun c => '!' ≤ c ∧ c ≤ '~'

def safeReason (s : String) : Bool :=
  decide (1 ≤ s.length) && decide (s.length ≤ 64) && s.toList.all fun c =>
    c.isLower || c.isDigit || c = '_'

def changedWeightPaths (paths : List String) : List String :=
  if paths.all fun p => weightPaths.contains p then
    weightPaths.filter fun p => paths.contains p
  else []

/-- The checks of `normalize_reload_operation`. -/
def ReloadOperation.valid (r : ReloadOperation F) : Bool :=
  isOpaqueId r.operationId && safeReason r.reasonCode && visibleAscii r.appliedRevision 128 &&
    !(changedWeightPaths r.changedPaths).isEmpty && env.floats.weightPair r.target &&
    decide (1 ≤ r.createdAt.length) && decide (r.createdAt.length ≤ 64) &&
    decide (1 ≤ r.updatedAt.length) && decide (r.updatedAt.length ≤ 64)

/-- `_restore_payload`; none where it raises. -/
def Payload.restore (p : Payload F) (judge : Judge F) : Option (Payload F) :=
  if !(p.activePublicationRevision.all fun r => (p.publications.get? r).isSome) then none
  else if 1 < p.operationClaims.entries.length then none
  else if !(p.reloadOperation.all fun r => r.valid env) then none
  else if !(p.candidates.entries.all fun e => isOpaqueId e.1 && e.2.candidateId = e.1) then none
  else some { p with candidates := p.candidates.mapValues (restoreCandidate env judge) }

/-- The last part of `load_state`: the operation of a claim that is still there was
interrupted. -/
def Manager.interruptClaims (m : Manager F) (recoveryRevision : String → String) (now : String) :
    Manager F :=
  { m.operationClaims.entries.foldl (fun m e =>
      (m.needsRecovery e.1 none).addRecoveryRecord (recoveryRevision e.1) e.1 e.2.action.name
        "operation_interrupted" now) m with
    operationClaims := {} }

inductive LegacyValue (F : Type*)
  | number (v : RawNumber F)
  | text (s : String)
  deriving DecidableEq

abbrev LegacyRecord (F : Type*) := Dict String (LegacyValue F)

structure Legacy (F : Type*) where
  candidates : Dict String (LegacyRecord F) := {}
  published : Dict String (LegacyRecord F) := {}
  publishIntents : Dict String (LegacyRecord F) := {}
  deriving DecidableEq

namespace LegacyRecord

variable (raw : LegacyRecord F)

/-- `raw.get(key)` where a number is expected. -/
def number (name : String) : RawNumber F :=
  match raw.get? name with
  | some (.number v) => v
  | _ => .other

/-- `str(raw.get(key, default))` of a text. -/
def text (name fallback : String) : String :=
  match raw.get? name with
  | some (.text s) => s
  | _ => fallback

/-- `raw.get(key, raw.get(other))`. -/
def numberOr (name other : String) : RawNumber F :=
  if (raw.get? name).isSome then raw.number name else raw.number other

/-- `normalize_weights(raw)`: exactly the two weight keys may be there. -/
def weights : Option (Weights F) :=
  if raw.keys.all (fun k => k = "document_route_weight" || k = "graph_route_weight") ∧
      (raw.get? "document_route_weight").isSome ∧ (raw.get? "graph_route_weight").isSome then
    env.floats.normalizeWeights (raw.number "document_route_weight")
    (raw.number "graph_route_weight")
  else none

def candidate (candidateId oldKey now : String) : Candidate F :=
  match env.floats.normalizeWeights (raw.numberOr "proposed_document_weight"
    "document_route_weight")
      (raw.numberOr "proposed_graph_weight" "graph_route_weight") with
  | none => invalidCandidate env candidateId
  | some w =>
    let hash := env.stableRevision "learning-weight-v1" (weightsText env.floats w)
    { candidateId
      binding :=
        { aggregationRevision := env.stableRevision "legacy-aggregation" (jsonString oldKey)
          sourceConfigRevision := raw.text "revision" "legacy"
          evidenceRevision := "legacy-unverified"
          qualityGateVersion := "legacy-unverified" }
      baselineSnapshotHash := hash
      targetSnapshotHash := hash
      proposed := w
      status := .stale
      reasonCode := "legacy_migrated"
      createdAt := raw.text "published_at" (raw.text "created_at" now) }

/-- `legacy_publication`; none where it raises. -/
def publication (publicationId candidateId now : String) : Option (Publication F) :=
  match env.floats.normalizeWeights (raw.number "previous_document_weight")
      (raw.number "previous_graph_weight"), raw.weights env with
  | some before, some after =>
    let hash (w : Weights F) := env.stableRevision "learning-weight-v1" (weightsText env.floats w)
    some {
      publicationRevision := publicationId
      parentPublicationRevision := none
      candidateId
      beforeConfigHash := hash before
      afterConfigHash := hash after
      beforeWeightHash := hash before
      afterWeightHash := hash after
      before, after
      requestedRevision := raw.text "revision" "legacy"
      appliedRevision := raw.text "revision" "legacy"
      binding := ⟨"legacy-unverified",raw.text "revision" "legacy","legacy-unverified", "legacy-unverified"⟩
      publishedAt := raw.text "published_at" now }
  | _, _ => none

/-- `legacy_intent`; none where it raises. -/
def intent (operationId publicationId candidateId now : String) : Option (Intent F) :=
  (raw.publication env publicationId candidateId now).map fun p =>
    { operationId
      action := .publish
      phase := .recoveryRequired
      candidateId
      publicationRevision := p.publicationRevision
      requestedRevision := p.requestedRevision
      beforeConfigHash := p.beforeConfigHash
      beforeWeightHash := p.beforeWeightHash
      before := p.before
      targetWeightHash := p.afterWeightHash
      target := p.after
      binding := p.binding
      createdAt := raw.text "created_at" now }

end LegacyRecord

structure LegacyIds where
  candidate : String → String
  publication : String → String
  operation : String → String
  intentPublication : String → String
  recovery : String
  recoveryOperation : String

/-- `candidates.setdefault`. -/
def Payload.addCandidate (p : Payload F) (c : Candidate F) : Payload F :=
  if (p.candidates.get? c.candidateId).isSome then p
  else { p with candidates := p.candidates.set c.candidateId c }

/-- `_migrate_legacy_payload`; none where it raises. -/
def Legacy.migrate (l : Legacy F) (ids : LegacyIds) (now : String) : Option (Payload F) := do
  let p₁ : Payload F := l.candidates.entries.foldl (fun p e =>
    { p with candidates :=
        p.candidates.set (ids.candidate e.1) (e.2.candidate env (ids.candidate e.1) e.1 now) }) {}
  let p₂ ← l.published.entries.foldlM (fun p e => do
    let publication ← e.2.publication env (ids.publication e.1) (ids.candidate e.1) now
    some { p.addCandidate (e.2.candidate env (ids.candidate e.1) e.1 now) with
      publications := p.publications.set (ids.publication e.1) publication }) p₁
  let p₃ ← l.publishIntents.entries.foldlM (fun p e => do
    let intent ← e.2.intent env (ids.operation e.1) (ids.intentPublication e.1) (ids.candidate e.1) now
    some { p.addCandidate (e.2.candidate env (ids.candidate e.1) e.1 now) with
      publishIntents := p.publishIntents.set (ids.operation e.1) intent }) p₂
  some { p₃ with
    activePublicationRevision := match p₃.publications.keys with
      | [only] => some only
      | _ => none
    recoveryRecords := if 1 < p₃.publications.entries.length then
      p₃.recoveryRecords.set ids.recovery
        { recoveryRevision := ids.recovery, operationId := ids.recoveryOperation,
          action := "migration", reasonCode := "legacy_publication_ambiguous", createdAt := now }
      else p₃.recoveryRecords }

namespace Manager

variable (m : Manager F)

def reloadTarget (action : Action) (candidateId operationId : String) : Option (Weights F) :=
  match action with
  | .publish => (m.activePublication.filter fun p => p.candidateId = candidateId).bind fun p =>
      if env.floats.weightPair p.after then some p.after else none
  | .rollback =>
    match m.tombstones.values.find? fun t =>
        t.operationId = operationId && t.candidateId = candidateId with
    | none => none
    | some t => match m.activePublication with
      | some active => if env.floats.weightPair active.after then some active.after else none
      | none => (m.publications.get? t.publicationRevision).bind fun p =>
          if env.floats.weightPair p.before then some p.before else none

/-- The operation `record_reload_operation` stores; none where it changes nothing. -/
def recordReload (action : Action) (candidateId operationId appliedRevision : String)
    (changedPaths : List String) (queued : Bool) (now : String) : Option (ReloadOperation F) :=
  match m.reloadTarget env action candidateId operationId with
  | none => none
  | some target =>
    if m.reloadOperation.any fun r => r.operationId = operationId && r.state = .succeeded then none
    else some {
      operationId, action
      state := if queued then .queued else .restartRequired
      reasonCode := if queued then "reload_queued" else "reload_not_queued"
      appliedRevision
      changedPaths := changedWeightPaths changedPaths
      target
      createdAt := now
      updatedAt := now }

/-- The operation `update_reload_operation` stores; none where it changes nothing. -/
def updateReload (operationId : String) (state : ReloadState) (reasonCode : String)
    (expected : Option String) (now : String) : Option (ReloadOperation F) :=
  match m.reloadOperation.filter fun r => r.operationId = operationId with
  | none => none
  | some current =>
    if expected.isSome && m.stateRevision ≠ expected &&
        !(m.stateRevision.isSome && m.stateRevision = m.ownStateRevision) then none
    else if current.state = .succeeded then none
    else some { current with state, reasonCode, updatedAt := now }

/-- The operation `reconcile_reload_operation` stores; none where it changes nothing. -/
def reconcileReload (effective : Weights F) (now : String) : Option (ReloadOperation F) :=
  match m.reloadOperation with
  | none => none
  | some current =>
    if m.writesBlocked || current.state = .succeeded || !env.floats.weightPair current.target then
      none
    else
      let matched := env.floats.isclose effective.documentRouteWeight
          current.target.documentRouteWeight env.floats.reloadTol &&
        env.floats.isclose effective.graphRouteWeight current.target.graphRouteWeight env.floats.reloadTol
      some { current with
        state := if matched then .succeeded else .failed
        reasonCode := if matched then "runtime_config_reconciled" else "runtime_config_mismatch"
        updatedAt := now }

end Manager

end Memora.Learning

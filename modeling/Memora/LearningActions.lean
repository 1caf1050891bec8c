import Memora.LearningRecords

/-! Each action is prepared under the state lock, written by the adapter outside it and
finished under the lock again. Saving is left to the caller of these functions. -/
namespace Memora.Learning

variable {F γ : Type*} (env : LearningEnv F γ)

def Candidate.publishIntent (candidate : Candidate F) (candidateId : String)
    (parent : Option String) (expectedRevision : String) (seen : ConfigSnapshot F)
    (operationId publicationRevision now : String) : Intent F where
  operationId := operationId
  action := .publish
  candidateId := candidateId
  publicationRevision := publicationRevision
  parentPublicationRevision := parent
  requestedRevision := expectedRevision
  beforeConfigHash := seen.configHash
  beforeWeightHash := seen.weightHash
  before := seen.weights
  targetWeightHash := candidate.targetSnapshotHash
  target := candidate.proposed
  binding := candidate.binding
  createdAt := now

/-- `_compare_intent_snapshot`. -/
inductive Comparison
  | notApplied | applied | diverged
  deriving DecidableEq

def compareIntentSnapshot (intent : Intent F) (current : ConfigSnapshot F) : Comparison :=
  if current.weightHash = intent.beforeWeightHash then .notApplied
  else if current.weightHash = intent.targetWeightHash then .applied
  else .diverged

/-- What is rolled back: a publication, or a publish intent nobody confirmed. -/
structure RollbackSource (F : Type*) where
  publicationRevision : String
  candidateId : String
  before : Weights F

def Publication.source (p : Publication F) : RollbackSource F :=
  ⟨p.publicationRevision,p.candidateId,p.before⟩

def Intent.source (i : Intent F) : RollbackSource F :=
  ⟨i.publicationRevision,i.candidateId,i.before⟩

/-- How `rollback_last_publish` goes on after its checks. -/
inductive RollbackStart (F : Type*)
  | answer (response : Response)
  | raised
  | clear (response : Response) (m : Manager F)
  | prepared (intent : Intent F) (m : Manager F)

/-- The intent of `rollback_last_publish`; it names the candidate that was asked for. -/
def RollbackSource.intent (source : RollbackSource F) (candidateId expectedRevision : String)
    (current : ConfigSnapshot F) (targetWeightHash operationId now : String) : Intent F where
  operationId := operationId
  action := .rollback
  candidateId := candidateId
  publicationRevision := source.publicationRevision
  requestedRevision := expectedRevision
  beforeConfigHash := current.configHash
  beforeWeightHash := current.weightHash
  before := current.weights
  targetWeightHash := targetWeightHash
  target := source.before
  createdAt := now

def Intent.publication (i : Intent F) (result : ApplyResult) (applied now : String) :
    Publication F where
  publicationRevision := i.publicationRevision
  parentPublicationRevision := i.parentPublicationRevision
  candidateId := i.candidateId
  beforeConfigHash := i.beforeConfigHash
  afterConfigHash := result.afterHash
  beforeWeightHash := i.beforeWeightHash
  afterWeightHash := i.targetWeightHash
  before := i.before
  after := i.target
  requestedRevision := i.requestedRevision
  appliedRevision := applied
  binding := i.binding
  publishedAt := now

def Publication.reactivated (p : Publication F) (result : ApplyResult) (now : String) :
    Publication F :=
  { p with
    status := .active
    originalAppliedRevision := some (p.originalAppliedRevision.getD p.appliedRevision)
    appliedRevision := result.appliedRevision.getD p.appliedRevision
    afterConfigHash := result.afterHash
    reactivatedAt := some now }

def publishedResponse (operationId : String) (intent : Intent F) (result : ApplyResult)
    (applied : String) : Response where
  action := .publish
  ok := true
  reasonCode := "published"
  candidateId := some intent.candidateId
  operationId := some operationId
  publicationRevision := some intent.publicationRevision
  appliedRevision := some applied
  changedPaths := result.changedPaths

inductive Finish (F : Type*)
  | unclaimed (response : Response)
  | settled (response : Response) (m : Manager F)
  | confirmed (response : Response) (m : Manager F)
  | recovery (response : Response) (m : Manager F)

namespace Manager

variable (m : Manager F) (operationId : String) (candidateId expectedRevision : String)

/-- `_validate_publish_unlocked`; `evidenceCurrent` and `evidenceValid` are the answers of the
evidence provider and of the stored artifact. -/
def validatePublish (seen : ConfigSnapshot F) (evidenceCurrent evidenceValid : Bool) :
    Option Response :=
  if !m.enabled then some (failure .publish "disabled")
  else if m.writesBlocked then some (failure .publish "learning_state_recovery_required")
  else if !isOpaqueId candidateId then some (failure .publish "learning_candidate_unavailable")
  else match m.candidates.get? candidateId with
    | none => some (failure .publish "learning_candidate_unavailable")
    | some candidate =>
      if candidate.status ≠ .readyForReview then
        some (failure .publish "learning_candidate_unavailable")
      else if !evidenceCurrent || !evidenceValid then
        some (failure .publish "learning_candidate_unavailable")
      else if expectedRevision ≠ candidate.binding.sourceConfigRevision ∨ seen.revision ≠ expectedRevision ∨
          seen.weightHash ≠ candidate.baselineSnapshotHash then
        some (failure .publish "learning_candidate_unavailable")
      else match m.activePublication with
        | some active =>
          if seen.revision ≠ active.appliedRevision ∨ seen.configHash ≠ active.afterConfigHash then
            some (failure .publish "config_diverged")
          else none
        | none => none

variable (intent : Intent F) (result : ApplyResult) (action : Action)

def claimConflict (candidateId : String) : Option Response :=
  m.firstClaim.map fun claim =>
    if claim.action = action ∧ claim.candidateId = candidateId then
      match action with
      | .publish => failure .publish "learning_publish_in_progress"
      | .rollback => failure .rollback "learning_rollback_in_progress"
    else failure action "learning_action_not_allowed"

def claimIntent (operationKey : String) : Manager F :=
  { m with
    publishIntents := m.publishIntents.set intent.operationId intent
    operationClaims := m.operationClaims.set intent.operationId
      { operationId := intent.operationId, action := intent.action,
        candidateId := intent.candidateId, operationKey, createdAt := intent.createdAt } }

/-- `publish_candidate` up to the first save: an answer, or the claimed intent. -/
def preparePublish (seen : Option (ConfigSnapshot F)) (evidenceCurrent evidenceValid : Bool)
    (operationId publicationRevision now : String) : Except Response (Intent F × Manager F) :=
  let key := operationKey env .publish candidateId expectedRevision
  match m.terminalOperations.get? key with
  | some terminal => .error terminal
  | none => match seen with
    | none => .error (failure .publish "learning_unavailable")
    | some seen =>
      match m.validatePublish candidateId expectedRevision seen evidenceCurrent evidenceValid with
      | some unavailable => .error unavailable
      | none => match m.claimConflict .publish candidateId with
        | some conflict => .error conflict
        | none => match m.candidates.get? candidateId with
          | none => .error (failure .publish "learning_candidate_unavailable")
          | some candidate =>
            let intent := candidate.publishIntent candidateId m.activePublicationRevision
              expectedRevision seen operationId publicationRevision now
            .ok (intent,m.claimIntent intent key)

def clearRecoveredIntent (response : Response) : Manager F :=
  { m with
    publishIntents := m.publishIntents.pop intent.operationId
    operationClaims := m.operationClaims.pop intent.operationId
    recoveryRecords := m.recoveryRecords.filter fun _ r => r.operationId ≠ intent.operationId
    terminalOperations := m.terminalOperations.set
      (operationKey env .rollback intent.candidateId intent.requestedRevision) response }

/-- The claimed rollback of `source = publication or source_intent`. The target hash raises
on weights the domain does not accept. -/
def claimRollback (source : RollbackSource F) (current : ConfigSnapshot F)
    (operationId now : String) :
    RollbackStart F :=
  match env.weightSnapshotHash source.before with
  | none => .raised
  | some hash =>
    let intent := source.intent candidateId expectedRevision current hash operationId now
    .prepared intent (m.claimIntent intent (operationKey env .rollback candidateId expectedRevision))

/-- `rollback_last_publish` up to the first save. -/
def prepareRollback (current : Option (ConfigSnapshot F)) (operationId now : String) :
    RollbackStart F :=
  match current with
  | none => .answer (failure .rollback "learning_unavailable")
  | some current =>
    match m.terminalOperations.get? (operationKey env .rollback candidateId expectedRevision) with
    | some terminal => .answer terminal
    | none =>
      if m.writesBlocked then .answer (failure .rollback "learning_state_recovery_required")
      else match m.claimConflict .rollback candidateId with
        | some conflict => .answer conflict
        | none =>
          match m.activePublication.filter fun p => p.candidateId = candidateId with
          | some publication =>
            if current.revision ≠ publication.appliedRevision ∨
                current.configHash ≠ publication.afterConfigHash then
              .answer (failure .rollback "config_diverged")
            else claimRollback env m candidateId expectedRevision publication.source current operationId now
          | none =>
            match m.recoverablePublishIntent candidateId none with
            | none => .answer (failure .rollback "learning_candidate_unavailable")
            | some sourceIntent =>
              match compareIntentSnapshot sourceIntent current with
              | .notApplied =>
                let response : Response :=
                  { action := .rollback, ok := true, reasonCode := "not_applied",
                    candidateId := some candidateId }
                .clear response (clearRecoveredIntent env m sourceIntent response)
              | .diverged => .answer (failure .rollback "config_diverged")
              | .applied =>
                -- the active publication wins, whoever's it is
                claimRollback env m candidateId expectedRevision
                  ((m.activePublication.map Publication.source).getD sourceIntent.source)
                  current operationId now

def claimedIntent : Option (OperationClaim × Intent F) :=
  match m.operationClaims.get? operationId, m.publishIntents.get? operationId with
  | some claim, some intent =>
    if claim.action = action ∧ intent.action = action then some (claim,intent) else none
  | _, _ => none

def addRecoveryRecord (recoveryRevision operationId action reasonCode now : String) :
    Manager F :=
  { m with
    recoveryRecords := m.recoveryRecords.set recoveryRevision
      { recoveryRevision, operationId, action, reasonCode, createdAt := now } }

def completeNonApplied (operationId key : String) (response : Response) :
    Manager F :=
  { m.dropOperation operationId with
    terminalOperations := m.terminalOperations.set key response }

def needsRecovery (reasonCode : Option String) :
    Manager F :=
  match m.publishIntents.get? operationId with
  | none => m
  | some intent =>
    { m with
      publishIntents := m.publishIntents.set operationId
        { intent with
          phase := .recoveryRequired
          reasonCode := if reasonCode.isSome then reasonCode else intent.reasonCode } }

def setRecovery (reasonCode recoveryRevision now : String) : Manager F :=
  let m' := m.needsRecovery operationId (some reasonCode)
  { m' with operationClaims := m'.operationClaims.pop operationId }.addRecoveryRecord
    recoveryRevision operationId action.name reasonCode now

def markCancelled (operationId recoveryRevision now : String) : Option (Manager F) :=
  (m.publishIntents.get? operationId).map fun intent =>
    let m' := m.needsRecovery operationId none
    { m' with operationClaims := m'.operationClaims.pop operationId }.addRecoveryRecord
      recoveryRevision operationId intent.action.name "operation_cancelled" now

def markCandidate (candidateId : String) (status : CandidateStatus) (reasonCode : String) :
    Manager F :=
  match m.candidates.get? candidateId with
  | none => m
  | some candidate =>
    { m with candidates := m.candidates.set candidateId { candidate with status, reasonCode } }

def updatePublication (revision : Option String) (f : Publication F → Publication F) : Manager F :=
  match revision with
  | none => m
  | some r => match m.publications.get? r with
    | none => m
    | some p => { m with publications := m.publications.set r (f p) }

/-- The confirmed publish: its parent is superseded, it becomes the active publication. -/
def confirmPublish (applied now : String) : Manager F :=
  let m₁ := m.updatePublication intent.parentPublicationRevision fun p =>
    { p with status := .superseded }
  let m₂ := { m₁ with
    publications := m₁.publications.set intent.publicationRevision (intent.publication result applied now)
    activePublicationRevision := some intent.publicationRevision }
  m₂.markCandidate intent.candidateId .published "published"

def finishPublish (recoveryRevision now : String) : Finish F :=
  match m.claimedIntent operationId .publish with
  | none => .unclaimed
      { failure .publish "learning_publish_recovery_required" with recoveryRequired := true }
  | some (claim,intent) =>
    let unknown : Finish F := .recovery
      { failure .publish "learning_publish_recovery_required" with recoveryRequired := true }
      (m.setRecovery operationId .publish "learning_publish_recovery_required" recoveryRevision now)
    if result.noOp then
      .settled (failure .publish "config_noop")
        (m.completeNonApplied operationId claim.operationKey (failure .publish "config_noop"))
    else if result.applied then
      match result.appliedRevision with
      | none => unknown
      | some applied =>
        if result.beforeHash ≠ intent.beforeConfigHash then unknown
        else
          let response := publishedResponse operationId intent result applied
          .confirmed response ((m.confirmPublish intent result applied now).completeNonApplied operationId
              claim.operationKey response)
    else if result.reasonCode = "learning_publish_recovery_required" then unknown
    else
      .settled (failure .publish result.reasonCode)
        (m.completeNonApplied operationId claim.operationKey (failure .publish result.reasonCode))

/-- The confirmed rollback of a known publication: it is rolled back, its direct parent
takes over, and a tombstone is left. -/
def rollBackPublication (publication : Publication F) (result : ApplyResult)
    (tombstoneId now : String) : Manager F :=
  let m₁ := { m with
    publications := m.publications.set intent.publicationRevision
      { publication with status := .rolledBack, rolledBackAt := some now }
    activePublicationRevision := publication.parentPublicationRevision }
  let m₂ := m₁.updatePublication publication.parentPublicationRevision fun p =>
    p.reactivated result now
  { m₂ with
    tombstones := m₂.tombstones.set tombstoneId
      { tombstoneId, operationId, candidateId := intent.candidateId,
        publicationRevision := intent.publicationRevision, completedAt := now } }

/-- The confirmed rollback of an intent: the intent itself is dropped. -/
def rollBackIntent : Manager F :=
  match m.recoverablePublishIntent intent.candidateId (some operationId) with
  | none => m
  | some source => { m with publishIntents := m.publishIntents.pop source.operationId }

def confirmRollback (tombstoneId now : String) : Manager F :=
  let m' := match m.publications.get? intent.publicationRevision with
    | none => m.rollBackIntent operationId intent
    | some publication => m.rollBackPublication operationId intent publication result tombstoneId now
  m'.markCandidate intent.candidateId .rolledBack "rolled_back"

def finishRollback (tombstoneId recoveryRevision now : String) : Finish F :=
  match m.claimedIntent operationId .rollback with
  | none => .unclaimed
      { failure .rollback "learning_rollback_recovery_required" with recoveryRequired := true }
  | some (claim,intent) =>
    if result.applied then
      let m' := m.confirmRollback operationId intent result tombstoneId now
      let response : Response :=
        { action := .rollback, ok := true, reasonCode := "restored",
          candidateId := some intent.candidateId, operationId := some operationId,
          appliedRevision := result.appliedRevision, changedPaths := result.changedPaths,
          activePublicationRevision := m'.activePublicationRevision }
      .confirmed response (m'.completeNonApplied operationId claim.operationKey response)
    else if result.reasonCode = "learning_publish_recovery_required" ∨
        result.reasonCode = "learning_rollback_recovery_required" then
      .recovery
        { failure .rollback "learning_rollback_recovery_required" with recoveryRequired := true }
        (m.setRecovery operationId .rollback "learning_rollback_recovery_required" recoveryRevision now)
    else
      .settled (failure .rollback result.reasonCode)
        (m.completeNonApplied operationId claim.operationKey (failure .rollback result.reasonCode))

end Manager

end Memora.Learning

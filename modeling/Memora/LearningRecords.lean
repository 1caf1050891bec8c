import Memora.LearningStateStore
import Memora.Dict

/-! Two constructions hash a pair of weights: the adapter hashes its JSON text, the domain hashes
that text under a namespace. -/
namespace Memora.Learning

/-- What the code takes from Python's floats. The range of a float is `isFinite` with `le`,
`isclose` takes the absolute tolerance last, and `repr` is what `json.dumps` prints; the two
zeros are one value. -/
structure FloatOps (F : Type*) where
  ofInt : ℤ → Option F
  isFinite : F → Bool
  zero : F
  one : F
  absTol : F
  reloadTol : F
  le : F → F → Bool
  add : F → F → F
  isclose : F → F → F → Bool
  repr : F → String
  repr_injective : Function.Injective repr
  repr_plain : ∀ x, ',' ∉ (repr x).toList

inductive RawNumber (F : Type*)
  | bool (b : Bool)
  | int (n : ℤ)
  | float (x : F)
  | other
  deriving DecidableEq

structure Weights (F : Type*) where
  documentRouteWeight : F
  graphRouteWeight : F
  deriving DecidableEq

namespace FloatOps
variable {F : Type*} (ops : FloatOps F)

/-- An integer too large for a float raises, which no caller survives
either. -/
def finiteWeight (v : RawNumber F) : Option F :=
  match v with
  | .bool _ => none
  | .other => none
  | .int n => (ops.ofInt n).filter inRange
  | .float x => if inRange x then some x else none
where
  inRange (x : F) : Bool := ops.isFinite x && ops.le ops.zero x && ops.le x ops.one

/-- The check the adapter and the domain share, but for the absolute tolerance. -/
def normalizeWith (tol : F) (document graph : RawNumber F) : Option (Weights F) :=
  match ops.finiteWeight document, ops.finiteWeight graph with
  | some d, some g => if ops.isclose (ops.add d g) ops.one tol then some ⟨d,g⟩ else none
  | _, _ => none

def adapterNormalizeWeights (document graph : RawNumber F) : Option (Weights F) :=
  ops.normalizeWith ops.zero document graph

def normalizeWeights (document graph : RawNumber F) : Option (Weights F) :=
  ops.normalizeWith ops.absTol document graph

def weightPair (w : Weights F) : Bool :=
  (ops.finiteWeight (.float w.documentRouteWeight)).isSome &&
    (ops.finiteWeight (.float w.graphRouteWeight)).isSome &&
    ops.isclose (ops.add w.documentRouteWeight w.graphRouteWeight) ops.one ops.reloadTol

end FloatOps

def jsonString (s : String) : String := "\""++s++"\""

/-- An object whose fields are already in the order of `sort_keys`. -/
def jsonObject (fields : List (String × String)) : String :=
  "\x7b"++String.intercalate "," (fields.map fun f => jsonString f.1++":"++f.2)++"\x7d"

def weightsText {F : Type*} (ops : FloatOps F) (w : Weights F) : String :=
  jsonObject [("document_route_weight",ops.repr w.documentRouteWeight),
    ("graph_route_weight",ops.repr w.graphRouteWeight)]

/-- The text that `stable_revision` hashes. -/
def namespacedText (space payload : String) : String :=
  jsonObject [("namespace",jsonString space),("payload",payload)]

/-- The configuration manager's snapshots: their revision, their JSON text, the two values
of the section `graph_memory`. -/
structure ConfigOps (F γ : Type*) where
  revision : γ → String
  json : γ → String
  graphMemory : γ → Option (RawNumber F × RawNumber F)

/-- What the learning code takes from outside: floats, the configuration, the SHA-256 digest
in hex, the literals 0.7 and 0.3 and the parsing of UTC times. -/
structure LearningEnv (F γ : Type*) where
  floats : FloatOps F
  config : ConfigOps F γ
  digest : String → String
  defaultWeights : Weights F
  parseUtc : String → Option ℤ

structure ConfigSnapshot (F : Type*) where
  revision : String
  weights : Weights F
  configHash : String
  weightHash : String
  deriving DecidableEq

/-- `LearningConfigApplyResult`. -/
structure ApplyResult where
  requestedRevision : String
  appliedRevision : Option String := none
  changedPaths : List String := []
  beforeHash : String
  afterHash : String
  applied : Bool := false
  noOp : Bool := false
  reasonCode : String
  deriving DecidableEq

/-- How `apply_config_changes` ended. -/
inductive WriteOutcome
  | done (revision : String) (changedPaths : List String)
  | conflict | validation | persistence
  deriving DecidableEq

def weightPaths : List String :=
  ["graph_memory.document_route_weight","graph_memory.graph_route_weight"]

namespace LearningEnv
variable {F γ : Type*} (env : LearningEnv F γ)

def snapshotHash (w : Weights F) : String := env.digest (weightsText env.floats w)

/-- `_snapshot_hash` of the whole snapshot. -/
def configHash (c : γ) : String := env.digest (env.config.json c)

def stableRevision (space payload : String) : String :=
  env.digest (namespacedText space payload)

/-- `weight_snapshot_hash`, which raises on weights it does not accept. -/
def weightSnapshotHash (w : Weights F) : Option String :=
  (env.floats.normalizeWeights (.float w.documentRouteWeight) (.float w.graphRouteWeight)).map
  fun normalized =>
      env.stableRevision "learning-weight-v1" (weightsText env.floats normalized)

def readWeights (c : γ) : Option (Weights F) :=
  (env.config.graphMemory c).bind fun raw =>
    env.floats.adapterNormalizeWeights raw.1 raw.2

/-- None where it raises. -/
def getWeightSnapshot (c : γ) : Option (ConfigSnapshot F) :=
  if env.config.revision c = "" then none
  else (env.readWeights c).map fun w =>
    { revision := env.config.revision c
      weights := w
      configHash := env.configHash c
      weightHash := env.snapshotHash w }

variable [DecidableEq F] [DecidableEq γ]

/-- The returns of `apply_weights` before the configuration manager is asked to write. -/
def refusedApply (before : γ) (target : Weights F) (expected : String) : Option ApplyResult :=
  let kept (reason : String) : ApplyResult :=
    { requestedRevision := expected, appliedRevision := some (env.config.revision before),
      beforeHash := env.configHash before, afterHash := env.configHash before,
      reasonCode := reason }
  match env.floats.adapterNormalizeWeights (.float target.documentRouteWeight)
      (.float target.graphRouteWeight) with
  | none => some (kept "config_validation_failed")
  | some target =>
    if expected ≠ env.config.revision before then some (kept "config_revision_conflict")
    else if env.readWeights before = some target then
      some { kept "config_noop" with noOp := true }
    else none

/-- The result of a write that was asked for; `after` is the configuration read back, when
that read did not raise. -/
def writtenApply (before : γ) (target : Weights F) (expected : String) (outcome : WriteOutcome)
    (after : Option γ) : ApplyResult :=
  let beforeHash := env.configHash before
  let kept (reason : String) : ApplyResult :=
    { requestedRevision := expected, appliedRevision := some (env.config.revision before),
      beforeHash, afterHash := beforeHash, reasonCode := reason }
  let unread : ApplyResult :=
    { requestedRevision := expected, beforeHash, afterHash := beforeHash,
      reasonCode := "learning_publish_recovery_required" }
  let found (c : γ) (reason : String) : ApplyResult :=
    { requestedRevision := expected, appliedRevision := some (env.config.revision c),
      beforeHash, afterHash := env.configHash c, reasonCode := reason }
  let applied (c : γ) : ApplyResult :=
    { found c "config_applied" with applied := true, changedPaths := weightPaths }
  match outcome, after with
  | .conflict, _ => kept "config_revision_conflict"
  | .validation, _ => kept "config_validation_failed"
  | .persistence, none => unread
  | .persistence, some c =>
    if c = before then found c "config_persistence_failed"
    else if env.readWeights c = some target then applied c
    else found c "learning_publish_recovery_required"
  | .done _ _, none => unread
  | .done revision changedPaths, some c =>
    if revision ≠ env.config.revision c ∨ changedPaths ≠ weightPaths ∨
        env.readWeights c ≠ some target then found c "learning_publish_recovery_required"
    else applied c

/-- `apply_weights` against the configuration `before`. -/
def applyWeights (before : γ) (target : Weights F) (expected : String) (outcome : WriteOutcome)
    (after : Option γ) : ApplyResult :=
  (env.refusedApply before target expected).getD
  (env.writtenApply before target expected outcome after)

end LearningEnv

end Memora.Learning

namespace Memora.Learning

inductive Action
  | publish | rollback
  deriving DecidableEq

def Action.name : Action → String
  | .publish => "publish"
  | .rollback => "rollback"

inductive CandidateStatus
  | readyForReview | rejected | published | stale | recoveryRequired | rolledBack | invalidState
  deriving DecidableEq

inductive PublicationStatus
  | active | superseded | rolledBack
  deriving DecidableEq

inductive Phase
  | prepared | recoveryRequired
  deriving DecidableEq

/-- The four immutable bindings, `_BINDING_FIELDS`. -/
structure Binding where
  aggregationRevision : String := ""
  sourceConfigRevision : String := ""
  evidenceRevision : String := ""
  qualityGateVersion : String := ""
  deriving DecidableEq

structure Candidate (F : Type*) where
  candidateId : String
  binding : Binding
  baselineSnapshotHash : String
  targetSnapshotHash : String
  proposed : Weights F
  status : CandidateStatus
  reasonCode : String
  createdAt : String
  deriving DecidableEq

structure Publication (F : Type*) where
  publicationRevision : String
  parentPublicationRevision : Option String
  candidateId : String
  beforeConfigHash : String
  afterConfigHash : String
  beforeWeightHash : String
  afterWeightHash : String
  before : Weights F
  after : Weights F
  requestedRevision : String
  appliedRevision : String
  binding : Binding
  status : PublicationStatus := .active
  publishedAt : String
  rolledBackAt : Option String := none
  originalAppliedRevision : Option String := none
  reactivatedAt : Option String := none
  deriving DecidableEq

structure Intent (F : Type*) where
  operationId : String
  action : Action
  phase : Phase := .prepared
  candidateId : String
  publicationRevision : String
  parentPublicationRevision : Option String := none
  requestedRevision : String
  beforeConfigHash : String
  beforeWeightHash : String
  before : Weights F
  targetWeightHash : String
  target : Weights F
  binding : Binding := {}
  createdAt : String
  reasonCode : Option String := none
  deriving DecidableEq

structure OperationClaim where
  operationId : String
  action : Action
  candidateId : String
  operationKey : String
  createdAt : String
  deriving DecidableEq

/-- Answer of a publish (`ok` is `published`) or of a rollback (`ok` is `restored`). -/
structure Response where
  action : Action
  ok : Bool := false
  reasonCode : String
  recoveryRequired : Bool := false
  configApplied : Bool := false
  candidateId : Option String := none
  operationId : Option String := none
  publicationRevision : Option String := none
  appliedRevision : Option String := none
  changedPaths : List String := []
  activePublicationRevision : Option String := none
  deriving DecidableEq

/-- A rolled-back publication; its stored status is always `rolled_back`. -/
structure Tombstone where
  tombstoneId : String
  operationId : String
  candidateId : String
  publicationRevision : String
  completedAt : String
  deriving DecidableEq

structure RecoveryRecord where
  recoveryRevision : String
  operationId : String
  action : String
  reasonCode : String
  createdAt : String
  deriving DecidableEq

inductive ReloadState
  | queued | running | succeeded | failed | restartRequired
  deriving DecidableEq

structure ReloadOperation (F : Type*) where
  operationId : String
  action : Action
  state : ReloadState
  reasonCode : String
  appliedRevision : String
  changedPaths : List String
  target : Weights F
  createdAt : String
  updatedAt : String
  deriving DecidableEq

/-- `_state_payload`. -/
structure Payload (F : Type*) where
  candidates : Dict String (Candidate F) := {}
  publications : Dict String (Publication F) := {}
  publishIntents : Dict String (Intent F) := {}
  operationClaims : Dict String OperationClaim := {}
  terminalOperations : Dict String Response := {}
  tombstones : Dict String Tombstone := {}
  recoveryRecords : Dict String RecoveryRecord := {}
  reloadOperation : Option (ReloadOperation F) := none
  activePublicationRevision : Option String := none
  deriving DecidableEq

/-- The state of an `AutoLearningManager`. -/
structure Manager (F : Type*) extends Payload F where
  enabled : Bool := true
  stateRevision : Option String := none
  ownStateRevision : Option String := none
  stateCorrupt : Bool := false
  stateRecoveryRequired : Bool := false
  deriving DecidableEq

/-- `publish_failure` and `rollback_failure`. -/
def failure (action : Action) (reasonCode : String) : Response := { action, reasonCode }

def operationKey {F γ : Type*} (env : LearningEnv F γ) (action : Action)
    (candidateId revision : String) : String :=
  env.stableRevision "learning-operation-v1"
    (jsonObject [("action",jsonString action.name),("candidate_id",jsonString candidateId),
      ("revision",jsonString revision)])

variable {F : Type*}

namespace Manager

variable (m : Manager F)

def writesBlocked : Bool := m.stateCorrupt || m.stateRecoveryRequired

def activePublication : Option (Publication F) :=
  m.activePublicationRevision.bind m.publications.get?

def firstClaim : Option OperationClaim :=
  (m.operationClaims.keys.min?).bind m.operationClaims.get?

def candidateIsReferenced (candidateId : String) : Bool :=
  m.publications.values.any (fun p => p.candidateId = candidateId) ||
    m.publishIntents.values.any (fun i => i.candidateId = candidateId)

def findSameCandidate (binding : Binding) : Option (Candidate F) :=
  m.candidates.values.find? fun c => c.binding = binding

/-- Of intents in dictionary order, the last one created: a stable sort and its last. -/
def latestIntent : List (Intent F) → Option (Intent F)
  | [] => none
  | i::rest =>
    match latestIntent rest with
    | none => some i
    | some j => if i.createdAt ≤ j.createdAt then some j else some i

/-- `_recoverable_publish_intent_unlocked`; the phase of an intent is always one of the two
it asks for. -/
def recoverablePublishIntent (candidateId : String) (exclude : Option String) : Option (Intent F) :=
  latestIntent ((m.publishIntents.filter fun operationId i =>
    some operationId ≠ exclude && i.action = .publish && i.candidateId = candidateId).values)

/-- Forget an operation that was only prepared. -/
def dropOperation (operationId : String) : Manager F :=
  { m with
    publishIntents := m.publishIntents.pop operationId
    operationClaims := m.operationClaims.pop operationId }

end Manager

end Memora.Learning

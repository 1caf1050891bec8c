import Memora.CanonicalModels

/-! Relations and projections are derived from canonical memories at one revision of each source.
They are stored beside the documents, which stay the evidence. -/
namespace Memora.Evolution

inductive RelationType
  | supports | updates | contradicts | sameEpisode | preferenceChange | causes | supersedes | related
  deriving DecidableEq

def RelationType.value : RelationType → String
  | .supports => "supports"
  | .updates => "updates"
  | .contradicts => "contradicts"
  | .sameEpisode => "same_episode"
  | .preferenceChange => "preference_change"
  | .causes => "causes"
  | .supersedes => "supersedes"
  | .related => "related"

inductive ProjectionType
  | episodeSummary | semanticSummary | preferenceState | relationshipState | conflictSet
  deriving DecidableEq

def ProjectionType.value : ProjectionType → String
  | .episodeSummary => "episode_summary"
  | .semanticSummary => "semantic_summary"
  | .preferenceState => "preference_state"
  | .relationshipState => "relationship_state"
  | .conflictSet => "conflict_set"

inductive DerivedState
  | candidate | active | invalidated | rejected
  deriving DecidableEq

inductive PrivacyLevel
  | publicLevel | sharedLevel | confidentialLevel
  deriving DecidableEq

/-- `_PRIVACY_ORDER`. -/
def PrivacyLevel.rank : PrivacyLevel → ℕ
  | .publicLevel => 0
  | .sharedLevel => 1
  | .confidentialLevel => 2

def privacyAllowed (item requested : PrivacyLevel) : Bool := item.rank ≤ requested.rank

inductive SourceRole
  | primary | supporting | conflictLeft | conflictRight
  deriving DecidableEq

/-- A row of the documents table; the subject and the two times are what its metadata and its
creation time give. -/
structure CanonicalRow (T : Type) where
  id : ℤ
  metadata : Canonical.Metadata
  createdAt : Option String
  updatedAt : Option String
  explicitOccurred : Option T := none
  ingestedAt : Option T := none
  subjectKey : Option String := none

variable {T : Type}

def isMemoryActive (metadata : Canonical.Metadata) : Bool := Canonical.isMemoryRecallable metadata

namespace CanonicalRow

variable (row : CanonicalRow T)

/-- `str(updated_at or created_at or "").strip()`. -/
def revision : String :=
  Canonical.pythonStrip (((row.updatedAt.filter (· ≠ "")).or row.createdAt).getD "")

def scopeKey : String :=
  let present (s : Option String) : Option String := s.filter (· ≠ "")
  ((present row.metadata.scopeKey).or
    ((present row.metadata.sessionId).or (present row.metadata.personaId))).getD "private:default"

def privacyLevel : PrivacyLevel :=
  match row.metadata.privacyLevel with
  | some "public" => .publicLevel
  | some "confidential" => .confidentialLevel
  | _ => .sharedLevel

end CanonicalRow

structure MemorySourceRef (T : Type) where
  memoryId : ℤ
  revisionToken : String
  scopeKey : String
  privacyLevel : PrivacyLevel
  occurredAt : T
  subjectKey : Option String := none
  deriving DecidableEq

def loadSource (row : CanonicalRow T) : Option (MemorySourceRef T) :=
  if !isMemoryActive row.metadata then none
  else if row.revision = "" then none
  else (row.explicitOccurred.or row.ingestedAt).map fun occurredAt => {
    memoryId := row.id
    revisionToken := row.revision
    scopeKey := row.scopeKey
    privacyLevel := row.privacyLevel
    occurredAt
    subjectKey := row.subjectKey }

structure RelationRow where
  relationId : String
  relationKey : String
  revision : ℕ
  sourceMemoryId : ℤ
  targetMemoryId : ℤ
  sourceRevision : String
  targetRevision : String
  relationType : RelationType
  state : DerivedState
  confidence : ℚ
  scopeKey : String
  privacyLevel : PrivacyLevel
  originJobId : Option String
  deriving DecidableEq

structure ProjectionRow (T : Type) where
  projectionId : String
  projectionKey : String
  projectionType : ProjectionType
  revision : ℕ
  state : DerivedState
  summary : String
  primarySourceMemoryId : ℤ
  scopeKey : String
  privacyLevel : PrivacyLevel
  confidence : ℚ
  validFrom : Option T
  validTo : Option T
  invalidAt : Option T
  originJobId : Option String
  deriving DecidableEq

structure SourceMapping (T : Type) where
  projectionId : String
  memoryId : ℤ
  revisionToken : String
  role : SourceRole
  ordinal : ℕ
  occurredAt : Option T := none
  validFrom : Option T := none
  validTo : Option T := none
  deriving DecidableEq

inductive ReviewAction
  | approve | reject | replay
  deriving DecidableEq

structure ReviewRow where
  relationId : String
  action : ReviewAction
  expectedRevision : ℕ
  previousState : DerivedState
  newState : DerivedState
  resultRevision : ℕ
  deriving DecidableEq

structure RelationView where
  relationId : String
  sourceMemoryId : ℤ
  targetMemoryId : ℤ
  relationType : RelationType
  confidence : ℚ
  scopeKey : String
  privacyLevel : PrivacyLevel
  state : DerivedState := .active
  sourceRevision : Option String := none
  targetRevision : Option String := none
  deriving DecidableEq

structure ProjectionView (T : Type) where
  projectionId : String
  projectionType : ProjectionType
  summary : String
  sourceMemoryIds : List ℤ
  scopeKey : String
  privacyLevel : PrivacyLevel
  confidence : ℚ
  state : DerivedState := .active
  validFrom : Option T := none
  validTo : Option T := none
  invalidAt : Option T := none
  deriving DecidableEq

structure DerivedApplyPlan (T : Type) where
  relations : List RelationView := []
  projections : List (ProjectionView T) := []
  projectionSources : List (SourceMapping T) := []
  sourceRevisions : Dict ℤ String := {}
  originJobId : Option String := none

/-- The revision a plan gives an end of a relation; the field comes before the plan's table. -/
def DerivedApplyPlan.revisionOf (plan : DerivedApplyPlan T) (field : Option String) (id : ℤ) :
    String :=
  ((field.filter (· ≠ "")).or (plan.sourceRevisions.get? id)).getD ""

end Memora.Evolution

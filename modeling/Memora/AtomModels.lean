import Memora.RepresentationModels
import Memora.WriteModels
import Memora.ExceptLaws

/-! Atoms with all their fields, the test on their source evidence, their lifetime, and the row
an insertion writes for one. -/
namespace Memora.Atoms
open Memora.Representation (Json)
open WriteOps (AtomType)

abbrev Metadata := Dict String Json

inductive DecayType
  | linear | exponential | step
  deriving DecidableEq

inductive AtomStatus
  | active | dormant | superseded | expired | forgotten | cold
  deriving DecidableEq

def atomTypeValue : AtomType → String
  | .episodic => "episodic"
  | .factual => "factual"
  | .relational => "relational"
  | .preference => "preference"
  | .planned => "planned"
  | .unknown => "unknown"

/-- `AtomType(value)`; `none` where it raises. -/
def atomTypeOf : String → Option AtomType
  | "episodic" => some .episodic
  | "factual" => some .factual
  | "relational" => some .relational
  | "preference" => some .preference
  | "planned" => some .planned
  | "unknown" => some .unknown
  | _ => none

def DecayType.value : DecayType → String
  | .linear => "linear"
  | .exponential => "exponential"
  | .step => "step"

/-- `DecayType(value)`. -/
def decayTypeOf : String → Option DecayType
  | "linear" => some .linear
  | "exponential" => some .exponential
  | "step" => some .step
  | _ => none

def AtomStatus.value : AtomStatus → String
  | .active => "active"
  | .dormant => "dormant"
  | .superseded => "superseded"
  | .expired => "expired"
  | .forgotten => "forgotten"
  | .cold => "cold"

/-- `AtomStatus(value)`. -/
def atomStatusOf : String → Option AtomStatus
  | "active" => some .active
  | "dormant" => some .dormant
  | "superseded" => some .superseded
  | "expired" => some .expired
  | "forgotten" => some .forgotten
  | "cold" => some .cold
  | _ => none

lemma atomTypeOf_value (t : AtomType) : atomTypeOf (atomTypeValue t) = some t := by
  cases t <;> rfl

lemma decayTypeOf_value (t : DecayType) : decayTypeOf t.value = some t := by
  cases t <;> rfl

lemma atomStatusOf_value (s : AtomStatus) : atomStatusOf s.value = some s := by
  cases s <;> rfl

/-- A memory atom; times in seconds. -/
structure MemoryAtom where
  parentMemoryId : ℕ
  atomType : AtomType := .unknown
  content : String := ""
  entities : List String := []
  emotionTags : List String := []
  importance : ℚ := 1 / 2
  confidence : ℚ := 7 / 10
  createdAt : ℚ
  lastAccessedAt : ℚ
  lastReinforcedAt : Option ℚ := none
  eventTime : Option ℚ := none
  ttlDays : ℚ := 30
  expiresAt : ℚ := 0
  status : AtomStatus := .active
  reinforcementCount : ℤ := 0
  decayType : DecayType := .exponential
  sessionId : Option String := none
  personaId : Option String := none
  metadata : Metadata := {}
  parentRevision : Option String := none
  parentScopeKey : Option String := none
  parentPrivacyLevel : Option String := none
  sourceEvidence : List Metadata := []

def isIntAtLeast (minimum : ℤ) : Option Json → Bool
  | some (.int n) => decide (minimum ≤ n)
  | _ => false

variable (d : Metadata)

/-- `value["end"] > value["start"]`, where both are numbers. -/
def endAfterStart : Bool :=
  match d.get? "start", d.get? "end" with
  | some (.int start), some (.int stop) => decide (start < stop)
  | _, _ => false

def sourceRole : Option String :=
  match d.get? "role" with
  | some (.str role) => some role
  | _ => none

def hasFingerprint : Bool :=
  match d.get? "message_fingerprint" with
  | some (.str s) =>
    decide (s.length = 64) && s.toList.all fun c => "0123456789abcdef".toList.contains c
  | _ => false

def isResolvedSourceReference : Bool :=
  isIntAtLeast 1 (d.get? "message_id") && isIntAtLeast 0 (d.get? "message_seq") &&
    isIntAtLeast 0 (d.get? "start") && isIntAtLeast 1 (d.get? "end") && endAfterStart d &&
    (sourceRole d).any (fun role => ["user","assistant","system","tool"].contains role) &&
    hasFingerprint d

def hasUserSourceEvidence (group : List Metadata) : Bool :=
  !group.isEmpty && group.all isResolvedSourceReference && group.any fun d =>
    sourceRole d = some "user"

/-- What the code raises: on a value of the wrong type, on a text that is no number, or on
evidence that is incomplete. -/
inductive AtomError
  | type | value | groundingSourceEvidenceInvalid
  deriving DecidableEq

/-- `float(text)`, `int(text)` and `str(value)`, as the language has them. -/
structure Language where
  parseFloat : String → Option ℚ
  parseInt : String → Option ℤ
  text : Json → String

variable (lang : Language)

def toFloat : Json → Except AtomError ℚ
  | .bool b => .ok (if b then 1 else 0)
  | .int n => .ok n
  | .float q => .ok q
  | .str s => match lang.parseFloat s with
    | some q => .ok q
    | none => .error .value
  | _ => .error .type

/-- `int(value)`, towards zero. -/
def toInt : Json → Except AtomError ℤ
  | .bool b => .ok (if b then 1 else 0)
  | .int n => .ok n
  | .float q => .ok (q.num.tdiv q.den)
  | .str s => match lang.parseInt s with
    | some n => .ok n
    | none => .error .value
  | _ => .error .type

def truthy : Json → Bool
  | .null => false
  | .bool b => b
  | .int n => decide (n ≠ 0)
  | .float q => decide (q ≠ 0)
  | .str s => decide (s ≠ "")
  | .arr items => !items.isEmpty
  | .obj entries => !entries.isEmpty

def ttlConfig : AtomType → ℚ × DecayType
  | .episodic => (7,.exponential)
  | .planned => (2,.step)
  | .factual => (180,.exponential)
  | .relational => (90,.linear)
  | .preference => (60,.exponential)
  | .unknown => (30,.exponential)

def clamp (low high q : ℚ) : ℚ := max low (min high q)

/-- `now` is only read for a planned event. -/
def computeTtl (now : ℚ) (atomType : AtomType) (importance : ℚ) (reinforcementCount : ℤ)
    (eventTime : Option ℚ) (emotionalIntensity personaModifier : ℚ) (allowProbationary : Bool)
    (probationaryDays : ℚ) : ℚ × DecayType :=
  let emotionFactor := 1+clamp 0 1 emotionalIntensity
  let modifier := clamp (1 / 10) 10 personaModifier
  if 85 / 100 ≤ emotionalIntensity then
    (max 1 (365 * (1+1 / 2 * max importance (7 / 10))),.linear)
  else
    let importanceFactor := 1 / 2+clamp 0 1 importance
    if allowProbationary && decide (reinforcementCount = 0) &&
        (decide (atomType = .unknown) || decide (atomType = .episodic)) &&
        decide (importance < 1 / 2) then
      (max 1 (probationaryDays * importanceFactor * emotionFactor / modifier),.exponential)
    else
      let base := match atomType, eventTime with
        | .planned, some event => max 0 ((event - now) / 86400)+(ttlConfig atomType).1
        | _, _ => (ttlConfig atomType).1
      let reinforcementFactor := 1+min (1 / 2) ((reinforcementCount : ℚ) * (1 / 10))
      (max 1 (base * importanceFactor * reinforcementFactor * emotionFactor / modifier), (ttlConfig atomType).2)

structure AtomConfig where
  probationaryEnabled : Bool := true
  probationaryTtlDays : ℚ := 3

/-- `float(metadata.get(key, default))`. -/
def metadataFloat (m : Metadata) (key : String) (fallback : ℚ) : Except AtomError ℚ :=
  toFloat lang ((m.get? key).getD (.float fallback))

def ofDict : Json := .obj d.entries

/-- `metadata.setdefault("emotion_tags", ..)` and the evidence next to it. -/
def insertedMetadata (a : MemoryAtom) : Metadata :=
  let withTags := if (a.metadata.get? "emotion_tags").isSome then a.metadata
    else a.metadata.set "emotion_tags" (.arr (a.emotionTags.map .str))
  withTags.set "source_evidence" (.arr (a.sourceEvidence.map ofDict))

def prepareAtomForInsert (config : AtomConfig) (now : ℚ) (a : MemoryAtom) :
    Except AtomError MemoryAtom :=
  if !hasUserSourceEvidence a.sourceEvidence then .error .groundingSourceEvidenceInvalid
  else do
    let metadata := insertedMetadata a
    let personaModifier ← metadataFloat lang metadata "persona_decay_modifier" 1
    let emotionalIntensity ← metadataFloat lang metadata "emotional_intensity" (1 / 2)
    let ttl := computeTtl now a.atomType a.importance a.reinforcementCount a.eventTime
      (clamp 0 1 emotionalIntensity) personaModifier config.probationaryEnabled config.probationaryTtlDays
    pure { a with
      createdAt := now
      lastAccessedAt := now
      metadata := metadata
      ttlDays := ttl.1
      decayType := ttl.2
      expiresAt := now+ttl.1 * 86400 }

structure AtomRow where
  parentMemoryId : ℕ
  parentRevision : Option String
  parentScopeKey : Option String
  parentPrivacyLevel : Option String
  atomType : AtomType
  content : String
  entities : List String
  importance : ℚ
  confidence : ℚ
  createdAt : ℚ
  lastAccessedAt : ℚ
  lastReinforcedAt : Option ℚ
  eventTime : Option ℚ
  ttlDays : ℚ
  expiresAt : ℚ
  status : AtomStatus
  reinforcementCount : ℤ
  decayType : DecayType
  sessionId : Option String
  personaId : Option String
  metadata : Metadata

def MemoryAtom.row (a : MemoryAtom) : AtomRow where
  parentMemoryId := a.parentMemoryId
  parentRevision := a.parentRevision
  parentScopeKey := a.parentScopeKey
  parentPrivacyLevel := a.parentPrivacyLevel
  atomType := a.atomType
  content := a.content
  entities := a.entities
  importance := a.importance
  confidence := a.confidence
  createdAt := a.createdAt
  lastAccessedAt := a.lastAccessedAt
  lastReinforcedAt := a.lastReinforcedAt
  eventTime := a.eventTime
  ttlDays := a.ttlDays
  expiresAt := a.expiresAt
  status := a.status
  reinforcementCount := a.reinforcementCount
  decayType := a.decayType
  sessionId := a.sessionId
  personaId := a.personaId
  metadata := a.metadata

def insertedRow (config : AtomConfig) (now : ℚ) (a : MemoryAtom) : Except AtomError AtomRow :=
  (prepareAtomForInsert lang config now a).map MemoryAtom.row

end Memora.Atoms

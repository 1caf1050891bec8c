import Memora.CanonicalModels

/-! Topics are derived from canonical memories: one mapping row for each topic of a memory, one
aggregate row for each topic of a scope. Generations of these rows are built beside the
active one. -/
namespace Memora.Catalog

open Canonical (JsonField)

inductive ChatType
  | privateChat | groupChat
  deriving DecidableEq

inductive PrivacyLevel
  | publicLevel | sharedLevel | confidentialLevel
  deriving DecidableEq

/-- `_ALLOWED_CHAT_TYPES`. -/
def ChatType.parse (s : String) : Option ChatType :=
  if s = "private" then some .privateChat else if s = "group" then some .groupChat else none

/-- `_ALLOWED_PRIVACY`. -/
def PrivacyLevel.parse (s : String) : Option PrivacyLevel :=
  if s = "public" then some .publicLevel else if s = "shared" then some .sharedLevel
  else if s = "confidential" then some .confidentialLevel else none

structure Scope where
  scopeKey : String
  chatType : ChatType
  privacyLevel : PrivacyLevel
  deriving DecidableEq

/-- A field that is read as a time: a number as `float` converts it, a text, or another
value. -/
inductive ObservedAt (T : Type*)
  | number (seconds : Option T)
  | text (s : String)
  | other
  deriving DecidableEq

/-- The metadata fields a source is computed from; `topicObservedAt` is none where the field
counts as false. -/
structure SourceMetadata (T : Type*) extends Canonical.Metadata where
  chatType : Option String := none
  gateDisposition : Option String := none
  topics : Option (List JsonField) := none
  topicObservedAt : Option (ObservedAt T) := none

structure Document where
  id : ℤ
  text : String
  metadata : Option String
  createdAt : Option String
  updatedAt : Option String
  deriving DecidableEq

structure CatalogSource (T : Type*) where
  memoryId : ℤ
  sourceRevision : String
  scope : Scope
  resolverRevision : String
  topics : List (String × String)
  observedAt : T
  deriving DecidableEq

/-- What the catalog takes from the libraries: `json.loads` of a metadata column, the seconds
of a time text, Unicode, and SQLite's `json_valid` and the comparison of two `json_extract`. -/
structure CatalogEnv (T : Type*) where
  loads : String → Option (SourceMetadata T)
  parseSeconds : String → Option T
  nfkc : String → String
  isControl : Char → Bool
  labelRejected : String → Bool
  casefold : String → String
  jsonValid : String → Bool
  extractDiffers : String → String → String → Bool

variable {T : Type*} (env : CatalogEnv T)

def joinWords (s : String) : String :=
  " ".intercalate ((s.splitToList Canonical.pythonIsSpace).filter fun word => word ≠ "")

def normalizeTopicLabel : JsonField → Option String
  | .other => none
  | .text value =>
    let normalized := env.nfkc value
    if normalized.toList.any env.isControl then none
    else
      let label := joinWords normalized
      if label = "" ∨ 100 < label.length then none
      else if env.labelRejected label then none
      else some label

def normalizeTopicKey (value : JsonField) : Option String :=
  (normalizeTopicLabel env value).map env.casefold

/-- The labels by key; the first label of a key stays. -/
def topicDict (rawTopics : List JsonField) : Dict String String :=
  rawTopics.foldl (fun topics raw =>
    match normalizeTopicLabel env raw,normalizeTopicKey env raw with
    | some label,some key => if (topics.get? key).isSome then topics else topics.set key label
    | _,_ => topics) {}

variable [LinearOrder T] [Zero T]

def textTimestamp (s : String) : T := (env.parseSeconds (Canonical.pythonStrip s)).elim 0 (max 0)

def timestamp : ObservedAt T → T
  | .number seconds => seconds.elim 0 (max 0)
  | .text s => textTimestamp env s
  | .other => 0

def sourceFromValues (document : Document) : Option (CatalogSource T) :=
  match document.metadata.bind fun raw => env.loads (if raw = "" then "\x7b\x7d" else raw) with
  | none => none
  | some metadata =>
    if !Canonical.isMemoryRecallable metadata.toMetadata ||
        decide (metadata.gateDisposition = some "mark_write") then none
    else if metadata.summarySourceOrphan then none
    else if metadata.sourceProvenanceComplete ≠ some true then none
    else match metadata.scopeKey.map Canonical.pythonStrip, metadata.chatType.bind ChatType.parse,
        metadata.privacyLevel.bind PrivacyLevel.parse,
        metadata.resolverRevision.map Canonical.pythonStrip, metadata.topics with
      | some scopeKey, some chatType, some privacyLevel, some resolverRevision, some rawTopics =>
        if scopeKey = "" ∨ 256 < scopeKey.length ∨ resolverRevision = "" then none
        else
          let topics := topicDict env rawTopics
          -- an empty time counts as missing
          match (document.updatedAt.filter (· ≠ "")).or document.createdAt with
          | none => none
          | some revision =>
            if topics.isEmpty || decide (Canonical.pythonStrip revision = "") then none
            else some {
              memoryId := document.id
              sourceRevision := Canonical.pythonStrip revision
              scope := { scopeKey, chatType, privacyLevel }
              resolverRevision
              topics := topics.entries.insertionSort fun a b => a.1 ≤ b.1
              observedAt := match metadata.topicObservedAt with
                | some observed => timestamp env observed
                | none => document.createdAt.elim 0 (textTimestamp env) }
      | _, _, _, _, _ => none

structure MappingRow (T : Type*) where
  generation : ℤ
  memoryId : ℤ
  sourceRevision : String
  scope : Scope
  topicKey : String
  displayTopic : String
  observedAt : T
  deriving DecidableEq

structure ScopeTopic (T : Type*) where
  generation : ℤ
  scope : Scope
  topicKey : String
  displayTopic : String
  activeSourceCount : ℕ
  firstSeenAt : T
  lastSeenAt : T
  deriving DecidableEq

def CatalogSource.rows {T : Type*} (source : CatalogSource T) (generation : ℤ) :
    List (MappingRow T) :=
  source.topics.map fun topic => {
    generation
    memoryId := source.memoryId
    sourceRevision := source.sourceRevision
    scope := source.scope
    topicKey := topic.1
    displayTopic := topic.2
    observedAt := source.observedAt }

def lengthWithin (s : String) : Bool := decide (1 ≤ s.length) && decide (s.length ≤ 256)

/-- The CHECK constraints of `memory_topic_sources`. -/
def MappingRow.checked (r : MappingRow T) : Bool :=
  decide (0 < r.generation) && decide (0 < r.memoryId) && lengthWithin r.sourceRevision &&
    lengthWithin r.scope.scopeKey && lengthWithin r.topicKey && lengthWithin r.displayTopic &&
    decide (0 ≤ r.observedAt)

inductive CatalogStatus
  | empty | backfilling | ready | degraded
  deriving DecidableEq

/-- The row of `topic_catalog_state`, which the schema inserts. -/
structure CatalogState (T : Type*) [Zero T] where
  status : CatalogStatus := .empty
  activeGeneration : Option ℤ := none
  stagingGeneration : Option ℤ := none
  backfillCursor : ℤ := 0
  backfillTotal : ℤ := 0
  stagingStartWatermark : ℕ := 0
  canonicalSnapshotRevision : Option String := none
  canonicalWriteWatermark : ℕ := 0
  publishedDirtyWatermark : ℕ := 0
  nextDirtySequence : ℕ := 0
  rebuildOwnerToken : Option String := none
  rebuildLeaseUntil : Option T := none
  updatedAt : T := 0
  reasonCode : String := "catalog_empty"

inductive DirtyOperation
  | add | metadataUpdate | statusUpdate | delete
  deriving DecidableEq

inductive DirtyState
  | pending | running | completed | failed
  deriving DecidableEq

structure DirtyRow (T : Type*) where
  dirtyId : ℕ
  memoryId : ℤ
  operation : DirtyOperation
  sequence : ℕ
  state : DirtyState
  attemptCount : ℕ
  leaseOwnerToken : Option String
  leaseUntil : Option T
  lastErrorCode : Option String
  createdAt : T
  updatedAt : T

end Memora.Catalog

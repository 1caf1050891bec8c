import Memora.RowTable

/-! Closed status sets, reason codes and the immutable DTOs handed to the summary store. A DTO
carries what its constructor validates as proof fields, so a value the constructor would refuse
cannot be built. The tables the conversation and summary stores share, with the columns their
operations read. Columns fixed when a row is inserted are a structure of their own, so an update of
the others keeps them by construction. -/
namespace Memora.Summary

/-- Unix seconds, already clamped at zero by `_timestamp`. -/
abbrev Time := ℚ

inductive SummaryJobStatus
  | queued | running | failed | completed | blocked | unknown | cancelled | abandoned
  deriving DecidableEq

inductive CandidateDisposition
  | quarantined | discard | markWrite | canonical | merged | skippedIdempotent | failed
  deriving DecidableEq

instance : Fintype CandidateDisposition where
  elems := {.quarantined, .discard, .markWrite, .canonical, .merged, .skippedIdempotent, .failed}
  complete d := by cases d <;> decide

inductive CandidateLedgerStatus
  | planned | writing | committed | failed | unknown
  deriving DecidableEq

inductive SummaryReasonCode
  | accepted | queued | duplicate | noWindow | blocked | unknown | cancelled
  | storeUnavailable | migrationFailed | sourceIncomplete | sourceDigestMismatch
  | claimLost | epochFenced | generationFenced | leaseExpired | retryScheduled
  | retryExhausted | invalidAction | invalidSlot | ledgerUnresolved | trimBlocked
  | legacyPending | legacyPendingInvalid | abandonedConfirmed | noFacts
  | summaryInvalid | scopeUnavailable | topicLabelRejected | completed
  deriving DecidableEq

/-- The CHECK list of `summary_jobs.reason_code` lacks `topic_label_rejected`. -/
def SummaryReasonCode.storable (r : SummaryReasonCode) : Bool := r ≠ .topicLabelRejected

/-- `SummaryFailure.__post_init__` folds every other reason into `unknown`. -/
def SummaryReasonCode.isFailureReason : SummaryReasonCode → Bool
  | .blocked | .cancelled | .unknown | .storeUnavailable | .migrationFailed
  | .sourceIncomplete | .sourceDigestMismatch | .claimLost | .epochFenced
  | .generationFenced | .leaseExpired | .retryScheduled | .retryExhausted
  | .invalidAction | .invalidSlot | .ledgerUnresolved | .summaryInvalid
  | .scopeUnavailable => true
  | _ => false

abbrev Counts := CandidateDisposition → ℕ

/-- The states `_advance_cursor` passes and `ledger_blocks_trim` treats as closed. -/
def SummaryJobStatus.terminal : SummaryJobStatus → Bool
  | .completed | .abandoned => true
  | _ => false

/-- The status list of `has_trim_blocker` and of the pending projection. -/
def SummaryJobStatus.open : SummaryJobStatus → Bool
  | .queued | .running | .failed | .blocked | .unknown | .cancelled => true
  | .completed | .abandoned => false

def SummaryJobStatus.settled : SummaryJobStatus → Bool
  | .completed | .cancelled | .abandoned => true
  | _ => false

/-- `claim_ready` only hands out queued or failed jobs. -/
def SummaryJobStatus.claimable : SummaryJobStatus → Bool
  | .queued | .failed => true
  | _ => false

/-- `OWNER_ID_DISPOSITIONS`: the dispositions that must carry a canonical owner. -/
def CandidateDisposition.ownsId : CandidateDisposition → Bool
  | .canonical | .markWrite | .merged | .skippedIdempotent => true
  | .quarantined | .discard | .failed => false

def CandidateLedgerStatus.closed : CandidateLedgerStatus → Bool
  | .committed | .failed => true
  | .planned | .writing | .unknown => false

def safeExceptionTypes : List String :=
  ["unknown","CancelledError","TypeError","ValueError","KeyError","RuntimeError",
    "LookupError","OSError","TimeoutError","OperationalError","IntegrityError",
    "JSONDecodeError","SummaryParseError","MissingSnapshot","IncompleteSnapshot",
    "SnapshotRevisionMismatch","SnapshotUnrecoverable","SnapshotAdapterUnavailable"]

/-- `str.strip` on the characters that occur in class names. -/
def strip (s : String) : String :=
  String.ofList (((s.toList.dropWhile Char.isWhitespace).reverse.dropWhile
    Char.isWhitespace).reverse)

def isText (s : String) : Bool := strip s = s && s.length ≤ 256

def isRequiredText (s : String) : Bool := isText s && s ≠ ""

def normalizeExceptionType : Option String → Option String
  | none => none
  | some value =>
    if strip value = "" then none
    else if strip value ∈ safeExceptionTypes then some (strip value)
    else some "unknown"

/-- Bounded exponential backoff; a non-positive attempt raises in the source. -/
def retryDelaySeconds (attempt : ℕ) : Option ℕ :=
  if attempt = 0 then none else some (min 300 (5 * 2 ^ min (attempt - 1) 30))

/-- Slot intent without candidate text. `_text` refuses a blank digest and
`_nonnegative_int(positive=True)` a zero owner. -/
structure CandidateIntent where
  slot : ℕ
  contentDigest : String
  idempotencyKey : String := ""
  disposition : Option CandidateDisposition := none
  status : CandidateLedgerStatus := .planned
  canonicalId : Option ℕ := none
  digest_text : isRequiredText contentDigest = true
  canonical_pos : ∀ i ∈ canonicalId, 0 < i

structure WindowOutcome where
  canAdvance : Bool := false
  counts : Counts := fun _ => 0
  factsRejectedCount : ℕ := 0
  unknownCount : ℕ := 0
  candidateSlots : List CandidateIntent := []
  failedStage : Option String := none
  reasonCode : SummaryReasonCode := .completed
  exceptionType : Option String := none
  slots_nodup : (candidateSlots.map CandidateIntent.slot).Nodup
  no_facts : reasonCode = .noFacts → canAdvance = true ∧ candidateSlots = [] ∧
    (∀ d, counts d = 0) ∧ factsRejectedCount = 0 ∧ unknownCount = 0

/-- A window failure; its reason and exception class are already compressed. -/
structure SummaryFailure where
  failedStage : String
  reasonCode : SummaryReasonCode
  exceptionType : String := ""
  retryable : Bool := true
  cancelled : Bool := false
  reason_mem : reasonCode.isFailureReason = true

/-- Stable planning context of one session window; no message text. -/
structure SummaryWindowContext where
  sessionId : String
  sessionEpoch : ℕ := 1
  startSeq : ℕ := 0
  personaId : Option String := none
  chatType : Option String := none
  groupId : Option String := none
  scopeId : Option String := none
  triggeredBy : String := "automatic"
  gateRevision : String := ""
  gateSnapshotJson : String := "{}"
  windowSize : ℕ := 2
  scopeKey : String := ""
  privacyLevel : Option String := none
  resolverRevision : String := ""
  scopeResolved : Bool := false
  scopeProvenanceComplete : Option Bool := none
  scopeSubjectId : String := ""
  session_text : isRequiredText sessionId = true
  epoch_pos : 0 < sessionEpoch
  window_size : 2 ≤ windowSize

def SummaryWindowContext.scopeAvailable (c : SummaryWindowContext) : Bool :=
  c.scopeProvenanceComplete == some true && c.scopeKey != "" && c.chatType.any (· != "") &&
    c.privacyLevel.any (· != "") && c.resolverRevision != "" && c.scopeResolved

def intentCount (intents : List CandidateIntent) (d : CandidateDisposition) : ℕ :=
  intents.countP fun i => i.disposition = some d

/-- The per-slot shape test inside `valid_window_outcome`: unknown slots have no
disposition, failed slots the disposition `failed`, and committed slots any other. -/
def CandidateIntent.closedShape (i : CandidateIntent) : Bool :=
  match i.status with
  | .unknown => i.disposition.isNone
  | .failed => i.disposition = some .failed
  | .committed => i.disposition.isSome && i.disposition ≠ some .failed
  | .planned | .writing => false

def validWindowOutcome (o : WindowOutcome) : Bool :=
  o.candidateSlots.all CandidateIntent.closedShape &&
    decide (o.candidateSlots.countP (fun i => i.status = .unknown) = o.unknownCount) &&
    decide (∀ d, intentCount o.candidateSlots d = o.counts d) &&
    (!o.canAdvance || (decide (o.unknownCount = 0) && decide (o.counts .failed = 0)))

end Memora.Summary

namespace Memora.Summary
open RowTable

/-- A value of the session metadata object; nested values stay encoded. -/
inductive MetaValue
  | null | bool (b : Bool) | int (i : ℤ) | str (s : String) | raw (json : String)
  deriving DecidableEq

structure Message where
  id : ℕ
  sessionId : String
  role : String
  content : String
  senderId : String
  senderName : Option String
  groupId : Option String
  platform : String
  timestamp : Time
  metadata : String
  messageSeq : Option ℕ
  deriving DecidableEq

structure Session where
  sessionId : String
  platform : String
  createdAt : Time
  lastActiveAt : Time
  messageCount : ℕ := 0
  participants : List String := []
  metadata : List (String × MetaValue) := []
  deriving DecidableEq

/-- The first window the cursor waits for, projected into `pending_summary_json`. -/
structure PendingSummary where
  startSeq : ℕ
  endSeq : ℕ
  status : SummaryJobStatus
  reasonCode : SummaryReasonCode
  deriving DecidableEq

structure EpochRow where
  sessionId : String
  epoch : ℕ
  cursorSeq : ℕ
  pendingSummary : Option PendingSummary := none
  tombstonedAt : Option Time := none
  updatedAt : Time
  deriving DecidableEq

/-- The columns of `summary_jobs` that no statement updates. -/
structure JobSource where
  jobId : String
  sessionId : String
  sessionEpoch : ℕ
  startSeq : ℕ
  endSeq : ℕ
  expectedCount : ℕ
  sourceDigest : String
  personaId : Option String := none
  chatType : Option String := none
  groupId : Option String := none
  scopeId : Option String := none
  gateRevision : String := ""
  gateSnapshotJson : String := "{}"
  triggeredBy : String := "automatic"
  scopeKey : Option String := none
  privacyLevel : Option String := none
  resolverRevision : Option String := none
  scopeProvenanceComplete : Bool := false
  createdAt : Time
  deriving DecidableEq

structure Job extends JobSource where
  status : SummaryJobStatus := .queued
  attemptCount : ℕ := 0
  nextAttemptAt : Time
  claimToken : Option String := none
  leaseUntil : Option Time := none
  workerGeneration : ℕ := 0
  failedStage : Option String := none
  reasonCode : SummaryReasonCode
  exceptionType : Option String := none
  operatorAction : Option String := none
  counts : Counts := fun _ => 0
  factsRejectedCount : ℕ := 0
  updatedAt : Time
  deriving DecidableEq

/-- The columns of `summary_job_candidates` that no statement updates. -/
structure SlotSource where
  jobId : String
  slot : ℕ
  slotKey : String
  contentDigest : String
  idempotencyKey : String
  deriving DecidableEq

structure Candidate extends SlotSource where
  disposition : Option CandidateDisposition
  status : CandidateLedgerStatus
  canonicalId : Option ℕ
  updatedAt : Time
  deriving DecidableEq

/-- One conversation database. `counterLog` lists the increments applied to
`summary_task_counters`, each with the job it was applied for; a counter's value is
their sum. -/
structure Store where
  messages : List Message := []
  nextMessageId : ℕ := 1
  sessions : List Session := []
  epochs : List EpochRow := []
  jobs : List Job := []
  candidates : List Candidate := []
  counterLog : List (String × Counts) := []
  roundRobinCursor : String := ""
  deriving DecidableEq

def Store.empty : Store := {}

/-- What the store takes from libraries: the installation-keyed HMAC of a slot, the
two SHA-256 digests (the first fails on undecodable message metadata), and whether a
text is a JSON object. -/
structure Env where
  ownedSlotKey : String → ℕ → String → String
  sourceWindowDigest : List Message → Option String
  incompleteDigest : String → ℕ → ℕ → String
  jsonObject : String → Bool

/-- SQLite refuses integers outside 64 bits. -/
def sqlInt (n : ℕ) : Bool := n < 2 ^ 63

/-- The CHECK clauses of `summary_jobs` on the columns an insert supplies. -/
def JobSource.checks (env : Env) (j : JobSource) : Bool :=
  decide (0 < j.sessionEpoch) && decide (j.startSeq < j.endSeq) &&
    decide (j.expectedCount = j.endSeq - j.startSeq) && sqlInt j.endSeq &&
    decide (0 < j.sourceDigest.length ∧ j.sourceDigest.length ≤ 128) &&
    decide (j.gateRevision.length ≤ 256) && env.jsonObject j.gateSnapshotJson &&
    decide (0 < j.triggeredBy.length ∧ j.triggeredBy.length ≤ 64) &&
    j.scopeKey.all (fun k => 0 < k.length && k.length ≤ 256) &&
    j.privacyLevel.all (fun p => p ∈ ["public","shared","confidential"]) &&
    j.resolverRevision.all (fun r => 0 < r.length && r.length ≤ 256)

/-- The CHECK clauses of `summary_job_candidates`. -/
def Candidate.checks (c : Candidate) : Bool :=
  sqlInt c.slot && decide (0 < c.slotKey.length ∧ c.slotKey.length ≤ 128) &&
    decide (0 < c.contentDigest.length ∧ c.contentDigest.length ≤ 128) &&
    decide (c.idempotencyKey.length ≤ 256) && c.canonicalId.all (fun i => 0 < i && sqlInt i)

/-- Whether `SummaryJob.__post_init__` accepts a row. Texts reach the table from a
context that already stripped them, so `_text` changes none of them again. -/
def Job.validDto (env : Env) (j : Job) : Bool :=
  isRequiredText j.jobId && isRequiredText j.sessionId && decide (0 < j.sessionEpoch) &&
    decide (j.startSeq ≤ j.endSeq ∧ j.expectedCount = j.endSeq - j.startSeq) &&
    isText j.sourceDigest && j.personaId.all isText && j.chatType.all isText &&
    j.groupId.all isText && j.scopeId.all isText && isText j.gateRevision &&
    decide (j.gateSnapshotJson.utf8ByteSize ≤ 65536) && env.jsonObject j.gateSnapshotJson &&
    isRequiredText j.triggeredBy && j.operatorAction.all isText &&
    j.chatType.all (fun t => t ∈ ["","private","group"]) &&
    j.privacyLevel.all (fun p => p ∈ ["","public","shared","confidential"]) &&
    (j.scopeKey.all (· = "") && j.privacyLevel.all (· = "") && j.resolverRevision.all (· = "") ||
      j.scopeKey.any (fun k => isRequiredText k) && j.privacyLevel.any (· ≠ "") &&
        j.resolverRevision.any (fun r => isRequiredText r) && j.chatType.any (· ≠ ""))

namespace Store

variable (s : Store)

def updateJobs (p : Job → Bool) (f : Job → Job) : Store :=
  { s with jobs := modify p f s.jobs }

def updateCandidates (p : Candidate → Bool) (f : Candidate → Candidate) : Store :=
  { s with candidates := modify p f s.candidates }

def updateEpochs (p : EpochRow → Bool) (f : EpochRow → EpochRow) : Store :=
  { s with epochs := modify p f s.epochs }

/-- Insert a job; the primary key, the unique range or a CHECK may refuse it. -/
def insertJob (env : Env) (j : Job) : Option Store :=
  if j.checks env && s.jobs.all (fun x => x.jobId ≠ j.jobId &&
      !(x.sessionId = j.sessionId && x.sessionEpoch = j.sessionEpoch &&
        x.startSeq = j.startSeq && x.endSeq = j.endSeq)) then
    some { s with jobs := s.jobs++[j] }
  else none

/-- Insert a slot; either uniqueness constraint or a CHECK may refuse it. -/
def insertCandidate (c : Candidate) : Option Store :=
  if c.checks && s.candidates.all (fun x =>
      !(x.jobId = c.jobId && (x.slot = c.slot || x.slotKey = c.slotKey))) then
    some { s with candidates := s.candidates++[c] }
  else none

variable (session : String) (jobId : String)

def slots : List Candidate :=
  s.candidates.filter fun c => c.jobId = jobId

/-- The ledger in the `ORDER BY slot` of the queries that ask for it. -/
def orderedSlots : List Candidate :=
  (s.slots jobId).insertionSort fun a b => a.slot ≤ b.slot

def sessionMessages : List Message :=
  s.messages.filter fun m => m.sessionId = session

def epochJobs (epoch : ℕ) : List Job :=
  s.jobs.filter fun j => j.sessionId = session && j.sessionEpoch = epoch

def job? : Option Job := s.jobs.find? fun j => j.jobId = jobId

def epochRow? : Option EpochRow :=
  s.epochs.find? fun e => e.sessionId = session

/-- The join with `session_epochs` that every claim query makes. -/
def isCurrent (epoch : ℕ) : Bool :=
  s.epochs.any fun e => e.sessionId = session && e.epoch = epoch

def credited : Counts := fun d =>
  ((s.counterLog.filter fun e => e.1 = jobId).map fun e => e.2 d).sum

def addCounters (increments : Counts) : Store :=
  { s with counterLog := s.counterLog++[(jobId,increments)] }

/-- Current epoch and cursor, defaulting to a fresh session. -/
def getSummaryEpoch : ℕ × ℕ :=
  match s.epochRow? session with
  | some e => (e.epoch,e.cursorSeq)
  | none => (1,0)

/-- `SELECT cursor_seq FROM session_epochs WHERE session_id=? AND epoch=?`, or zero. -/
def cursorAt (epoch : ℕ) : ℕ :=
  match s.epochs.find? fun e => e.sessionId = session && e.epoch = epoch with
  | some e => e.cursorSeq
  | none => 0

/-- The stable high-water mark of messages and cursor. -/
def getMessageSeqEnd : ℕ :=
  max (((s.sessionMessages session).filterMap Message.messageSeq).foldr max 0)
    ((s.epochRow? session).elim 0 EpochRow.cursorSeq)

/-- Read or create the session's epoch row. -/
def ensureEpoch (now : Time) : Store × ℕ × ℕ :=
  match s.epochRow? session with
  | some e => (s,e.epoch,e.cursorSeq)
  | none =>
    ({ s with epochs := s.epochs++[⟨session,1,0,none,none,now⟩] },1,0)

end Store

end Memora.Summary

import Memora.SummaryReconcile

/-! A restart finds slots whose side effect may or may not have happened. The pass asks the
owners of the evidence outside the transaction, then closes what the evidence proves
and leaves everything else `unknown`. -/
namespace Memora.Summary
open RowTable

/-- The source columns a quarantine record carries; absent or ill-typed ones are none. -/
structure EvidenceSource where
  sessionId : Option String := none
  startSeq : Option ℤ := none
  endSeq : Option ℤ := none
  expectedCount : Option ℤ := none
  sessionEpoch : Option ℤ := none
  sourceDigest : Option String := none
  deriving DecidableEq

/-- A quarantine record; its source columns are nested or at top level. -/
structure QuarantineEvidence extends EvidenceSource where
  candidateKey : Option String := none
  status : String := ""
  sourceWindow : Option EvidenceSource := none
  deriving DecidableEq

def recoverableKey (key : String) : Bool := key ≠ "" && !"quality:".isPrefixOf key

def quarantineEvidenceMatches (job : JobSource) (key : String) (e : QuarantineEvidence) : Bool :=
  let source := e.sourceWindow.getD e.toEvidenceSource
  recoverableKey key && e.candidateKey = some key && e.status ∈ ["pending","blocked"] &&
    source.sessionId = some job.sessionId && source.startSeq = some (job.startSeq : ℤ) &&
    source.endSeq = some (job.endSeq : ℤ) && source.expectedCount = some (job.expectedCount : ℤ) &&
    source.sessionEpoch = some (job.sessionEpoch : ℤ) && source.sourceDigest = some job.sourceDigest

inductive OwnerAnswer
  | raised (exceptionClass : String) | absent | owner (i : ℤ) | invalid
  deriving DecidableEq

inductive QuarantineAnswer
  | raised (exceptionClass : String) | absent | record (e : QuarantineEvidence)
  deriving DecidableEq

/-- The injected callbacks; each may be missing. -/
structure Lookups where
  merged : Option (String → OwnerAnswer) := none
  canonical : Option (String → OwnerAnswer) := none
  quarantine : Option (String → QuarantineAnswer) := none

inductive SlotEvidence
  | none | failed (exceptionType : String) | merged (owner : ℕ) | canonical (owner : ℕ)
  | quarantined (e : QuarantineEvidence)
  deriving DecidableEq

structure ScannedSlot where
  slot : ℕ
  key : String
  evidence : SlotEvidence
  deriving DecidableEq

structure ScannedJob where
  jobId : String
  sessionId : String
  startSeq : ℕ
  endSeq : ℕ
  expectedCount : ℕ
  sourceDigest : String
  slots : List ScannedSlot
  deriving DecidableEq

structure StartupSnapshot where
  jobs : List ScannedJob := []
  distinct : (jobs.map ScannedJob.jobId).Nodup

def CandidateLedgerStatus.inDoubt : CandidateLedgerStatus → Bool
  | .writing | .unknown => true
  | _ => false

/-- One owner lookup; an answer that is no positive integer is an evidence failure. -/
def askOwner (look : Option (String → OwnerAnswer)) (key : String) (found : ℕ → SlotEvidence)
    (next : SlotEvidence) : SlotEvidence :=
  match look with
  | none => next
  | some look => match look key with
    | .raised e => .failed (exceptionOrUnknown (some e))
    | .owner i => if 0 < i then found i.toNat else .failed "unknown"
    | .invalid => .failed "unknown"
    | .absent => next

def askQuarantine (look : Option (String → QuarantineAnswer)) (key : String) : SlotEvidence :=
  match look with
  | none => .none
  | some look => match look key with
    | .raised e => .failed (exceptionOrUnknown (some e))
    | .record e => .quarantined e
    | .absent => .none

variable (l : Lookups)

def Lookups.ask (key : String) : SlotEvidence :=
  askOwner l.merged key .merged (askOwner l.canonical key .canonical
    (askQuarantine l.quarantine key))

def Lookups.scanSlot (c : Candidate) : ScannedSlot :=
  ⟨c.slot,c.idempotencyKey,
    if c.status.inDoubt && recoverableKey c.idempotencyKey then l.ask c.idempotencyKey else .none⟩

/-- The rows of the scan for one job: slots in doubt, and every slot of a running job. -/
def Store.scannedSlots (s : Store) (j : Job) : List Candidate :=
  (s.orderedSlots j.jobId).filter fun c => c.status.inDoubt || j.status = .running

def Lookups.scanJob (s : Store) (j : Job) : ScannedJob :=
  ⟨j.jobId,j.sessionId,j.startSeq,j.endSeq,j.expectedCount,j.sourceDigest,
    (s.scannedSlots j).map l.scanSlot⟩

/-- The scan of `reconcile_startup_candidates`, ordered by job and slot. -/
def Lookups.scan (s : Store) : List ScannedJob :=
  ((s.jobs.filter fun j => !(s.scannedSlots j).isEmpty).insertionSort
    fun a b => a.jobId ≤ b.jobId).map (l.scanJob s)

def ScannedJob.evidenceError (j : ScannedJob) : Option String :=
  j.slots.findSome? fun c => match c.evidence with
    | .failed e => some e
    | _ => none

def reconcileExceptionType (current fallback : Option String) : String :=
  match normalizeExceptionType current with
  | some t => if t = "unknown" then exceptionOrUnknown fallback else t
  | none => exceptionOrUnknown fallback

def completedExceptionType (current : Option String) : Option String :=
  (normalizeExceptionType current).filter (· ≠ "unknown")

inductive SlotVerdict
  | keep | doubt | commit (d : CandidateDisposition) (owner : Option ℕ)
  deriving DecidableEq

/-- The write phase on one slot: rows not in doubt stay, and so does a row whose recorded
owner is another one; without matching evidence the row is unknown. -/
def ScannedJob.verdict (scan : ScannedJob) (job : JobSource) (c : Candidate) : SlotVerdict :=
  if !c.status.inDoubt then .keep
  else match scan.slots.find? fun i => i.slot = c.slot with
    | none => .doubt
    | some i =>
      if i.key ≠ c.idempotencyKey then .doubt
      else match i.evidence with
        | .merged o => if c.canonicalId.all (· = o) then .commit .merged (some o) else .keep
        | .canonical o => if c.canonicalId.all (· = o) then .commit .canonical (some o) else .keep
        | .quarantined e =>
          if quarantineEvidenceMatches job c.idempotencyKey e then .commit .quarantined none
          else .doubt
        | _ => .doubt

def Candidate.judged (now : Time) (c : Candidate) : SlotVerdict → Candidate
  | .keep => c
  | .doubt => c.doubted now
  | .commit d owner =>
    { c with disposition := some d, status := .committed, canonicalId := owner, updatedAt := now }

/-- A row that keeps its window from being completed at start-up. -/
def Candidate.unresolved (c : Candidate) : Bool :=
  !c.status.closed || match c.disposition with
    | none => true
    | some d => d.ownsId ≠ c.canonicalId.isSome

def Job.startupUnknown (reason : SummaryReasonCode) (exceptionType : String) (now : Time)
    (j : Job) : Job :=
  { j with
    status := .unknown
    reasonCode := reason
    failedStage := some "startup_reconcile"
    exceptionType := some exceptionType
    claimToken := none
    leaseUntil := none
    updatedAt := now }

def Job.startupCompleted (counts : Counts) (now : Time) (j : Job) : Job :=
  { j with
    status := .completed
    reasonCode := .completed
    failedStage := none
    exceptionType := completedExceptionType j.exceptionType
    claimToken := none
    leaseUntil := none
    counts := counts
    updatedAt := now }

def SummaryJobStatus.resumable : SummaryJobStatus → Bool
  | .running | .unknown | .failed | .queued => true
  | _ => false

namespace Store

variable (s : Store)

/-- A job of another epoch or with another source: doubt its slots and the job. -/
def startupFence (jobId : String) (reason : SummaryReasonCode) (now : Time) : Store :=
  (s.updateCandidates (fun c => c.jobId = jobId && c.status.inDoubt)
    (Candidate.doubted now)).updateJobs (fun j => j.jobId = jobId) fun j =>
      j.startupUnknown reason (reconcileExceptionType j.exceptionType none) now

variable (scan : ScannedJob)

def startupUnresolved (now : Time) : Store :=
  s.updateJobs (fun j => j.jobId = scan.jobId) fun j => j.startupUnknown .ledgerUnresolved
    (reconcileExceptionType j.exceptionType scan.evidenceError) now

def sourceUnchanged (j : Job) : Bool :=
  j.sessionId = scan.sessionId && j.startSeq = scan.startSeq && j.endSeq = scan.endSeq &&
    j.expectedCount = scan.expectedCount && j.sourceDigest = scan.sourceDigest

/-- The ledger of a job after its slots were judged. Every UPDATE names its own slot, so
the loop over the slots is one pass. -/
def judgeSlots (job : Job) (now : Time) : Store :=
  s.updateCandidates (fun c => c.jobId = scan.jobId) fun c =>
    c.judged now (scan.verdict job.toJobSource c)

/-- The write phase on one scanned job; none when SQLite refuses an owner. -/
def startupJob (now : Time) (st : Store × ℕ) (scan : ScannedJob) : Option (Store × ℕ) :=
  let (s,touched) := st
  match s.job? scan.jobId with
  | none => some (s,touched)
  | some job =>
    if !s.isCurrent job.sessionId job.sessionEpoch then
      some (s.startupFence scan.jobId .epochFenced now,touched+1)
    else if !sourceUnchanged scan job then
      some (s.startupFence scan.jobId .sourceDigestMismatch now,touched+1)
    else
      let rows := s.slots scan.jobId
      if rows.isEmpty then
        if job.status = .running then some (s.startupUnresolved scan now,touched+1)
        else some (s,touched)
      else if rows.any fun c => match scan.verdict job.toJobSource c with
          | .commit _ owner => !owner.all sqlInt
          | _ => false then none
      else
        let s₁ := s.judgeSlots scan job now
        let final := s₁.slots scan.jobId
        -- a slot left in doubt is itself an unresolved row
        if final.any Candidate.unresolved then some (s₁.startupUnresolved scan now,touched+1)
        else if ledgerCounts final .failed ≠ 0 || !job.status.resumable then some (s₁,touched)
        else
          let counts := ledgerCounts final
          let s₂ := (s₁.updateJobs (fun j => j.jobId = scan.jobId)
            (Job.startupCompleted counts now)).addCounters scan.jobId
              fun d => counts d - job.counts d
          some (s₂.advanceCursor job.sessionId job.sessionEpoch now,touched+1)

def reconcileStartupCandidates (snapshot : StartupSnapshot) (now : Time) : Store × Except String ℕ :=
  match snapshot.jobs.foldlM (startupJob now) (s,0) with
  | none => (s,.error "summary_recovery_failed")
  | some (s',touched) => (s',.ok touched)

end Store

end Memora.Summary

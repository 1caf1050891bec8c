import Memora.SummaryClaim

/-! What a closed window's ledger must look like before its source messages may be deleted, and the
deletion itself. The worker's closing calls are conditional on its claim; recovery, cancellation and
the epoch fences act on whole sessions. A failed statement leaves the store as it was. -/
namespace Memora.Summary
open RowTable

def Counts.total (n : Counts) : ℕ :=
  n .canonical+n .quarantined+n .discard+n .markWrite+n .merged+n .failed + n .skippedIdempotent

variable (j : Job) (rows : List Candidate)

def ledgerCounts : Counts := fun d =>
  rows.countP fun c => c.disposition = some d

def terminalLedgerMatchesJob : Bool :=
  rows.all (fun c => c.disposition.isSome) && decide (rows.length = Counts.total j.counts) &&
    decide (∀ d, ledgerCounts rows d = j.counts d)

def Candidate.malformed (c : Candidate) : Bool :=
  match c.disposition with
  | none => true
  | some d => !c.status.closed ||
    match d with
    | .canonical | .markWrite | .skippedIdempotent | .merged =>
      c.status ≠ .committed || c.canonicalId.isNone
    | .quarantined | .discard => c.status ≠ .committed || c.canonicalId.isSome
    | .failed => c.status ≠ .failed

/-- First query of `ledger_blocks_trim`: an open job with an unfinished slot. -/
def openSlotBlocks : Bool :=
  !j.status.terminal && rows.any fun c => c.status ≠ .committed

/-- Second query: a closed job with a malformed slot. -/
def malformedBlocks : Bool :=
  j.status.terminal && rows.any Candidate.malformed

/-- Third query: a closed job with results but without any slot. -/
def missingBlocks : Bool :=
  j.status.terminal && decide (0 < Counts.total j.counts) && rows.isEmpty

/-- Fourth query: a closed job whose slots do not add up to its counts. -/
def countBlocks : Bool :=
  j.status.terminal && (decide (rows.length ≠ Counts.total j.counts) ||
    !decide (∀ d, ledgerCounts rows d = j.counts d))

namespace Store

def ledgerBlocksTrim (s : Store) (session : String) (epoch : ℕ) : Bool :=
  let jobs := s.epochJobs session epoch
  jobs.any (fun j => openSlotBlocks j (s.slots j.jobId)) ||
    jobs.any (fun j => malformedBlocks j (s.slots j.jobId)) ||
    jobs.any (fun j => missingBlocks j (s.slots j.jobId)) ||
    jobs.any (fun j => countBlocks j (s.slots j.jobId))

def hasTrimBlocker (s : Store) (session : String) (epoch : ℕ) : Bool :=
  let jobs := s.epochJobs session epoch
  jobs.any (fun j => j.status.open) ||
    (s.isCurrent session epoch &&
      jobs.any fun j => j.status.terminal && decide (s.cursorAt session epoch < j.startSeq)) ||
    s.ledgerBlocksTrim session epoch

end Store

structure TrimResult where
  accepted : Bool
  deletedCount : ℕ := 0
  reasonCode : SummaryReasonCode := .trimBlocked
  deriving DecidableEq

namespace Store

/-- The oldest numbered messages at or below the cursor, at most `count` of them. -/
def trimVictims (s : Store) (session : String) (epoch count : ℕ) : List Message :=
  (((s.sessionMessages session).filter fun m =>
    m.messageSeq.any (· ≤ s.cursorAt session epoch)).insertionSort
      fun a b => a.messageSeq.getD 0 ≤ b.messageSeq.getD 0).take count

/-- `quarantined` is the answer of the quarantine store, asked outside
the transaction. -/
def trimIfSafe (s : Store) (session : String) (epoch : ℕ) (deleteCount : ℤ)
    (quarantined : Bool) : Store × TrimResult :=
  if deleteCount ≤ 0 || quarantined || s.hasTrimBlocker session epoch then
    (s,{ accepted := false })
  else
    let victims := s.trimVictims session epoch deleteCount.toNat
    let messages := s.messages.filter fun m => !(victims.map Message.id).contains m.id
    let deleted := s.messages.length - messages.length
    let left := messages.countP fun m => m.sessionId = session
    ({ s with
        messages := messages
        sessions := modify (fun r => r.sessionId = session)
          (fun r => { r with messageCount := left }) s.sessions },
      if deleted = 0 then { accepted := false }
      else { accepted := true, deletedCount := deleted, reasonCode := .completed })

end Store

end Memora.Summary

namespace Memora.Summary
open RowTable

structure CompletionResult where
  accepted : Bool
  status : SummaryJobStatus
  cursor : ℕ := 0
  reasonCode : SummaryReasonCode := .unknown
  deriving DecidableEq

structure RetryResult where
  accepted : Bool
  status : SummaryJobStatus
  attemptCount : ℕ := 0
  nextAttemptAt : Time := 0
  reasonCode : SummaryReasonCode := .unknown
  deriving DecidableEq

structure EpochResult where
  accepted : Bool
  epoch : ℕ
  cancelledCount : ℕ := 0
  reasonCode : SummaryReasonCode := .unknown
  deriving DecidableEq

def CompletionResult.lost : CompletionResult :=
  { accepted := false, status := .unknown, reasonCode := .claimLost }

def Candidate.doubted (now : Time) (c : Candidate) : Candidate :=
  { c with status := .unknown, disposition := none, canonicalId := none, updatedAt := now }

def exceptionOrUnknown (value : Option String) : String :=
  match normalizeExceptionType value with
  | some t => t
  | none => "unknown"

variable (reason : SummaryReasonCode)

def Job.doubted (exceptionType : Option String) (now : Time) (j : Job) : Job :=
  { j with
    status := .unknown
    reasonCode := reason
    failedStage := some "candidate_reconcile"
    exceptionType := some (exceptionOrUnknown exceptionType)
    leaseUntil := none
    claimToken := none
    updatedAt := now }

namespace Store

def doubtSlots (s : Store) (jobId : String) (now : Time) : Store :=
  s.updateCandidates (fun c => c.jobId = jobId && !c.status.closed) (Candidate.doubted now)

/-- `_mark_unknown_claim` at the end of a transaction that began in `base`. -/
def markUnknownClaim (base s : Store) (claim : ClaimedJob) (now recheck : Time)
    (reason : SummaryReasonCode) (exceptionType : Option String) : Store × CompletionResult :=
  if !s.claimMatches claim recheck then (base,.lost)
  else
    let s₁ := s.doubtSlots claim.job.jobId now
    if s₁.jobs.countP claim.holds ≠ 1 then (base,.lost)
    else (s₁.updateJobs claim.holds (Job.doubted reason exceptionType now),
      { accepted := true, status := .unknown, reasonCode := reason })

end Store

/-- Status, reason and next attempt `commit_window` decides on; none where
`retry_delay_seconds` raises. -/
def commitVerdict (claim : ClaimedJob) (o : WindowOutcome) (now : Time) :
    Option (SummaryJobStatus × SummaryReasonCode × Option Time) :=
  if o.unknownCount ≠ 0 || (!o.canAdvance && o.counts .failed = 0) then
    some (.unknown,o.reasonCode,none)
  else if o.canAdvance then some (.completed,o.reasonCode,none)
  else if 3 ≤ claim.job.attemptCount then some (.blocked,.retryExhausted,none)
  else (retryDelaySeconds claim.job.attemptCount).map fun d =>
    (.failed,.retryScheduled,some (now+d))

def intentRejected (env : Env) (claim : ClaimedJob) (rows : List Candidate)
    (i : CandidateIntent) : Bool :=
  match rows.find? fun c => c.slot = i.slot with
  | none => true
  | some c =>
    !ledgerRow env claim i c || (c.status = .unknown && i.status ≠ .unknown) ||
      i.disposition.any CandidateDisposition.ownsId ≠ i.canonicalId.isSome ||
      (c.canonicalId.isSome && c.canonicalId ≠ i.canonicalId)

def commitAccepted (env : Env) (s : Store) (claim : ClaimedJob) (o : WindowOutcome) : Bool :=
  Store.sameSlots (s.slots claim.job.jobId) o.candidateSlots &&
    o.candidateSlots.all fun i => !intentRejected env claim (s.slots claim.job.jobId) i

def WindowOutcome.storable (o : WindowOutcome) (reason : SummaryReasonCode) : Bool :=
  o.candidateSlots.all (fun i => i.canonicalId.all sqlInt) && sqlInt o.factsRejectedCount &&
  reason.storable

def Candidate.settled (i : CandidateIntent) (now : Time) (c : Candidate) : Candidate :=
  { c with
    disposition := i.disposition
    status := match i.status with
      | .planned | .writing | .committed => .committed
      | other => other
    canonicalId := i.canonicalId <|> c.canonicalId
    updatedAt := now }

/-- Every intent's UPDATE names its own slot, so the loop over them is one pass. -/
def Candidate.settledBy (intents : List CandidateIntent) (now : Time) (c : Candidate) : Candidate :=
  match intents.find? fun i => i.slot = c.slot with
  | some i => c.settled i now
  | none => c

def Job.committed (status : SummaryJobStatus) (reason : SummaryReasonCode) (nextAt : Option Time)
    (o : WindowOutcome) (now : Time) (j : Job) : Job :=
  { j with
    status := status
    reasonCode := reason
    nextAttemptAt := nextAt.getD j.nextAttemptAt
    failedStage := o.failedStage
    exceptionType := if status = .unknown then some (orElseText (o.exceptionType.getD "") "unknown")
      else none
    leaseUntil := none
    claimToken := none
    counts := o.counts
    factsRejectedCount := o.factsRejectedCount
    updatedAt := now }

namespace Store

def commitWindow (env : Env) (s : Store) (claim : ClaimedJob) (o : WindowOutcome)
    (now clock recheck : Time) : Store × CompletionResult :=
  if !s.claimMatches claim clock then (s,.lost)
  else if !validWindowOutcome o then
    s.markUnknownClaim s claim now recheck .invalidAction (some "unknown")
  else match commitVerdict claim o now with
    | none => (s,{ accepted := false, status := .unknown })
    | some (status,reason,nextAt) =>
      if !commitAccepted env s claim o then
        s.markUnknownClaim s claim now recheck .ledgerUnresolved o.exceptionType
      else if !o.storable reason then (s,{ accepted := false, status := .unknown })
      else
        let s₁ := s.updateCandidates (fun c => c.jobId = claim.job.jobId)
          (Candidate.settledBy o.candidateSlots now)
        if s₁.jobs.countP claim.holds ≠ 1 then (s,.lost)
        else
          let s₂ := s₁.updateJobs claim.holds (Job.committed status reason nextAt o now)
          let s₃ := if status = .completed then s₂.addCounters claim.job.jobId o.counts else s₂
          let s₄ := s₃.advanceCursor claim.job.sessionId claim.job.sessionEpoch now
          (s₄,{ accepted := true, status := status,
                cursor := s₃.advancedCursor claim.job.sessionId claim.job.sessionEpoch,
                reasonCode := reason })

end Store

/-- Status, next attempt and reason of `fail_window`. -/
def failVerdict (claim : ClaimedJob) (f : SummaryFailure) (stamp : Time) :
    Option (SummaryJobStatus × Time × SummaryReasonCode) :=
  if f.cancelled then some (.cancelled,stamp,.cancelled)
  else if !f.retryable || decide (3 ≤ claim.job.attemptCount) then
    some (.blocked,stamp,f.reasonCode)
  else (retryDelaySeconds claim.job.attemptCount).map fun d =>
    (.failed,stamp+d,f.reasonCode)

def Job.failed (status : SummaryJobStatus) (nextAt : Time) (reason : SummaryReasonCode)
    (f : SummaryFailure) (stamp : Time) (j : Job) : Job :=
  { j with
    status := status
    nextAttemptAt := nextAt
    leaseUntil := none
    claimToken := none
    failedStage := some f.failedStage
    reasonCode := reason
    exceptionType := some f.exceptionType
    attemptCount := if f.cancelled then j.attemptCount - 1 else j.attemptCount
    updatedAt := stamp }

def Job.renewed (lease stamp : Time) (j : Job) : Job :=
  { j with leaseUntil := some lease, updatedAt := stamp }

def Job.requeued (stamp : Time) (j : Job) : Job :=
  { j with
    status := .queued
    nextAttemptAt := stamp
    leaseUntil := none
    claimToken := none
    attemptCount := j.attemptCount - 1
    reasonCode := reason
    updatedAt := stamp }

def Job.expired (stamp : Time) (j : Job) : Bool :=
  j.status = .running && j.leaseUntil.any (· ≤ stamp)

def Job.recovered (stamp : Time) (j : Job) : Job :=
  let exhausted := decide (3 ≤ j.attemptCount)
  { j with
    status := if exhausted then .blocked else .queued
    leaseUntil := none
    claimToken := none
    workerGeneration := j.workerGeneration+1
    reasonCode := if exhausted then .retryExhausted else .leaseExpired
    failedStage := if exhausted then some "lease_recovery" else j.failedStage
    updatedAt := stamp }

def Job.cancelledFor (now : Time) (j : Job) : Job :=
  { j with
    status := .cancelled
    claimToken := none
    leaseUntil := none
    reasonCode := reason
    updatedAt := now }

namespace Store

variable (s : Store) (claim : ClaimedJob)

def failWindow (f : SummaryFailure) (stamp clock : Time) : Store × RetryResult :=
  if !s.claimMatches claim clock then
    (s,{ accepted := false, status := .unknown, reasonCode := .claimLost })
  else match failVerdict claim f stamp with
    | none => (s,{ accepted := false, status := .unknown })
    | some (status,nextAt,reason) =>
      if s.jobs.countP claim.holds ≠ 1 then
        (s,{ accepted := false, status := .unknown, reasonCode := .claimLost })
      else
        let s' := s.updateJobs claim.holds (Job.failed status nextAt reason f stamp)
        (s'.advanceCursor claim.job.sessionId claim.job.sessionEpoch stamp,
          { accepted := true, status := status, attemptCount := claim.job.attemptCount,
            nextAttemptAt := nextAt, reasonCode := reason })

def renewClaim (leaseSeconds : ℤ) (stamp : Time) : Store × Bool :=
  if leaseSeconds ≤ 0 then (s,false)
  else
    let target := fun j : Job => claim.holds j && j.leaseUntil.any (stamp < ·)
    (s.updateJobs target (Job.renewed (stamp+max 1 leaseSeconds) stamp), decide (s.jobs.countP target = 1))

/-- A reason text outside the closed set arrives as none. -/
def requeueClaim (reason : Option SummaryReasonCode) (stamp : Time) : Store × Bool :=
  let reason := reason.getD .unknown
  if s.jobs.countP claim.holds ≠ 1 || !reason.storable then (s,false)
  else
    let s' := s.updateJobs claim.holds (Job.requeued reason stamp)
    (s'.advanceCursor claim.job.sessionId claim.job.sessionEpoch stamp,true)

def recoverExpiredClaims (stamp : Time) : Store × ℕ :=
  let expired := s.jobs.filter (Job.expired stamp)
  let affected := (expired.map fun j => (j.sessionId,j.sessionEpoch)).dedup
  let s' := s.updateJobs (Job.expired stamp) (Job.recovered stamp)
  (affected.foldl (fun s e => s.advanceCursor e.1 e.2 stamp) s',expired.length)

/-- Cancel the unsettled jobs of a selection; a CHECK may refuse the reason. -/
def cancelJobs (p : Job → Bool) (reason : SummaryReasonCode) (now : Time) :
    Option Store :=
  let target := fun j : Job => p j && !j.status.settled
  if !reason.storable && s.jobs.any target then none
  else some (s.updateJobs target (Job.cancelledFor reason now))

variable (session : String)

def cancelSessionJobs (epoch : ℕ) (reason : Option SummaryReasonCode) (now : Time) : Store × ℕ :=
  let p := fun j : Job => j.sessionId = session && j.sessionEpoch = epoch
  match s.cancelJobs p (reason.getD .cancelled) now with
  | none => (s,0)
  | some s' => (s',s.jobs.countP fun j => p j && !j.status.settled)

def fenceEpochs (p : EpochRow → Bool) (now : Time) : Store :=
  s.updateEpochs p fun e =>
    { e with
      epoch := e.epoch+1
      cursorSeq := 0
      pendingSummary := none
      tombstonedAt := some now
      updatedAt := now }

def resetSessionEpoch (reason : Option SummaryReasonCode) (now : Time) : Store × EpochResult :=
  let (s₁,old,_) := s.ensureEpoch session now
  let p := fun j : Job => j.sessionId = session && j.sessionEpoch = old
  match s₁.cancelJobs p (reason.getD .epochFenced) now with
  | none => (s,{ accepted := false, epoch := 1, reasonCode := .storeUnavailable })
  | some s₂ =>
    (s₂.fenceEpochs (fun e => e.sessionId = session && e.epoch = old) now,
      { accepted := true, epoch := old+1,
        cancelledCount := s₁.jobs.countP fun j => p j && !j.status.settled,
        reasonCode := .epochFenced })

/-- Refused while the quarantine store needs the source. -/
def clearSessionAtomically (quarantined : Bool) (now : Time) : Store × Except String ℕ :=
  if quarantined then (s,.error "summary_source_protected")
  else
    let (s₁,epoch,_) := s.ensureEpoch session now
    let s₂ := s₁.updateJobs (fun j => j.sessionId = session && j.sessionEpoch = epoch &&
      !j.status.settled) (Job.cancelledFor .epochFenced now)
    let s₃ := { s₂ with
      messages := s₂.messages.filter fun m => m.sessionId ≠ session
      sessions := modify (fun r => r.sessionId = session)
        (fun r => { r with messageCount := 0, metadata := [] }) s₂.sessions }
    (s₃.fenceEpochs (fun e => e.sessionId = session && e.epoch = epoch) now,
      .ok (s.messages.countP fun m => m.sessionId = session))

/-- `now` sets the cut-off, `clock` stamps the rows. -/
def deleteOldSessions (days : ℤ) (ttlSeconds : Option ℤ) (guarded : String → Bool)
    (now clock : Time) : Store × ℕ :=
  let ttl := ttlSeconds.getD (days * 24 * 60 * 60)
  let cutoff := now - (if ttl ≤ 0 then 60 else ttl)
  -- `session_id` is unique, so the list has no repetitions to begin with
  let ids := (((s.sessions.filter fun r => decide (r.lastActiveAt < cutoff)).map
    Session.sessionId).filter fun id => !guarded id).dedup
  if ids.isEmpty then (s,0)
  else
    let missing := ids.filter fun id => !s.epochs.any fun e => e.sessionId = id
    let created := missing.map fun id => EpochRow.mk id 1 0 none none clock
    let s₁ := { s with epochs := s.epochs++created }
    let s₂ := s₁.updateJobs (fun j => ids.contains j.sessionId && !j.status.settled)
      (Job.cancelledFor .epochFenced clock)
    let s₃ := s₂.fenceEpochs (fun e => ids.contains e.sessionId) clock
    ({ s₃ with
        messages := s₃.messages.filter fun m => !ids.contains m.sessionId
        sessions := s₃.sessions.filter fun r => !ids.contains r.sessionId },ids.length)

end Store

end Memora.Summary

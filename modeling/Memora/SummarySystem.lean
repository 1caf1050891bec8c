import Memora.SummaryStartup

/-! An operator may give up blocked windows, unless the ledger shows that a canonical memory was or
may have been written. Every operation holds the write lock and one immediate transaction, so calls
of any number of workers interleave as whole steps. -/
namespace Memora.Summary
open RowTable

def Candidate.ownerEvidence (c : Candidate) : Bool :=
  c.canonicalId.isSome || c.disposition.any CandidateDisposition.ownsId ||
    (c.status = .committed && c.disposition.isNone)

/-- `confirm_abandon_session_jobs` may give up the job. -/
def abandonable (j : Job) (rows : List Candidate) : Bool :=
  (j.status = .blocked || j.status = .unknown) && j.counts .canonical = 0 &&
  !rows.any Candidate.ownerEvidence

def Candidate.abandoned (now : Time) (c : Candidate) : Candidate :=
  { c with status := .failed, disposition := some .failed, canonicalId := none, updatedAt := now }

/-- The counts `confirm_abandon_session_jobs` stores. -/
def abandonedCounts (ledger : Counts) : Counts
  | .canonical | .markWrite | .skippedIdempotent => 0
  | d => ledger d

def Job.abandoned (ledger : Counts) (now : Time) (j : Job) : Job :=
  { j with
    status := .abandoned
    leaseUntil := none
    claimToken := none
    failedStage := some "operator_confirmed"
    reasonCode := .abandonedConfirmed
    operatorAction := some "admin_confirmed"
    counts := abandonedCounts ledger
    updatedAt := now }

namespace Store

/-- `ORDER BY start_seq,job_id` over the jobs that may be given up. -/
def abandonableJobs (s : Store) (session : String) (epoch : ℕ) : List Job :=
  ((s.epochJobs session epoch).filter fun j => abandonable j (s.slots j.jobId)).insertionSort
    fun a b => toLex (a.startSeq,a.jobId) ≤ toLex (b.startSeq,b.jobId)

def abandonJob (now : Time) (st : Store × ℕ) (j : Job) : Store × ℕ :=
  let (s,confirmed) := st
  let s₁ := s.updateCandidates (fun c => c.jobId = j.jobId && c.canonicalId.isNone &&
    !c.status.closed) (Candidate.abandoned now)
  let target := fun r : Job => r.jobId = j.jobId && r.sessionId = j.sessionId &&
    r.sessionEpoch = j.sessionEpoch && (r.status = .blocked || r.status = .unknown)
  let ledger := ledgerCounts (s₁.slots j.jobId)
  if s₁.jobs.countP target ≠ 1 then (s₁,confirmed)
  else ((s₁.updateJobs target (Job.abandoned ledger now)).addCounters j.jobId ledger, confirmed+1)

def confirmAbandonSessionJobs (s : Store) (session : String) (epoch : ℕ) (now : Time) : Store × ℕ :=
  let (s',confirmed) := (s.abandonableJobs session epoch).foldl (abandonJob now) (s,0)
  if confirmed = 0 then (s',0) else (s'.advanceCursor session epoch now,confirmed)

end Store

end Memora.Summary

namespace Memora.Summary

inductive Op
  | addMessage (m : MessageInput)
  | planAndEnqueueWindows (c : SummaryWindowContext) (observedEnd : ℤ) (jobIds : ℕ → String)
      (strict : Bool)
  | claimReady (req : ClaimRequest) (tokens : String → String)
  | beginCandidateIntents (claim : ClaimedJob) (intents : List CandidateIntent)
  | beginCandidateWrite (claim : ClaimedJob) (intent : CandidateIntent)
  | commitWindow (claim : ClaimedJob) (outcome : WindowOutcome)
  | failWindow (claim : ClaimedJob) (failure : SummaryFailure)
  | renewClaim (claim : ClaimedJob) (leaseSeconds : ℤ)
  | requeueClaim (claim : ClaimedJob) (reason : Option SummaryReasonCode)
  | recoverExpiredClaims
  | reconcileWindow (claim : ClaimedJob) (mapping : List (RawSlot × RawId))
  | reconcileStartupCandidates (snapshot : StartupSnapshot)
  | confirmAbandonSessionJobs (session : String) (epoch : ℕ)
  | cancelSessionJobs (session : String) (epoch : ℕ) (reason : Option SummaryReasonCode)
  | resetSessionEpoch (session : String) (reason : Option SummaryReasonCode)
  | clearSessionAtomically (session : String) (quarantined : Bool)
  | deleteOldSessions (days : ℤ) (ttlSeconds : Option ℤ) (guarded : String → Bool)
  | trimIfSafe (session : String) (epoch : ℕ) (deleteCount : ℤ) (quarantined : Bool)

/-- One call with the clock readings it makes: the stamp it writes, the reading of
`_claim_matches`, and the second reading of `_mark_unknown_claim`. -/
structure Call where
  op : Op
  now : Time
  clock : Time
  recheck : Time

def step (env : Env) (s : Store) (c : Call) : Store :=
  match c.op with
  | .addMessage m => (s.addMessage m c.now).1
  | .planAndEnqueueWindows ctx observedEnd jobIds strict =>
    (s.planAndEnqueueWindows env ctx observedEnd jobIds strict c.now c.clock).1
  | .claimReady req tokens => (s.claimReady env req tokens c.now).1
  | .beginCandidateIntents claim intents =>
    (s.beginCandidateIntents env claim intents c.now c.clock).1
  | .beginCandidateWrite claim intent =>
    (s.beginCandidateWrite env claim intent c.now c.clock).1
  | .commitWindow claim outcome => (s.commitWindow env claim outcome c.now c.clock c.recheck).1
  | .failWindow claim failure => (s.failWindow claim failure c.now c.clock).1
  | .renewClaim claim leaseSeconds => (s.renewClaim claim leaseSeconds c.now).1
  | .requeueClaim claim reason => (s.requeueClaim claim reason c.now).1
  | .recoverExpiredClaims => (s.recoverExpiredClaims c.now).1
  | .reconcileWindow claim mapping =>
    (s.reconcileWindow env claim mapping c.now c.clock c.recheck).1
  | .reconcileStartupCandidates snapshot => (s.reconcileStartupCandidates snapshot c.now).1
  | .confirmAbandonSessionJobs session epoch => (s.confirmAbandonSessionJobs session epoch c.now).1
  | .cancelSessionJobs session epoch reason => (s.cancelSessionJobs session epoch reason c.now).1
  | .resetSessionEpoch session reason => (s.resetSessionEpoch session reason c.now).1
  | .clearSessionAtomically session quarantined =>
    (s.clearSessionAtomically session quarantined c.now).1
  | .deleteOldSessions days ttlSeconds guarded =>
    (s.deleteOldSessions days ttlSeconds guarded c.now c.clock).1
  | .trimIfSafe session epoch deleteCount quarantined =>
    (s.trimIfSafe session epoch deleteCount quarantined).1

def run (env : Env) (s : Store) (calls : List Call) : Store := calls.foldl (step env) s

/-! ## A sample installation
Readable keys stand for the digests, so that runs can be evaluated. -/

def sampleEnv : Env where
  ownedSlotKey := fun jobId slot digest => jobId++":"++toString slot++":"++digest
  sourceWindowDigest := fun rows => some ("digest"++toString rows.length)
  incompleteDigest := fun session _ _ => "incomplete:"++session
  jsonObject := fun text => text = "{}"

def Op.at (op : Op) (time : Time) : Call := ⟨op,time,time,time⟩

def sampleMessage (session : String) : Op :=
  .addMessage { sessionId := session, role := "user", content := "text", timestamp := 0 }

lemma text_a : isRequiredText "a" = true := by decide +kernel

def sampleContext (session : String) (epoch start : ℕ)
    (hsession : isRequiredText session = true := by first | exact text_a | decide +kernel)
    (hepoch : 0 < epoch := by first | exact Nat.one_pos | decide) : SummaryWindowContext where
  sessionId := session
  sessionEpoch := epoch
  startSeq := start
  session_text := hsession
  epoch_pos := hepoch
  window_size := le_rfl

/-- Plan one window of two messages after the start. -/
def samplePlan (c : SummaryWindowContext) : Op :=
  .planAndEnqueueWindows c (c.startSeq+2) (fun start => c.sessionId++toString start) false

def sampleRequest : ClaimRequest where
  schedulerId := "scheduler"
  limit := 1
  globalLimit := some 2
  scheduler_text := by decide +kernel

lemma pos_of_mem_none : ∀ i ∈ (none : Option ℕ), 0 < i := by simp

def plannedIntent (slot : ℕ) : CandidateIntent where
  slot := slot
  contentDigest := "digest"
  idempotencyKey := "key"++toString slot
  digest_text := by decide +kernel
  canonical_pos := pos_of_mem_none

def settledIntent (slot : ℕ) (d : Option CandidateDisposition) (status : CandidateLedgerStatus) :
    CandidateIntent :=
  { plannedIntent slot with disposition := d, status := status }

def sampleClaim : Op := .claimReady sampleRequest fun jobId => "token:"++jobId

end Memora.Summary

import Memora.EvolutionModels
import Memora.RowTable
import Memora.RunLaws

/-! The queue of derivation jobs: a worker claims a job under a fresh token and a lease, and every
later change on its behalf compares that token. -/
namespace Memora.Evolution

inductive JobState
  | pending | processing | completed | rejected | invalidated | retryWait | dead
  deriving DecidableEq

/-- States that `requeue_job` opens again. -/
def JobState.requeued : JobState → Bool
  | .completed | .rejected | .invalidated | .dead => true
  | _ => false

/-- States that `claim_job` selects. -/
def JobState.waiting : JobState → Bool
  | .pending | .retryWait => true
  | _ => false

structure JobSpec (T : Type) where
  scopeKey : String
  bucketKey : String
  sourceIds : List ℕ
  idempotencyKey : String
  notBefore : T
  jobId : Option String := none
  sourceRevisions : List (ℕ × String) := []
  deriving DecidableEq

/-- A row of `memory_evolution_jobs`. Worker tokens are numbered in the order they are drawn. -/
structure MemoryEvolutionJob (T : Type) where
  jobId : String
  scopeKey : String
  bucketKey : String
  state : JobState
  attemptCount : ℕ
  sourceIds : List ℕ
  sourceRevisions : List (ℕ × String)
  notBefore : T
  leaseUntil : Option T
  workerToken : Option ℕ
  idempotencyKey : String
  createdAt : T
  updatedAt : T
  lastErrorCode : Option String
  deriving DecidableEq

structure JobClaim (T : Type) where
  jobId : String
  workerToken : ℕ
  scopeKey : String
  bucketKey : String
  sourceIds : List ℕ
  attemptCount : ℕ
  leaseUntil : T
  sourceRevisions : List (ℕ × String)
  deriving DecidableEq

structure RetrySpec (T : Type) where
  notBefore : T
  attemptCount : ℕ
  reasonCode : String

variable {T : Type}

variable (jobId : String) (workerToken : ℕ) (spec : JobSpec T) (job : MemoryEvolutionJob T)
  (freshId : String) (now : T)

/-- The row that a spec inserts; `freshId` is the drawn id of a spec without one. -/
def JobSpec.row : MemoryEvolutionJob T where
  jobId := (spec.jobId.filter (· ≠ "")).getD freshId
  scopeKey := spec.scopeKey
  bucketKey := spec.bucketKey
  state := .pending
  attemptCount := 0
  sourceIds := spec.sourceIds
  sourceRevisions := spec.sourceRevisions
  notBefore := spec.notBefore
  leaseUntil := none
  workerToken := none
  idempotencyKey := spec.idempotencyKey
  createdAt := now
  updatedAt := now
  lastErrorCode := none

/-- The columns that `requeue_job` sets on a row it opens again. -/
def MemoryEvolutionJob.reopened (spec : JobSpec T) (now : T) :
    MemoryEvolutionJob T :=
  { job with
    scopeKey := spec.scopeKey
    bucketKey := spec.bucketKey
    state := .pending
    attemptCount := 0
    sourceIds := spec.sourceIds
    sourceRevisions := spec.sourceRevisions
    notBefore := spec.notBefore
    leaseUntil := none
    workerToken := none
    lastErrorCode := none
    updatedAt := now }

variable (jobs : List (MemoryEvolutionJob T))

/-- The insertion both operations share; a taken job id fails it. -/
def insertJob : List (MemoryEvolutionJob T) :=
  if jobs.any fun j => j.jobId = (spec.row freshId now).jobId then jobs
  else jobs++[spec.row freshId now]

def enqueueJob : List (MemoryEvolutionJob T) :=
  if jobs.any fun j => j.idempotencyKey = spec.idempotencyKey then jobs
  else insertJob spec freshId now jobs

/-- The row that `requeue_job` opens again. -/
def reopens : Bool :=
  job.idempotencyKey = spec.idempotencyKey && job.state.requeued

def requeueJob : List (MemoryEvolutionJob T) :=
  if jobs.any fun j => j.idempotencyKey = spec.idempotencyKey then
    RowTable.modify (reopens spec) (fun j => j.reopened spec now) jobs
  else insertJob spec freshId now jobs

def heldBy : Bool :=
  job.jobId = jobId && job.state = .processing && job.workerToken = some workerToken

/-- `complete_job`, `reject_job`, `invalidate_job`, `dead_job` and
`restore_pending` are its instances. -/
def setJobState (state : JobState) (reason : Option String) (now : T)
    (jobs : List (MemoryEvolutionJob T)) : List (MemoryEvolutionJob T) :=
  RowTable.modify (heldBy jobId workerToken) (fun j => { j with
    state
    leaseUntil := none
    workerToken := none
    lastErrorCode := reason
    updatedAt := now }) jobs

def completeJob : List (MemoryEvolutionJob T) → List (MemoryEvolutionJob T) :=
  setJobState jobId workerToken .completed none now

variable (reasonCode : String)

def rejectJob (now : T) : List (MemoryEvolutionJob T) → List (MemoryEvolutionJob T) :=
  setJobState jobId workerToken .rejected (some reasonCode) now

def invalidateJob (now : T) : List (MemoryEvolutionJob T) → List (MemoryEvolutionJob T) :=
  setJobState jobId workerToken .invalidated (some reasonCode) now

def deadJob (now : T) : List (MemoryEvolutionJob T) → List (MemoryEvolutionJob T) :=
  setJobState jobId workerToken .dead (some reasonCode) now

def restorePending : List (MemoryEvolutionJob T) → List (MemoryEvolutionJob T) :=
  setJobState jobId workerToken .pending none now

def retryJob (retry : RetrySpec T) (now : T) (jobs : List (MemoryEvolutionJob T)) :
    List (MemoryEvolutionJob T) :=
  RowTable.modify (heldBy jobId workerToken) (fun j => { j with
    state := .retryWait
    notBefore := retry.notBefore
    leaseUntil := none
    workerToken := none
    lastErrorCode := some retry.reasonCode
    updatedAt := now }) jobs

def renewLease (leaseUntil now : T) (jobs : List (MemoryEvolutionJob T)) :
    List (MemoryEvolutionJob T) :=
  RowTable.modify (heldBy jobId workerToken) (fun j => { j with
    leaseUntil := some leaseUntil
    updatedAt := now }) jobs

section Time
variable [LinearOrder T]

/-- The row of a lease that `recover_expired_leases` ends. -/
def leaseExpired (now : T) (job : MemoryEvolutionJob T) : Bool :=
  job.state = .processing && job.leaseUntil.any (· < now)

def recoverExpiredLeases (now : T) (jobs : List (MemoryEvolutionJob T)) :
    List (MemoryEvolutionJob T) :=
  RowTable.modify (leaseExpired now) (fun j => { j with
    state := .pending
    leaseUntil := none
    workerToken := none
    updatedAt := now }) jobs

/-- The row that `claim_job` reads: waiting, due and created first. -/
def nextJob (now : T) (jobs : List (MemoryEvolutionJob T)) : Option (MemoryEvolutionJob T) :=
  (jobs.filter fun j => j.state.waiting && j.notBefore ≤ now).argmin MemoryEvolutionJob.createdAt

/-- The columns that `claim_job` sets. -/
def MemoryEvolutionJob.claimed (job : MemoryEvolutionJob T) (token : ℕ) (lease now : T) :
    MemoryEvolutionJob T :=
  { job with
    state := .processing
    leaseUntil := some lease
    workerToken := some token
    attemptCount := job.attemptCount+1
    updatedAt := now }

def claimJob (token : ℕ) (lease now : T) (jobs : List (MemoryEvolutionJob T)) :
    Option (JobClaim T × List (MemoryEvolutionJob T)) :=
  (nextJob now jobs).map fun row =>
    ({ jobId := row.jobId
       workerToken := token
       scopeKey := row.scopeKey
       bucketKey := row.bucketKey
       sourceIds := row.sourceIds
       attemptCount := row.attemptCount+1
       leaseUntil := lease
       sourceRevisions := row.sourceRevisions },
     RowTable.modify (fun j => j.jobId = row.jobId) (fun j => j.claimed token lease now) jobs)

end Time

structure JobConfig where
  maxAttempts : ℕ
  positive : 0 < maxAttempts

/-- `max(1, _as_int(config.get("max_attempts"), 3))`. -/
def JobConfig.ofSetting (value : Option ℤ) : JobConfig where
  maxAttempts := max 1 (value.getD 3).toNat
  positive := by omega

inductive ClaimExit (T : Type)
  | renewed (leaseUntil : T)
  | completed
  | sourceChanged (reasonCode : String)
  | proposalRejected (reasonCode : String)
  | failed (retryable : Bool) (notBefore : T) (reasonCode : String)
  | cancelled

def JobConfig.handleRetry (config : JobConfig) (claim : JobClaim T) (retryable : Bool)
    (notBefore : T) (reasonCode : String) (now : T) (jobs : List (MemoryEvolutionJob T)) :
    List (MemoryEvolutionJob T) :=
  if !retryable then deadJob claim.jobId claim.workerToken reasonCode now jobs
  else if claim.attemptCount ≥ config.maxAttempts then
    deadJob claim.jobId claim.workerToken "max_attempts" now jobs
  else retryJob claim.jobId claim.workerToken
    { notBefore, attemptCount := claim.attemptCount, reasonCode } now jobs

/-- The statement that `process_claim`, `run_once` or the lease renewal runs for an exit. -/
def JobConfig.exitClaim (config : JobConfig) (claim : JobClaim T) (exit : ClaimExit T) (now : T)
    (jobs : List (MemoryEvolutionJob T)) : List (MemoryEvolutionJob T) :=
  match exit with
  | .renewed leaseUntil => renewLease claim.jobId claim.workerToken leaseUntil now jobs
  | .completed => completeJob claim.jobId claim.workerToken now jobs
  | .sourceChanged reasonCode => invalidateJob claim.jobId claim.workerToken reasonCode now jobs
  | .proposalRejected reasonCode => rejectJob claim.jobId claim.workerToken reasonCode now jobs
  | .failed retryable notBefore reasonCode =>
    config.handleRetry claim retryable notBefore reasonCode now jobs
  | .cancelled => restorePending claim.jobId claim.workerToken now jobs

inductive JobEvent
  | handed (jobId : String)
  | requeued (jobId : String)
  deriving DecidableEq

/-- The table, every claim handed to a worker, the next token and what happened, newest first. -/
structure JobWorld (T : Type) where
  jobs : List (MemoryEvolutionJob T) := []
  claims : List (JobClaim T) := []
  nextToken : ℕ := 0
  log : List JobEvent := []

/-- One transaction. A worker that crashed takes no further step; a claim that commits and does
not answer is handed to nobody; a worker may act late, twice or not at all. -/
inductive JobCall (T : Type)
  | enqueue (spec : JobSpec T) (freshId : String)
  | requeue (spec : JobSpec T) (freshId : String)
  | claim (lease : T) (answered : Bool)
  | exit (worker : ℕ) (exit : ClaimExit T)
  | start

structure JobStep (T : Type) where
  call : JobCall T
  now : T

variable [LinearOrder T]

namespace JobWorld

def hand (w : JobWorld T) (claim : JobClaim T) (jobs : List (MemoryEvolutionJob T)) : JobWorld T :=
  { jobs
    claims := w.claims++[claim]
    nextToken := w.nextToken+1
    log := .handed claim.jobId::w.log }

def step (config : JobConfig) (w : JobWorld T) (s : JobStep T) : JobWorld T :=
  match s.call with
  | .enqueue spec freshId => { w with jobs := enqueueJob spec freshId s.now w.jobs }
  | .requeue spec freshId =>
    { w with
      jobs := requeueJob spec freshId s.now w.jobs
      log := (w.jobs.filter (reopens spec)).map (fun j => .requeued j.jobId)++w.log }
  | .claim lease answered =>
    match claimJob w.nextToken lease s.now w.jobs with
    | none => w
    | some (claim,jobs) =>
      if answered then w.hand claim jobs else { w with jobs, nextToken := w.nextToken+1 }
  | .exit worker exit =>
    match w.claims[worker]? with
    | none => w
    | some claim => { w with jobs := config.exitClaim claim exit s.now w.jobs }
  | .start => { w with jobs := recoverExpiredLeases s.now w.jobs }

def run (config : JobConfig) (w : JobWorld T) (steps : List (JobStep T)) : JobWorld T :=
  steps.foldl (step config) w

end JobWorld

end Memora.Evolution

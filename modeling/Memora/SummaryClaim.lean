import Memora.SummaryPlan

/-! `claim_ready` hands out ready windows in rotation over the sessions, and a worker
records its slots under the claim. Every later write of a worker is conditional on
`_claim_matches` and on the compare-and-set columns of `ClaimedJob.holds`. -/
namespace Memora.Summary
open RowTable

structure ClaimedJob where
  job : Job
  claimToken : String
  schedulerId : String
  leaseUntil : Time
  workerGeneration : ℕ
  deriving DecidableEq

structure ClaimRequest where
  schedulerId : String
  limit : ℤ
  maxParallelPerSession : ℤ := 1
  leaseSeconds : ℤ := 120
  sessionOrder : List String := []
  roundRobinAfter : Option String := none
  globalLimit : Option ℤ := none
  scheduler_text : isRequiredText schedulerId = true

/-- `order.get(session, len(order))` for `order = {item: index}`. -/
def sessionRank (order : List String) (session : String) : ℕ :=
  match order.zipIdx.reverse.find? fun e => e.1 = session with
  | some e => e.2
  | none => order.dedup.length

/-- Sessions after the rotation cursor come first; without a cursor the caller's order. -/
def rotationRank (after : Option String) (order : List String) (session : String) : ℕ :=
  match after with
  | some a => if a < session then 0 else 1
  | none => sessionRank order session

/-- The sort key of `claim_ready`. -/
def claimKey (after : Option String) (order : List String) (j : Job) : ℕ ×ₗ Time ×ₗ ℕ ×ₗ String :=
  toLex (rotationRank after order j.sessionId, toLex (j.createdAt,toLex (j.startSeq,j.jobId)))

/-- A job `claim_ready` may hand out at time `stamp`, epochs apart. -/
def Job.due (stamp : Time) (j : Job) : Bool :=
  j.status.claimable && decide (j.attemptCount < 3) && decide (j.nextAttemptAt ≤ stamp)

def Job.leased (stamp : Time) (j : Job) : Bool :=
  j.status = .running && j.leaseUntil.any (stamp < ·)

def Job.claimed (stamp lease : Time) (token : String) (j : Job) : Job :=
  { j with
    status := .running
    attemptCount := j.attemptCount+1
    claimToken := some token
    leaseUntil := some lease
    workerGeneration := j.workerGeneration+1
    updatedAt := stamp }

/-- A claimed row `SummaryJob` refuses is blocked on the spot. -/
def Job.refused (stamp : Time) (j : Job) : Job :=
  { j with
    status := .blocked
    failedStage := some "claim_validate"
    reasonCode := .blocked
    claimToken := none
    leaseUntil := none
    updatedAt := stamp }

def ClaimedJob.holds (c : ClaimedJob) (j : Job) : Bool :=
  j.jobId = c.job.jobId && j.sessionId = c.job.sessionId &&
    j.sessionEpoch = c.job.sessionEpoch && j.status = .running &&
    j.claimToken = some c.claimToken && j.workerGeneration = c.workerGeneration

/-- The immutable source and scope columns `_claim_matches` compares as well. -/
def ClaimedJob.sourceMatches (c : ClaimedJob) (j : Job) : Bool :=
  j.startSeq = c.job.startSeq && j.endSeq = c.job.endSeq &&
    j.expectedCount = c.job.expectedCount && j.sourceDigest = c.job.sourceDigest

def ClaimedJob.scopeMatches (c : ClaimedJob) (j : Job) : Bool :=
  j.scopeKey.getD "" = c.job.scopeKey.getD "" && j.privacyLevel.getD "" =
  c.job.privacyLevel.getD "" &&
    j.resolverRevision.getD "" = c.job.resolverRevision.getD "" &&
    j.scopeProvenanceComplete = c.job.scopeProvenanceComplete

def Candidate.beginWrite (now : Time) (c : Candidate) : Candidate :=
  { c with
    status := if c.status = .planned then .writing else c.status
    updatedAt := now }

/-- The rows a slot intent names: same slot, key, digest and idempotency key. -/
def ledgerRow (env : Env) (claim : ClaimedJob) (i : CandidateIntent) (c : Candidate) : Bool :=
  c.jobId = claim.job.jobId && c.slot = i.slot &&
    c.slotKey = env.ownedSlotKey claim.job.jobId i.slot i.contentDigest &&
    c.contentDigest = i.contentDigest && c.idempotencyKey = i.idempotencyKey

namespace Store

variable (s : Store) (req : ClaimRequest) (claim : ClaimedJob) (stamp : Time)

/-- The ready rows of `claim_ready`, in the order they are tried. -/
def readyJobs : List Job :=
  let persisted := s.roundRobinCursor
  let after := if persisted ≠ "" then some persisted
    else req.roundRobinAfter.filter (· ≠ "")
  (s.jobs.filter fun j => s.isCurrent j.sessionId j.sessionEpoch && j.due stamp).insertionSort
    fun a b => claimKey after req.sessionOrder a ≤ claimKey after req.sessionOrder b

def active : List Job :=
  s.jobs.filter fun j => s.isCurrent j.sessionId j.sessionEpoch && j.leased stamp

def activeIn (session : String) : ℕ :=
  (s.active stamp).countP fun j => j.sessionId = session

def claimJob (env : Env) (s : Store) (req : ClaimRequest) (stamp : Time) (token : String)
    (item : Job) : Store × Option ClaimedJob :=
  let target := fun r : Job => r.jobId = item.jobId && r.sessionId = item.sessionId &&
    r.sessionEpoch = item.sessionEpoch && r.due stamp
  let lease := stamp+max 1 req.leaseSeconds
  if s.jobs.countP target ≠ 1 then (s,none)
  else
    let s' := s.updateJobs target (Job.claimed stamp lease token)
    match s'.job? item.jobId with
    | none => (s',none)
    | some fresh =>
      if fresh.validDto env then
        (s',some ⟨fresh,token,req.schedulerId,lease,fresh.workerGeneration⟩)
      else
        -- the row was claimed by the statement above, so this one always finds it
        (s'.updateJobs (fun r => r.jobId = item.jobId && r.status = .running &&
          r.claimToken = some token) (Job.refused stamp),none)

/-- The scan of `claim_ready`: at most one claim per session and call, never more than
the limit or the global room allow. `busy` counts what ran before the call; a session
claimed in this call is skipped anyway. -/
def claimRows (env : Env) (req : ClaimRequest) (stamp : Time) (tokens : String → String)
    (busy : String → ℕ) (room : Option ℕ) : List Job → Store → List ClaimedJob →
    Store × List ClaimedJob
  | [], s, claims => (s,claims)
  | item::rest, s, claims =>
    if req.limit ≤ claims.length || room.any (· ≤ claims.length) then (s,claims)
    else if claims.any (fun c => c.job.sessionId = item.sessionId) ||
        max 1 req.maxParallelPerSession ≤ (busy item.sessionId : ℤ) then
      claimRows env req stamp tokens busy room rest s claims
    else
      let r := s.claimJob env req stamp (tokens item.jobId) item
      claimRows env req stamp tokens busy room rest r.1 (claims++r.2.toList)

/-- The rotation cursor is the session of the last claim. -/
def claimReady (env : Env) (s : Store) (req : ClaimRequest) (tokens : String → String)
    (stamp : Time) : Store × List ClaimedJob :=
  if req.limit ≤ 0 then (s,[])
  else
    let room := req.globalLimit.map fun g : ℤ => (g - ((s.active stamp).length : ℤ)).toNat
    let (s',claims) := claimRows env req stamp tokens (s.activeIn stamp) room (s.readyJobs req stamp) s []
    match claims.getLast? with
    | none => (s',claims)
    | some c => ({ s' with roundRobinCursor := c.job.sessionId },claims)

def claimMatches (clock : Time) : Bool :=
  s.isCurrent claim.job.sessionId claim.job.sessionEpoch &&
    s.jobs.any fun j => claim.holds j && claim.sourceMatches j && claim.scopeMatches j &&
      j.leaseUntil.any (clock < ·)

def recordIntent (env : Env) (claim : ClaimedJob) (now : Time) (s : Store)
    (i : CandidateIntent) : Option Store :=
  let key := env.ownedSlotKey claim.job.jobId i.slot i.contentDigest
  match (s.slots claim.job.jobId).find? fun c => c.slot = i.slot with
  | some c =>
    if c.slotKey = key && c.contentDigest = i.contentDigest &&
        c.idempotencyKey = i.idempotencyKey then some s
    else none
  | none => s.insertCandidate
    { jobId := claim.job.jobId, slot := i.slot, slotKey := key,
      contentDigest := i.contentDigest, idempotencyKey := i.idempotencyKey,
      disposition := i.disposition, status := i.status, canonicalId := i.canonicalId,
      updatedAt := now }

/-- `set(existing) == set(normalized)` on slot numbers. -/
def sameSlots (rows : List Candidate) (intents : List CandidateIntent) : Bool :=
  rows.all (fun c => intents.any fun i => i.slot = c.slot) &&
    intents.all fun i => rows.any fun c => c.slot = i.slot

/-- Record the slots of a window once; afterwards the same
slots with the same digests and keys are accepted, anything else is refused. -/
def beginCandidateIntents (env : Env) (s : Store) (claim : ClaimedJob)
    (intents : List CandidateIntent) (now clock : Time) : Store × Bool :=
  if !s.claimMatches claim clock then (s,false)
  else if !decide (intents.map CandidateIntent.slot).Nodup ||
      intents.any (fun i => 256 < i.idempotencyKey.length) then (s,false)
  else
    let existing := s.slots claim.job.jobId
    if !existing.isEmpty && !sameSlots existing intents then (s,false)
    else match intents.foldlM (recordIntent env claim now) s with
      | none => (s,false)
      | some s' => (s',true)

/-- Mark a planned slot as writing before its side effect. -/
def beginCandidateWrite (env : Env) (s : Store) (claim : ClaimedJob) (intent : CandidateIntent)
    (now clock : Time) : Store × Bool :=
  if !s.claimMatches claim clock then (s,false)
  else
    let target := fun c : Candidate => ledgerRow env claim intent c && c.status ≠ .unknown
    if s.candidates.countP target ≠ 1 then (s,false)
    else (s.updateCandidates target (Candidate.beginWrite now),true)

end Store

end Memora.Summary

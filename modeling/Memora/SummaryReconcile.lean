import Memora.SummaryTerminal

/-! `reconcile_window` records the canonical owners a worker found, finishes a window whose
ledger is complete, and degrades to `unknown` whatever does not fit. -/
namespace Memora.Summary
open RowTable

/-- A slot as a mapping key: its number, its slot key, or something else. -/
inductive RawSlot
  | slot (i : ℤ) | key (s : String) | other
  deriving DecidableEq

inductive RawId
  | int (i : ℤ) | other
  deriving DecidableEq

def RawSlot.row (rows : List Candidate) : RawSlot → Option Candidate
  | .slot i => rows.find? fun c => (c.slot : ℤ) = i
  | .key k => if strip k = "" then none else rows.find? fun c => c.slotKey = strip k
  | .other => none

/-- Slots and owners of a mapping; none when a key or an owner is not usable. -/
def normalizeMapping (rows : List Candidate) (mapping : List (RawSlot × RawId)) :
    Option (List (ℕ × ℕ)) :=
  mapping.foldlM (fun normalized entry =>
    match entry.1.row rows,entry.2 with
    | some c,.int i =>
      if normalized.any (fun e => e.1 = c.slot) || i ≤ 0 || !sqlInt i.toNat then none
      else some (normalized++[(c.slot,i.toNat)])
    | _,_ => none) []

def resolvedOwner (normalized : List (ℕ × ℕ)) (c : Candidate) : Option ℕ :=
  c.canonicalId <|> normalized.lookup c.slot

/-- The checks of `_reconcile_mapping` on one row. -/
def rowAccepted (env : Env) (claim : ClaimedJob) (normalized : List (ℕ × ℕ))
    (requireTerminal : Bool) (c : Candidate) : Bool :=
  c.slotKey ≠ "" && c.contentDigest ≠ "" &&
    c.slotKey = env.ownedSlotKey claim.job.jobId c.slot c.contentDigest && c.status ≠ .unknown &&
    (c.canonicalId.isNone || (normalized.lookup c.slot).all fun i => c.canonicalId = some i) &&
    match c.disposition with
    | some d => d.ownsId = (resolvedOwner normalized c).isSome && !(requireTerminal && d = .failed)
    | none => !requireTerminal && c.status ≠ .failed &&
      !((resolvedOwner normalized c).isNone && c.status = .committed)

def ownersDistinct (normalized : List (ℕ × ℕ)) : List Candidate →
    List (ℕ × Option CandidateDisposition) → Bool
  | [], _ => true
  | c::rest, seen => match resolvedOwner normalized c with
    | none => ownersDistinct normalized rest seen
    | some i =>
      (match seen.lookup i with
        | some previous => previous = some .merged && c.disposition = some .merged
        | none => true) &&
      ownersDistinct normalized rest ((i,c.disposition)::seen)

def reconcileMapping (env : Env) (claim : ClaimedJob) (rows : List Candidate)
    (mapping : List (RawSlot × RawId)) (requireTerminal : Bool) : Option (List (ℕ × ℕ)) := do
  let normalized ← normalizeMapping rows mapping
  if rows.all (rowAccepted env claim normalized requireTerminal) &&
      ownersDistinct normalized rows [] then some normalized else none

def Candidate.owned (owner : ℕ) (now : Time) (c : Candidate) : Candidate :=
  { c with canonicalId := some owner, updatedAt := now }

def Candidate.recordable (c : Candidate) : Bool := c.status ≠ .failed && c.status ≠ .unknown

def Candidate.ownedSlot (c : Candidate) : Bool :=
  c.status = .committed && c.disposition.any CandidateDisposition.ownsId

def Job.reconciled (counts : Counts) (now : Time) (j : Job) : Job :=
  { j with
    status := .completed
    reasonCode := .completed
    failedStage := none
    leaseUntil := none
    claimToken := none
    counts := counts
    updatedAt := now }

def Job.degraded (now : Time) (j : Job) : Job :=
  { j with
    status := .unknown
    reasonCode := .ledgerUnresolved
    failedStage := some "candidate_reconcile"
    exceptionType := some (exceptionOrUnknown (some "unknown"))
    updatedAt := now }

def ClaimedJob.completes (c : ClaimedJob) (j : Job) : Bool :=
  j.jobId = c.job.jobId && j.sessionId = c.job.sessionId &&
    j.sessionEpoch = c.job.sessionEpoch && j.status = .completed && j.workerGeneration =
    c.workerGeneration

namespace Store

/-- Record the owners one by one; false as soon as an UPDATE does not find its row.
Key and digest of the row were read in the same transaction. -/
def recordOwners (claim : ClaimedJob) (now : Time) (allowed : Candidate → Bool)
    (held : Job → Bool) : List (ℕ × ℕ) → Store → Store × Bool
  | [], s => (s,true)
  | (slot,owner)::rest, s =>
    let target := fun c : Candidate => c.jobId = claim.job.jobId && c.slot = slot && allowed c &&
      c.canonicalId.all (· = owner) && s.jobs.any held
    if s.candidates.countP target ≠ 1 then (s,false)
    else recordOwners claim now allowed held rest (s.updateCandidates target (Candidate.owned owner now))

/-- `_mark_unknown_completed` at the end of a transaction that began in `base`. -/
def markUnknownCompleted (base s : Store) (claim : ClaimedJob) (now : Time) :
    Store × CompletionResult :=
  let s₁ := s.doubtSlots claim.job.jobId now
  let target := fun j : Job => claim.completes j &&
    s.isCurrent claim.job.sessionId claim.job.sessionEpoch
  if s₁.jobs.countP target ≠ 1 then (base,.lost)
  else (s₁.updateJobs target (Job.degraded now),
    { accepted := true, status := .unknown, reasonCode := .ledgerUnresolved })

/-- The branch of `reconcile_window` for a window that is already completed. -/
def reconcileCompleted (env : Env) (s : Store) (claim : ClaimedJob) (job : Job)
    (mapping : List (RawSlot × RawId)) (now : Time) : Store × CompletionResult :=
  let rows := s.orderedSlots claim.job.jobId
  let cursor := s.cursorAt claim.job.sessionId claim.job.sessionEpoch
  if rows.isEmpty then
    if (∀ d, job.counts d = 0) ∧ job.reasonCode = .noFacts ∧ mapping = [] then
      (s,{ accepted := true, status := .completed, cursor := cursor, reasonCode := .noFacts })
    else s.markUnknownCompleted s claim now
  else if !terminalLedgerMatchesJob job rows then s.markUnknownCompleted s claim now
  else match reconcileMapping env claim rows mapping true with
    | none => s.markUnknownCompleted s claim now
    | some owners =>
      let r := recordOwners claim now Candidate.ownedSlot claim.completes owners s
      if r.2 then
        (r.1,{ accepted := true, status := .completed, cursor := cursor,
               reasonCode := .completed })
      else s.markUnknownCompleted r.1 claim now

def reconcileRunning (env : Env) (s : Store) (claim : ClaimedJob) (job : Job)
    (mapping : List (RawSlot × RawId)) (now recheck : Time) : Store × CompletionResult :=
  let doubt := fun s' : Store =>
    s.markUnknownClaim s' claim now recheck .ledgerUnresolved (some "unknown")
  match reconcileMapping env claim (s.orderedSlots claim.job.jobId) mapping false with
  | none => doubt s
  | some owners =>
    let r := recordOwners claim now Candidate.recordable claim.holds owners s
    let rows := r.1.slots claim.job.jobId
    if !r.2 then doubt r.1
    else if rows.isEmpty || rows.any (fun c => !c.status.closed || c.disposition.isNone) then
      (r.1,{ accepted := true, status := .running, reasonCode := .ledgerUnresolved })
    else if ledgerCounts rows .failed ≠ 0 then doubt r.1
    else if r.1.jobs.countP claim.holds ≠ 1 then (s,.lost)
    else
      let counts := ledgerCounts rows
      let s₂ := (r.1.updateJobs claim.holds (Job.reconciled counts now)).addCounters
        claim.job.jobId fun d => counts d - job.counts d
      (s₂.advanceCursor claim.job.sessionId claim.job.sessionEpoch now,
        { accepted := true, status := .completed,
          cursor := s₂.advancedCursor claim.job.sessionId claim.job.sessionEpoch,
          reasonCode := .completed })

def reconcileWindow (env : Env) (s : Store) (claim : ClaimedJob)
    (mapping : List (RawSlot × RawId)) (now clock recheck : Time) : Store × CompletionResult :=
  let found := s.jobs.find? fun j => j.jobId = claim.job.jobId &&
    j.sessionId = claim.job.sessionId && j.sessionEpoch = claim.job.sessionEpoch &&
    s.isCurrent j.sessionId j.sessionEpoch
  match found with
  | none => (s,.lost)
  | some job =>
    if job.workerGeneration ≠ claim.workerGeneration then
      (s,{ accepted := false, status := .unknown, reasonCode := .generationFenced })
    else if !claim.sourceMatches job then
      (s,{ accepted := false, status := .unknown, reasonCode := .sourceDigestMismatch })
    else match job.status with
      | .completed => s.reconcileCompleted env claim job mapping now
      | .unknown => (s,{ accepted := true, status := .unknown, reasonCode := .ledgerUnresolved })
      | .running =>
        if s.claimMatches claim clock then s.reconcileRunning env claim job mapping now recheck
        else (s,.lost)
      | _ => (s,.lost)

end Store

end Memora.Summary

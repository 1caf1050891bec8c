import Memora.CanonicalIdempotency
import Memora.SummaryTables

/-! A row written for a claim stays pending and orphaned until the claim is validated again
and the row is activated by a compare-and-set. The reads, the validations and the writes of
one call are separate steps. -/
namespace Memora.Canonical

structure SummarySourceFence where
  jobId : String
  sessionId : String
  sessionEpoch : ℕ
  startSeq : ℕ
  endSeq : ℕ
  expectedCount : ℕ
  sourceDigest : String
  workerGeneration : ℕ
  claimToken : String
  scopeKey : Option String := none
  privacyLevel : Option String := none
  resolverRevision : Option String := none
  scopeProvenanceComplete : Option Bool := none
  epoch_pos : 0 < sessionEpoch
  range : startSeq < endSeq
  count : expectedCount = endSeq - startSeq
  generation_pos : 0 < workerGeneration
  scope_whole : scopeKey = none ∧ privacyLevel = none ∧ resolverRevision = none ∨
    scopeKey.any (· ≠ "") ∧ privacyLevel.any (· ≠ "") ∧ resolverRevision.any (· ≠ "")
  marked : scopeProvenanceComplete = some true → scopeKey.isSome

variable (digest : String → String) (f : SummarySourceFence)

/-- The digest is SHA-256 in hexadecimal. -/
def SummarySourceFence.opaqueToken : String :=
  digest (toString f.sessionEpoch++":"++toString f.workerGeneration++":"++f.claimToken)

def SummarySourceFence.hasExactScope : Bool :=
  f.scopeProvenanceComplete = some true && f.scopeKey.any (· ≠ "") &&
    f.privacyLevel.any (· ≠ "") && f.resolverRevision.any (· ≠ "")

def summarySourceFenceIsActive (s : Summary.Store) (f : SummarySourceFence)
    (clock : Summary.Time) : Bool :=
  s.jobs.any fun j =>
    s.epochs.any (fun e => e.sessionId = j.sessionId && e.epoch = j.sessionEpoch) &&
      j.jobId = f.jobId && j.sessionId = f.sessionId && j.sessionEpoch = f.sessionEpoch &&
      j.startSeq = f.startSeq && j.endSeq = f.endSeq && j.expectedCount = f.expectedCount &&
      j.sourceDigest = f.sourceDigest && j.scopeKey.getD "" = f.scopeKey.getD "" &&
      j.privacyLevel.getD "" = f.privacyLevel.getD "" &&
      j.resolverRevision.getD "" = f.resolverRevision.getD "" &&
      j.scopeProvenanceComplete = f.scopeProvenanceComplete.getD false &&
      j.status = .running && j.claimToken = some f.claimToken &&
      j.workerGeneration = f.workerGeneration && j.leaseUntil.any (clock < ·)

/-- The metadata `add_memory` writes for a fence; none is `summary_scope_mismatch`. -/
def SummarySourceFence.stamp (m : Metadata) : Option Metadata :=
  let m := { m with
    sourceEpoch := some (toString f.sessionEpoch)
    sourceDigest := some f.sourceDigest
    sourceFenceGeneration := some (toString f.workerGeneration)
    sourceFence := some (f.opaqueToken digest)
    summarySourceOrphan := true
    summarySourcePending := true }
  if f.hasExactScope then
    if (m.scopeKey = none ∨ m.scopeKey = f.scopeKey) ∧
        (m.privacyLevel = none ∨ m.privacyLevel = f.privacyLevel) ∧
        (m.resolverRevision = none ∨ m.resolverRevision = f.resolverRevision) then
      some { m with
        scopeKey := f.scopeKey
        privacyLevel := f.privacyLevel
        resolverRevision := f.resolverRevision
        sourceProvenanceComplete := some true }
    else none
  else
    some { m with
      scopeKey := none
      privacyLevel := none
      resolverRevision := none
      sourceProvenanceComplete := some false }

def isSummarySourceAccepted (m : Metadata) : Bool :=
  !m.summarySourceOrphan && !m.summarySourcePending

def matchesAcceptedSource (m : Metadata) (f : SummarySourceFence) :
    Bool :=
  m.sourceEpoch = some (toString f.sessionEpoch) && m.sourceDigest = some f.sourceDigest &&
    m.sourceFenceGeneration = some (toString f.workerGeneration) &&
    m.sourceFence = some (f.opaqueToken digest) && (!f.hasExactScope ||
      ((m.scopeKey = none || m.scopeKey = f.scopeKey) &&
        (m.privacyLevel = none || m.privacyLevel = f.privacyLevel) &&
        (m.resolverRevision = none || m.resolverRevision = f.resolverRevision)))

/-- None where the state is left alone. -/
def applySummarySourceState (s : IdempotencyTables) (id : ℕ) (orphan : Bool)
    (token : Option String) (requirePending : Bool) : Option IdempotencyTables :=
  match s.documents.get? id with
  | none => none
  | some m =>
    if token.isSome && m.sourceFence ≠ token then none
    else if requirePending && !m.summarySourcePending then none
    else s.updateMetadata id
      { m with summarySourceOrphan := orphan, summarySourcePending := false }

/-- A candidate memory: `str(value or "")` of its idempotency key, and its other metadata,
which has no lifecycle status yet. -/
structure SourceCandidate where
  idempotencyKey : String
  metadata : Metadata
  unmarked : metadata.memoryStatus = none ∧ metadata.status = none

/-- The key `add_memory` looks up. -/
def SourceCandidate.key (c : SourceCandidate) : String :=
  normalizeCanonicalIdempotencyKey c.idempotencyKey

def SourceCandidate.keyed (c : SourceCandidate) : Metadata :=
  if c.key = "" then c.metadata
  else { c.metadata with idempotencyKey := some (.text c.key) }

inductive SourcePhase
  | started
  | looking (m : Metadata)
  | inserting (m : Metadata)
  | recovering
  | loading (id : ℕ)
  | checking (id : ℕ) (seen : Bool)
  | rejecting (id : ℕ)
  | activating (id : ℕ)
  | reloading (id : ℕ)
  | finalizing (id : ℕ)
  | orphaning (id : ℕ)
  | finished (id : ℕ)
  | failed (reason : String)
  deriving DecidableEq

structure SourceCall where
  fence : SummarySourceFence
  candidate : SourceCandidate
  phase : SourcePhase := .started

/-- How one step goes: whether a read succeeds, whether a write commits, and the id the
documents table gives a new row. -/
structure SourceOutcome where
  readable : Bool := true
  committed : Bool := true
  newId : ℕ

structure SourceWorld where
  tables : IdempotencyTables := {}
  store : Summary.Store := {}
  clock : Summary.Time := 0
  calls : Dict ℕ SourceCall := {}

inductive SourceStep
  /-- What the summary store does, recovering and handing out claims included. -/
  | claims (store : Summary.Store) (clock : Summary.Time)
  | begin (k : ℕ) (fence : SummarySourceFence) (candidate : SourceCandidate)
  /-- `_finalize_summary_source_write` for a row that another write replaced. -/
  | finalize (k : ℕ) (fence : SummarySourceFence) (candidate : SourceCandidate) (id : ℕ)
  | advance (k : ℕ) (o : SourceOutcome)
  | delete (id : ℕ)
  /-- The process dies. -/
  | crash

namespace SourceWorld

variable (digest : String → String) (w : SourceWorld)

def row (id : ℕ) : Option Metadata := w.tables.documents.get? id

/-- `get_memory`; a failed read is no memory. -/
def read (o : SourceOutcome) (id : ℕ) : Option Metadata :=
  if o.readable then w.row id else none

def fenceActive (f : SummarySourceFence) : Bool :=
  summarySourceFenceIsActive w.store f w.clock

/-- `_write_summary_source_state`; none is a refused or failed write. -/
def writeState (o : SourceOutcome) (id : ℕ) (orphan : Bool) (token : Option String)
    (requirePending : Bool) : Option IdempotencyTables :=
  if o.committed then applySummarySourceState w.tables id orphan token requirePending else none

/-- The next step of a call: `add_memory`, `_accept_summary_source_write` and
`_finalize_summary_source_write`. -/
def next (c : SourceCall) (o : SourceOutcome) : IdempotencyTables × SourcePhase :=
  let token := c.fence.opaqueToken digest
  match c.phase with
  | .started =>
    if !w.fenceActive c.fence then (w.tables,.failed "summary_source_fenced")
    else match c.fence.stamp digest c.candidate.keyed with
      | none => (w.tables,.failed "summary_scope_mismatch")
      | some m => (w.tables,if c.candidate.key = "" then .inserting m else .looking m)
  | .looking m =>
    if !o.readable then (w.tables,.failed "lookup_failed")
    else match w.tables.find c.candidate.key with
      | .error reason => (w.tables,.failed reason)
      | .ok (some id) => (w.tables,.loading id)
      | .ok none => (w.tables,.inserting m)
  | .inserting m =>
    match if o.committed then w.tables.insertDocument o.newId m else none with
    | some tables => (tables,.loading o.newId)
    | none =>
      (w.tables,if c.candidate.key = "" then .failed "canonical_write_failed" else .recovering)
  | .recovering =>
    match if o.readable then w.tables.find c.candidate.key else .ok none with
    | .ok (some id) => (w.tables,.loading id)
    | _ => (w.tables,.failed "canonical_write_failed")
  | .loading id =>
    match w.read o id with
    | some m =>
      if isSummarySourceAccepted m then
        (w.tables,if matchesAcceptedSource digest m c.fence then .finished id
          else .failed "summary_source_mismatch")
      else (w.tables,.checking id true)
    | none => (w.tables,.checking id false)
  | .checking id seen =>
    (w.tables,if !w.fenceActive c.fence then .rejecting id
      else if seen then .activating id else .failed "summary_source_activation_failed")
  | .rejecting id =>
    ((w.writeState o id true (some token) true).getD w.tables,.failed "summary_source_fenced")
  | .activating id =>
    match w.writeState o id false (some token) true with
    | some tables => (tables,.finalizing id)
    | none => (w.tables,.reloading id)
  | .reloading id =>
    (w.tables,
      if (w.read o id).any fun m => isSummarySourceAccepted m && matchesAcceptedSource digest m c.fence
      then .finished id else .failed "summary_source_activation_failed")
  | .finalizing id => (w.tables,if (w.read o id).isSome then .finished id else .orphaning id)
  | .orphaning id =>
    ((w.writeState o id true none false).getD w.tables,.failed "summary_source_activation_failed")
  | .finished _ | .failed _ => (w.tables,c.phase)

def step : SourceStep → SourceWorld
  | .claims store clock => { w with store, clock }
  | .begin k fence candidate =>
    if (w.calls.get? k).isSome then w
    else { w with calls := w.calls.set k { fence, candidate } }
  | .finalize k fence candidate id =>
    if (w.calls.get? k).isSome then w
    else { w with calls := w.calls.set k { fence, candidate, phase := .finalizing id } }
  | .advance k o => match w.calls.get? k with
    | none => w
    | some c =>
      let r := w.next digest c o
      { w with tables := r.1, calls := w.calls.set k { c with phase := r.2 } }
  | .delete id => { w with tables := w.tables.deleteDocument id }
  | .crash => { w with calls := {} }

def run (steps : List SourceStep) : SourceWorld :=
  steps.foldl (step digest) w

def start (tables : IdempotencyTables) (store : Summary.Store) (clock : Summary.Time) :
    SourceWorld := { tables, store, clock }

end SourceWorld

end Memora.Canonical

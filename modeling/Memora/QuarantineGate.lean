import Memora.QuarantineStore

/-! An approval claims its candidate in the quarantine store, revalidates it, writes one memory to
the canonical store under the lock of the source and finalizes the candidate. Other tasks may run
between any two of its steps, and it may stop at every one of them. -/
namespace Memora.Quality
open Canonical

structure CanonicalMemory where
  memoryId : ℕ
  content : String
  idempotencyKey : String := ""
  source : Option SourceCorrelation := none
  candidateId : Option String := none
  approvalTokenHash : Option String := none
  committed : Bool := false
  deriving DecidableEq

def freshMemoryId (memories : List CanonicalMemory) : ℕ :=
  memories.foldr (fun m n => max m.memoryId n) 0+1

/-- A memory with the idempotency key is returned instead of a second one. -/
def addMemory (memory : CanonicalMemory) (memories : List CanonicalMemory) :
    List CanonicalMemory × ℕ :=
  match memories.find? fun m =>
      memory.idempotencyKey ≠ "" && m.idempotencyKey = memory.idempotencyKey with
  | some owner => (memories,owner.memoryId)
  | none =>
    (memories++[{ memory with memoryId := freshMemoryId memories }],freshMemoryId memories)

inductive Approval
  /-- The candidate was read; it is not claimed yet. -/
  | loaded (current : Candidate) (expectedRevision : ℤ) (content : Option String)
  /-- Claimed, with the row as it was claimed; nothing is written yet. -/
  | claimed (row : Candidate)
  /-- In `add_memory` under the lock of the source; `written` once its commit took effect. -/
  | writing (row : Candidate) (written : Option ℕ)
  /-- `add_memory` returned; the lock is still held. -/
  | returned (row : Candidate) (memoryId : ℕ)
  | ended
  deriving DecidableEq

def Approval.row? : Approval → Option Candidate
  | .claimed row | .writing row _ | .returned row _ => some row
  | _ => none

def Approval.holds : Approval → Option Candidate
  | .writing row _ | .returned row _ => some row
  | _ => none

inductive Repair
  /-- `repair_blocked` waits for the lock of the source. -/
  | blocking (current : Candidate) (expectedRevision : ℤ)
  /-- `repair_approval` waits for the lock of the source. -/
  | approving (current : Candidate) (expectedRevision : ℤ) (memoryId : ℕ)
      (tokenHash : Option String)
  | ended
  deriving DecidableEq

structure Gate where
  candidates : List Candidate := []
  memories : List CanonicalMemory := []
  approvals : List Approval := []
  repairs : List Repair := []

def corrected (current : Candidate) (content : Option String) :
    Except String (Option String × CandidateMetadata) :=
  match content with
  | none =>
    .ok ((current.metadata.keyFacts.filter (· ≠ [])).map ("；".intercalate ·),current.metadata)
  | some text =>
    let correctedContent := pythonStrip text
    if correctedContent = "" then .error "quarantine_content_required"
    else if 2000 < correctedContent.length then .error "quarantine_content_too_long"
    else .ok (some correctedContent,{ current.metadata with keyFacts := some [correctedContent] })

def approvedMemory (row : Candidate) : CanonicalMemory where
  memoryId := 0
  content := row.content
  idempotencyKey := pythonStrip row.metadata.idempotencyKey
  source := row.source
  candidateId := some row.candidateId
  approvalTokenHash := row.approvalTokenHash
  committed := true

/-- What `repair_approval` checks of the memory under the lock. -/
def correlates (current : Candidate) (tokenHash : Option String) (memory : CanonicalMemory) :
    Bool :=
  current.source.isSome && memory.source == current.source &&
    current.approvalTokenHash.isSome && memory.approvalTokenHash == current.approvalTokenHash &&
    (memory.candidateId.all (· == current.candidateId)) && (match tokenHash with
      | none => memory.candidateId == some current.candidateId
      | some hash => memory.approvalTokenHash == some hash) &&
    memory.committed && memory.content == current.content

inductive GateEvent
  | stage (candidateId candidateKey content : String) (metadata : CandidateMetadata)
      (sessionId : String) (source : Option SourceCorrelation)
  | approve (candidateId : String) (expectedRevision : ℤ) (content : Option String)
  /-- `claim_approval` with the digest of a drawn token. -/
  | claim (approval : ℕ) (tokenHash : String)
  /-- `block_approval` of an approval that failed or was cancelled before its write. -/
  | block (approval : ℕ) (reasonCode : String)
  | beginWrite (approval : ℕ)
  /-- The commit of `add_memory` takes effect. -/
  | commits (approval : ℕ)
  | returns (approval : ℕ)
  | finalize (approval : ℕ)
  /-- The approval ends without another change: a failed or cancelled write, a failed block. -/
  | stops (approval : ℕ)
  | crash
  | reject (candidateId : String) (expectedRevision : ℤ)
  | repairBlocked (candidateId : String) (expectedRevision : ℤ) (confirmCanonicalAbsent : Bool)
  | finishBlocked (repair : ℕ)
  | repairApproval (candidateId : String) (expectedRevision : ℤ) (memoryId : ℕ)
      (tokenHash : Option String)
  | finishApproval (repair : ℕ)
  | stopsRepair (repair : ℕ)
  /-- Another writer adds a memory. -/
  | otherWrite (content idempotencyKey : String) (source : Option SourceCorrelation)
  deriving DecidableEq

namespace Gate

variable (w : Gate) (approval : ℕ) (candidateId : String)

/-- The table after a transaction; a failed one leaves it alone. -/
def transact (t : Transition) : Gate :=
  match transition candidateId t w.candidates with
  | .error _ => w
  | .ok (rows,_) => { w with candidates := rows }

def setApproval (next : Approval) : Gate :=
  { w with approvals := w.approvals.set approval next }

def setRepair (repair : ℕ) (next : Repair) : Gate :=
  { w with repairs := w.repairs.set repair next }

def lockFree (sessionId : String) : Bool :=
  w.approvals.all fun a => a.holds.all fun row => row.sessionId ≠ sessionId

variable (expectedRevision : ℤ)

def approve (content : Option String) :
    Gate :=
  match rowOf w.candidates candidateId with
  | none => w
  | some current =>
    if current.status = .approved then w
    else match corrected current content with
      | .error _ => w
      | .ok _ => { w with approvals := w.approvals++[.loaded current expectedRevision content] }

def claim (tokenHash : String) : Gate :=
  match w.approvals[approval]? with
  | some (.loaded current expectedRevision content) =>
    match corrected current content with
    | .error _ => w.setApproval approval .ended
    | .ok (correctedContent,metadata) =>
      match transition current.candidateId
          (claimApproval expectedRevision tokenHash correctedContent metadata) w.candidates with
      | .error _ => w.setApproval approval .ended
      | .ok (rows,row) => { w with candidates := rows }.setApproval approval (.claimed row)
  | _ => w

def block (reasonCode : String) : Gate :=
  match w.approvals[approval]? with
  | some (.claimed row) =>
    (w.transact row.candidateId (blockApproval row.revision reasonCode)).setApproval approval .ended
  | _ => w

def beginWrite : Gate :=
  match w.approvals[approval]? with
  | some (.claimed row) =>
    if w.lockFree row.sessionId && row.source.isSome then w.setApproval approval (.writing row none)
    else w
  | _ => w

def commits : Gate :=
  match w.approvals[approval]? with
  | some (.writing row none) =>
    let (memories,memoryId) := addMemory (approvedMemory row) w.memories
    { w with memories }.setApproval approval (.writing row (some memoryId))
  | _ => w

def returns : Gate :=
  match w.approvals[approval]? with
  | some (.writing row (some memoryId)) => w.setApproval approval (.returned row memoryId)
  | _ => w

def finalize : Gate :=
  match w.approvals[approval]? with
  | some (.returned row memoryId) =>
    (w.transact row.candidateId
      (finalizeApproval row.revision memoryId (row.approvalTokenHash.getD ""))).setApproval approval .ended
  | _ => w

def crash : Gate :=
  { w with
    approvals := w.approvals.map fun _ => .ended
    repairs := w.repairs.map fun _ => .ended }

def repairBlocked (confirmCanonicalAbsent : Bool) : Gate :=
  match rowOf w.candidates candidateId with
  | none => w
  | some current =>
    if confirmCanonicalAbsent && current.status = .approving &&
        current.canonicalMemoryId.isNone then
      { w with repairs := w.repairs++[.blocking current expectedRevision] }
    else w

def finishBlocked (repair : ℕ) : Gate :=
  match w.repairs[repair]? with
  | some (.blocking current expectedRevision) =>
    if w.lockFree current.sessionId then
      (w.transact current.candidateId
        (blockApproval expectedRevision "canonical_write_not_found_confirmed")).setRepair repair .ended
    else w
  | _ => w

def repairApproval (memoryId : ℕ) (tokenHash : Option String) : Gate :=
  match rowOf w.candidates candidateId with
  | none => w
  | some current =>
    if current.status = .approving && current.revision = expectedRevision then
      { w with repairs := w.repairs++[.approving current expectedRevision memoryId tokenHash] }
    else w

def finishApproval (repair : ℕ) : Gate :=
  match w.repairs[repair]? with
  | some (.approving current expectedRevision memoryId tokenHash) =>
    if w.lockFree current.sessionId then
      match w.memories.find? fun m => m.memoryId = memoryId with
      | none => w.setRepair repair .ended
      | some memory =>
        if correlates current tokenHash memory then
          (w.transact current.candidateId (finalizeApproval expectedRevision memoryId
            (current.approvalTokenHash.getD ""))).setRepair repair .ended
        else w.setRepair repair .ended
    else w
  | _ => w

def otherWrite (content idempotencyKey : String) (source : Option SourceCorrelation) :
    Gate :=
  { w with memories := (addMemory { memoryId := 0, content, idempotencyKey, source } w.memories).1 }

def step : GateEvent → Gate
  | .stage candidateId candidateKey content metadata sessionId source =>
    { w with
      candidates := stageCandidate candidateId candidateKey content metadata sessionId source w.candidates }
  | .approve candidateId expectedRevision content => w.approve candidateId expectedRevision content
  | .claim approval tokenHash => w.claim approval tokenHash
  | .block approval reasonCode => w.block approval reasonCode
  | .beginWrite approval => w.beginWrite approval
  | .commits approval => w.commits approval
  | .returns approval => w.returns approval
  | .finalize approval => w.finalize approval
  | .stops approval => w.setApproval approval .ended
  | .crash => w.crash
  | .reject candidateId expectedRevision =>
    w.transact candidateId (rejectCandidate expectedRevision)
  | .repairBlocked candidateId expectedRevision confirmCanonicalAbsent =>
    w.repairBlocked candidateId expectedRevision confirmCanonicalAbsent
  | .finishBlocked repair => w.finishBlocked repair
  | .repairApproval candidateId expectedRevision memoryId tokenHash =>
    w.repairApproval candidateId expectedRevision memoryId tokenHash
  | .finishApproval repair => w.finishApproval repair
  | .stopsRepair repair => w.setRepair repair .ended
  | .otherWrite content idempotencyKey source => w.otherWrite content idempotencyKey source

end Gate

end Memora.Quality

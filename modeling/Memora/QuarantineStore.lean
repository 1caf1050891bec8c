import Memora.CanonicalModels
import Memora.RowTable

/-! Candidates that the quality gate held back. A candidate changes in one transaction that compares
its revision and its status. -/
namespace Memora.Quality
open Canonical

inductive CandidateStatus
  | pending | approving | blocked | approved | rejected
  deriving DecidableEq

def CandidateStatus.terminal : CandidateStatus → Bool
  | .approved | .rejected => true
  | _ => false

structure SourceCorrelation where
  sourceEpoch : ℤ
  sourceDigest : String
  sourceFenceGeneration : ℤ
  sourceFence : String
  deriving DecidableEq

/-- `keyFacts` is missing unless it is a list of texts that are not blank. -/
structure CandidateMetadata where
  keyFacts : Option (List String) := none
  idempotencyKey : String := ""
  deriving DecidableEq

/-- A row of `memory_quarantine_candidates`; `source` is missing where the source window lacks
one of its fields. -/
structure Candidate where
  candidateId : String
  candidateKey : String
  revision : ℤ
  status : CandidateStatus
  content : String
  metadata : CandidateMetadata
  sessionId : String
  source : Option SourceCorrelation
  canonicalMemoryId : Option ℕ
  approvalTokenHash : Option String
  failureReason : Option String
  deriving DecidableEq

/-- `_stage_candidate_unlocked`; `candidateId` is the drawn id. -/
def stageCandidate (candidateId candidateKey content : String) (metadata : CandidateMetadata)
    (sessionId : String) (source : Option SourceCorrelation) (rows : List Candidate) :
    List Candidate :=
  if pythonStrip candidateKey = "" ∨ pythonStrip content = "" then rows
  else if rows.any fun c => c.candidateKey = pythonStrip candidateKey ∨ c.candidateId = candidateId
    then rows
  else rows++[{
    candidateId
    candidateKey := pythonStrip candidateKey
    revision := 1
    status := .pending
    content := pythonStrip content
    metadata
    sessionId
    source
    canonicalMemoryId := none
    approvalTokenHash := none
    failureReason := none }]

/-- The arguments of `_transition_unlocked`. -/
structure Transition where
  expectedRevision : ℤ
  allowed : CandidateStatus → Bool
  nextStatus : CandidateStatus
  canonicalMemoryId : Option ℕ := none
  failureReason : Option String := none
  content : Option String := none
  metadata : Option CandidateMetadata := none
  approvalTokenHash : Option String := none
  verifyApprovalTokenHash : Option String := none

def Transition.updated (t : Transition) (current : Candidate) : Candidate :=
  { current with
    revision := current.revision+1
    status := t.nextStatus
    canonicalMemoryId := t.canonicalMemoryId
    approvalTokenHash := t.approvalTokenHash.or current.approvalTokenHash
    failureReason := t.failureReason
    content := (t.content.map pythonStrip).getD current.content
    metadata := t.metadata.getD current.metadata }

/-- `_transition_unlocked`: the row after the transaction, and the table. -/
def transition (candidateId : String) (t : Transition) (rows : List Candidate) :
    Except String (List Candidate × Candidate) :=
  match rows.find? fun c => c.candidateId = candidateId with
  | none => .error "quarantine_candidate_not_found"
  | some current =>
    if current.status.terminal then
      if current.status = t.nextStatus then .ok (rows,current)
      else .error "quarantine_status_conflict"
    else if current.revision ≠ t.expectedRevision then .error "quarantine_revision_conflict"
    else if !t.allowed current.status then .error "quarantine_status_conflict"
    else if t.verifyApprovalTokenHash.any (· ≠ current.approvalTokenHash.getD "") then
      .error "quarantine_approval_token_invalid"
    else if t.content.any (pythonStrip · = "") then .error "quarantine_content_required"
    else .ok (RowTable.modify (fun c => c.candidateId = candidateId) (fun _ => t.updated current) rows,
        t.updated current)

variable (expectedRevision : ℤ)

def claimApproval (approvalTokenHash : String) (content : Option String)
    (metadata : CandidateMetadata) : Transition where
  expectedRevision := expectedRevision
  allowed := fun status => status = .pending || status = .blocked
  nextStatus := .approving
  content := content
  metadata := some metadata
  approvalTokenHash := some approvalTokenHash

/-- `finalize_approval` and `finalize_repaired_approval`. -/
def finalizeApproval (canonicalMemoryId : ℕ) (approvalTokenHash : String) : Transition where
  expectedRevision := expectedRevision
  allowed := fun status => status = .approving
  nextStatus := .approved
  canonicalMemoryId := some canonicalMemoryId
  verifyApprovalTokenHash := some approvalTokenHash

def blockApproval (reasonCode : String) : Transition where
  expectedRevision := expectedRevision
  allowed := fun status => status = .approving
  nextStatus := .blocked
  failureReason := some reasonCode

def rejectCandidate : Transition where
  expectedRevision := expectedRevision
  allowed := fun status => status = .pending || status = .blocked
  nextStatus := .rejected

def rowOf (rows : List Candidate) (candidateId : String) : Option Candidate :=
  rows.find? fun c => c.candidateId = candidateId

lemma rowOf_mem {rows : List Candidate} {id : String} {c : Candidate}
    (h : rowOf rows id = some c) : c ∈ rows ∧ c.candidateId = id :=
  ⟨List.mem_of_find?_eq_some h,by simpa using List.find?_some h⟩

/-- A transaction fails, finds a terminal row in the asked status, or changes an open row of the
expected revision in an allowed status. -/
inductive TransitionEffect (id : String) (t : Transition) (rows : List Candidate) :
    Except String (List Candidate × Candidate) → Prop
  | failed (message : String) : TransitionEffect id t rows (.error message)
  | unchanged (current : Candidate) (hrow : rowOf rows id = some current)
      (hstatus : current.status = t.nextStatus) (hterminal : current.status.terminal = true) :
      TransitionEffect id t rows (.ok (rows,current))
  | changed (current : Candidate) (hrow : rowOf rows id = some current)
      (hopen : current.status.terminal = false)
      (hrevision : current.revision = t.expectedRevision)
      (hallowed : t.allowed current.status = true)
      (htoken : ∀ hash, t.verifyApprovalTokenHash = some hash →
        hash = current.approvalTokenHash.getD "") :
      TransitionEffect id t rows
        (.ok (RowTable.modify (fun c => c.candidateId = id) (fun _ => t.updated current) rows,
          t.updated current))

lemma transition_effect (id : String) (t : Transition) (rows : List Candidate) :
    TransitionEffect id t rows (transition id t rows) := by
  unfold transition
  cases hrow : rows.find? fun c => c.candidateId = id with
  | none => exact .failed _
  | some current =>
    dsimp only
    by_cases hterminal : current.status.terminal = true
    · rw [if_pos hterminal]
      by_cases hstatus : current.status = t.nextStatus
      · rw [if_pos hstatus]
        exact .unchanged current hrow hstatus hterminal
      · rw [if_neg hstatus]
        exact .failed _
    rw [if_neg hterminal]
    by_cases hrevision : current.revision ≠ t.expectedRevision
    · rw [if_pos hrevision]
      exact .failed _
    rw [if_neg hrevision]
    by_cases hallowed : (!t.allowed current.status) = true
    · rw [if_pos hallowed]
      exact .failed _
    rw [if_neg hallowed]
    by_cases htoken : t.verifyApprovalTokenHash.any (· ≠ current.approvalTokenHash.getD "") = true
    · rw [if_pos htoken]
      exact .failed _
    rw [if_neg htoken]
    by_cases hcontent : t.content.any (pythonStrip · = "") = true
    · rw [if_pos hcontent]
      exact .failed _
    rw [if_neg hcontent]
    refine .changed current hrow (by simpa using hterminal) (not_not.mp hrevision) (by simpa using hallowed) ?_
    intro hash hhash
    rw [hhash] at htoken
    simpa using htoken

end Memora.Quality

import Memora.EngineModels

/-! Revisions of memories that wait for a reviewer, the intents of applications and rollbacks that
are under way, and the audit of what happened. A transaction that raises changes nothing. -/
namespace Memora.Reconsolidation
open Engine

inductive CandidateStatus
  | pending | approved | rejected | failed | rolledBack
  deriving DecidableEq

/-- A row of `reconsolidation_candidates`, kept under its id. -/
structure Candidate where
  memoryId : ℕ
  sourceRevision : String
  oldContent : String
  oldMetadata : Metadata
  proposedContent : String
  status : CandidateStatus := .pending
  reasonCode : String := "proposed"
  appliedRevision : Option String := none
  appliedMetadata : Option Metadata := none
  deriving DecidableEq

def Candidate.proposes (c : Candidate) (memoryId : ℕ) (sourceRevision proposedContent : String) :
    Bool :=
  c.memoryId = memoryId && c.sourceRevision = sourceRevision &&
    c.proposedContent = proposedContent && c.status = .pending

/-- The candidate at the end of its application; one that succeeded comes with the revision and
the metadata of its row. -/
def Candidate.closed (c : Candidate) (reason : String) (applied : Option (String × Metadata)) :
    Candidate :=
  { c with
    status := if applied.isSome then .approved else .rejected
    reasonCode := reason
    appliedRevision := applied.map Prod.fst
    appliedMetadata := applied.map Prod.snd }

inductive OpStatus
  | pending | blocked
  deriving DecidableEq

/-- A row of `reconsolidation_apply_ops`, kept under its candidate; a target that was never
stored reads as the empty one. -/
structure ApplyOp where
  expectedRevision : String
  targetMetadata : Metadata
  status : OpStatus := .pending
  reasonCode : String := "apply_started"
  deriving DecidableEq

/-- A row of `reconsolidation_rollback_ops`, kept under its candidate. -/
structure RollbackOp where
  expectedRevision : String
  status : OpStatus := .pending
  reasonCode : String := "rollback_started"
  deriving DecidableEq

inductive ActionKind
  | stage | apply | reject | rollback
  deriving DecidableEq

/-- A row of `reconsolidation_actions`. -/
structure Action where
  candidateId : String
  action : ActionKind
  reasonCode : String
  deriving DecidableEq

structure Store where
  candidates : Dict String Candidate := {}
  applyOps : Dict String ApplyOp := {}
  rollbackOps : Dict String RollbackOp := {}
  actions : List Action := []
  deriving DecidableEq

inductive StoreError
  | notFound
  | conflict (code : String)
  deriving DecidableEq

namespace Store

variable (s : Store) (id : String)

def audit (action : ActionKind) (reason : String) : Store :=
  { s with actions := s.actions++[⟨id,action,reason⟩] }

def getCandidate : Option Candidate := s.candidates.get? id

/-- `stage_candidate`, with the id it would draw: the newest pending row of the same proposal is
used again. -/
def stageCandidate (memoryId : ℕ) (sourceRevision oldContent : String) (oldMetadata : Metadata)
    (proposedContent candidateId : String) : Store × String × Candidate :=
  match s.candidates.entries.reverse.find? fun e =>
      e.2.proposes memoryId sourceRevision proposedContent with
  | some e => (s,e.1,e.2)
  | none =>
    let c : Candidate := { memoryId, sourceRevision, oldContent, oldMetadata, proposedContent }
    ({ s with candidates := s.candidates.set candidateId c }.audit candidateId .stage "proposed", candidateId,c)

def transition (expected new : CandidateStatus) (reason : String) (action : ActionKind) :
    Except StoreError (Store × Candidate) :=
  if expected = .pending && (s.applyOps.get? id).isSome then .error (.conflict "apply_in_progress")
  else match s.candidates.get? id with
    | none => .error (.conflict "candidate_status_changed")
    | some c =>
      if c.status ≠ expected then .error (.conflict "candidate_status_changed")
      else
        let c' := { c with status := new, reasonCode := reason }
        .ok ({ s with candidates := s.candidates.set id c' }.audit id action reason,c')

def beginApply (id expectedRevision : String) (targetMetadata : Metadata) :
    Except StoreError (Store × Candidate) :=
  match s.candidates.get? id with
  | none => .error .notFound
  | some c =>
    if c.status ≠ .pending then .error (.conflict "candidate_status_changed")
    else if (s.applyOps.get? id).isSome then .error (.conflict "apply_in_progress")
    else if c.sourceRevision ≠ expectedRevision then .error (.conflict "source_revision_mismatch")
    else .ok ({ s with applyOps := s.applyOps.set id { expectedRevision, targetMetadata } },c)

def applyPending : Bool :=
  (s.applyOps.get? id).any fun op => op.status = .pending

def completeApply (id reason : String) (applied : Option (String × Metadata)) :
    Except StoreError (Store × Candidate) :=
  if applied.any fun a => blank a.1 then .error (.conflict "apply_result_incomplete")
  else if !s.applyPending id then .error (.conflict "apply_intent_changed")
  else match s.candidates.get? id with
    | none => .error (.conflict "candidate_status_changed")
    | some c =>
      if c.status ≠ .pending then .error (.conflict "candidate_status_changed")
      else
        .ok ({ s with
            candidates := s.candidates.set id (c.closed reason applied)
            applyOps := s.applyOps.pop id }.audit id
          (if applied.isSome then .apply else .reject) reason,c.closed reason applied)

def listIncompleteApplies : List (String × ApplyOp) :=
  s.applyOps.entries.filter fun e => e.2.status = .pending

def markApplyBlocked (id reason : String) : Except StoreError Store :=
  match s.candidates.get? id with
  | none => .error (.conflict "candidate_status_changed")
  | some c =>
    if c.status ≠ .pending then .error (.conflict "candidate_status_changed")
    else match s.applyOps.get? id with
      | none => .error (.conflict "apply_intent_changed")
      | some op =>
        if op.status ≠ .pending then .error (.conflict "apply_intent_changed")
        else .ok ({ s with
            candidates := s.candidates.set id { c with status := .failed, reasonCode := reason }
            applyOps := s.applyOps.set id { op with status := .blocked, reasonCode := reason } }.audit
          id .apply reason)

def markApplyRecoveryRequired (id reason : String) : Except StoreError Store :=
  match s.candidates.get? id with
  | none => .error (.conflict "candidate_status_changed")
  | some c =>
    if c.status ≠ .pending then .error (.conflict "candidate_status_changed")
    else match s.applyOps.get? id with
      | none => .error (.conflict "apply_intent_changed")
      | some op =>
        if op.status ≠ .pending then .error (.conflict "apply_intent_changed")
        else .ok { s with
          candidates := s.candidates.set id { c with reasonCode := reason }
          applyOps := s.applyOps.set id { op with reasonCode := reason } }

def beginRollback (id expectedRevision : String) : Except StoreError Store :=
  match s.candidates.get? id with
  | none => .error .notFound
  | some c =>
    let applied := Canonical.pythonStrip (c.appliedRevision.getD "")
    if c.status ≠ .approved then .error (.conflict "candidate_status_changed")
    else if applied = "" || applied ≠ expectedRevision then
      .error (.conflict "source_revision_mismatch")
    else if (s.rollbackOps.get? id).isSome then .error (.conflict "rollback_in_progress")
    else .ok { s with rollbackOps := s.rollbackOps.set id { expectedRevision } }

def listIncompleteRollbacks : List (String × RollbackOp) :=
  s.rollbackOps.entries.filter fun e => e.2.status = .pending

def cancelRollback : Store :=
  { s with rollbackOps := s.rollbackOps.pop id }

def markRollbackBlocked (id reason : String) : Except StoreError Store :=
  match s.rollbackOps.get? id with
  | none => .error (.conflict "rollback_operation_changed")
  | some op =>
    if op.status ≠ .pending then .error (.conflict "rollback_operation_changed")
    else .ok { s with
      rollbackOps := s.rollbackOps.set id { op with status := .blocked, reasonCode := reason } }

def completeRollback : Except StoreError (Store × Candidate) :=
  match s.candidates.get? id with
  | none => .error (.conflict "candidate_status_changed")
  | some c =>
    if c.status ≠ .approved then .error (.conflict "candidate_status_changed")
    else if !(s.rollbackOps.get? id).any fun op => op.status = .pending then
      .error (.conflict "rollback_operation_changed")
    else
      let c' := { c with status := .rolledBack, reasonCode := "restored" }
      .ok ({ s with
          candidates := s.candidates.set id c'
          rollbackOps := s.rollbackOps.pop id }.audit id .rollback "restored",c')

end Store
end Memora.Reconsolidation

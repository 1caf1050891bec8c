import Memora.CanonicalModels

/-! Every write over several stores is a row of the journal. Its stages advance the row, failed
stages count as retries, and the repair selects open rows with retries left. The payload a write
stages in the journal, the atoms in it, and how they are bound to the canonical memory they came
from. -/
namespace Memora.WriteOps

inductive OpType
  | add | delete | batchDelete | graphReindex | replaceContent
  deriving DecidableEq

inductive OpStatus
  | pending | needsRepair | failed | completed
  deriving DecidableEq

inductive OpStep
  | started | documentIntent | documentFailed | documentsCommitted | documentIndexed
  | indexStageDegraded | atomsIndexed | atomsPartial | atomsSkipped | atomsRepaired
  | sourceStaged | sourceRejected | derivedPending | graphIndexed | graphSkipped | graphFailed
  | graphReindexed | graphSourceIneligible | graphReindexFailed
  | documentDeleteFailed | documentDeleted | graphDeleted | graphDeleteFailed | atomsDeleted
  | atomDeleteFailed | batchDeleteDerivedFailed | batchDeleteFailed
  | replacementCreated | replacementCommitted | replacementCleanupPending
  | replacementRolledBack | replacementRollbackFailed | replacementAborted
  | replacementCommitFailed | replacementAmbiguous
  | sourceMissing | sourceStale | sourceAlive | unrepairable | documentLookupDegraded
  | documentAbsent | completed
  deriving DecidableEq

structure WriteOp (π : Type*) where
  id : ℕ
  opType : OpType
  memoryId : Option ℕ := none
  status : OpStatus := .pending
  step : OpStep := .started
  payload : π
  error : Option String := none
  retryCount : ℕ := 0
  deriving DecidableEq

structure Advance (π : Type*) where
  step : OpStep
  status : OpStatus := .pending
  memoryId : Option ℕ := none
  error : Option String := none
  payloadPatch : Option (π → π) := none

variable {π : Type*}

def Advance.fails (a : Advance π) : Bool := a.error.isSome && a.status ≠ .completed

/-- `advance_op` on the row it names. -/
def WriteOp.advance (r : WriteOp π) (a : Advance π) : WriteOp π :=
  { r with
    status := a.status
    step := a.step
    memoryId := a.memoryId.or r.memoryId
    error := if a.status = .completed then none
      else (a.error.map fun e => String.ofList (e.toList.take 1000)).or r.error
    retryCount := r.retryCount+a.fails.toNat
    payload := match a.payloadPatch with
      | some patch => patch r.payload
      | none => r.payload }

/-- The rows in the order of their ids, which SQLite never reuses. -/
structure Journal (π : Type*) where
  rows : List (WriteOp π) := []
  nextId : ℕ := 1
  ordered : rows.Pairwise fun a b => a.id < b.id := by simp
  below : ∀ r ∈ rows, r.id < nextId := by simp

namespace Journal

variable (j : Journal π)

def find? (id : ℕ) : Option (WriteOp π) := j.rows.find? fun r => r.id = id

/-- The new row has the next id. -/
def startOp (opType : OpType) (payload : π) (memoryId : Option ℕ) : Journal π where
  rows := j.rows++[{ id := j.nextId, opType, memoryId, payload }]
  nextId := j.nextId+1
  ordered := by
    rw [List.pairwise_append]
    refine ⟨j.ordered,by simp,fun a ha b hb => ?_⟩
    rw [List.mem_singleton.mp hb]
    exact j.below a ha
  below := by
    intro r hr
    rcases List.mem_append.mp hr with hold | hnew
    · exact Nat.lt_succ_of_lt (j.below r hold)
    · rw [List.mem_singleton.mp hnew]
      exact Nat.lt_succ_self _

def modify (id : ℕ) (f : WriteOp π → WriteOp π) (hf : ∀ r, (f r).id = r.id) : Journal π where
  rows := j.rows.map fun r => if r.id = id then f r else r
  nextId := j.nextId
  ordered := by
    rw [List.pairwise_map]
    refine j.ordered.imp fun {a b} hab => ?_
    split <;> split <;> simpa [hf] using hab
  below := by
    intro r hr
    obtain ⟨r',hr',rfl⟩ := List.mem_map.mp hr
    have hlt := j.below r' hr'
    split
    · rwa [hf]
    · exact hlt

def advanceOp (id : ℕ) (a : Advance π) : Journal π :=
  j.modify id (·.advance a) fun _ => rfl

def markStep (id : ℕ) (step : OpStep) : Journal π :=
  j.modify id (fun r => { r with step }) fun _ => rfl

end Journal

/-- A write to the journal; a write that fails leaves it as it is. -/
inductive JournalCall (π : Type*)
  | start (opType : OpType) (payload : π) (memoryId : Option ℕ)
  | advance (id : ℕ) (a : Advance π)
  | mark (id : ℕ) (step : OpStep)

namespace Journal

def step (j : Journal π) : JournalCall π → Journal π
  | .start opType payload memoryId => j.startOp opType payload memoryId
  | .advance id a => j.advanceOp id a
  | .mark id s => j.markStep id s

def run (j : Journal π) (calls : List (JournalCall π)) : Journal π := calls.foldl step j

end Journal

/-- The condition of the query in `repair_incomplete`; the documents decide about rows whose
source was missing. -/
def WriteOp.due (documents : ℕ → Bool) (maxRetries : ℕ) (r : WriteOp π) : Bool :=
  decide (r.retryCount < maxRetries) && !(r.status = .pending && r.step = .sourceStaged) &&
    (r.status = .pending || r.status = .needsRepair ||
      (r.status = .failed && ((r.step = .sourceMissing && (r.opType = .add || r.opType = .graphReindex) &&
            r.memoryId.any documents) ||
          (r.opType = .replaceContent && r.step ≠ .replacementCommitted && r.step ≠ .replacementRolledBack))))

/-- The rows one run of `repair_incomplete` works on. -/
def Journal.selected (documents : ℕ → Bool) (maxRetries : ℕ) (j : Journal π) : List (WriteOp π) :=
  (j.rows.filter (WriteOp.due documents maxRetries)).take 25

end Memora.WriteOps

namespace Memora.WriteOps
open Canonical

inductive AtomType
  | episodic | factual | relational | preference | planned | unknown
  deriving DecidableEq

/-- A memory atom. `grounded` is `has_user_source_evidence` of its source evidence. -/
structure Atom where
  content : String
  atomType : AtomType := .unknown
  sessionId : Option String := none
  personaId : Option String := none
  parentMemoryId : ℕ := 0
  parentRevision : Option String := none
  parentScopeKey : Option String := none
  parentPrivacyLevel : Option String := none
  grounded : Bool := true
  deriving DecidableEq

def Atom.fact (a : Atom) : String × AtomType := (a.content,a.atomType)

/-- The lifecycle fields `_replace_content` keeps in the journal. -/
structure StatusFields where
  memoryStatus : Option JsonField := none
  status : Option JsonField := none
  statusChangedAt : Option String := none
  deriving DecidableEq

structure Payload where
  contentPreview : String := ""
  contentDigest : String := ""
  metadata : Metadata := {}
  atoms : List Atom := []
  failedAtoms : List Atom := []
  pendingDocId : Option String := none
  indexesPending : Bool := false
  memoryIds : List ℕ := []
  oldId : Option ℕ := none
  newId : Option ℕ := none
  previousStatus : StatusFields := {}
  replacementStatus : StatusFields := {}
  deriving DecidableEq

/-- A canonical memory as `get_memory` returns it, with its `memory_revision`. -/
structure Memory where
  id : ℕ
  docId : String
  text : String
  metadata : Metadata
  revision : String
  deriving DecidableEq

def orText (a b : Option String) : Option String :=
  if a.any (· ≠ "") then a else b

structure SourceValues where
  memoryId : ℕ
  revision : String
  scopeKey : String
  privacyLevel : String
  sessionId : Option String
  personaId : Option String
  deriving DecidableEq

variable (atoms : List Atom) (memory : Option Memory) (fallback : Metadata)

def canonicalSourceValues :
    Except String SourceValues :=
  match memory with
  | none => .error "source_not_found"
  | some m =>
    if m.id = 0 then .error "source_not_found"
    else if m.revision = "" then .error "source_revision_unavailable"
    else
      let sessionId := m.metadata.sessionId.or fallback.sessionId
      let personaId := m.metadata.personaId.or fallback.personaId
      match orText (m.metadata.scopeKey.or fallback.scopeKey) (orText sessionId personaId) with
      | none => .error "source_scope_missing"
      | some scopeKey =>
        match m.metadata.privacyLevel.or fallback.privacyLevel with
        | none => .error "source_privacy_missing"
        | some privacyLevel =>
          if privacyLevel ∈ ["public","shared","confidential"] then
            .ok { memoryId := m.id, revision := m.revision, scopeKey, privacyLevel, sessionId, personaId }
          else .error "source_privacy_missing"

def Atom.bind (v : SourceValues) (a : Atom) : Atom :=
  { a with
    parentMemoryId := v.memoryId
    parentRevision := some v.revision
    parentScopeKey := some v.scopeKey
    parentPrivacyLevel := some v.privacyLevel
    sessionId := v.sessionId
    personaId := v.personaId }

def bindAtomsToCanonicalSource : Except String (List Atom) :=
  (canonicalSourceValues memory fallback).map fun v => atoms.map (Atom.bind v)

def hasText (s : Option String) : Bool := s.any (· ≠ "")

def Atom.sourced (a : Atom) : Bool :=
  hasText a.parentRevision || hasText a.parentScopeKey || hasText a.parentPrivacyLevel

/-- The reason `validate_bound_atoms_match_canonical_source` raises for one atom. -/
def Atom.mismatch (v : SourceValues) (a : Atom) : Option String :=
  if !(hasText a.parentRevision && hasText a.parentScopeKey && hasText a.parentPrivacyLevel) then
    some "source_provenance_required"
  else if a.parentMemoryId ≠ v.memoryId then some "source_not_found"
  else if a.parentRevision ≠ some v.revision then some "source_revision_mismatch"
  else if a.parentScopeKey ≠ some v.scopeKey then some "source_scope_mismatch"
  else if a.parentPrivacyLevel ≠ some v.privacyLevel then some "source_privacy_mismatch"
  else if a.sessionId ≠ v.sessionId ∨ a.personaId ≠ v.personaId then some "source_scope_mismatch"
  else none

/-- `validate_bound_atoms_match_canonical_source`; the reason it raises, if it does. -/
def validateBoundAtoms :
    Option String :=
  if !atoms.any Atom.sourced then none
  else match canonicalSourceValues memory fallback with
    | .error reason => some reason
    | .ok v => atoms.findSome? (Atom.mismatch v)

def deserializeAtomFromRepair (memoryId : ℕ) (sessionId personaId : Option String) (a : Atom) :
    Option Atom :=
  if !a.grounded || pythonStrip a.content = "" then none
  else some { a with
    parentMemoryId := memoryId
    sessionId := orText a.sessionId sessionId
    personaId := orText a.personaId personaId }

def Atom.repairKey (a : Atom) : String × AtomType × Option String × Option String :=
  (a.content,a.atomType,a.sessionId,a.personaId)

def contentPreviewLimit : ℕ := 500

def contentPreview (content : String) : String :=
  String.ofList (content.toList.take contentPreviewLimit)

/-- The digest is `ledger_content_digest`. -/
def canConvergeStaleSource (digest : String → String) (p : Payload) (content : String)
    (m : Metadata) : Bool :=
  if p.contentPreview = "" then false
  else if p.contentDigest ≠ "" ∧ digest content ≠ p.contentDigest then false
  else if p.contentDigest = "" ∧
      (contentPreviewLimit ≤ p.contentPreview.length ∨ content ≠ p.contentPreview) then false
  else (p.metadata.scopeKey.isNone || m.scopeKey = p.metadata.scopeKey) &&
    (p.metadata.privacyLevel.isNone || m.privacyLevel = p.metadata.privacyLevel)

def sqliteBatchSize : ℕ := 500

/-- The batches that `insert_many` writes, each in a transaction of its own. -/
def batches : List (List Atom) :=
  (List.range ((atoms.length+sqliteBatchSize - 1) / sqliteBatchSize)).map fun i =>
    (atoms.drop (i * sqliteBatchSize)).take sqliteBatchSize

/-- The batches that commit until one fails, and whether all did. An atom without user
evidence fails its batch. -/
def commitBatches (fails : ℕ → Bool) (bs : List (List Atom)) : List (List Atom) × Bool :=
  match bs with
  | [] => ([],true)
  | b::bs =>
    if fails 0 || !b.all Atom.grounded then ([],false)
    else
      let r := commitBatches (fun i => fails (i+1)) bs
      (b::r.1,r.2)

def insertMany (fails : ℕ → Bool) (atoms : List Atom) : List (List Atom) × Bool :=
  commitBatches fails (batches atoms)

end Memora.WriteOps

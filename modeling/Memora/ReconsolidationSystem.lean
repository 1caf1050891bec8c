import Memora.ReconsolidationManager
import Memora.RunLaws

/-! Calls stop at every await: between the two queries of a load, before and after the transaction
of an update, before the transaction that closes an intent. Between two stops the memory may be
edited, and the process may die. The recovery passes run at startup, when no call is served. -/
namespace Memora.Reconsolidation
open Engine

inductive Purpose
  | apply | rollback | recoverApply | recoverRollback
  deriving DecidableEq

def Purpose.applies : Purpose → Bool
  | .apply | .recoverApply => true
  | .rollback | .recoverRollback => false

def Purpose.recovers : Purpose → Bool
  | .recoverApply | .recoverRollback => true
  | .apply | .rollback => false

/-- What a load is for: the checks before a write, the read of `update_memory`, the checks after
the write. -/
inductive Reading
  | visit | update | verify
  deriving DecidableEq

/-- `load_canonical_memory` between its queries: nothing yet, or the document without its time
stamps. -/
inductive Load
  | document
  | stamps (document : MemoryRow)
  deriving DecidableEq

inductive Closing
  | reject (reason : String)
  | approve (reason revision : String) (metadata : Metadata)
  | recoveryRequired
  | blockApply (reason : String)
  | cancel
  | blockRollback (reason : String)
  | complete
  deriving DecidableEq

inductive Stage
  | loading (reading : Reading) (load : Load)
  | beginning
  | writing (g : GuardedWrite)
  | refreshing
  | closing (c : Closing)

/-- A call of `apply_candidate` or `rollback_candidate`, or a recovery pass at one intent, with
the candidate it has read, the revision that guards its update and the metadata it writes. -/
structure Job where
  purpose : Purpose
  id : String
  candidate : Candidate
  expected : String
  target : Metadata
  stage : Stage

/-- What a step takes from outside: whether a query fails, the retriever can write, the update
raises after its commit and the derived data follow, and the clock's readings. -/
structure Input where
  fails : Bool := false
  available : Bool := true
  raises : Bool := false
  refreshes : Bool := true
  now : ℚ := 0
  updatedAt : Stamp

def stampedBy (document : MemoryRow) (row : Option MemoryRow) : MemoryRow :=
  let stamps := row.getD document
  { document with createdAt := stamps.createdAt, updatedAt := stamps.updatedAt }

inductive Decision
  | close (c : Closing)
  | update (target : Metadata)
  | refresh

variable (env : Env)

/-- What `recover_incomplete_applies` does with an intent. -/
def recoverApplyDecision (c : Candidate) (expected : String) (target : Metadata) :
    Option MemoryRow → Decision
  | none => .close (.blockApply "source_not_found")
  | some m =>
    let target' := applyTargetMetadata target
    if target.isEmpty then .close (.blockApply "apply_target_missing")
    else if m.text = c.proposedContent && applyMetadataMatches m.metadata target' then
      if m.revision env = expected then .close (.blockApply "apply_revision_not_advanced")
      else .close (.approve "recovered_applied" (m.revision env) m.metadata)
    else if m.revision env ≠ expected || m.text ≠ c.oldContent ||
        !metadataMatches m.metadata c.oldMetadata then
      .close (.blockApply "source_revision_mismatch")
    else .update target'

/-- What `recover_incomplete_rollbacks` does with an intent. -/
def recoverRollbackDecision (c : Candidate) (expected : String) (memory : Option MemoryRow) :
    Decision :=
  let revision := loadedRevision env memory
  if c.status ≠ .approved then .close (.blockRollback "candidate_status_changed")
  else if revision = "" then .close (.blockRollback "source_not_found")
  else match c.appliedMetadata with
    | none => .close (.blockRollback "source_revision_mismatch")
    | some metadata =>
      if c.appliedRevision.getD "" ≠ expected then
        .close (.blockRollback "source_revision_mismatch")
      else if revision = expected then
        if memoryContent memory ≠ c.proposedContent ||
            !metadataMatches (memoryMetadata memory) metadata then
          .close (.blockRollback "source_revision_mismatch")
        else .update c.oldMetadata
      else if memoryContent memory = c.oldContent &&
          metadataMatches (memoryMetadata memory) c.oldMetadata then .refresh
      else .close (.blockRollback "source_revision_mismatch")

namespace Job

def content (j : Job) : String :=
  if j.purpose.applies then j.candidate.proposedContent else j.candidate.oldContent

def failed (j : Job) (reason : String) : Closing :=
  match j.purpose with
  | .apply | .recoverApply => .reject reason
  | .rollback => .cancel
  | .recoverRollback => .blockRollback reason

def decided (j : Job) : Decision → Job
  | .close c => { j with stage := .closing c }
  | .update target => { j with target := target, stage := .loading .update .document }
  | .refresh => { j with stage := .refreshing }

/-- The call after the load its checks rest on; none when it has answered. -/
def visited (env : Env) (j : Job) (memory : Option MemoryRow) : Option Job :=
  match j.purpose with
  | .apply => none
  | .rollback => match rollbackCheck env j.candidate memory with
    | .error _ => none
    | .ok applied => some { j with expected := applied, stage := .beginning }
  | .recoverApply => some (j.decided (recoverApplyDecision env j.candidate j.expected j.target memory))
  | .recoverRollback => some (j.decided (recoverRollbackDecision env j.candidate j.expected memory))

/-- The call after the read of `update_memory`. -/
def prepared (env : Env) (j : Job) (now : ℚ) : Option MemoryRow → Job
  | none => { j with stage := .closing (j.failed "source_not_found") }
  | some m =>
    match prepareContent env m.metadata (m.revision env) j.content (some j.target) j.expected
        now with
    | .error e => { j with stage := .closing (j.failed e.code) }
    | .ok g => { j with stage := .writing g }

def verified (env : Env) (j : Job) (memory : Option MemoryRow) : Job :=
  if j.purpose.applies then
    if applyVerified env j.candidate j.target memory then
      let reason := if j.purpose.recovers then "recovered_applied" else "applied"
      { j with stage := .closing (.approve reason (loadedRevision env memory) (memoryMetadata memory)) }
    else { j with stage := .closing .recoveryRequired }
  else if rollbackVerified env j.candidate j.expected memory then { j with stage := .refreshing }
  else { j with stage := .closing (.blockRollback "rollback_result_unverified") }

end Job

def Closing.run (s : Store) (id : String) : Closing → Except StoreError Store
  | .reject reason => (s.completeApply id reason none).map Prod.fst
  | .approve reason revision metadata =>
    (s.completeApply id reason (some (revision,metadata))).map Prod.fst
  | .recoveryRequired => s.markApplyRecoveryRequired id "apply_result_unverified"
  | .blockApply reason => s.markApplyBlocked id reason
  | .cancel => .ok (s.cancelRollback id)
  | .blockRollback reason => s.markRollbackBlocked id reason
  | .complete => (s.completeRollback id).map Prod.fst

inductive Outcome
  | goes (j : Job)
  | wrote (row : MemoryRow) (j : Option Job)
  | stored (s : Store) (j : Option Job)
  | ended

def Job.loaded (x : Input) (j : Job) (memory : Option MemoryRow) : Reading → Outcome
  | .visit => match j.visited env memory with
    | none => .ended
    | some j' => .goes j'
  | .update => .goes (j.prepared env x.now memory)
  | .verify => .goes (j.verified env memory)

def Job.advance (w : World) (x : Input) (j : Job) : Outcome :=
  let row := w.memories.get? j.candidate.memoryId
  match j.stage with
  | .loading reading .document =>
    match if x.fails then none else row with
    | none => j.loaded env x none reading
    | some m => .goes { j with stage := .loading reading (.stamps m) }
  | .loading reading (.stamps document) =>
    j.loaded env x (if x.fails then none else some (stampedBy document row)) reading
  | .beginning => match w.store.beginRollback j.id j.expected with
    | .error _ => .ended
    | .ok s => .stored s (some { j with stage := .loading .update .document })
  | .writing g =>
    match row.bind fun m => if x.available then
        updateContentIfRevision m j.content g.metadata j.expected g.dropped x.updatedAt.text
      else none with
    | none => .goes { j with stage := .closing (j.failed UpdateReason.sourceRevisionMismatch.code) }
    | some m => .wrote m (if x.raises then none
      else some { j with stage := .loading .verify .document })
  | .refreshing => if x.refreshes then .goes { j with stage := .closing .complete } else .ended
  | .closing c => match c.run w.store j.id with
    | .error _ => .ended
    | .ok s => .stored s none

/-- `maybe_propose` on its way: between the queries of its load, or waiting for the model. -/
inductive Progress
  | document
  | stamps (document : MemoryRow)
  | loaded (memory : Option MemoryRow)

structure Proposal where
  memoryId : ℕ
  progress : Progress := .document

/-- The stores and the calls, with every row a memory has ever had and the candidates whose
application has committed. -/
structure System where
  world : World := {}
  proposals : List Proposal := []
  jobs : List Job := []
  held : List (ℕ × MemoryRow) := []
  committed : List String := []

/-- A step: an edit, a call of the manager, a call going on to its next stop, a call that dies
there, and a crash. -/
inductive Step
  | edit (memoryId : ℕ) (row : MemoryRow) (updatedAt : Stamp)
  | remove (memoryId : ℕ)
  | propose (memoryId : ℕ)
  | load (i : ℕ) (x : Input)
  | stage (i : ℕ) (cfg : Settings) (context : String) (answer : Option String)
      (candidateId : String)
  | apply (id : String) (now : ℚ)
  | rollback (id : String)
  | reject (id : String) (reason : String)
  | recoverApply (id : String)
  | recoverRollback (id : String)
  | advance (i : ℕ) (x : Input)
  | die (i : ℕ)
  | crash

namespace System

variable (s : System)

def setMemory (memoryId : ℕ) (row : MemoryRow) : System :=
  { s with
    world := { s.world with memories := s.world.memories.set memoryId row }
    held := s.held++[(memoryId,row)] }

def setStore (store : Store) : System :=
  { s with world := { s.world with store := store } }

def serving : Bool := s.jobs.all fun j => !j.purpose.recovers

def Proposal.load (w : World) (x : Input) (p : Proposal) : Proposal :=
  let row := w.memories.get? p.memoryId
  match p.progress with
  | .document => match if x.fails then none else row with
    | none => { p with progress := .loaded none }
    | some m => { p with progress := .stamps m }
  | .stamps document =>
    { p with progress := .loaded (if x.fails then none else some (stampedBy document row)) }
  | .loaded memory => { p with progress := .loaded memory }

def put (jobs : List Job) (i : ℕ) : Option Job → List Job
  | none => jobs.eraseIdx i
  | some j => jobs.set i j

def proceed (i : ℕ) (j : Job) : Outcome → System
  | .goes j' => { s with jobs := put s.jobs i (some j') }
  | .wrote row j' =>
    { s.setMemory j.candidate.memoryId row with
      jobs := put s.jobs i j'
      committed := if j.purpose.applies then s.committed++[j.id] else s.committed }
  | .stored store j' => { s.setStore store with jobs := put s.jobs i j' }
  | .ended => { s with jobs := put s.jobs i none }

/-- `apply_candidate` up to its first stop after the intent. -/
def startApply (env : Env) (s : System) (id : String) (now : ℚ) : System :=
  match Reconsolidation.startApply env s.world.store id now with
  | .error _ => s
  | .ok (store,c,target) =>
    { s.setStore store with jobs := s.jobs++[{
        purpose := .apply, id := id, candidate := c, expected := c.sourceRevision,
        target := target, stage := .loading .update .document }] }

/-- `rollback_candidate` up to its load. -/
def startRollback (id : String) : System :=
  match s.world.store.getCandidate id with
  | none => s
  | some c =>
    if c.status ≠ .approved then s
    else { s with jobs := s.jobs++[{
        purpose := .rollback, id := id, candidate := c, expected := "",
        target := c.oldMetadata, stage := .loading .visit .document }] }

def reject (id reason : String) : System :=
  match s.world.store.getCandidate id with
  | none => s
  | some c =>
    if c.status ≠ .pending then s
    else match s.world.store.transition id .pending .rejected reason .reject with
      | .error _ => s
      | .ok r => s.setStore r.1

/-- `recover_incomplete_applies` at one of its intents; marking an unknown candidate raises. -/
def startRecoverApply (id : String) : System :=
  match s.world.store.listIncompleteApplies.find? fun e => e.1 = id with
  | none => s
  | some e => match s.world.store.getCandidate id with
    | none => s
    | some c => { s with jobs := s.jobs++[{
        purpose := .recoverApply, id := id, candidate := c, expected := e.2.expectedRevision,
        target := e.2.targetMetadata, stage := .loading .visit .document }] }

/-- `recover_incomplete_rollbacks` at one of its intents; that of an unknown candidate is
blocked. -/
def startRecoverRollback (id : String) : System :=
  match s.world.store.listIncompleteRollbacks.find? fun e => e.1 = id with
  | none => s
  | some e => match s.world.store.getCandidate id with
    | none => match s.world.store.markRollbackBlocked id "candidate_status_changed" with
      | .error _ => s
      | .ok store => s.setStore store
    | some c => { s with jobs := s.jobs++[{
        purpose := .recoverRollback, id := id, candidate := c, expected := e.2.expectedRevision,
        target := c.oldMetadata, stage := .loading .visit .document }] }

end System

def step (s : System) : Step → System
  | .edit memoryId row updatedAt =>
    s.setMemory memoryId { row with updatedAt := some updatedAt.text }
  | .remove memoryId =>
    { s with world := { s.world with memories := s.world.memories.pop memoryId } }
  | .propose memoryId => { s with proposals := s.proposals++[{ memoryId }] }
  | .load i x => { s with proposals := s.proposals.modify i (System.Proposal.load s.world x) }
  | .stage i cfg context answer candidateId => match s.proposals[i]? with
    | some ⟨memoryId,.loaded memory⟩ =>
      let s' := { s with proposals := s.proposals.eraseIdx i }
      match maybePropose env cfg s.world.store memoryId memory context answer candidateId with
      | none => s'
      | some r => s'.setStore r.1
    | _ => s
  | .apply id now => if s.serving then s.startApply env id now else s
  | .rollback id => if s.serving then s.startRollback id else s
  | .reject id reason => if s.serving then s.reject id reason else s
  | .recoverApply id => if s.jobs.isEmpty then s.startRecoverApply id else s
  | .recoverRollback id => if s.jobs.isEmpty then s.startRecoverRollback id else s
  | .advance i x => match s.jobs[i]? with
    | none => s
    | some j => s.proceed i j (j.advance env s.world x)
  | .die i => { s with jobs := s.jobs.eraseIdx i }
  | .crash => { s with proposals := [], jobs := [] }

def run (s : System) (steps : List Step) : System := steps.foldl (step env) s

def System.initial (memories : Dict ℕ MemoryRow) : System :=
  { world := { memories := memories }, held := memories.entries }

end Memora.Reconsolidation

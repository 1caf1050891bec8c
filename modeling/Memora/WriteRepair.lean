import Memora.WriteModels

/-! An add, a delete and a replacement as the effects they have, in order. A record of outcomes says
which stages fail; what follows a failure is decided as in the code. `_repair_add` reads the journal
row, the memory and its atoms, and does the stages that are missing. A repair may die at any point,
and a journal write may get lost. -/
namespace Memora.WriteOps
open Canonical

inductive Effect
  | advance (a : Advance Payload)
  | insertDocument (m : Memory)
  | storeAtoms (atoms : List Atom)

def Effect.advance? : Effect → Option (Advance Payload)
  | .advance a => some a
  | .insertDocument _ | .storeAtoms _ => none

def advances (es : List Effect) : List (Advance Payload) := es.filterMap Effect.advance?

inductive GraphOutcome
  | absent
  | indexed
  | ineligible (reason : String)
  | failed (error : String)
  deriving DecidableEq

/-- An add: its arguments after `prepare_atoms_for_write`, the row the documents table gives
it, and how each stage goes. -/
structure AddRun where
  content : String
  metadata : Metadata
  atoms : List Atom
  summarySourceStaged : Bool := false
  /-- Whether the retriever has the staged index ports. -/
  ports : Bool := true
  docId : String
  /-- The text is embedded, which the staged ports do before the insert. -/
  embeds : Bool := true
  /-- The row that is committed; none when the insert fails. -/
  inserted : Option ℕ
  /-- The owner of the idempotency key, looked up after a failed insert. -/
  owner : Option ℕ := none
  revision : String
  vectorFails : Bool := false
  ftsFails : Bool := false
  /-- The atom store is there and atoms are enabled. -/
  atomStore : Bool := true
  /-- The read before the atoms are bound succeeds. -/
  readable : Bool := true
  batchFails : ℕ → Bool := fun _ => false
  singleFails : ℕ → Bool := fun _ => false
  graph : GraphOutcome := .absent

namespace AddRun

variable (r : AddRun)

def staged : Bool := r.summarySourceStaged || r.metadata.replacementPending

variable (id : ℕ)

def memory : Memory where
  id := id
  docId := r.docId
  text := r.content
  metadata := r.metadata
  revision := r.revision

variable (digest : String → String)

/-- The payload `start_op` records. -/
def payload (r : AddRun) : Payload where
  contentPreview := contentPreview r.content
  contentDigest := digest r.content
  metadata := r.metadata
  atoms := r.atoms

/-- The vector or the keyword index fails after the row is committed. -/
def degraded : Bool := r.ports && (r.vectorFails || r.ftsFails)

def openStatus (needsRepair : Bool) : OpStatus := if needsRepair then .needsRepair else .pending

/-- `_write_document_stage` after the row is committed. -/
def documentStage (r : AddRun) (id : ℕ) : List Effect :=
  [.insertDocument (r.memory id), .advance
      { step := .documentsCommitted
        memoryId := some id
        payloadPatch := some fun p => { p with
          contentDigest := digest r.content
          contentPreview := contentPreview r.content
          indexesPending := r.ports } },
    if !r.ports then .advance { step := .documentIndexed, memoryId := some id }
    else .advance
      { step := if r.degraded then .indexStageDegraded else .documentIndexed
        status := openStatus r.degraded
        memoryId := some id
        error := if r.degraded then some "index_stage_degraded" else none
        payloadPatch := some fun p => { p with indexesPending := r.degraded } }]

def storeSingles (fails : ℕ → Bool) : List Atom → List Effect × List Atom
  | [] => ([],[])
  | a::atoms =>
    let r := storeSingles (fun i => fails (i+1)) atoms
    if fails 0 || !a.grounded then (r.1,a::r.2) else (.storeAtoms [a]::r.1,r.2)

/-- What the atom stage stores, and the atoms it could not store. The batches that committed
keep their ids; the others are stored one by one. -/
def storeBound (bound : List Atom) : List Effect × List Atom :=
  let done := insertMany r.batchFails bound
  if done.2 then (done.1.map .storeAtoms,[])
  else
    let rest := storeSingles r.singleFails (bound.drop done.1.flatten.length)
    (done.1.map .storeAtoms++rest.1,rest.2)

def storedAtoms : List Effect × List Atom :=
  match bindAtomsToCanonicalSource r.atoms (if r.readable then some (r.memory id) else none)
      r.metadata with
  | .error _ => ([],r.atoms)
  | .ok bound => r.storeBound bound

def writesAtoms : Bool := r.atomStore && !r.atoms.isEmpty

def failedAtoms : List Atom :=
  if r.writesAtoms then (r.storedAtoms id).2 else []

def atomStage : List Effect :=
  if r.writesAtoms then
    (r.storedAtoms id).1++[if (r.storedAtoms id).2 = [] then
        .advance { step := .atomsIndexed, status := openStatus r.degraded, memoryId := some id }
      else .advance
        { step := .atomsPartial
          status := .needsRepair
          memoryId := some id
          error := some "atom insert failed"
          payloadPatch := some fun p => { p with failedAtoms := (r.storedAtoms id).2 } }]
  else
    [.advance { step := .atomsSkipped, status := openStatus r.degraded, memoryId := some id }]

def needsRepair : Bool := r.degraded || !(r.failedAtoms id).isEmpty

def graphFails : Bool :=
  !r.staged && match r.graph with
    | .failed _ => true
    | _ => false

def graphStage : Effect :=
  if r.staged then
    .advance { step := .sourceStaged, status := openStatus (r.needsRepair id), memoryId := some id }
  else match r.graph with
    | .absent | .ineligible _ => .advance
        { step := .graphSkipped, status := openStatus (r.needsRepair id), memoryId := some id }
    | .indexed => .advance
        { step := .graphIndexed, status := openStatus (r.needsRepair id), memoryId := some id }
    | .failed error => .advance
        { step := .graphFailed, status := .needsRepair, memoryId := some id, error := some error }

def closing : List Effect :=
  if r.needsRepair id || r.graphFails || r.staged then []
  else [.advance { step := .completed, status := .completed, memoryId := some id }]

def row : Option ℕ := if r.ports && !r.embeds then none else r.inserted

/-- `_add_memory_unchecked` after `start_op`. -/
def effects (r : AddRun) : List Effect :=
  (if r.ports && r.embeds then
    [.advance
      { step := .documentIntent
        payloadPatch := some fun p => { p with pendingDocId := some r.docId } }]
  else []) ++
  match r.row with
  | none => match r.owner with
    | some id => [.advance { step := .completed, status := .completed, memoryId := some id }]
    | none => [.advance
        { step := .documentFailed, status := .failed, error := some "canonical_write_failed" }]
  | some id => r.documentStage digest id++r.atomStage id++[r.graphStage id]++r.closing id

end AddRun

structure DeleteRun where
  memoryId : ℕ
  /-- There is a retriever, and it deletes the row or raises. -/
  retriever : Bool := true
  raises : Bool := false
  deleted : Bool := true
  graphFails : Option String := none
  atomsFail : Option String := none

/-- `delete_memory` after `start_op`, with `_delete_sub_resources`. -/
def DeleteRun.effects (r : DeleteRun) : List (Advance Payload) :=
  if !r.retriever then
    [{ step := .documentDeleteFailed, status := .failed,
       error := some "hybrid retriever not initialized" }]
  else if r.raises then []
  else if !r.deleted then
    [{ step := .documentDeleteFailed, status := .failed,
       error := some "document/vector delete failed" }]
  else
    [{ step := .documentDeleted, memoryId := some r.memoryId },
      match r.graphFails with
      | none => { step := .graphDeleted, memoryId := some r.memoryId }
      | some error =>
        { step := .graphDeleteFailed, status := .needsRepair, memoryId := some r.memoryId,
          error := some error },
      match r.atomsFail with
      | none => { step := .atomsDeleted, memoryId := some r.memoryId }
      | some error =>
        { step := .atomDeleteFailed, status := .needsRepair, memoryId := some r.memoryId,
          error := some error }] ++
    if r.graphFails.isSome || r.atomsFail.isSome then []
    else [{ step := .completed, status := .completed, memoryId := some r.memoryId }]

/-- How `_replace_content` ends after it opened its operation. -/
inductive ReplaceEnd
  /-- The new row could not be written or shown. -/
  | aborted (created : Option ℕ)
  /-- The old row is still there and the new one is taken back, or could not be. -/
  | rolledBack (newId : ℕ)
  | rollbackFailed (newId : ℕ)
  /-- The old row is gone; its derived data are cleaned up, or are not. -/
  | committed (newId : ℕ)
  | cleanupPending (newId : ℕ)

/-- The advances of the operation of `_replace_content` itself. -/
def ReplaceEnd.effects (oldId : ℕ) (r : ReplaceEnd) : List (Advance Payload) :=
  let created := fun newId : ℕ =>
    { step := OpStep.replacementCreated
      memoryId := some newId
      payloadPatch := some fun p : Payload => { p with newId := some newId } : Advance Payload }
  match r with
  | .aborted newId => (newId.map created).toList++[{
      step := .replacementAborted, status := .needsRepair, error := some "content_replace_failed" }]
  | .rolledBack newId => [created newId,
      { step := .replacementRolledBack, status := .failed, memoryId := some oldId,
        error := some "content_replace_failed" }]
  | .rollbackFailed newId => [created newId,
      { step := .replacementRollbackFailed, status := .needsRepair, memoryId := some oldId,
        error := some "content_replace_compensation_failed" }]
  | .committed newId => [created newId,
      { step := .replacementCommitted, status := .completed, memoryId := some newId }]
  | .cleanupPending newId => [created newId,
      { step := .replacementCleanupPending, status := .needsRepair, memoryId := some newId,
        error := some "content_replace_cleanup_failed" }]

end Memora.WriteOps

namespace Memora.WriteOps
open Canonical

structure AddState where
  op : WriteOp Payload
  memory : Option Memory := none
  atoms : List Atom := []

namespace AddState

def apply (s : AddState) : Effect → AddState
  | .advance a => { s with op := s.op.advance a }
  | .insertDocument m => { s with memory := some m }
  | .storeAtoms atoms => { s with atoms := s.atoms++atoms }

def applyAll (s : AddState) (es : List Effect) : AddState := es.foldl apply s

end AddState

/-- What may happen of a list of effects: they happen in order, the journal may lose any
advance, and the process may die at any point. -/
inductive Happens : List Effect → List Effect → Prop
  | died (es : List Effect) : Happens es []
  | done {e : Effect} {es es' : List Effect} : Happens es es' → Happens (e::es) (e::es')
  | lost {a : Advance Payload} {es es' : List Effect} :
      Happens es es' → Happens (.advance a::es) es'

inductive CallbackOutcome
  | returns (ok : Bool)
  | raises
  deriving DecidableEq

structure RepairRun where
  digest : String → String
  /-- The query for the row of the intent succeeds. -/
  lookup : Bool := true
  hasGetMemory : Bool := true
  readable : Bool := true
  indexes : CallbackOutcome := .returns true
  atomStore : Bool := true
  atomsReadable : Bool := true
  batchFails : ℕ → Bool := fun _ => false
  graph : GraphOutcome := .absent

namespace RepairRun

variable (r : RepairRun) (s : AddState)

/-- `repair_incomplete` after an exception: the step of the row it selected. -/
def raised : List Effect :=
  [.advance { step := s.op.step, status := .needsRepair, error := some "write_repair_failed" }]

def resolvePendingAddDocument : List Effect × Option ℕ :=
  if s.op.payload.pendingDocId.all (· = "") then
    ([.advance
      { step := .unrepairable, status := .failed,
        error := some "missing memory_id for add repair" }],none)
  else if !r.lookup then
    ([.advance
      { step := .documentLookupDegraded, status := .needsRepair,
        error := some "pending_document_lookup_failed" }],none)
  else match s.memory.filter fun m => some m.docId = s.op.payload.pendingDocId with
    | none =>
      ([.advance
        { step := .documentAbsent, status := .failed,
          error := some "pending_document_missing" }],none)
    | some m =>
      ([.advance
        { step := .documentsCommitted
          memoryId := some m.id
          payloadPatch := some fun p => { p with indexesPending := true } }],some m.id)

def stagedAtoms (p : Payload) (memory : Memory) : Except String (List Atom) :=
  let staged := if p.failedAtoms = [] then p.atoms else p.failedAtoms
  let atoms := staged.filterMap (deserializeAtomFromRepair memory.id memory.metadata.sessionId
    memory.metadata.personaId)
  if !atoms.isEmpty && !atoms.any Atom.sourced then
    bindAtomsToCanonicalSource atoms (some memory) memory.metadata
  else .ok atoms

inductive AtomRefusal
  | stale (reason : String)
  | raises

/-- The atoms to repair, bound again where only metadata moved on. -/
def repairAtoms (p : Payload) (memory : Memory) : Except AtomRefusal (List Atom) :=
  match stagedAtoms p memory with
  | .error _ => .error .raises
  | .ok atoms =>
    match validateBoundAtoms atoms (some memory) memory.metadata with
    | none => .ok atoms
    | some reason =>
      if !canConvergeStaleSource r.digest p memory.text memory.metadata then
        .error (.stale reason)
      else if atoms.isEmpty then .ok atoms
      else match bindAtomsToCanonicalSource atoms (some memory) memory.metadata with
        | .error _ => .error .raises
        | .ok bound => .ok bound

/-- `_repair_source_atoms`: the atoms it inserts. -/
def missingAtoms (p : Payload) (stored atoms : List Atom) : List Atom :=
  if p.failedAtoms ≠ [] then
    atoms.filter fun a => !(stored.map Atom.repairKey).contains a.repairKey
  else if stored = [] then atoms
  else []

variable (memory : Memory)

/-- None is an exception. -/
def deriveGraphStage : Option (Advance Payload) :=
  if pythonStrip memory.text = "" then
    some { step := .graphSkipped, memoryId := some memory.id }
  else match r.graph with
    | .absent => some { step := .graphSkipped, memoryId := some memory.id }
    | .indexed => some { step := .graphIndexed, memoryId := some memory.id }
    | .ineligible _ => some
      { step := .graphSkipped, status := .completed, memoryId := some memory.id }
    | .failed _ => none

/-- `_repair_add` after its atoms. -/
def afterAtoms (raised : List Effect) : List Effect :=
  if !sourceAcceptanceAllowsDerivation memory.metadata then
    [.advance { step := .sourceStaged, memoryId := some memory.id }]
  else match r.deriveGraphStage memory with
    | none => raised
    | some a =>
      [.advance a,.advance { step := .completed, status := .completed, memoryId := some memory.id }]

def repairFrom (raised : List Effect) :
    List Effect :=
  match r.repairAtoms s.op.payload memory with
  | .error .raises => raised
  | .error (.stale reason) =>
    [.advance { step := .sourceStale, status := .needsRepair, memoryId := some memory.id,
                error := some reason }]
  | .ok atoms =>
    if r.atomStore && !atoms.isEmpty then
      if !r.atomsReadable then raised
      else
        let done := insertMany r.batchFails (missingAtoms s.op.payload s.atoms atoms)
        done.1.map .storeAtoms ++
          if !done.2 then raised
          else .advance { step := .atomsRepaired, memoryId := some memory.id } :: r.afterAtoms memory raised
    else r.afterAtoms memory raised

def repairMemory (id : ℕ) (indexesPending : Bool) (raised : List Effect) : List Effect :=
  if !r.hasGetMemory then
    [.advance { step := .unrepairable, status := .failed, memoryId := some id,
                error := some "get_memory callback not available" }]
  else match if r.readable then s.memory.filter (·.id = id) else none with
    | none =>
      [.advance { step := .sourceMissing, status := .failed, memoryId := some id,
                  error := some "source document missing" }]
    | some memory =>
      if !indexesPending then r.repairFrom s memory raised
      else match r.indexes with
        | .raises => raised
        | .returns false =>
          [.advance { step := .indexStageDegraded, status := .needsRepair, memoryId := some id,
                      error := some "index_stage_degraded" }]
        | .returns true =>
          .advance
            { step := .documentIndexed
              memoryId := some id
              payloadPatch := some fun p => { p with indexesPending := false } } ::
            r.repairFrom s memory raised

/-- `raised` is what its caller does after an exception. -/
def repairAdd (raised : List Effect) : List Effect :=
  match s.op.memoryId with
  | some id => r.repairMemory s id s.op.payload.indexesPending raised
  | none =>
    match r.resolvePendingAddDocument s with
    | (es,none) => es
    | (es,some id) => es++r.repairMemory s id true raised

def repairIncomplete : List Effect := r.repairAdd s (raised s)

def finalizeAddDerivation (id : ℕ) : List Effect :=
  r.repairMemory s id s.op.payload.indexesPending
    [.advance { step := .graphFailed, status := .needsRepair, memoryId := some id,
                error := some "graph_reindex_failed" }]

end RepairRun

end Memora.WriteOps

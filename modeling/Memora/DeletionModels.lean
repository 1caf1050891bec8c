import Memora.CanonicalModels

/-! A memory is kept in the documents table, the vector index and the BM25 index. Its deletion
takes it out of one after the other, with a backup of the text for the way back; content
updates of the same memory may run between any two of its steps. -/
namespace Memora.Deletions
open Canonical (pythonStrip)

structure Document where
  text : String
  updatedAt : Option String
  createdAt : Option String

/-- `row.get("updated_at") or row.get("created_at")`, as a text. -/
def Document.currentRevision (d : Document) : String :=
  match d.updatedAt with
  | some t => if t ≠ "" then t else d.createdAt.getD ""
  | none => d.createdAt.getD ""

/-- The memory in each store. The indexes hold the texts they were given: the vector of one
text, and the rows of the BM25 index. -/
structure Stores where
  document : Option Document
  vector : Option String
  bm25 : List String

structure Removed where
  document : Bool
  vector : Bool
  deriving DecidableEq

def Stores.remove (removed : Removed) (s : Stores) : Stores :=
  { s with
    document := if removed.document then none else s.document
    vector := if removed.vector then none else s.vector }

def Stores.deleteDocument (s : Stores) : Stores := { s with document := none }

/-- `BM25Retriever.delete_document`. -/
def Stores.deleteBm25 (s : Stores) : Stores := { s with bm25 := [] }

/-- `BM25Retriever.update_document`: the rows of the memory are deleted, and one is inserted. -/
def Stores.updateBm25 (text : String) (s : Stores) : Stores := { s with bm25 := [text] }

/-- `embedding_storage.delete`. -/
def Stores.deleteVector (s : Stores) : Stores := { s with vector := none }

/-- `embedding_storage.insert`. -/
def Stores.insertVector (text : String) (s : Stores) : Stores := { s with vector := some text }

def Stores.canonicalText (s : Stores) : Option String := s.document.map Document.text

/-- How an operation ends. Where it raises or is cancelled, its change may have happened. -/
inductive Outcome (β : Type)
  | done
  | raised (landed : β)
  | cancelled (landed : β)

/-- What `delete_memory` returns, or that it is cancelled. -/
inductive DeleteEnd
  | deleted
  | refused
  | cancelled
  deriving DecidableEq

inductive Deletion
  | idle
  | readingBackup
  | deletingBm25 (backup : Option String)
  | deletingVector (backup : Option String)
  | deletingDocuments
  | rollingBack (text : String)
  | ended (r : DeleteEnd) (s : Stores)

/-- The arguments of `update_content_if_revision`, and the time of its commit. -/
structure ContentUpdate where
  content : String
  expectedRevision : String
  updatedAt : String

inductive Update
  | idle
  | committing (u : ContentUpdate)
  | deletingVector (content : String)
  | insertingVector (content : String)
  | refreshingBm25 (content : String)

def Update.holdsLock : Update → Bool
  | .deletingVector _ => true
  | .insertingVector _ => true
  | _ => false

variable {ι : Type} [DecidableEq ι]

/-- The stores, the holder of the vector write lock, a deletion, any number of updates, and
what rollbacks wrote into the BM25 index, each with the canonical text at that time. -/
structure World (ι : Type) where
  stores : Stores
  lock : Option ι
  deletion : Deletion
  updates : ι → Update
  rollbacks : List (String × Option String)

inductive DeleteEvent
  | call
  | readBackup (o : Outcome Bool)
  | deleteBm25 (o : Outcome Bool)
  | deleteVector (o : Outcome Removed)
  | abandon
  | deleteDocuments (o : Outcome Bool)
  | rollback (o : Outcome Bool)

inductive UpdateEvent
  | call (u : ContentUpdate)
  | commit (o : Outcome Bool)
  | deleteVector (o : Outcome Bool)
  | insertVector (o : Outcome Bool)
  | refreshBm25 (o : Outcome Bool)

inductive Event (ι : Type)
  | delete (e : DeleteEvent)
  | update (i : ι) (e : UpdateEvent)

variable (w : World ι)

def World.change (landed : Bool) (f : Stores → Stores) : World ι :=
  { w with stores := if landed then f w.stores else w.stores }

def World.finish (r : DeleteEnd) : World ι :=
  { w with deletion := .ended r w.stores }

/-- The write of `_rollback_bm25_delete`, where it has happened. -/
def World.writeBack (landed : Bool) (text : String) : World ι :=
  { w.change landed (Stores.updateBm25 text) with
    rollbacks := if landed then w.rollbacks++[(text,w.stores.canonicalText)] else w.rollbacks }

/-- `_rollback_bm25_delete`; without a backup there is nothing to write. -/
def World.beginRollback (backup : Option String) : World ι :=
  match backup with
  | some text => if text = "" then w.finish .refused else { w with deletion := .rollingBack text }
  | none => w.finish .refused

def World.deleteVector (backup : Option String) : Outcome Removed → World ι
  | .done => { w with
    stores := w.stores.remove ⟨true,true⟩
    deletion := .deletingDocuments }
  | .raised removed => { w with stores := w.stores.remove removed }.beginRollback backup
  | .cancelled removed => { w with stores := w.stores.remove removed }.finish .cancelled

/-- `delete_memory`. A failure of the last step is only logged. -/
def World.deleteStep (e : DeleteEvent) : World ι :=
  match w.deletion, e with
  | .idle, .call => { w with deletion := .readingBackup }
  | .readingBackup, .readBackup .done =>
    { w with deletion := .deletingBm25 w.stores.canonicalText }
  | .readingBackup, .readBackup (.raised landed) =>
    { w with deletion := .deletingBm25 (if landed then w.stores.canonicalText else none) }
  | .readingBackup, .readBackup (.cancelled _) => w.finish .cancelled
  | .deletingBm25 backup, .deleteBm25 .done =>
    { w.change true Stores.deleteBm25 with deletion := .deletingVector backup }
  | .deletingBm25 _, .deleteBm25 (.raised landed) =>
    (w.change landed Stores.deleteBm25).finish .refused
  | .deletingBm25 _, .deleteBm25 (.cancelled landed) =>
    (w.change landed Stores.deleteBm25).finish .cancelled
  | .deletingVector backup, .deleteVector o => if w.lock = none then w.deleteVector backup o else w
  | .deletingVector _, .abandon => w.finish .cancelled
  | .deletingDocuments, .deleteDocuments .done =>
    (w.change true Stores.deleteDocument).finish .deleted
  | .deletingDocuments, .deleteDocuments (.raised landed) =>
    (w.change landed Stores.deleteDocument).finish .deleted
  | .deletingDocuments, .deleteDocuments (.cancelled landed) =>
    (w.change landed Stores.deleteDocument).finish .cancelled
  | .rollingBack text, .rollback .done => (w.writeBack true text).finish .refused
  | .rollingBack text, .rollback (.raised landed) => (w.writeBack landed text).finish .refused
  | .rollingBack text, .rollback (.cancelled landed) =>
    (w.writeBack landed text).finish .cancelled
  | _, _ => w

/-- The revision check, and the condition of the `UPDATE`. -/
def Document.admits (d : Document) (u : ContentUpdate) : Bool :=
  decide (pythonStrip d.currentRevision = u.expectedRevision) &&
    decide (d.updatedAt.or d.createdAt = some u.expectedRevision)

def Stores.admits (s : Stores) (u : ContentUpdate) : Bool :=
  s.document.any fun d => d.admits u

def Stores.commit (u : ContentUpdate) (s : Stores) : Stores :=
  { s with document := s.document.map fun d =>
      { d with
        text := u.content
        updatedAt := some u.updatedAt } }

def World.setUpdate (i : ι) (u : Update) : World ι :=
  { w with updates := Function.update w.updates i u }

def World.commitUpdate (i : ι) (u : ContentUpdate) : Outcome Bool → World ι
  | .done =>
    if w.stores.admits u then
      { (w.change true (Stores.commit u)).setUpdate i (.deletingVector u.content) with
        lock := some i }
    else w.setUpdate i .idle
  | .raised landed =>
    (w.change (landed && w.stores.admits u) (Stores.commit u)).setUpdate i .idle
  | .cancelled landed =>
    (w.change (landed && w.stores.admits u) (Stores.commit u)).setUpdate i .idle

def World.release (i : ι) (u : Update) : World ι :=
  { w.setUpdate i u with lock := none }

/-- `MemoryLifecycleManager.update_content_if_revision`. A failure to refresh an index is only
logged. -/
def World.updateStep (i : ι) (e : UpdateEvent) : World ι :=
  match w.updates i, e with
  | .idle, .call u => if pythonStrip u.content = "" then w else w.setUpdate i (.committing u)
  | .committing u, .commit o => if w.lock = none then w.commitUpdate i u o else w
  | .deletingVector content, .deleteVector .done =>
    (w.change true Stores.deleteVector).setUpdate i (.insertingVector content)
  | .deletingVector content, .deleteVector (.raised landed) =>
    (w.change landed Stores.deleteVector).release i (.refreshingBm25 content)
  | .deletingVector _, .deleteVector (.cancelled landed) =>
    (w.change landed Stores.deleteVector).release i .idle
  | .insertingVector content, .insertVector .done =>
    (w.change true (Stores.insertVector content)).release i (.refreshingBm25 content)
  | .insertingVector content, .insertVector (.raised landed) =>
    (w.change landed (Stores.insertVector content)).release i (.refreshingBm25 content)
  | .insertingVector content, .insertVector (.cancelled landed) =>
    (w.change landed (Stores.insertVector content)).release i .idle
  | .refreshingBm25 content, .refreshBm25 .done =>
    (w.change true (Stores.updateBm25 content)).setUpdate i .idle
  | .refreshingBm25 content, .refreshBm25 (.raised landed) =>
    (w.change landed (Stores.updateBm25 content)).setUpdate i .idle
  | .refreshingBm25 content, .refreshBm25 (.cancelled landed) =>
    (w.change landed (Stores.updateBm25 content)).setUpdate i .idle
  | _, _ => w

def World.start (d : Document) : World ι :=
  ⟨⟨some d,some d.text,[d.text]⟩,none,.idle,fun _ => .idle,[]⟩

end Memora.Deletions

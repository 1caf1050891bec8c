import Memora.CatalogStore
import Memora.RunLaws

/-! The triggers on the documents table note which memories changed; their entries are claimed,
repaired from the current row and closed. Owners rebuild generations, repairs and document writes
come in between, each as one transaction at the time its call read. -/
namespace Memora.Catalog

variable {T : Type*} [LinearOrder T] [Zero T] (env : CatalogEnv T)

/-- An entry that is registered again keeps its lease while it is being repaired. -/
def DirtyRow.renoted (d : DirtyRow T) (operation : DirtyOperation) (sequence : ℕ)
    (errorCode : Option String) (now : T) : DirtyRow T :=
  { d with
    operation, sequence
    state := if d.state = .running then .running else .pending
    attemptCount := if d.state = .running then d.attemptCount else 0
    leaseUntil := if d.state = .running then d.leaseUntil else none
    leaseOwnerToken := if d.state = .running then d.leaseOwnerToken else none
    lastErrorCode := errorCode
    updatedAt := now }

/-- The entry may be claimed or reconciled: it waits, failed or lost its lease. -/
def DirtyRow.waiting (d : DirtyRow T) : Bool := d.state = .pending || d.state = .failed

namespace Database

variable (db : Database T)

/-- `INSERT ... ON CONFLICT(memory_id) DO UPDATE`. -/
def upsertDirty (memoryId : ℤ) (operation : DirtyOperation) (errorCode : Option String) (now : T) :
    Database T :=
  let sequence := db.state.nextDirtySequence
  if db.dirty.any fun d => d.memoryId = memoryId then
    { db with
      dirty := RowTable.modify (fun d => d.memoryId = memoryId)
        (fun d => d.renoted operation sequence errorCode now) db.dirty }
  else
    { db with
      nextDirtyId := db.nextDirtyId+1
      dirty := db.dirty++[{
        dirtyId := db.nextDirtyId
        memoryId, operation, sequence
        state := .pending
        attemptCount := 0
        leaseOwnerToken := none
        leaseUntil := none
        lastErrorCode := errorCode
        createdAt := now
        updatedAt := now }] }

def noteChange (memoryId : ℤ) (operation : DirtyOperation) (now : T) :
    Database T :=
  { db with state := { db.state with
      canonicalWriteWatermark := db.state.canonicalWriteWatermark+1
      nextDirtySequence := db.state.nextDirtySequence+1
      updatedAt := now } }.upsertDirty memoryId operation none now

/-- None where it raises. -/
def registerDirty (memoryId : ℤ) (operation : DirtyOperation) (reasonCode : String) (now : T) :
    Option (Database T) :=
  if memoryId ≤ 0 then none
  else if reasonCode ≠ "canonical_changed" ∧ reasonCode ≠ "catalog_repair_failed" then none
  else some ({ db with state := { db.state with
      canonicalWriteWatermark := db.state.canonicalWriteWatermark+1
      nextDirtySequence := db.state.nextDirtySequence+1
      updatedAt := max 0 now
      reasonCode } }.upsertDirty memoryId operation (some reasonCode) (max 0 now))

/-- `INSERT INTO documents` and its trigger. -/
def insertDocument (document : Document) (now : T) : Option (Database T) :=
  if document.id ≤ 0 || (db.document? document.id).isSome then none
  else some ({ db with documents := db.documents++[document] }.noteChange document.id .add now)

/-- `DELETE FROM documents` and its trigger. -/
def deleteDocument (id : ℤ) (now : T) : Option (Database T) :=
  match db.document? id with
  | none => none
  | some _ => some ({ db with documents := db.documents.filter fun d => d.id ≠ id }.noteChange id .delete now)

end Database

def comparedPaths : List String :=
  ["$.topics","$.topic_observed_at","$.scope_key","$.privacy_level","$.chat_type",
   "$.resolver_revision","$.source_provenance_complete","$.gate_disposition",
   "$.summary_source_orphan","$.status","$.memory_status"]

def CatalogEnv.pathsDiffer (paths : List String) (old new : Option String) : Bool :=
  match old, new with
  | some a, some b => env.jsonValid a && env.jsonValid b && paths.any fun path => env.extractDiffers path a b
  | _, _ => false

/-- `NOT json_valid(metadata)`, which does not hold for NULL. -/
def CatalogEnv.invalidJson (metadata : Option String) : Bool :=
  metadata.any fun raw => !env.jsonValid raw

/-- The WHEN of `topic_catalog_documents_update`. -/
def updateFires (old new : Document) : Bool :=
  decide (old.text ≠ new.text) || decide (old.createdAt ≠ new.createdAt) ||
    env.invalidJson old.metadata || env.invalidJson new.metadata ||
    env.pathsDiffer comparedPaths old.metadata new.metadata

namespace Database

variable (db : Database T)

/-- `UPDATE documents` of one row and its trigger. -/
def updateDocument (new : Document) (now : T) : Option (Database T) :=
  match db.document? new.id with
  | none => none
  | some old =>
    let db' := { db with
      documents := RowTable.modify (fun d => d.id = new.id) (fun _ => new) db.documents }
    some (if updateFires env old new then
        db'.noteChange new.id (if env.pathsDiffer ["$.status","$.memory_status"] old.metadata new.metadata then
            .statusUpdate else .metadataUpdate) now
      else db')

/-- `ORDER BY sequence ASC, dirty_id ASC`. -/
def bySequence (rows : List (DirtyRow T)) : List (DirtyRow T) :=
  rows.insertionSort fun a b => a.sequence < b.sequence ∨
  (a.sequence = b.sequence ∧ a.dirtyId ≤ b.dirtyId)

def listDirty (states : List DirtyState) (limit : ℕ) (ownerToken : Option String) :
    List (DirtyRow T) :=
  (bySequence (db.dirty.filter fun d => states.contains d.state &&
    ownerToken.all fun owner => d.leaseOwnerToken = some owner)).take (min limit 1000)

variable (ownerToken : String)

/-- `leaseUntil` is its time plus the default lease. -/
def claimDirty (now leaseUntil : T) (limit : ℕ) : Database T × List (DirtyRow T) :=
  let current := max 0 now
  if ownerToken = "" ∨ limit = 0 then (db,[])
  else
    let released := RowTable.modify
      (fun d => d.state = .running && d.leaseUntil.any fun lease => lease ≤ current) (fun d => { d with
        state := .pending
        leaseOwnerToken := none
        leaseUntil := none
        updatedAt := current }) db.dirty
    let chosen := ((bySequence (released.filter fun d => d.waiting &&
      d.leaseUntil.all fun lease => lease ≤ current)).take (min limit 100)).map DirtyRow.dirtyId
    let db' := { db with
      dirty := RowTable.modify (fun d => chosen.contains d.dirtyId && d.waiting) (fun d => { d with
          state := .running
          leaseOwnerToken := some ownerToken
          leaseUntil := some leaseUntil
          attemptCount := d.attemptCount+1
          updatedAt := current }) released }
    (db',db'.listDirty [.running] limit (some ownerToken))

def finishDirty (dirtyId : ℕ) (ownerToken : String) (sequence : ℕ) (success : Bool)
    (reasonCode : Option String) (now : T) : Option (Database T) :=
  let current := max 0 now
  if dirtyId = 0 || decide (ownerToken = "") || sequence = 0 then none
  else if reasonCode.any fun code => code ≠ "canonical_changed" && code ≠ "catalog_repair_failed"
    then
    none
  else
    let matching (d : DirtyRow T) : Bool := d.dirtyId = dirtyId && d.state = .running &&
      d.leaseOwnerToken = some ownerToken && d.leaseUntil.any (fun lease => current < lease) &&
      d.sequence = sequence
    if db.dirty.any matching then
      some { db with
        dirty := RowTable.modify matching (fun d => { d with
            state := if success then .completed else .failed
            leaseOwnerToken := none
            leaseUntil := none
            lastErrorCode := reasonCode
            updatedAt := current }) db.dirty }
    else none

/-- The entries `mark_dirty_reconciled` closes. -/
def reconcilable (upToSequence : ℤ) (now : T) (d : DirtyRow T) : Bool :=
  (d.sequence : ℤ) ≤ upToSequence && (d.waiting ||
    (d.state = .running && d.leaseUntil.all fun lease => lease ≤ now))

def markDirtyReconciled (upToSequence : ℤ) (covered : List ℤ) (now : T) : Option (Database T) :=
  let current := max 0 now
  if decide (ownerToken = "") || upToSequence < 0 || covered.any (fun id => id ≤ 0) then none
  else if !(decide (db.state.rebuildOwnerToken = some ownerToken) &&
      db.state.rebuildLeaseUntil.any fun lease => current < lease) then none
  else if db.dirty.any fun d => (d.sequence : ℤ) ≤ upToSequence && d.state = .running &&
      d.leaseUntil.any (fun lease => current < lease) && d.leaseOwnerToken ≠ some ownerToken then none
  else if db.dirty.any fun d => reconcilable upToSequence current d && !covered.contains d.memoryId
    then
    none
  else some { db with
    dirty := RowTable.modify (reconcilable upToSequence current) (fun d => { d with
        state := .completed
        leaseOwnerToken := none
        leaseUntil := none
        lastErrorCode := none
        updatedAt := current }) db.dirty }

/-- One entry of `repair_pending`: the mappings of the active generation are replaced and the
entry is closed. -/
def repairEntry (now : T) (d : DirtyRow T) : Database T :=
  let replaced := db.state.activeGeneration.bind fun generation =>
    db.replaceMemoryMappings env d.memoryId generation none now
  let db' := replaced.getD db
  (db'.finishDirty d.dirtyId ownerToken d.sequence replaced.isSome
    (if replaced.isSome then none else some "catalog_repair_failed") now).getD db'

/-- `repair_pending` with no other call in between; each entry has its own time. -/
def repairPending (limit : ℕ) (now leaseUntil : T) (clock : ℕ → T) : Database T :=
  if ownerToken = "" then db
  else
    let claimed := db.claimDirty ownerToken now leaseUntil limit
    claimed.2.foldl (fun db d => db.repairEntry env ownerToken (clock d.dirtyId) d) claimed.1

def unresolved (memoryId : ℤ) : Bool :=
  db.dirty.any fun d => d.memoryId = memoryId && d.state ≠ .completed

end Database

end Memora.Catalog

namespace Memora.Catalog

variable {T : Type*}

inductive CatalogCall (T : Type*)
  | insert (document : Document)
  | update (document : Document)
  | delete (id : ℤ)
  | registerDirty (memoryId : ℤ) (operation : DirtyOperation) (reasonCode : String)
  | claim (ownerToken : String) (leaseUntil : T) (limit : ℕ)
  | finish (dirtyId : ℕ) (ownerToken : String) (sequence : ℕ) (success : Bool)
      (reasonCode : Option String)
  | reconcile (ownerToken : String) (upToSequence : ℤ) (covered : List ℤ)
  | begin (generation : ℤ) (ownerToken : String) (leaseUntil : T) (backfillTotal : Option ℤ)
  | renew (generation : ℤ) (ownerToken : String) (leaseUntil : T)
  | advance (generation : ℤ) (ownerToken : String) (cursor : ℤ)
  | replace (memoryId generation : ℤ) (ownerToken : Option String)
  | abandon (generation : ℤ) (ownerToken reasonCode : String)
  | publish (generation : ℤ) (ownerToken : String) (startWatermark publishedDirtyWatermark : ℤ)
      (canonicalSnapshotRevision : String) (expectedSourceCount expectedMappingCount : Option ℤ)
  | retire (generation : ℤ)
  | cleanup
  | markDegraded (reasonCode : String)
  | restore (failedGeneration : ℤ) (previousGeneration : Option ℤ)
      (previousPublishedDirtyWatermark : ℤ) (previousCanonicalSnapshotRevision : Option String)
      (reasonCode : String)
  | upgrade

structure CatalogStep (T : Type*) where
  call : CatalogCall T
  now : T
  raised : Bool := false

def CatalogCall.begins : CatalogCall T → Option String
  | .begin _ ownerToken _ _ => some ownerToken
  | _ => none

def CatalogCall.writes : CatalogCall T → Option (ℤ × String)
  | .advance generation ownerToken _ => some (generation,ownerToken)
  | .replace _ generation (some ownerToken) => some (generation,ownerToken)
  | .publish generation ownerToken _ _ _ _ _ => some (generation,ownerToken)
  | _ => none

variable [LinearOrder T] [Zero T] (env : CatalogEnv T)

namespace Database

variable (db : Database T)

/-- What a call commits; none where it is refused. -/
def attempt (call : CatalogCall T) (now : T) : Option (Database T) :=
  match call with
  | .insert document => db.insertDocument document now
  | .update document => db.updateDocument env document now
  | .delete id => db.deleteDocument id now
  | .registerDirty memoryId operation reasonCode =>
    db.registerDirty memoryId operation reasonCode now
  | .claim ownerToken leaseUntil limit => some (db.claimDirty ownerToken now leaseUntil limit).1
  | .finish dirtyId ownerToken sequence success reasonCode =>
    db.finishDirty dirtyId ownerToken sequence success reasonCode now
  | .reconcile ownerToken upToSequence covered =>
    db.markDirtyReconciled ownerToken upToSequence covered now
  | .begin generation ownerToken leaseUntil backfillTotal =>
    db.beginGeneration generation ownerToken leaseUntil backfillTotal now
  | .renew generation ownerToken leaseUntil =>
    db.renewGenerationLease generation ownerToken leaseUntil now
  | .advance generation ownerToken cursor => db.advanceBackfillCursor generation ownerToken cursor now
  | .replace memoryId generation ownerToken =>
    db.replaceMemoryMappings env memoryId generation ownerToken now
  | .abandon generation ownerToken reasonCode =>
    db.abandonGeneration generation ownerToken reasonCode now
  | .publish generation ownerToken start published revision sourceCount mappingCount =>
    db.publishGeneration generation ownerToken start published revision sourceCount mappingCount now
  | .retire generation => db.retireGeneration generation
  | .cleanup => some db.cleanupOrphanGenerations
  | .markDegraded reasonCode => db.markDegraded reasonCode now
  | .restore failed previous watermark revision reasonCode =>
    db.restoreGeneration failed previous watermark revision reasonCode now
  | .upgrade => some (db.upgradeSchema now)

def step (s : CatalogStep T) : Database T :=
  if s.raised then db else (db.attempt env s.call s.now).getD db

def run (steps : List (CatalogStep T)) : Database T := steps.foldl (step env) db

structure Created (db : Database T) : Prop where
  state : db.state = {}
  documents : (db.documents.map Document.id).Nodup ∧ ∀ d ∈ db.documents, 0 < d.id
  sources : db.sources = []
  topics : db.topics = []
  dirty : db.dirty = []

end Database

end Memora.Catalog

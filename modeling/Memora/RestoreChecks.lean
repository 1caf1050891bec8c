import Memora.RowTable

/-! What a data directory holds, what SQLite reads of its files, and the plans of restore
transactions under `.restore`. What a backup is when it is published, what is checked before it is
restored, and what is checked across the files afterwards. -/
namespace Memora.Backup

inductive FileRole
  | canonical | operational | derived
  deriving DecidableEq

inductive FileKind
  | sqlite | regular | secret
  deriving DecidableEq

structure FileSpec where
  name : String
  role : FileRole
  kind : FileKind
  required : Bool
  deriving DecidableEq

def canonicalDbName : String := "memora.db"
def conversationDbName : String := "conversations.db"
def quarantineDbName : String := "memory_quarantine.sqlite3"
def feedbackSignalDbName : String := "feedback_signals.db"
def feedbackHmacKeyName : String := "feedback_signals.db.hmac.key"
def qualityLoopHmacKeyName : String := "evaluation_quality_loop.hmac.key"

def backupFileSpecs : List FileSpec := [⟨canonicalDbName,.canonical,.sqlite,true⟩,
  ⟨conversationDbName,.operational,.sqlite,false⟩, ⟨quarantineDbName,.operational,.sqlite,false⟩,
  ⟨feedbackSignalDbName,.operational,.sqlite,false⟩,
  ⟨feedbackHmacKeyName,.operational,.secret,false⟩,
  ⟨qualityLoopHmacKeyName,.operational,.secret,false⟩,
  ⟨"decay_state.json",.operational,.regular,false⟩,
  ⟨"memora.index",.derived,.regular,false⟩, ⟨"memora_graph.index",.derived,.regular,false⟩,
  ⟨"memora_graph_documents.db",.derived,.sqlite,false⟩]

def endsIn (part name : String) : Bool := part.toList.isSuffixOf name.toList

/-- `_is_restorable_file_name` over `_BACKUP_PATTERNS`. -/
def isRestorableFileName (name : String) : Bool :=
  !(name.toList.contains '/' || name.toList.contains '\\') &&
    (backupFileSpecs.any (·.name = name) || endsIn ".db-wal" name || endsIn ".db-shm" name)

inductive Entry (C : Type)
  | file (content : C)
  | symlink (target : Option C)
  deriving DecidableEq

namespace Entry
variable {C : Type}

def content? : Entry C → Option C
  | .file content => some content
  | .symlink target => target

def isSymlink : Entry C → Bool
  | .file _ => false
  | .symlink _ => true

/-- `exists` and `is_file`, which follow links. -/
def isFile (entry : Entry C) : Bool := entry.content?.isSome

end Entry

abbrev Directory (C : Type) := String → Option (Entry C)

namespace Directory
variable {C : Type}

variable (dir : Directory C) (name : String)

def isFile : Bool := (dir name).any Entry.isFile

def isSymlink : Bool := (dir name).any Entry.isSymlink

def isPlainFile : Bool :=
  dir.isFile name && !dir.isSymlink name

/-- `_path_present`: a dangling link counts. -/
def present : Bool := (dir name).isSome

def content? : Option C := (dir name).bind Entry.content?

variable (entry : Option (Entry C))

def put : Directory C :=
  Function.update dir name entry

@[simp] lemma put_same : dir.put name entry name = entry := Function.update_self ..

lemma put_of_ne {name other : String} (h : other ≠ name) :
    dir.put name entry other = dir other := Function.update_of_ne h ..

end Directory

inductive Integrity
  | absent | legacyUnverified | verified | invalid
  deriving DecidableEq

structure ConversationEvidence where
  present : Bool
  schemaVersion : ℕ
  migrationId : Option String
  counts : List ℕ
  integrity : Integrity
  reasonCode : Option String
  deriving DecidableEq

def absentEvidence : ConversationEvidence := ⟨false,0,none,[0,0,0,0,0],.absent,none⟩

/-- A `canonical_memory_id`: one that `int` takes without loss, or one that it refuses. -/
inductive Reference
  | null
  | number (id : ℤ)
  | invalid
  deriving DecidableEq

inductive Fault
  | os
  | database
  | operation (code : String)
  deriving DecidableEq

/-- SQLite and the hashes, as far as the backup code uses them. `settle` is the database that
opening a file beside a log yields, and the file that closing it leaves. -/
structure Sqlite (C : Type) where
  settle : C → Option C → C
  quickCheck : C → Except Fault Unit
  inspect : C → ConversationEvidence
  /-- The references of approved candidates; missing with their table. -/
  approvedReferences : C → Option (List Reference)
  /-- The ids of `documents`; missing with the table. -/
  documentIds : C → Option (List ℤ)
  /-- The feedback database has no metadata table. -/
  feedbackLegacy : C → Bool
  /-- The suffix of the error for a database and a key that do not belong together. -/
  pairError : C → C → Option String
  size : C → ℕ
  sha256 : C → String

def walName (name : String) : String := name++"-wal"

def Sqlite.opened {C : Type} (sqlite : Sqlite C) (dir : Directory C) (name : String) : Option C :=
  match dir name with
  | none => none
  | some (.symlink target) => target
  | some (.file content) => some (sqlite.settle content (dir.content? (walName name)))

def Sqlite.settled {C : Type} (sqlite : Sqlite C) (dir : Directory C) (name : String) :
    Directory C :=
  match dir name with
  | some (.file content) =>
    (dir.put (walName name) none).put name (some (.file (sqlite.settle content (dir.content? (walName name)))))
  | _ => dir

inductive RestoreStatus
  | staged | reloadScheduled | applying | validating | succeeded | failedBeforeApply
  | rollbackPending | rollingBack | rolledBack | cancelled
  deriving DecidableEq

def restoreIsBlocking : RestoreStatus → Bool
  | .staged | .reloadScheduled | .applying | .validating | .rollbackPending | .rollingBack => true
  | _ => false

structure RestoreFileProgress where
  name : String
  movedToPrevious : Bool := false
  installed : Bool := false
  validated : Bool := false
  deriving DecidableEq

structure RestorePlan where
  operationId : String
  status : RestoreStatus
  files : List RestoreFileProgress
  reasonCode : Option String := none
  conversationEvidence : Option ConversationEvidence := none
  deriving DecidableEq

instance : Inhabited RestorePlan := ⟨⟨"",.cancelled,[],none,none⟩⟩

def RestorePlan.blocking (plan : RestorePlan) : Bool := restoreIsBlocking plan.status

structure Operation (C : Type) where
  operationId : String
  plan : Option RestorePlan := none
  payload : Directory C := fun _ => none
  previous : Directory C := fun _ => none

/-- The data directory: its files, the `*.restore` files in the order they are listed in, by
the name without the suffix, and the operations in path order. -/
structure Disk (C : Type) where
  live : Directory C
  legacy : List (String × Entry C) := []
  operations : List (Operation C) := []

namespace Disk
variable {C : Type}

variable (d : Disk C) (operationId : String)

def operation? : Option (Operation C) :=
  d.operations.find? fun o => o.operationId = operationId

def modifyOperation (f : Operation C → Operation C) : Disk C :=
  { d with operations := RowTable.modify (fun o => o.operationId = operationId) f d.operations }

/-- The plan that `_read_plan` returns for an id. -/
def planOf : Option RestorePlan :=
  (d.operation? operationId).bind (·.plan)

/-- The plan that `_read_plan` returns without an id: the first one that blocks, else the last. -/
def readPlan : Option RestorePlan :=
  let plans := d.operations.filterMap (·.plan)
  (plans.find? RestorePlan.blocking).or plans.getLast?

def writePlan (plan : RestorePlan) : Disk C :=
  d.modifyOperation plan.operationId fun o => { o with plan := some plan }

end Disk

end Memora.Backup

namespace Memora.Backup

variable {C : Type}

inductive FeedbackPairState
  | absent | legacyDb | complete
  deriving DecidableEq

def FeedbackPairState.rank : FeedbackPairState → ℕ
  | .absent => 0
  | .legacyDb => 1
  | .complete => 2

def feedbackError (scope suffix : String) : Fault :=
  .operation (scope++"_feedback_hmac_"++suffix)

def feedbackDbIsLegacy (sqlite : Sqlite C) (dir : Directory C) : Bool :=
  dir.isPlainFile feedbackSignalDbName && (sqlite.opened dir feedbackSignalDbName).any
  sqlite.feedbackLegacy

def validateFeedbackHmacPair (sqlite : Sqlite C) (dir : Directory C) (scope : String) :
    Except Fault Unit :=
  if !dir.isPlainFile feedbackSignalDbName then .error (feedbackError scope "database_invalid")
  else if dir.isSymlink feedbackHmacKeyName then .error (feedbackError scope "key_invalid")
  else
    match sqlite.opened dir feedbackSignalDbName, dir.content? feedbackHmacKeyName with
    | some db, some key =>
      match sqlite.pairError db key with
      | some suffix => .error (feedbackError scope suffix)
      | none => .ok ()
    | _, _ => .error (feedbackError scope "pair_missing")

def inspectFeedbackPair (sqlite : Sqlite C) (dir : Directory C) (scope : String) :
    Except Fault FeedbackPairState :=
  if !dir.present feedbackSignalDbName then
    if !dir.present feedbackHmacKeyName then .ok .absent
    else .error (feedbackError scope "pair_missing")
  else if !dir.present feedbackHmacKeyName then
    if feedbackDbIsLegacy sqlite dir then .ok .legacyDb
    else .error (feedbackError scope "pair_missing")
  else do
    validateFeedbackHmacPair sqlite dir scope
    .ok .complete

def validateFeedbackSnapshot (sqlite : Sqlite C) (dir : Directory C)
    (expectedState : FeedbackPairState) : Except Fault Unit := do
  let finalState ← inspectFeedbackPair sqlite dir "backup"
  if finalState.rank < expectedState.rank then .error (feedbackError "backup" "pair_missing")
  else .ok ()

variable (names : List String)

def plansDb : Bool := names.contains feedbackSignalDbName

def plansKey : Bool := names.contains feedbackHmacKeyName

def validateFeedbackBackupFiles (sqlite : Sqlite C) (dir : Directory C) (names : List String) :
    Except Fault Unit :=
  if !plansDb names && !plansKey names then .ok ()
  else do
    let state ← inspectFeedbackPair sqlite dir "backup"
    if state = .legacyDb ∧ plansDb names ∧ !plansKey names then .ok ()
    else if !(plansDb names && plansKey names) ∨ state ≠ .complete then
      .error (.operation "backup_feedback_hmac_pair_missing")
    else .ok ()

def touchesFeedback : Bool :=
  plansDb names || plansKey names || names.contains canonicalDbName

def validateFeedbackRestoreFiles (sqlite : Sqlite C) (dir : Directory C) (names : List String) :
    Except Fault Unit :=
  if !touchesFeedback names then .ok ()
  else do
    let liveState ← inspectFeedbackPair sqlite dir "restore"
    let accepted : Bool :=
      if plansDb names && plansKey names then liveState = .complete
      else if plansDb names then liveState = .legacyDb
      else !plansKey names && liveState ≠ .complete
    if accepted then .ok () else .error (.operation "restore_feedback_hmac_pair_missing")

def validateReference (ids : List ℤ) : Reference → Except Fault Unit
  | .null => .error (.operation "restore_quarantine_reference_missing")
  | .invalid => .error (.operation "restore_quarantine_reference_invalid")
  | .number id =>
    if ids.contains id then .ok ()
    else .error (.operation "restore_quarantine_reference_missing")

def approvedReferencesOf (sqlite : Sqlite C) (dir : Directory C) : List Reference :=
  if !dir.isFile quarantineDbName then []
  else ((sqlite.opened dir quarantineDbName).bind sqlite.approvedReferences).getD []

def validateQuarantineReferences (sqlite : Sqlite C) (dir : Directory C) : Except Fault Unit :=
  match approvedReferencesOf sqlite dir with
  | [] => .ok ()
  | rows =>
    if !dir.isFile canonicalDbName then .error (.operation "restore_quarantine_reference_missing")
    else
      match (sqlite.opened dir canonicalDbName).bind sqlite.documentIds with
      | none => .error (.operation "restore_quarantine_reference_missing")
      | some ids => rows.forM (validateReference ids)

def inspectConversationDatabase (sqlite : Sqlite C) (dir : Directory C) : ConversationEvidence :=
  if dir.isPlainFile conversationDbName then
    ((dir.content? conversationDbName).map sqlite.inspect).getD absentEvidence
  else absentEvidence

structure BackupFile where
  name : String
  role : FileRole
  kind : FileKind
  sizeBytes : ℕ
  sha256 : String
  deriving DecidableEq

structure BackupManifest where
  ready : Bool
  files : List BackupFile
  summaryState : Option ConversationEvidence

/-- A directory under `backups`; `listing` has the names of its files in the order they are
listed in. -/
structure BackupDirectory (C : Type) where
  manifest : Option BackupManifest
  files : Directory C
  listing : List String

def snapshotFile (sqlite : Sqlite C) (dir : Directory C) (spec : FileSpec) :
    Except Fault (Option C) :=
  if !dir.isFile spec.name then
    if spec.required then .error (.operation "canonical_file_missing") else .ok none
  else if dir.isSymlink spec.name then .error (.operation "backup_source_invalid")
  else if spec.kind = .sqlite then
    match sqlite.opened dir spec.name with
    | none => .error .os
    | some content => do
      sqlite.quickCheck content
      .ok (some content)
  else .ok (dir.content? spec.name)

def snapshotEntry (sqlite : Sqlite C) (spec : FileSpec) (content : C) : BackupFile :=
  ⟨spec.name,spec.role,spec.kind,sqlite.size content,sqlite.sha256 content⟩

/-- `_snapshot_backup_files`: each file is read from the data directory as it is at its moment. -/
def snapshotFiles (sqlite : Sqlite C) (moment : String → Directory C) :
    List FileSpec → Except Fault (List (FileSpec × C))
  | [] => .ok []
  | spec::rest => do
    let content? ← snapshotFile sqlite (moment spec.name) spec
    let snapshots ← snapshotFiles sqlite moment rest
    .ok ((content?.map fun content => (spec,content)).toList++snapshots)

def snapshotDirectory (snapshots : List (FileSpec × C)) : Directory C := fun name =>
  (snapshots.find? fun s => s.1.name = name).map fun s => .file s.2

/-- `_create_backup_sync`; `start` is the data directory when it begins. -/
def createBackup (sqlite : Sqlite C) (start : Directory C) (moment : String → Directory C) :
    Except Fault (BackupDirectory C) :=
  let created : Except Fault (BackupDirectory C) := do
    let initialState ← inspectFeedbackPair sqlite start "backup"
    let snapshots ← snapshotFiles sqlite moment backupFileSpecs
    let files := snapshotDirectory snapshots
    validateFeedbackSnapshot sqlite files initialState
    .ok {
      manifest := some {
        ready := true
        files := snapshots.map fun s => snapshotEntry sqlite s.1 s.2
        summaryState := some (inspectConversationDatabase sqlite files) }
      files := files
      listing := snapshots.map (·.1.name) }
  match created with
  | .ok backup => .ok backup
  | .error (.operation code) => .error (.operation code)
  | .error _ => .error (.operation "backup_create_failed")

/-- What `_preflight_restore` returns: the names of the planned files and the evidence. -/
structure Preflight where
  fileNames : List String
  verified : Bool
  conversationEvidence : Option ConversationEvidence
  deriving DecidableEq

def invalidBackup : Fault := .operation "backup_invalid"

def preflightFile (sqlite : Sqlite C) (files : Directory C) (file : BackupFile) :
    Except Fault Unit :=
  match backupFileSpecs.find? fun spec => spec.name = file.name with
  | none => .error invalidBackup
  | some spec =>
    if !files.isPlainFile file.name then .error invalidBackup
    else
      match files.content? file.name with
      | none => .error invalidBackup
      | some content =>
        if sqlite.size content ≠ file.sizeBytes then .error invalidBackup
        else if sqlite.sha256 content ≠ file.sha256 then .error invalidBackup
        else if file.role ≠ spec.role then .error invalidBackup
        else if file.kind = .sqlite then
          match sqlite.opened files file.name with
          | none => .error .database
          | some database => sqlite.quickCheck database
        else .ok ()

def preflightNames (sqlite : Sqlite C) (backup : BackupDirectory C) : Except Fault (List String) :=
  match backup.manifest with
  | some manifest =>
    if !manifest.ready then .error invalidBackup
    else do
      manifest.files.forM (preflightFile sqlite backup.files)
      .ok ((manifest.files.filter fun file => file.role ≠ .derived).map (·.name))
  | none =>
    .ok (backup.listing.filter fun name =>
      backup.files.isPlainFile name && isRestorableFileName name &&
        (backupFileSpecs.find? fun spec => spec.name = name).all fun spec => spec.role ≠ .derived)

def reasonText (evidence : ConversationEvidence) : String := evidence.reasonCode.getD "None"

def preflightRestore (sqlite : Sqlite C) (backup : BackupDirectory C) : Except Fault Preflight := do
  let names ← preflightNames sqlite backup
  if !names.contains canonicalDbName then .error (.operation "canonical_file_missing")
  else do
    validateFeedbackBackupFiles sqlite backup.files names
    let plansConversations := names.contains conversationDbName
    let evidence := inspectConversationDatabase sqlite backup.files
    let declared := backup.manifest.bind (·.summaryState)
    let mismatch := declared.any fun d => d ≠ evidence || (!plansConversations && evidence.present)
    if mismatch then .error (.operation "restore_conversation_evidence_mismatch")
    else if plansConversations && evidence.integrity = .invalid then
      .error (.operation ("restore_conversation_"++reasonText evidence))
    else .ok {
      fileNames := names
      verified := backup.manifest.isSome && declared.isSome
      conversationEvidence := if plansConversations then some evidence else none }

end Memora.Backup

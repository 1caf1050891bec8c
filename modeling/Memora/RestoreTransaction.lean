import Memora.FaultyPrograms
import Memora.RestoreChecks

/-! Staging, applying, validating, rolling back and finishing a restore plan. Each operation on the
files may fail or be the last one before a crash; the plan on disk is all that a restart knows. -/
namespace Memora.Backup

variable {C : Type}

structure Process (C : Type) where
  disk : Disk C
  plan : RestorePlan := default
  startedApply : Bool := false

abbrev Restore (C : Type) := Faulty (Process C) Fault

namespace Restore

def fileOperation (f : Disk C → Disk C) : Restore C Unit :=
  Faulty.operation .os fun s => { s with disk := f s.disk }

def setPlan (f : RestorePlan → RestorePlan) : Restore C Unit :=
  Faulty.modify fun s => { s with plan := f s.plan }

def writePlan : Restore C Unit :=
  Faulty.operation .os fun s => { s with disk := s.disk.writePlan s.plan }

def check (result : Except Fault Unit) : Restore C Unit :=
  match result with
  | .ok () => pure ()
  | .error fault => Faulty.raise fault

def moveToPrevious (operationId name : String) (d : Disk C) : Disk C :=
  { (d.modifyOperation operationId fun o => { o with previous := o.previous.put name (d.live name) })
    with live := d.live.put name none }

def installPayload (operationId name : String) (d : Disk C) : Disk C :=
  match d.operation? operationId with
  | none => d
  | some operation =>
    { (d.modifyOperation operationId fun o => { o with payload := o.payload.put name none })
      with live := d.live.put name (operation.payload name) }

variable (operationId : String) (progress : RestoreFileProgress) (d : Disk C)

def payloadOf (operationId : String) : Directory C :=
  ((d.operation? operationId).map (·.payload)).getD fun _ => none

def previousOf (operationId : String) : Directory C :=
  ((d.operation? operationId).map (·.previous)).getD fun _ => none

/-- `os.replace(payload, target)` after the live file has made room. -/
def putPayload :
    Restore C RestoreFileProgress := do
  fileOperation (installPayload operationId progress.name)
  pure { progress with installed := true }

def installRestoreFile :
    Restore C RestoreFileProgress := do
  -- the directory of the previous files is made first
  fileOperation id
  let s ← Faulty.get
  if !(payloadOf s.disk operationId).isPlainFile progress.name then
    Faulty.raise (.operation "restore_apply_failed")
  else if s.disk.live.isSymlink progress.name then
    Faulty.raise (.operation "restore_apply_failed")
  else if s.disk.live.isFile progress.name then do
    fileOperation (moveToPrevious operationId progress.name)
    putPayload operationId { progress with movedToPrevious := true }
  else putPayload operationId progress

def installAt (index : ℕ) : Restore C Unit := do
  let s ← Faulty.get
  match s.plan.files[index]? with
  | none => pure ()
  | some progress =>
    if progress.installed then pure ()
    else do
      let installed ← installRestoreFile s.plan.operationId progress
      setPlan fun plan => { plan with files := plan.files.set index installed }
      writePlan

section
variable (sqlite : Sqlite C)

variable (name : String)

def openDatabase : Restore C Unit :=
  Faulty.operation .database fun s =>
    { s with disk := { s.disk with live := sqlite.settled s.disk.live name } }

def isDatabaseName : Bool := endsIn ".db" name || endsIn ".sqlite3" name

def quickCheck : Restore C Unit := do
  openDatabase sqlite name
  let s ← Faulty.get
  match s.disk.live.content? name with
  | none => Faulty.raise .database
  | some content => check (sqlite.quickCheck content)

def validateFile : Restore C Unit := do
  let s ← Faulty.get
  if !s.disk.live.isPlainFile name then Faulty.raise (.operation "restore_apply_failed")
  else if isDatabaseName name then quickCheck sqlite name
  else pure ()

def checkEvidence (expected : Option ConversationEvidence) (actual : ConversationEvidence) :
    Except Fault Unit :=
  match expected with
  | none => .ok ()
  | some expected =>
    if actual ≠ expected then .error (.operation "restore_conversation_evidence_mismatch")
    else if actual.integrity = .invalid then
      .error (.operation "restore_conversation_schema_invalid")
    else .ok ()

def openReferenced : Restore C Unit := do
  let s ← Faulty.get
  if approvedReferencesOf sqlite s.disk.live = [] then pure ()
  else do
    openDatabase sqlite canonicalDbName
    let s ← Faulty.get
    check (validateQuarantineReferences sqlite s.disk.live)

def openFeedback : Restore C Unit := do
  let s ← Faulty.get
  if !touchesFeedback (s.plan.files.map (·.name)) then pure ()
  else do
    openDatabase sqlite feedbackSignalDbName
    let s ← Faulty.get
    check (validateFeedbackRestoreFiles sqlite s.disk.live (s.plan.files.map (·.name)))

def validateRestoredFiles : Restore C Unit := do
  let s ← Faulty.get
  Faulty.forEach (validateFile sqlite) (s.plan.files.map (·.name))
  let s ← Faulty.get
  check (checkEvidence s.plan.conversationEvidence (inspectConversationDatabase sqlite s.disk.live))
  openDatabase sqlite quarantineDbName
  openReferenced sqlite
  openFeedback sqlite

end

def unlinkLive (name : String) (d : Disk C) : Disk C := { d with live := d.live.put name none }

def moveBack (operationId name : String) (d : Disk C) : Disk C :=
  match d.operation? operationId with
  | none => d
  | some operation =>
    { (d.modifyOperation operationId fun o => { o with previous := o.previous.put name none })
      with live := d.live.put name (operation.previous name) }

def rollbackFile : Restore C Unit := do
  let s ← Faulty.get
  if (previousOf s.disk operationId).isFile progress.name then
    if s.disk.live.isFile progress.name then do
      fileOperation (unlinkLive progress.name)
      fileOperation (moveBack operationId progress.name)
    else fileOperation (moveBack operationId progress.name)
  else if progress.installed && s.disk.live.isFile progress.name then
    fileOperation (unlinkLive progress.name)
  else pure ()

def setStatus (status : RestoreStatus) : Restore C Unit :=
  setPlan fun plan => { plan with status }

/-- What follows an `OSError` of a rollback. -/
def rollbackFailed : Fault → Restore C Unit
  | .os => do
    setPlan fun plan =>
      { plan with status := .rollbackPending, reasonCode := some "restore_rollback_pending" }
    writePlan
    Faulty.raise (.operation "restore_rollback_pending")
  | fault => Faulty.raise fault

def rollbackRestoreFiles : Restore C Unit := do
  setStatus .rollingBack
  writePlan
  let s ← Faulty.get
  Faulty.handle (do
      Faulty.forEach (rollbackFile s.plan.operationId) s.plan.files.reverse
      setStatus .rolledBack
      writePlan)
    rollbackFailed

section
variable (sqlite : Sqlite C)

def createPreRestoreBackup (operationId : String) : Restore C Unit := do
  let s ← Faulty.get
  match s.disk.planOf operationId with
  | none => Faulty.raise (.operation "restore_not_found")
  | some plan =>
    if !s.disk.live.isFile canonicalDbName then pure ()
    else do
      openDatabase sqlite feedbackSignalDbName
      Faulty.operation (.operation "backup_create_failed") id
      let s ← Faulty.get
      check ((createBackup sqlite s.disk.live fun _ => s.disk.live).map fun _ => ())
      -- the plan with the name of the backup
      fileOperation fun d => d.writePlan plan

/-- A plan that is staged or scheduled goes to `applying`. -/
def beginApply : Restore C Unit := do
  let s ← Faulty.get
  if s.plan.status = .staged ∨ s.plan.status = .reloadScheduled then do
    createPreRestoreBackup sqlite s.plan.operationId
    Faulty.modify fun s => { s with plan := (s.disk.planOf s.plan.operationId).getD s.plan }
    setStatus .applying
    writePlan
    Faulty.modify fun s => { s with startedApply := true }
  else pure ()

def installFiles : Restore C Unit := do
  let s ← Faulty.get
  Faulty.forEach installAt (List.range s.plan.files.length)

def finishApply : Restore C Unit := do
  setPlan fun plan =>
    { plan with
      status := .validating
      files := plan.files.map fun progress => { progress with validated := true } }
  writePlan

/-- The body of the `try`. -/
def applyPlan : Restore C Unit := do
  beginApply sqlite
  installFiles
  validateRestoredFiles sqlite
  finishApply

def applyReason : Fault → String
  | .operation code => code
  | _ => "restore_apply_failed"

def ignoreOperationError : Fault → Restore C Unit
  | .operation _ => pure ()
  | fault => Faulty.raise fault

/-- The handler of the `try`. -/
def applyFailed (fault : Fault) : Restore C Unit := do
  setPlan fun plan => { plan with reasonCode := some (applyReason fault) }
  let s ← Faulty.get
  if !s.startedApply then do
    setStatus .failedBeforeApply
    writePlan
  else Faulty.handle rollbackRestoreFiles ignoreOperationError

/-- `apply_pending_restores` once the plan has been found. -/
def applyFound (plan : RestorePlan) : Restore C Unit := do
  Faulty.modify fun s =>
    { s with plan, startedApply := plan.status = .applying || plan.status = .validating }
  if plan.status = .rollbackPending then rollbackRestoreFiles
  else if plan.status = .staged ∨ plan.status = .reloadScheduled ∨ plan.status = .applying ∨
      plan.status = .validating then
    Faulty.handle (applyPlan sqlite) applyFailed
  else pure ()

end

def newOperation : Disk C :=
  { d with
    operations := d.operations.orderedInsert (fun a b => a.operationId ≤ b.operationId) { operationId } }

def removeOperation : Disk C :=
  { d with operations := d.operations.filter fun o => o.operationId ≠ operationId }

/-- `os.replace(source, payload_dir / name)`. -/
def moveLegacy (operationId name : String) (d : Disk C) : Disk C :=
  { (d.modifyOperation operationId fun o =>
      { o with payload := o.payload.put name ((d.legacy.find? fun e => e.1 = name).map Prod.snd) })
    with legacy := d.legacy.filter fun e => e.1 ≠ name }

/-- A new operation directory; an id that is taken makes `mkdir` fail. -/
def makeOperation : Restore C Unit := do
  let s ← Faulty.get
  if (s.disk.operation? operationId).isSome then Faulty.raise .os
  else fileOperation (newOperation operationId)

/-- `rmtree` with `ignore_errors`. -/
def removeTree (f : Disk C → Disk C) : Restore C Unit :=
  Faulty.handle (fileOperation f) fun _ => pure ()

def migrateLegacyRestoreFiles : Restore C (Option RestorePlan) := do
  let s ← Faulty.get
  let legacy := (s.disk.legacy.filter fun e => e.2.isFile).map Prod.fst
  if legacy = [] then pure none
  else do
    makeOperation operationId
    let names := legacy.filter isRestorableFileName
    Faulty.forEach (fun name => fileOperation (moveLegacy operationId name)) names
    if names = [] then do
      removeTree (removeOperation operationId)
      pure none
    else do
      let plan : RestorePlan := {
        operationId
        status := .staged
        files := names.map fun name => { name }
        reasonCode := some "legacy_restore_migrated" }
      setPlan fun _ => plan
      writePlan
      pure (some plan)

def applyPendingRestores (sqlite : Sqlite C) (drawn : String) : Restore C Unit := do
  -- an unreadable plan stops the start
  Faulty.operation (.operation "restore_plan_invalid") id
  let s ← Faulty.get
  match s.disk.readPlan with
  | some plan => applyFound sqlite plan
  | none => do
    let migrated ← migrateLegacyRestoreFiles drawn
    match migrated with
    | none => pure ()
    | some plan => applyFound sqlite plan

def copyPayload (file : String × C) (d : Disk C) : Disk C :=
  d.modifyOperation operationId fun o =>
    { o with payload := o.payload.put file.1 (some (.file file.2)) }

/-- `stage_restore` after its preflight; the files come with their contents in the backup. -/
def stageRestore (drawn : String) (files : List (String × C))
    (conversationEvidence : Option ConversationEvidence) : Restore C Unit := do
  let s ← Faulty.get
  if s.disk.readPlan.any RestorePlan.blocking then Faulty.raise (.operation "restore_conflict")
  else do
    makeOperation drawn
    Faulty.handle (do
        -- the free space is checked
        fileOperation id
        Faulty.forEach (fun file => fileOperation (copyPayload drawn file)) files
        setPlan fun _ => {
          operationId := drawn
          status := .staged
          files := files.map fun file => { name := file.1 }
          conversationEvidence }
        writePlan)
      fun fault => do
        removeTree (removeOperation drawn)
        Faulty.raise fault

def clearOperation : Restore C Unit := do
  removeTree fun d => d.modifyOperation operationId fun o => { o with payload := fun _ => none }
  removeTree fun d => d.modifyOperation operationId fun o => { o with previous := fun _ => none }

/-- `mark_restore_succeeded` where the runtime was published: its caller asks for `validating`. -/
def confirmRestore : Restore C Unit := do
  let s ← Faulty.get
  match s.disk.readPlan with
  | none => pure ()
  | some plan =>
    if plan.status = .validating then do
      setPlan fun _ => { plan with status := .succeeded, reasonCode := none }
      writePlan
      clearOperation plan.operationId
    else pure ()

/-- `mark_restore_startup_failure_if_needed`. -/
def markStartupFailure : Restore C Unit := do
  let s ← Faulty.get
  match s.disk.readPlan with
  | none => pure ()
  | some plan =>
    if plan.status = .validating then do
      setPlan fun _ =>
        { plan with status := .rollbackPending, reasonCode := some "restore_startup_failed" }
      writePlan
    else pure ()

def markReloadScheduled (scheduled : Bool) : Restore C Unit := do
  let s ← Faulty.get
  match s.disk.planOf operationId with
  | none => Faulty.raise (.operation "restore_not_found")
  | some plan => do
    setPlan fun _ =>
      if scheduled then { plan with status := .reloadScheduled }
      else { plan with status := .staged, reasonCode := some "hot_reload_schedule_failed" }
    writePlan

def cancelRestore : Restore C Unit := do
  let s ← Faulty.get
  match s.disk.planOf operationId with
  | none => Faulty.raise (.operation "restore_not_found")
  | some plan =>
    if plan.status ≠ .staged then Faulty.raise (.operation "restore_cancel_not_allowed")
    else do
      setPlan fun _ => { plan with status := .cancelled, reasonCode := none }
      writePlan
      clearOperation operationId

end Restore

inductive RestoreEvent (C : Type)
  | stage (drawn : String) (files : List (String × C))
      (evidence : Option ConversationEvidence) (faults : Faults (Process C))
  | schedule (operationId : String) (scheduled : Bool) (faults : Faults (Process C))
  | cancel (operationId : String) (faults : Faults (Process C))
  | apply (drawn : String) (faults : Faults (Process C))
  | confirm (faults : Faults (Process C))
  | startupFailed (faults : Faults (Process C))

namespace RestoreEvent

def program (sqlite : Sqlite C) : RestoreEvent C → Restore C Unit
  | .stage drawn files evidence _ => Restore.stageRestore drawn files evidence
  | .schedule operationId scheduled _ => Restore.markReloadScheduled operationId scheduled
  | .cancel operationId _ => Restore.cancelRestore operationId
  | .apply drawn _ => Restore.applyPendingRestores sqlite drawn
  | .confirm _ => Restore.confirmRestore
  | .startupFailed _ => Restore.markStartupFailure

def faults : RestoreEvent C → Faults (Process C)
  | .stage _ _ _ faults | .schedule _ _ faults | .cancel _ faults | .apply _ faults
  | .confirm faults | .startupFailed faults => faults

end RestoreEvent

def restoreStep (sqlite : Sqlite C) (d : Disk C) (event : RestoreEvent C) : Disk C :=
  ((event.program sqlite).after { disk := d } event.faults).disk

end Memora.Backup

import Memora.RepresentationPlans
import Memora.RowTable

/-! A run of `apply` takes the items of a plan in order, writes each row under the revision that the
plan expects, records a checkpoint after every batch, and has the derived data rebuilt at the
end. A run may be cut off at every await; the next one resumes after the checkpoint. -/
namespace Memora.Representation
open Canonical

inductive ItemOutcome
  | applied | skipped | conflict | unavailable | failed
  deriving DecidableEq

structure Updates where
  content : Option String := none
  metadata : Metadata

/-- What an item comes to before anything is written: a result, or an update of a row. -/
inductive Decision
  | settled (outcome : ItemOutcome) (reason : Reason)
  | write (id : ℤ) (updates : Updates)

def loadRow (rows : List Row) (id : ℤ) : Option Row := rows.find? fun r => r.id = id

def maxMergedIdempotencyKeys : ℕ := 16

def mergeCount (m : Metadata) : ℤ :=
  match m.get? "merge_count" with
  | some (.int n) => if n < 0 then 0 else n
  | _ => 0

def mergedKeys (m : Metadata) : List String :=
  match m.get? "merged_idempotency_keys" with
  | some (.arr items) => items.filterMap fun item =>
      match item with
      | .str s => if s = "" then none else some s
      | _ => none
  | _ => []

def mergeKeys (m : Metadata) (key : String) : List String :=
  let keys := (mergedKeys m).filter (· ≠ key)++[key]
  keys.drop (keys.length - maxMergedIdempotencyKeys)

def idempotencyKey (item : MigrationPlanItem) : String :=
  "representation-migration:"++toString item.memoryId

def RepresentationTarget.updates (target : RepresentationTarget) : Updates where
  content := if target.writeKind = .content then some target.content else none
  metadata := target.metadataUpdates

def reinforceUpdates (clock : ℚ) (m : Metadata) (item : MigrationPlanItem) : Updates where
  metadata := (({} : Metadata).set "merge_count" (.int (mergeCount m+1))).set
    "last_merged_at" (.float clock) |>.set
    "merged_idempotency_keys" (.arr ((mergeKeys m (idempotencyKey item)).map .str))

/-- `_apply_representation_rewrite` up to the update. -/
def decideRewrite (rows : List Row) (item : MigrationPlanItem) : Decision :=
  match loadRow rows item.memoryId with
  | none => .settled .skipped .sourceNotFound
  | some row =>
    match row.target.reasonCode with
    | some reason => .settled .unavailable reason
    | none =>
      if !row.target.changed then .settled .skipped .alreadyApplied
      else if row.revision ≠ item.expectedRevision then .settled .conflict .revisionConflict
      else .write item.memoryId row.target.updates

/-- `_apply_owner_reinforce` up to the update. -/
def decideReinforce (clock : ℚ) (rows : List Row) (item : MigrationPlanItem) : Decision :=
  match item.ownerMemoryId with
  | none => .settled .unavailable .metadataInvalid
  | some ownerId =>
    if ownerId < 1 then .settled .unavailable .metadataInvalid
    else
      match loadRow rows ownerId, loadRow rows item.memoryId with
      | none, _ => .settled .skipped .ownerNotFound
      | some _, none => .settled .skipped .sourceNotFound
      | some owner, some _ =>
        match owner.metadata with
        | none => .settled .unavailable .metadataInvalid
        | some m =>
          if !recallable m then .settled .unavailable .ownerNotRecallable
          else
            let expected := item.ownerExpectedRevision.getD ""
            if expected = "" ∨ owner.revision ≠ expected then .settled .conflict .revisionConflict
            else .write ownerId (reinforceUpdates clock m item)

def decideItem (clock : ℚ) (rows : List Row) (item : MigrationPlanItem) : Decision :=
  match item.action with
  | .ownerReinforce => decideReinforce clock rows item
  | .representationRewrite => decideRewrite rows item

/-- The row is read again after an update that returned false: is it what the item is for? The
rows before the update tell the merges that the owner had. -/
def landed (before rows : List Row) (item : MigrationPlanItem) : Bool :=
  match item.action with
  | .representationRewrite =>
    match loadRow rows item.memoryId with
    | none => false
    | some row => row.target.reasonCode = none && !row.target.changed
  | .ownerReinforce =>
    match item.ownerMemoryId.bind (loadRow before), item.ownerMemoryId.bind (loadRow rows) with
    | some old, some fresh =>
      match old.metadata, fresh.metadata with
      | some baseline, some m =>
        idempotencyKey item ∈ mergedKeys m || mergeCount baseline < mergeCount m
      | _, _ => false
    | _, _ => false

/-- What `update_memory` makes of the text and the metadata of a row, and the time that it
stamps on its n-th write. -/
structure Engine where
  write : Row → Updates → Option String × Option Metadata
  stamp : ℕ → String

def exactWrite (r : Row) (updates : Updates) : Option String × Option Metadata :=
  (updates.content.or r.text,some ((r.metadata.getD {}).update updates.metadata))

variable (engine : Engine)

def Engine.writeRow (n : ℕ) (updates : Updates) (r : Row) : Row :=
  { r with
    text := (engine.write r updates).1
    metadata := (engine.write r updates).2
    updatedAt := some (engine.stamp n) }

def Engine.update (n : ℕ) (id : ℤ) (updates : Updates) (rows : List Row) :
    List Row :=
  RowTable.modify (fun r => r.id = id) (engine.writeRow n updates) rows

structure Counts where
  applied : ℕ := 0
  skipped : ℕ := 0
  conflict : ℕ := 0
  failed : ℕ := 0
  unavailable : ℕ := 0
  deriving DecidableEq

def Counts.count (counts : Counts) : ItemOutcome → Counts
  | .applied => { counts with applied := counts.applied+1 }
  | .skipped => { counts with skipped := counts.skipped+1 }
  | .conflict => { counts with conflict := counts.conflict+1 }
  | .failed => { counts with failed := counts.failed+1 }
  | .unavailable => { counts with unavailable := counts.unavailable+1 }

def Counts.degraded (counts : Counts) : Bool :=
  counts.conflict ≠ 0 || counts.failed ≠ 0 || counts.unavailable ≠ 0

inductive CheckpointStatus
  | notRequired | recorded | unavailable
  deriving DecidableEq

inductive DerivedStatus
  | available | degraded | unavailable | notApplicable
  deriving DecidableEq

structure Report where
  completed : Bool
  resumed : Bool
  counts : Counts
  reasonCounts : Dict Reason ℕ
  derived : DerivedStatus
  checkpoint : CheckpointStatus
  deriving DecidableEq

inductive Phase
  | items
  | checkpoint (lastProcessedId : ℤ)
  | rebuild
  deriving DecidableEq

structure Process where
  pending : List MigrationPlanItem
  resumed : Bool
  index : ℕ := 0
  counts : Counts := {}
  reasonCounts : Dict Reason ℕ := {}
  checkpointStatus : CheckpointStatus := .notRequired
  phase : Phase := .items

inductive Entry
  | wrote (item : MigrationPlanItem)
  | rebuilt
  | reported (report : Report)
  deriving DecidableEq

structure World where
  rows : List Row
  checkpoint : Option ℤ := none
  process : Option Process := none
  log : List Entry := []
  writes : ℕ := 0

/-- How an update ends: it returns true; it returns false or raises, or the run does not live to
see it, with the row written or not. -/
inductive Update
  | applied
  | refused (committed : Bool)
  | raised (committed : Bool)
  | lost (committed : Bool)
  deriving DecidableEq

inductive Save
  | recorded
  | failed
  | lost (committed : Bool)
  deriving DecidableEq

inductive Rebuild
  | succeeded | failed | unavailable
  | lost (done : Bool)
  deriving DecidableEq

inductive Event
  /-- A call of `apply`; the checkpoint can be read or not. -/
  | start (confirmation : String) (resume readable : Bool)
  | item (update : Update) (clock : ℚ)
  | save (save : Save)
  | rebuild (rebuild : Rebuild)
  /-- A cancellation, a crash, or a read that fails. -/
  | stop
  deriving DecidableEq

variable (w : World) (p : Process)

def World.report (derived : DerivedStatus) (degraded : Bool) : World :=
  { w with
    process := none
    log := w.log++[.reported {
      completed := !(p.counts.degraded || degraded), resumed := p.resumed, counts := p.counts
      reasonCounts := p.reasonCounts, derived, checkpoint := p.checkpointStatus }] }

def World.proceed : World :=
  if p.pending ≠ [] then { w with process := some { p with phase := .items } }
  else if 0 < p.counts.applied then { w with process := some { p with phase := .rebuild } }
  else w.report p .notApplicable false

/-- `_checkpoint_last_id`. -/
def World.cursor : ℤ := max 0 (w.checkpoint.getD 0)

def startAfter (resume readable : Bool) : ℤ := if resume && readable then w.cursor else 0

/-- `apply` up to its first item. -/
def World.start (plan : MigrationPlan) (w : World) (confirmation : String)
    (resume readable : Bool) : World :=
  let confirmationToken := pythonStrip confirmation
  if confirmationToken = "" ∨ confirmationToken ≠ plan.operatorConfirmation then w
  else
    let after := startAfter w resume readable
    w.proceed {
      pending := plan.items.filter fun item => after < item.memoryId
      resumed := 0 < after }

variable (batchSize : ℕ+)

def World.settle (w : World) (p : Process) (item : MigrationPlanItem)
    (rest : List MigrationPlanItem) (outcome : ItemOutcome) (reason : Option Reason) : World :=
  let p := { p with
    pending := rest
    index := p.index+1
    counts := p.counts.count outcome
    reasonCounts := match reason with
      | some reason => bump p.reasonCounts reason
      | none => p.reasonCounts }
  if p.index % (batchSize : ℕ) = 0 ∨ rest = [] then
    { w with process := some { p with phase := .checkpoint item.memoryId } }
  else { w with process := some { p with phase := .items } }

def World.commit (item : MigrationPlanItem) (id : ℤ) (updates : Updates) : World :=
  { w with
    rows := engine.update w.writes id updates w.rows
    log := w.log++[.wrote item]
    writes := w.writes+1 }

def World.applyItem (w : World) (p : Process) (item : MigrationPlanItem)
    (rest : List MigrationPlanItem) (update : Update) (clock : ℚ) :
    World :=
  match decideItem clock w.rows item with
  | .settled outcome reason => w.settle batchSize p item rest outcome (some reason)
  | .write id updates =>
    let written (committed : Bool) := if committed then w.commit engine item id updates else w
    match update with
    | .applied => (written true).settle batchSize p item rest .applied none
    | .refused committed =>
      let after := written committed
      if landed w.rows after.rows item then
        after.settle batchSize p item rest .skipped (some .alreadyApplied)
      else after.settle batchSize p item rest .conflict (some .revisionConflict)
    | .raised committed =>
      (written committed).settle batchSize p item rest .failed (some .applyFailed)
    | .lost committed => { written committed with process := none }

def World.saveCheckpoint (last : ℤ) : Save → World
  | .recorded =>
    ({ w with checkpoint := some last } : World).proceed { p with checkpointStatus := .recorded }
  | .failed => w.proceed { p with checkpointStatus := .unavailable }
  | .lost committed =>
    { w with checkpoint := if committed then some last else w.checkpoint, process := none }

def World.rebuildDerived : Rebuild → World
  | .succeeded => ({ w with log := w.log++[.rebuilt] } : World).report p .available false
  | .failed => w.report p .degraded true
  | .unavailable => w.report p .unavailable true
  | .lost done => { w with log := if done then w.log++[.rebuilt] else w.log, process := none }

/-- One step of the plan's runs; what does not fit the state changes nothing. -/
def World.step (plan : MigrationPlan) (w : World) (event : Event) : World :=
  match w.process, event with
  | none, .start confirmation resume readable => w.start plan confirmation resume readable
  | none, _ => w
  | some _, .stop => { w with process := none }
  | some p, .item update clock =>
    match p.phase, p.pending with
    | .items, item::rest => w.applyItem engine batchSize p item rest update clock
    | _, _ => w
  | some p, .save save =>
    match p.phase with
    | .checkpoint last => w.saveCheckpoint p last save
    | _ => w
  | some p, .rebuild rebuild =>
    match p.phase with
    | .rebuild => w.rebuildDerived p rebuild
    | _ => w
  | some _, .start .. => w

end Memora.Representation

import Memora.LearningLifecycle
import Memora.RunLaws

/-! Managers of any number of plugin instances over one state file and one configuration. Each
call is one critical section of a manager or one write of the adapter. -/
namespace Memora.Learning

structure SystemEnv (F γ : Type*) extends LearningEnv F γ where
  store : StoreEnv (Payload F)
  read : γ → Option (ConfigSnapshot F)

structure Task (F : Type*) where
  owner : ℕ
  intent : Intent F
  result : Option ApplyResult := none
  deriving DecidableEq

structure AppliedWrite (F γ : Type*) where
  intent : Intent F
  before : γ
  after : γ

structure Origin (F : Type*) where
  published : String → Option (Intent F) := fun _ => none
  issued : String → Option (Intent F) := fun _ => none

def Origin.draw {F : Type*} (o : Origin F) (i : Intent F) : Origin F where
  published := match i.action with
    | .publish => Function.update o.published i.publicationRevision (some i)
    | .rollback => o.published
  issued := Function.update o.issued i.operationId (some i)

/-- Besides what the code keeps, the history: what ids were drawn for, and the applied
writes. -/
structure World (F γ : Type*) where
  config : γ
  shared : Shared (Payload F) (Legacy F) := {}
  managers : ℕ → Manager F := fun _ => {}
  tasks : List (Task F) := []
  origin : Origin F := {}
  writes : List (AppliedWrite F γ) := []

structure Draw where
  operationId : String := ""
  publicationRevision : String := ""
  candidateId : String := ""
  tombstoneId : String := ""
  recoveryRevision : String := ""
  stateRevision : String := ""
  now : String := ""

/-- A save that fails or is cancelled after so many file replacements. -/
structure SaveFault where
  reached : ℕ
  cancelled : Bool

/-- A save is stored, fails with a persistence error, or raises something else. -/
inductive SaveResult
  | stored | refused | raised
  deriving DecidableEq

inductive LearningCall (F γ : Type*)
  | configure (c : γ)
  | start (i : ℕ) (enabled : Bool)
  | load (i : ℕ) (moved : Bool) (judge : Judge F) (recoveryRevision : String → String)
      (ids : LegacyIds)
  | publish (i : ℕ) (candidateId expectedRevision : String) (seen : γ)
      (evidenceCurrent evidenceValid : Bool)
  | rollback (i : ℕ) (candidateId expectedRevision : String) (seen : γ)
  | write (operationId : String) (outcome : WriteOutcome) (after : γ) (readable : Bool)
  | finish (operationId : String)
  | unknown (operationId : String) (after : γ)
  | cancel (operationId : String) (after : γ)
  | abandon (operationId : String)
  | rebuild (i : ℕ) (record : Candidate F) (artifactDiffers : Bool)
  | replaceWithReferenced (i : ℕ)
  | reset (i : ℕ) (now : ℤ)
  | recordReload (i : ℕ) (action : Action) (candidateId operationId appliedRevision : String)
      (changedPaths : List String) (queued moved : Bool) (judge : Judge F)
  | updateReload (i : ℕ) (operationId : String) (state : ReloadState) (reasonCode : String)
      (expected : Option String) (moved : Bool) (judge : Judge F)
  | reconcileReload (i : ℕ) (effective : Weights F) (moved : Bool) (judge : Judge F)
  | save (i : ℕ)

structure LearningStep (F γ : Type*) where
  call : LearningCall F γ
  draw : Draw := {}
  fault : Option SaveFault := none

variable {F γ : Type*} (env : SystemEnv F γ)

/-- The errors of `save` that the manager handles; the others leave its call. -/
def persistenceError (reason : String) : Bool :=
  reason = "learning_state_recovery_required" || reason = "learning_state_revision_conflict" ||
    reason = "learning_state_migration_conflict"

def Manager.finish (m : Manager F) (intent : Intent F) (result : ApplyResult) (d : Draw) :
    Finish F :=
  match intent.action with
  | .publish => m.finishPublish intent.operationId result d.recoveryRevision d.now
  | .rollback =>
    m.finishRollback intent.operationId result d.tombstoneId d.recoveryRevision d.now

namespace World

def setManager (w : World F γ) (i : ℕ) (m : Manager F) : World F γ :=
  { w with managers := Function.update w.managers i m }

def updateManager (w : World F γ) (i : ℕ) (f : Manager F → Manager F) : World F γ :=
  w.setManager i (f (w.managers i))

def dropTask (w : World F γ) (operationId : String) : World F γ :=
  { w with tasks := w.tasks.filter fun t => t.intent.operationId ≠ operationId }

/-- What `_save_state` asks of the store, and how it ends. -/
def writeFiles (w : World F γ) (i : ℕ) (revision : String) (fault : Option SaveFault)
    (moments : Except String (List (Files (Payload F) (Legacy F)))) : World F γ × SaveResult :=
  match moments with
  | .error reason => (w,if persistenceError reason then .refused else .raised)
  | .ok moments => match fault with
    | none =>
      ({ w with shared := w.shared.replaced i moments revision 3 }.updateManager i fun m =>
        { m with stateRevision := some revision, ownStateRevision := some revision },.stored)
    | some f =>
      ({ w with shared := w.shared.replaced i moments revision (min f.reached 2) },
        if f.cancelled then .raised else .refused)

def saveState (w : World F γ) (i : ℕ) (d : Draw) (fault : Option SaveFault) :
    World F γ × SaveResult :=
  let m := w.managers i
  if m.writesBlocked then (w,.refused)
  else w.writeFiles i d.stateRevision fault
    (w.shared.files.save env.store (w.shared.loaded i) m.toPayload d.stateRevision)

/-- Change the memory of a manager and save it; a persistence error is handled by `undo`. -/
def commit (w : World F γ) (i : ℕ) (d : Draw) (fault : Option SaveFault) (m : Manager F)
    (undo : Manager F → Manager F) : World F γ × SaveResult :=
  let (w',r) := (w.setManager i m).saveState env i d fault
  match r with
  | .refused => (w'.updateManager i undo,.refused)
  | r => (w',r)

def keepRecords (old m : Manager F) : Manager F :=
  { m with
    candidates := old.candidates
    tombstones := old.tombstones
    terminalOperations := old.terminalOperations }

def keepReload (old m : Manager F) : Manager F :=
  { m with reloadOperation := old.reloadOperation }

def startTask (w : World F γ) (i : ℕ) (d : Draw) (fault : Option SaveFault) (intent : Intent F)
    (m : Manager F) : World F γ :=
  let (w',r) := w.commit env i d fault m fun m => m.dropOperation intent.operationId
  match r with
  | .stored => { w' with tasks := w'.tasks++[{ owner := i, intent }] }
  | _ => w'

def publish (w : World F γ) (i : ℕ) (candidateId expectedRevision : String) (seen : γ)
    (evidenceCurrent evidenceValid : Bool) (d : Draw) (fault : Option SaveFault) : World F γ :=
  match (w.managers i).preparePublish env.toLearningEnv candidateId expectedRevision
      (env.read seen) evidenceCurrent evidenceValid d.operationId d.publicationRevision d.now with
  | .error _ => w
  | .ok (intent,m) =>
    { w with origin := w.origin.draw intent }.startTask env i d fault intent m

def rollback (w : World F γ) (i : ℕ) (candidateId expectedRevision : String) (seen : γ)
    (d : Draw) (fault : Option SaveFault) : World F γ :=
  match (w.managers i).prepareRollback env.toLearningEnv candidateId expectedRevision
      (env.read seen) d.operationId d.now with
  | .answer _ => w
  | .raised => w
  | .clear _ m => (w.commit env i d fault m id).1
  | .prepared intent m =>
    { w with origin := w.origin.draw intent }.startTask env i d fault intent m

def saveFinal (w : World F γ) (i : ℕ) (d : Draw) (fault : Option SaveFault) (m : Manager F)
    (operationId : String) (action : Action) (reasonCode : String) : World F γ :=
  (w.commit env i d fault m fun m =>
    m.addRecoveryRecord d.recoveryRevision operationId action.name reasonCode d.now).1

def finishTask (w : World F γ) (t : Task F) (result : ApplyResult) (d : Draw)
    (fault : Option SaveFault) : World F γ :=
  match (w.managers t.owner).finish t.intent result d with
  | .unclaimed _ => w
  | .settled _ m' => w.saveFinal env t.owner d fault m' t.intent.operationId t.intent.action
      "terminal_state_persistence_failed"
  | .confirmed _ m' => w.saveFinal env t.owner d fault m' t.intent.operationId t.intent.action
      "final_state_persistence_failed"
  | .recovery _ m' => (w.commit env t.owner d fault m' id).1

def task? (w : World F γ) (operationId : String) : Option (Task F) :=
  w.tasks.find? fun t => t.intent.operationId = operationId

/-- `_finish_unknown_publish` and `_finish_unknown_rollback`. -/
def unknownTask (w : World F γ) (t : Task F) (d : Draw) (fault : Option SaveFault) : World F γ :=
  let reason := match t.intent.action with
    | .publish => "learning_publish_recovery_required"
    | .rollback => "learning_rollback_recovery_required"
  (w.commit env t.owner d fault ((w.managers t.owner).setRecovery t.intent.operationId
    t.intent.action reason
      d.recoveryRevision d.now) id).1

def cancelTask (w : World F γ) (t : Task F) (d : Draw) (fault : Option SaveFault) : World F γ :=
  match (w.managers t.owner).markCancelled t.intent.operationId d.recoveryRevision d.now with
  | none => w
  | some m => (w.commit env t.owner d fault m id).1

def adopt (m : Manager F) (r : LoadResult (Payload F) (Legacy F)) : Manager F :=
  { m with
    stateRevision := r.stateRevision.map Subtype.val
    ownStateRevision := none
    stateCorrupt := r.stateCorrupt
    stateRecoveryRequired := r.recoveryRequired }

def spoiled (m : Manager F) : Manager F :=
  { m with stateCorrupt := true, stateRecoveryRequired := true }

def noteLoad (w : World F γ) (i : ℕ)
    (r : Files (Payload F) (Legacy F) × LoadResult (Payload F) (Legacy F)) : World F γ :=
  { w with shared := { w.shared with files := r.1 }.note i r.2.seen }

def load (w : World F γ) (i : ℕ) (moved : Bool) (judge : Judge F)
    (recoveryRevision : String → String) (ids : LegacyIds) (d : Draw) (fault : Option SaveFault) :
    World F γ :=
  let r := w.shared.files.loadSync env.store moved
  let w' := w.noteLoad i r
  let m := adopt (w.managers i) r.2
  match r.2.payload with
  | none => w'.setManager i m
  | some (.inr legacy) =>
    match (legacy.migrate env.toLearningEnv ids d.now).bind fun p =>
        (p.restore env.toLearningEnv judge).map fun restored => (p,restored) with
    | none => w'.setManager i (spoiled m)
    | some (p,restored) =>
      let w₁ := w'.setManager i { m with toPayload := restored }
      let (w₂,ending) := w₁.writeFiles i d.stateRevision fault
        (w₁.shared.files.migrateLegacy env.store (r.2.migrationRevision.getD "") p d.stateRevision)
      match ending with
      | .stored => w₂.updateManager i fun m =>
          { m with ownStateRevision := none, stateCorrupt := false, stateRecoveryRequired := false }
      | _ => w₂.updateManager i fun m => { m with stateRecoveryRequired := true }
  | some (.inl p) =>
    match p.restore env.toLearningEnv judge with
    | none => w'.setManager i (spoiled m)
    | some restored =>
      w'.setManager i (({ m with toPayload := restored } : Manager F).interruptClaims recoveryRevision d.now)

/-- `_refresh_state_if_changed_unlocked`. -/
def refresh (w : World F γ) (i : ℕ) (moved : Bool) (judge : Judge F) : World F γ × Bool :=
  let r := w.shared.files.loadSync env.store moved
  let w' := w.noteLoad i r
  let m := w.managers i
  if r.2.stateRevision.map Subtype.val = m.stateRevision ∧ r.2.stateCorrupt = false ∧
      r.2.recoveryRequired = false then (w',true)
  else match r.2.payload with
    | some (.inl p) =>
      match p.restore env.toLearningEnv judge with
      | none => (w'.setManager i (spoiled (adopt m r.2)),false)
      | some restored =>
        (w'.setManager i { adopt m r.2 with toPayload := restored }, !(adopt m r.2).writesBlocked)
    | _ => (w'.setManager i (adopt m r.2),false)

def storeReload (w : World F γ) (i : ℕ) (moved : Bool) (judge : Judge F) (d : Draw)
    (fault : Option SaveFault) (next : Manager F → Option (ReloadOperation F)) : World F γ :=
  let (w',fresh) := w.refresh env i moved judge
  if fresh then
    match next (w'.managers i) with
    | none => w'
    | some r =>
      (w'.commit env i d fault { w'.managers i with reloadOperation := some r } (keepReload (w'.managers i))).1
  else w'

variable [DecidableEq F] [DecidableEq γ]

def writeTask (w : World F γ) (t : Task F) (outcome : WriteOutcome) (after : γ) (readable : Bool) :
    World F γ :=
  match t.result with
  | some _ => w
  | none =>
    let result := env.applyWeights w.config t.intent.target t.intent.requestedRevision outcome
      (if readable then some after else none)
    let config :=
      if (env.refusedApply w.config t.intent.target t.intent.requestedRevision).isSome then w.config
      else after
    { w with
      config
      tasks := w.tasks.map fun u =>
        if u.intent.operationId = t.intent.operationId then { u with result := some result } else u
      writes := if result.applied then w.writes++[⟨t.intent,w.config,config⟩] else w.writes }

def step (w : World F γ) (s : LearningStep F γ) : World F γ :=
  match s.call with
  | .configure c => { w with config := c }
  | .start i enabled =>
    { w with
      managers := Function.update w.managers i { enabled }
      shared := w.shared.note i .unset
      tasks := w.tasks.filter fun t => t.owner ≠ i }
  | .load i moved judge recoveryRevision ids =>
    w.load env i moved judge recoveryRevision ids s.draw s.fault
  | .publish i candidateId expected seen current valid =>
    w.publish env i candidateId expected seen current valid s.draw s.fault
  | .rollback i candidateId expected seen => w.rollback env i candidateId expected seen s.draw s.fault
  | .write operationId outcome after readable =>
    (w.task? operationId).elim w fun t => w.writeTask env t outcome after readable
  | .finish operationId =>
    (w.task? operationId).elim w fun t => t.result.elim w fun result =>
      (w.dropTask operationId).finishTask env t result s.draw s.fault
  | .unknown operationId after =>
    (w.task? operationId).elim w fun t =>
      { w.dropTask operationId with config := after }.unknownTask env t s.draw s.fault
  | .cancel operationId after =>
    (w.task? operationId).elim w fun t =>
      { w.dropTask operationId with config := after }.cancelTask env t s.draw s.fault
  | .abandon operationId => w.dropTask operationId
  | .rebuild i record differs =>
    ((w.managers i).rebuildCandidates record s.draw.candidateId differs).elim w fun m =>
      (w.commit env i s.draw s.fault m (keepRecords (w.managers i))).1
  | .replaceWithReferenced i =>
    (w.managers i).replaceWithReferenced.elim w fun m =>
      (w.commit env i s.draw s.fault m (keepRecords (w.managers i))).1
  | .reset i now =>
    ((w.managers i).reset env.toLearningEnv now).elim w fun m =>
      (w.commit env i s.draw s.fault m (keepRecords (w.managers i))).1
  | .recordReload i action candidateId operationId applied paths queued moved judge =>
    if !isOpaqueId candidateId || !isOpaqueId operationId || !visibleAscii applied 128 ||
        (changedWeightPaths paths).isEmpty then w
    else w.storeReload env i moved judge s.draw s.fault fun m =>
      m.recordReload env.toLearningEnv action candidateId operationId applied paths queued s.draw.now
  | .updateReload i operationId state reason expected moved judge =>
    if !isOpaqueId operationId || !safeReason reason ||
        !(expected.all fun e => visibleAscii e 128) then w
    else w.storeReload env i moved judge s.draw s.fault fun m =>
      m.updateReload operationId state reason expected s.draw.now
  | .reconcileReload i effective moved judge =>
    if !env.floats.weightPair effective then w
    else w.storeReload env i moved judge s.draw s.fault fun m =>
      m.reconcileReload env.toLearningEnv effective s.draw.now
  | .save i => (w.saveState env i s.draw s.fault).1

def run (w : World F γ) (steps : List (LearningStep F γ)) : World F γ :=
  steps.foldl (step env) w

end World

end Memora.Learning

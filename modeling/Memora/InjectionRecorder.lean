import Memora.InjectionDecisionStore

/-! Callers put records into a bounded queue; one worker moves them to a retained batch and hands
the batch to the store. A step runs the worker up to a point where another task may run. -/
namespace Memora.Injection

/-- A record as it stands in the queue of a recorder: a record queued twice is queued as two. -/
structure Admission where
  owner : ℕ
  ticket : ℕ
  item : RecorderItem
  deriving DecidableEq

inductive InsertPhase
  | created
  | attempting (attempt : ℕ) (committed : Bool)
  | returned
  | raised (e : StoreException)
  | cancelled
  deriving DecidableEq

def InsertPhase.done : InsertPhase → Bool
  | .returned | .raised _ | .cancelled => true
  | _ => false

structure PersistTask where
  batch : List Admission
  phase : InsertPhase
  deriving DecidableEq

/-- What can happen to the call. `commits` is the moment the transaction takes effect, whether or
not the call learns of it; a rollback raises only on a dead connection. -/
inductive InsertEvent
  | begins
  | statementRaises (e : StoreException) (rollback : Option StoreException)
  | commits
  | commitRaises (e : StoreException) (rollback : Option StoreException)
  | commitReturns
  | cancels
  deriving DecidableEq

/-- `max_retries` of `write_transaction`. -/
def maxRetries : ℕ := 5

/-- `write_transaction` after its operation raised. -/
def afterFailure (attempt : ℕ) (e : StoreException) : InsertPhase :=
  if e.isConnectionFatal then .raised e
  else if e.isRetryEligible then
    if attempt = maxRetries - 1 then .raised e else .attempting (attempt+1) false
  else .raised e

section Insert
variable (traceSnapshotValues : RecallTraceSnapshot → Except String RecallTraceSnapshot)

def commitFailure (values : BatchValues) (e : StoreException) : StoreException :=
  if values.lifecycleValues.isEmpty then e else lifecycleCommitOutcomeUnknown

/-- One event of the call; `none` when it cannot happen now. -/
def PersistTask.step (store : DecisionStore) (task : PersistTask) (event : InsertEvent) :
    Option (DecisionStore × PersistTask) :=
  match task.phase, event with
  | .created, .cancels => some (store,{ task with phase := .cancelled })
  | .created, .begins =>
    match batchValues traceSnapshotValues (task.batch.map (·.item)) with
    | .error message => some (store,{ task with phase := .raised { lowered := message } })
    | .ok _ => some (store,{ task with phase := .attempting 0 false })
  | .attempting attempt false, .statementRaises e rollback =>
    if rollback.all (·.isConnectionFatal) then
      some (store,{ task with phase := afterFailure attempt (rollback.getD e) })
    else none
  | .attempting attempt false, .commits =>
    match batchValues traceSnapshotValues (task.batch.map (·.item)) with
    | .error _ => none
    | .ok values =>
      (store.write values).map fun store' =>
        (store',{ task with phase := .attempting attempt true })
  | .attempting attempt _, .commitRaises e rollback =>
    match batchValues traceSnapshotValues (task.batch.map (·.item)) with
    | .error _ => none
    | .ok values =>
      if rollback.all (·.isConnectionFatal) then
        some (store,{ task with
          phase := afterFailure attempt (rollback.getD (commitFailure values e)) })
      else none
  | .attempting _ true, .commitReturns => some (store,{ task with phase := .returned })
  | .attempting _ _, .cancels => some (store,{ task with phase := .cancelled })
  | _, _ => none

end Insert

structure RecorderConfig where
  queueCapacity : ℕ
  batchSize : ℕ
  retentionDays : ℕ
  maxRows : ℕ
  flushInterval : ℚ
  /-- `_retry_delay`. -/
  retryDelay : ℕ → ℚ
  capacity_pos : 1 ≤ queueCapacity
  batch_pos : 1 ≤ batchSize

structure RecorderWorkerState where
  flushAt : Option ℚ
  batchRetryAt : ℚ
  batchAttempt : ℕ
  cleanupRetryAt : ℚ
  cleanupAttempt : ℕ
  nextPeriodicCleanupAt : ℚ
  lastLightweightCleanupAt : ℚ
  rowsSinceCleanup : ℕ

/-- Where the worker stands in `_run`. -/
inductive WorkerPoint
  /-- No worker, or a finished one. -/
  | absent
  /-- The task exists and has not run yet. -/
  | created
  /-- At the start of a pass of the loop. -/
  | top
  /-- At `await asyncio.shield(persist_task)`. -/
  | flushing (task : PersistTask)
  /-- Cancelled while open, at `await persist_task`. -/
  | awaiting (task : PersistTask)
  /-- Cancelled while closing, at the `gather` of the cancelled call. -/
  | gathering (task : PersistTask) (interrupted : Bool)
  /-- Past the flush of a pass. -/
  | flushed
  /-- At `await self.store.cleanup(..)` for a generation. -/
  | cleaning (generation : ℕ)
  /-- Past the cleanup of a pass. -/
  | cleaned
  /-- Closed with nothing left to write. -/
  | ending
  | waiting
  deriving DecidableEq

def WorkerPoint.inFlight : WorkerPoint → List Admission
  | .flushing task | .awaiting task | .gathering task _ => task.batch
  | _ => []

/-- `dropped` and `persisted` are what `_dropped_total` and `_persisted_total` count, `admitted`
is what was ever queued. -/
structure Recorder where
  number : ℕ
  config : RecorderConfig
  retentionDays : ℕ
  maxRows : ℕ
  queue : List Admission
  retained : List Admission
  admitted : List Admission
  persisted : List Admission
  dropped : List Admission
  failuresTotal : ℕ
  closing : Bool
  idle : Bool
  cleanupGeneration : ℕ
  cleanupCompletedGeneration : ℕ
  worker : WorkerPoint
  state : RecorderWorkerState

namespace Recorder

variable (r : Recorder)

def pending : List Admission := r.worker.inFlight++r.retained++r.queue

def cleanupPending : Bool := r.cleanupCompletedGeneration < r.cleanupGeneration

def drained : Bool := r.retained.isEmpty && r.queue.isEmpty

variable (now : ℚ)

def newWorkerState : RecorderWorkerState where
  flushAt := if r.retained.isEmpty then none else some (now+r.config.flushInterval)
  batchRetryAt := 0
  batchAttempt := 0
  cleanupRetryAt := 0
  cleanupAttempt := 0
  nextPeriodicCleanupAt := now+86400
  lastLightweightCleanupAt := now - 3600
  rowsSinceCleanup := 0

/-- `InjectionDecisionRecorder(..)`. -/
def new (number : ℕ) (config : RecorderConfig) : Recorder where
  number := number
  config := config
  retentionDays := config.retentionDays
  maxRows := config.maxRows
  queue := []
  retained := []
  admitted := []
  persisted := []
  dropped := []
  failuresTotal := 0
  closing := false
  idle := true
  cleanupGeneration := 0
  cleanupCompletedGeneration := 0
  worker := .absent
  state :=
    { flushAt := none, batchRetryAt := 0, batchAttempt := 0, cleanupRetryAt := 0
      cleanupAttempt := 0, nextPeriodicCleanupAt := 0, lastLightweightCleanupAt := 0
      rowsSinceCleanup := 0 }

def dropOldest : Recorder :=
  match r.retained with
  | a::rest => { r with retained := rest, dropped := r.dropped++[a] }
  | [] =>
    match r.queue with
    | a::rest => { r with queue := rest, dropped := r.dropped++[a] }
    | [] => r

def enqueueRecord (item : RecorderItem) (r : Recorder) : Recorder :=
  let left :=
    if r.config.queueCapacity ≤ r.retained.length+r.queue.length then r.dropOldest else r
  let new : Admission := { owner := r.number, ticket := r.admitted.length, item }
  { left with queue := left.queue++[new], admitted := left.admitted++[new], idle := false }

def fail : Recorder := { r with failuresTotal := r.failuresTotal+1 }

/-- What `_trace_snapshot` made of the payload of a call. -/
inductive TracePayload
  | missing
  | invalid
  | built (snapshot : RecallTraceSnapshot)

def record (decision : InjectionDecisionRecord) (trace : TracePayload) (r : Recorder) : Recorder :=
  if r.closing then r.fail
  else match trace with
    | .missing => r.enqueueRecord (.decision decision)
    | .invalid => r.fail.enqueueRecord (.decision { decision with traceId := none })
    | .built snapshot =>
      r.enqueueRecord (.bundle { decision with traceId := some snapshot.traceId } snapshot)

def recordTrace (trace : Option RecallTraceSnapshot) (r : Recorder) : Recorder :=
  if r.closing then r.fail
  else match trace with
    | none => r.fail
    | some snapshot => r.enqueueRecord (.snapshot snapshot)

def recordLifecycle (record : InjectionLifecycleRecord) (r : Recorder) : Recorder :=
  if ¬(1 ≤ record.count ∧ record.count ≤ maxSqliteInteger) then r.fail
  else if record.eventKind = .injected ∧ record.source = .debug then r.fail
  else if r.closing then r.fail
  else r.enqueueRecord (.lifecycle record)

def scheduleCleanup (retentionDays maxRows : Option ℕ) (r : Recorder) : Recorder :=
  if r.closing then r.fail
  else if maxRows = some 0 then r
  else { r with
    retentionDays := retentionDays.getD r.retentionDays
    maxRows := maxRows.getD r.maxRows
    cleanupGeneration := r.cleanupGeneration+1
    idle := false }

def start : Recorder :=
  if r.closing then r
  else if r.worker = .absent then { r with worker := .created }
  else r

/-- `close` up to its wait for the worker; the cancellation after the wait is `cancelWorker`. -/
def close : Recorder :=
  if r.worker = .absent ∧ r.drained ∧ ¬r.cleanupPending then { r with closing := true }
  else if r.worker = .absent then { r with closing := true, worker := .created }
  else { r with closing := true }

def schedulePeriodicCleanup (r : Recorder) : Recorder :=
  if now < r.state.nextPeriodicCleanupAt then r
  else { r with
    cleanupGeneration := r.cleanupGeneration+1
    idle := false
    state := { r.state with nextPeriodicCleanupAt := r.state.nextPeriodicCleanupAt+86400 } }

def fillRetainedBatch (cleanupDue : Bool) (r : Recorder) : Recorder :=
  if cleanupDue || (!r.retained.isEmpty && decide (0 < r.state.batchAttempt)) then r
  else
    let free := r.config.batchSize - r.retained.length
    let filled := r.retained++r.queue.take free
    { r with
      retained := filled
      queue := r.queue.drop free
      state := { r.state with
        flushAt :=
          if r.retained.isEmpty && !filled.isEmpty then some (now+r.config.flushInterval)
          else r.state.flushAt } }

def flushIsDue (r : Recorder) : Bool :=
  !r.retained.isEmpty && (decide (0 < r.state.batchAttempt) ||
    decide (r.config.batchSize ≤ r.retained.length) || r.closing ||
    r.state.flushAt.any (decide <| · ≤ now))

/-- A pass of the loop up to the flush: `_flush_retained_if_due` takes the whole retained batch
and starts a call of the store. -/
def startPass (r : Recorder) : Recorder :=
  let r₁ := r.schedulePeriodicCleanup now
  let r₂ := r₁.fillRetainedBatch now (r₁.cleanupPending && decide (r₁.state.cleanupRetryAt ≤ now))
  if r₂.flushIsDue now && decide (r₂.state.batchRetryAt ≤ now) then
    { r₂ with retained := [], worker := .flushing { batch := r₂.retained, phase := .created } }
  else { r₂ with worker := .flushed }

/-- `_trim_pending_after_failed_attempt`: every pass of its loop drops one record. -/
def trimPending : Recorder :=
  dropOldest^[r.retained.length+r.queue.length - r.config.queueCapacity] r

variable (attempted : List Admission)

def restoreFailedBatch (retryLifecycle : Bool) (r : Recorder) :
    Recorder :=
  if retryLifecycle then trimPending { r with retained := attempted++r.retained }
  else trimPending { r with
    dropped := r.dropped++attempted.filter (·.item.isLifecycle)
    retained := attempted.filter (!·.item.isLifecycle)++r.retained }

def retryLifecycle (e : StoreException) : Bool :=
  !e.commitOutcomeUnknown && e.mentions "locked" && !e.isConnectionFatal

def handlePersistFailure (e : StoreException) (r : Recorder) : Recorder :=
  let restored := (r.restoreFailedBatch attempted (retryLifecycle e)).fail
  { restored with
    state :=
      if restored.retained.isEmpty then
        { restored.state with flushAt := none, batchAttempt := 0, batchRetryAt := 0 }
      else { restored.state with
        batchRetryAt := now+restored.config.retryDelay restored.state.batchAttempt
        batchAttempt := restored.state.batchAttempt+1 } }

def scheduleLightweightCleanup (r : Recorder) : Recorder :=
  if r.state.rowsSinceCleanup < 1000 then r
  else if 3600 ≤ now - r.state.lastLightweightCleanupAt then { r with
    cleanupGeneration := r.cleanupGeneration+1
    idle := false
    state := { r.state with lastLightweightCleanupAt := now, rowsSinceCleanup := 0 } }
  else { r with state := { r.state with rowsSinceCleanup := 0 } }

def completePersist (r : Recorder) : Recorder :=
  scheduleLightweightCleanup now { r with
    persisted := r.persisted++attempted
    state := { r.state with
      rowsSinceCleanup := r.state.rowsSinceCleanup+attempted.length
      flushAt := none
      batchAttempt := 0
      batchRetryAt := 0 } }

def updateIdleState : Recorder :=
  { r with idle := r.drained && !r.cleanupPending }

/-- The `finally` of `_run`. -/
def finish : Recorder := { r.updateIdleState with worker := .absent }

/-- The worker runs up to its next step; `none` while it waits for a call. -/
def work (r : Recorder) : Option Recorder :=
  match r.worker with
  | .absent | .cleaning _ => none
  | .created => some { r with worker := .top, state := r.newWorkerState now }
  | .top => some (r.startPass now)
  | .flushing task =>
    match task.phase with
    | .returned => some (completePersist now task.batch { r with worker := .top })
    | .raised e => some (handlePersistFailure now task.batch e { r with worker := .flushed })
    -- the shield passes on the cancellation of the call itself
    | .cancelled =>
      some { r with worker := if r.closing then .gathering task false else .awaiting task }
    | _ => none
  | .awaiting task =>
    match task.phase with
    | .returned => some (completePersist now task.batch { r with worker := .absent }).finish
    | .raised e => some (handlePersistFailure now task.batch e { r with worker := .absent }).finish
    | .cancelled => some (restoreFailedBatch task.batch false { r with worker := .absent }).finish
    | _ => none
  | .gathering task interrupted =>
    if task.phase.done then
      -- an interrupted gather raises before the batch is put back
      if interrupted then some { r with worker := .absent }.finish
      else some (restoreFailedBatch task.batch false { r with worker := .absent }).finish
    else none
  | .flushed =>
    if r.cleanupPending ∧ r.state.cleanupRetryAt ≤ now then
      some { r with worker := .cleaning r.cleanupGeneration }
    else some { r with worker := .cleaned }
  | .cleaned =>
    if r.closing ∧ r.drained then some { r with idle := true, worker := .ending }
    else some { r.updateIdleState with worker := .waiting }
  | .ending => some r.finish
  | .waiting => some { r with worker := .top }

/-- A `CancelledError` reaches the worker at its `await`. -/
def cancelWorker : Option Recorder :=
  match r.worker with
  | .created => some { r with worker := .absent }
  | .flushing task =>
    some { r with worker := if r.closing then .gathering task false else .awaiting task }
  | .awaiting task =>
    if task.phase.done then
      some (restoreFailedBatch task.batch false { r with worker := .absent }).finish
    -- the cancellation is passed on to the call
    else some r
  | .gathering task _ => some { r with worker := .gathering task true }
  | .cleaning _ | .waiting => some r.finish
  | _ => none

/-- `await self.store.cleanup(..)` returned. -/
def cleanupReturns : Option Recorder :=
  match r.worker with
  | .cleaning generation => some { r with
      cleanupCompletedGeneration := generation
      worker := .top
      state := { r.state with cleanupAttempt := 0, cleanupRetryAt := 0 } }
  | _ => none

/-- `await self.store.cleanup(..)` raised. -/
def cleanupRaises (r : Recorder) : Option Recorder :=
  match r.worker with
  | .cleaning _ => some { r.fail with
      worker := .cleaned
      state := { r.state with
        cleanupRetryAt := now+r.config.retryDelay r.state.cleanupAttempt
        cleanupAttempt := r.state.cleanupAttempt+1 } }
  | _ => none

end Recorder

/-- `committed` lists what the commits of the store have written, in order. -/
structure RecorderWorld where
  store : DecisionStore := {}
  recorders : List Recorder := []
  committed : List Admission := []

inductive RecorderEvent
  /-- A restart: a new recorder over the same store. -/
  | restart (config : RecorderConfig)
  | record (number : ℕ) (decision : InjectionDecisionRecord) (trace : Recorder.TracePayload)
  | recordTrace (number : ℕ) (trace : Option RecallTraceSnapshot)
  | recordLifecycle (number : ℕ) (record : InjectionLifecycleRecord)
  | scheduleCleanup (number : ℕ) (retentionDays maxRows : Option ℕ)
  | start (number : ℕ)
  | close (number : ℕ)
  | work (number : ℕ) (now : ℚ)
  | cancelWorker (number : ℕ)
  | insert (number : ℕ) (event : InsertEvent)
  | cleanupDeletes (number : ℕ) (nowMs : ℤ)
  | cleanupReturns (number : ℕ)
  | cleanupRaises (number : ℕ) (now : ℚ)

namespace RecorderWorld

/-- A step of one recorder; a step that is not possible changes nothing. -/
def act (w : RecorderWorld) (number : ℕ) (f : Recorder → Option Recorder) : RecorderWorld :=
  match w.recorders[number]? with
  | none => w
  | some r =>
    match f r with
    | none => w
    | some r' => { w with recorders := w.recorders.set number r' }

section Step
variable (traceSnapshotValues : RecallTraceSnapshot → Except String RecallTraceSnapshot)

variable (w : RecorderWorld)

def insertStep (number : ℕ) (event : InsertEvent) : RecorderWorld :=
  match w.recorders[number]? with
  | none => w
  | some r =>
    let moved (task : PersistTask) (point : PersistTask → WorkerPoint) : RecorderWorld :=
      match task.step traceSnapshotValues w.store event with
      | none => w
      | some (store,task') =>
        { store
          recorders := w.recorders.set number { r with worker := point task' }
          committed := if event = .commits then w.committed++task.batch else w.committed }
    match r.worker with
    | .flushing task => moved task .flushing
    | .awaiting task => moved task .awaiting
    | .gathering task interrupted => moved task (.gathering · interrupted)
    | _ => w

def cleanupStep (number : ℕ) (nowMs : ℤ) : RecorderWorld :=
  match w.recorders[number]? with
  | none => w
  | some r =>
    match r.worker with
    | .cleaning _ => { w with store := w.store.cleanup r.retentionDays r.maxRows nowMs }
    | _ => w

def step : RecorderEvent → RecorderWorld
  | .restart config => { w with recorders := w.recorders++[Recorder.new w.recorders.length config] }
  | .record number decision trace => w.act number fun r => some (r.record decision trace)
  | .recordTrace number trace => w.act number fun r => some (r.recordTrace trace)
  | .recordLifecycle number record => w.act number fun r => some (r.recordLifecycle record)
  | .scheduleCleanup number retentionDays maxRows =>
    w.act number fun r => some (r.scheduleCleanup retentionDays maxRows)
  | .start number => w.act number fun r => some r.start
  | .close number => w.act number fun r => some r.close
  | .work number now => w.act number (·.work now)
  | .cancelWorker number => w.act number (·.cancelWorker)
  | .insert number event => w.insertStep traceSnapshotValues number event
  | .cleanupDeletes number nowMs => w.cleanupStep number nowMs
  | .cleanupReturns number => w.act number (·.cleanupReturns)
  | .cleanupRaises number now => w.act number (·.cleanupRaises now)

end Step

end RecorderWorld

end Memora.Injection

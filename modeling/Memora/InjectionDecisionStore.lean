import Memora.RowTable
import Memora.ExceptLaws

/-! One transaction writes a batch of telemetry records: decisions and snapshots are inserted unless
their key is taken, lifecycle counts are added to the row of their hour. -/
namespace Memora.Injection

inductive LifecycleEventKind
  | retrieved | injected
  deriving DecidableEq

inductive LifecycleSource
  | passive | agent | debug
  deriving DecidableEq

inductive LifecycleOrigin
  | fresh | cache | none
  deriving DecidableEq

structure InjectionLifecycleRecord where
  createdAtMs : ℤ
  eventKind : LifecycleEventKind
  source : LifecycleSource
  origin : LifecycleOrigin
  count : ℤ
  deriving DecidableEq

structure InjectionDecisionRecord where
  decisionId : String
  createdAtMs : ℤ
  traceId : Option String := none
  deriving DecidableEq

structure RecallTraceSnapshot where
  traceId : String
  createdAtMs : ℤ
  payloadJson : String
  deriving DecidableEq

inductive RecorderItem
  | decision (record : InjectionDecisionRecord)
  | lifecycle (record : InjectionLifecycleRecord)
  | bundle (decision : InjectionDecisionRecord) (snapshot : RecallTraceSnapshot)
  | snapshot (snapshot : RecallTraceSnapshot)
  deriving DecidableEq

def RecorderItem.isLifecycle : RecorderItem → Bool
  | .lifecycle _ => true
  | _ => false

/-- An exception of the store: its lowered message, and whether it is a
`LifecycleCommitOutcomeUnknown`. -/
structure StoreException where
  lowered : String
  commitOutcomeUnknown : Bool := false
  deriving DecidableEq

variable (store : DecisionStore) (e : StoreException) {α κ : Type}

def StoreException.mentions (marker : String) : Bool :=
  decide (marker.toList <:+: e.lowered.toList)

def connectionFatalMarkers : List String :=
  ["no active connection","database is not initialized","cannot operate on a closed database"]

def StoreException.isConnectionFatal : Bool :=
  connectionFatalMarkers.any e.mentions

def StoreException.isRetryEligible : Bool :=
  e.mentions "locked" && !e.isConnectionFatal

def lifecycleCommitOutcomeUnknown : StoreException where
  lowered := "lifecycle commit outcome unknown"
  commitOutcomeUnknown := true

structure LifecycleCount where
  bucketMs : ℤ
  eventKind : LifecycleEventKind
  source : LifecycleSource
  origin : LifecycleOrigin
  eventCount : ℤ
  deriving DecidableEq

def LifecycleCount.key (row : LifecycleCount) :
    ℤ × LifecycleEventKind × LifecycleSource × LifecycleOrigin :=
  (row.bucketMs,row.eventKind,row.source,row.origin)

structure DecisionStore where
  decisions : List InjectionDecisionRecord := []
  snapshots : List RecallTraceSnapshot := []
  lifecycleCounts : List LifecycleCount := []
  deriving DecidableEq

def dayMs : ℤ := 86400000

def hourMs : ℤ := 3600000

def maxSqliteInteger : ℤ := 2 ^ 63 - 1

structure BatchValues where
  decisionValues : List InjectionDecisionRecord := []
  snapshotValues : List RecallTraceSnapshot := []
  lifecycleValues : List LifecycleCount := []
  deriving DecidableEq

def BatchValues.append (v w : BatchValues) : BatchValues where
  decisionValues := v.decisionValues++w.decisionValues
  snapshotValues := v.snapshotValues++w.snapshotValues
  lifecycleValues := v.lifecycleValues++w.lifecycleValues

def lifecycleValues (record : InjectionLifecycleRecord) : Except String LifecycleCount :=
  if ¬(0 ≤ record.createdAtMs ∧ record.createdAtMs ≤ maxSqliteInteger) then
    .error "created_at_ms must be a non-negative SQLite integer"
  else if ¬(1 ≤ record.count ∧ record.count ≤ maxSqliteInteger) then
    .error "count must be a positive SQLite integer"
  else if record.eventKind = .injected ∧ record.source = .debug then
    .error "debug source cannot record injected lifecycle"
  else .ok {
    bucketMs := record.createdAtMs / hourMs * hourMs
    eventKind := record.eventKind
    source := record.source
    origin := record.origin
    eventCount := record.count }

section Insert
variable (traceSnapshotValues : RecallTraceSnapshot → Except String RecallTraceSnapshot)

/-- What one record adds to the statements of a batch. `traceSnapshotValues` checks a snapshot
and sanitizes its payload once more. -/
def itemValues : RecorderItem → Except String BatchValues
  | .bundle decision snapshot =>
    if decision.traceId ≠ some snapshot.traceId then .error "bundle trace_id mismatch"
    else do
      let row ← traceSnapshotValues snapshot
      return { decisionValues := [decision], snapshotValues := [row] }
  | .snapshot snapshot => do
    let row ← traceSnapshotValues snapshot
    return { snapshotValues := [row] }
  | .decision decision => .ok { decisionValues := [decision] }
  | .lifecycle record => do
    let row ← lifecycleValues record
    return { lifecycleValues := [row] }

/-- The loop of `insert_many` over its records. -/
def batchValues : List RecorderItem → Except String BatchValues
  | [] => .ok {}
  | item::items => do
    let values ← itemValues traceSnapshotValues item
    let rest ← batchValues items
    return values.append rest

end Insert

def insertOrIgnore {α κ : Type} [DecidableEq κ] (key : α → κ) (rows : List α) (new : α) : List α :=
  if rows.any fun row => key row = key new then rows else rows++[new]

def upsertLifecycle (rows : List LifecycleCount) (new : LifecycleCount) : List LifecycleCount :=
  if rows.any fun row => row.key = new.key then
    RowTable.modify (fun row => row.key = new.key)
      (fun row => { row with eventCount := row.eventCount+new.eventCount }) rows
  else rows++[new]

/-- The committed statements of a batch. A sum past the largest integer turns into a real
number, which the check on `event_count` refuses. -/
def DecisionStore.write (values : BatchValues) : Option DecisionStore :=
  let counts := values.lifecycleValues.foldl upsertLifecycle store.lifecycleCounts
  if counts.all fun row => row.eventCount ≤ maxSqliteInteger then
    some {
      decisions := values.decisionValues.foldl (insertOrIgnore (·.decisionId)) store.decisions
      snapshots := values.snapshotValues.foldl (insertOrIgnore (·.traceId)) store.snapshots
      lifecycleCounts := counts }
  else none

/-- Rows that the newest `maxRows` leave out are deleted; `newer` is the order of the query. -/
def dropOverflow {α : Type} (newer : α → α → Bool) (maxRows : ℕ) (rows : List α) : List α :=
  rows.filter fun row => rows.countP (newer · row) < maxRows

/-- `ORDER BY created_at_ms DESC, key DESC`. -/
def newerRow {α : Type} (createdAtMs : α → ℤ) (key : α → String) (row other : α) : Bool :=
  createdAtMs other < createdAtMs row ||
    (createdAtMs other == createdAtMs row && decide (key other < key row))

def DecisionStore.cleanup (retentionDays maxRows : ℕ) (nowMs : ℤ) :
    DecisionStore :=
  let cutoff := nowMs - retentionDays * dayMs
  let kept : DecisionStore :=
    if retentionDays = 0 then store
    else {
      decisions := store.decisions.filter fun row => cutoff ≤ row.createdAtMs
      snapshots := store.snapshots.filter fun row => cutoff ≤ row.createdAtMs
      lifecycleCounts := store.lifecycleCounts.filter fun row => cutoff - hourMs < row.bucketMs }
  { kept with
    decisions := dropOverflow (newerRow (·.createdAtMs) (·.decisionId)) maxRows kept.decisions
    snapshots := dropOverflow (newerRow (·.createdAtMs) (·.traceId)) maxRows kept.snapshots }

lemma nodup_insertOrIgnore [DecidableEq κ] {key : α → κ} {rows : List α}
    (h : (rows.map key).Nodup) (new : α) : ((insertOrIgnore key rows new).map key).Nodup := by
  rw [insertOrIgnore]
  by_cases hany : rows.any fun row => key row = key new
  · rw [if_pos hany]
    exact h
  · rw [if_neg hany]
    have hnew : key new ∉ rows.map key := by
      intro hmem
      obtain ⟨row,hrow,hkey⟩ := List.mem_map.mp hmem
      exact hany (List.any_eq_true.mpr ⟨row,hrow,by simpa using hkey⟩)
    rw [List.map_append,List.map_cons,List.map_nil]
    exact List.nodup_append_comm.mp (List.nodup_cons.mpr ⟨hnew,h⟩)

lemma nodup_foldl_insertOrIgnore [DecidableEq κ] {key : α → κ} {rows : List α}
    (h : (rows.map key).Nodup) (news : List α) :
    ((news.foldl (insertOrIgnore key) rows).map key).Nodup := by
  induction news generalizing rows with
  | nil => exact h
  | cons new news ih => exact ih (nodup_insertOrIgnore h new)

lemma nodup_filter_key {key : α → κ} {rows : List α} (h : (rows.map key).Nodup)
    (p : α → Bool) : ((rows.filter p).map key).Nodup :=
  h.sublist (List.filter_sublist.map key)

def DecisionStore.Keyed : Prop :=
  (store.decisions.map (·.decisionId)).Nodup

lemma DecisionStore.Keyed.write {store store' : DecisionStore} {values : BatchValues}
    (h : store.Keyed) (hw : store.write values = some store') : store'.Keyed := by
  rw [DecisionStore.write] at hw
  split at hw
  · cases hw
    exact nodup_foldl_insertOrIgnore h values.decisionValues
  · cases hw

lemma DecisionStore.Keyed.cleanup {store : DecisionStore} (h : store.Keyed)
    (retentionDays maxRows : ℕ) (nowMs : ℤ) :
    (store.cleanup retentionDays maxRows nowMs).Keyed := by
  rw [DecisionStore.cleanup]
  by_cases hdays : retentionDays = 0
  · simp only [hdays,if_true]
    exact nodup_filter_key h _
  · simp only [hdays,if_false]
    exact nodup_filter_key (nodup_filter_key h _) _

end Memora.Injection

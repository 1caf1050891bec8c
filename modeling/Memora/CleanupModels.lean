import Memora.RowTable
import Memora.CanonicalModels

/-! A pass of `cleanup_old_memories` reads the memories page by page and acts on what it has
collected later, in three batches. Other callers change the table between its steps. -/
namespace Memora.Lifecycle
open Canonical

/-- The fields of the metadata that a pass reads or writes. A number is there where `safe_float`
takes it. -/
structure Fields where
  memoryStatus : Option JsonField := none
  status : Option JsonField := none
  createTime : Option ℚ := none
  statusChangedAt : Option ℚ := none
  importance : Option ℚ := none
  emotionTags : Option (List String) := none
  archivedEmotionTags : Option (List String) := none
  emotionalIntensity : Option ℚ := none
  deriving DecidableEq

/-- The metadata column: empty, no JSON, JSON that is not an object, or an object. -/
inductive Column
  | blank
  | invalid
  | other
  | object (fields : Fields)
  deriving DecidableEq

structure Row where
  id : ℕ
  metadata : Column
  deriving DecidableEq

def effectiveStatus (fields : Fields) : MemoryStatus :=
  effectiveMemoryStatus { memoryStatus := fields.memoryStatus, status := fields.status }

/-- The lifecycle status of a stored memory; without an object it is the default. -/
def Row.status (row : Row) : MemoryStatus :=
  match row.metadata with
  | .object fields => effectiveStatus fields
  | _ => .active

inductive Stage
  | dormant | archived | deleted
  deriving DecidableEq

def Stage.source : Stage → MemoryStatus
  | .dormant => .active
  | .archived => .dormant
  | .deleted => .archived

def Stage.text : Stage → String
  | .dormant => "dormant"
  | .archived => "archived"
  | .deleted => "deleted"

structure Settings where
  days : ℤ
  importance : ℚ
  now : ℚ
  deriving DecidableEq

def Settings.cutoff (settings : Settings) (stage : ℕ) : ℚ :=
  settings.now - settings.days * stage * 86400

/-- What the pass collects a memory for; the clock stands in for a missing creation time. -/
def classify (settings : Settings) (clock : ℚ) (fields : Fields) : Option Stage :=
  let createTime := fields.createTime.getD clock
  let docImportance := max 0 (min 1 (fields.importance.getD (1 / 2)))
  let memStatus := effectiveStatus fields
  let statusChangedAt := fields.statusChangedAt.getD createTime
  if memStatus = .archived ∧ statusChangedAt < settings.cutoff 3 then some .deleted
  else if memStatus = .dormant ∧ statusChangedAt < settings.cutoff 2 then some .archived
  else if memStatus = .active ∧ createTime < settings.cutoff 1 ∧
      docImportance < settings.importance then some .dormant
  else none

/-- `_normalize_batch_metadata`; reading a field of what is not an object raises. -/
def Column.scanned : Column → Option Fields
  | .blank | .invalid => some {}
  | .other => none
  | .object fields => some fields

/-- What `_batch_update_status` starts from; what is no JSON is skipped. -/
def Column.loaded : Column → Option Fields
  | .blank | .other => some {}
  | .invalid => none
  | .object fields => some fields

def roundHalfEven (x : ℚ) : ℤ :=
  let rest := x - ⌊x⌋
  if rest < 1 / 2 then ⌊x⌋
  else if 1 / 2 < rest then ⌊x⌋+1
  else if ⌊x⌋ % 2 = 0 then ⌊x⌋ else ⌊x⌋+1

def round3 (x : ℚ) : ℚ := roundHalfEven (x * 1000) / 1000

def setMemoryStatus (fields : Fields) (text : String) (statusChangedAt : ℚ) : Fields :=
  { fields with
    memoryStatus := some (.text text)
    status := some (.text text)
    statusChangedAt := some statusChangedAt }

/-- The metadata that `_batch_update_status` writes. -/
def demoted (stage : Stage) (timestamp : ℚ) (fields : Fields) : Fields :=
  let fields := setMemoryStatus fields stage.text timestamp
  match stage with
  | .dormant =>
    { fields with
      archivedEmotionTags := fields.emotionTags.or fields.archivedEmotionTags
      emotionalIntensity := some (round3 (fields.emotionalIntensity.getD (1 / 2) * (1 / 2))) }
  | .archived => { fields with emotionTags := some [], emotionalIntensity := some 0 }
  | .deleted => fields

inductive Phase
  | counting
  | scanning (offset total : ℕ)
  | writing (stage : Stage)
  | done
  deriving DecidableEq

/-- What the pass still has to do: `to_dormant_ids`, `to_archive_ids` and `to_delete_ids`. -/
abbrev Collected := Stage → List ℕ

structure Act where
  stage : Stage
  id : ℕ
  status : MemoryStatus
  deriving DecidableEq

structure World where
  rows : List Row
  settings : Settings
  phase : Phase := .counting
  collected : Collected := fun _ => []
  acts : List Act := []

def collect (settings : Settings) (clock : ℕ → ℚ) : List Row → Collected → Option Collected
  | [], collected => some collected
  | doc::docs, collected =>
    match doc.metadata.scanned with
    | none => none
    | some fields =>
      match classify settings (clock doc.id) fields with
      | none => collect settings clock docs collected
      | some stage =>
        collect settings clock docs (Function.update collected stage (collected stage++[doc.id]))

def batchSize : ℕ := 500

variable (w : World) (clock : ℕ → ℚ)

def World.readPage (offset total : ℕ) : World :=
  if offset < total then
    let docs := (w.rows.drop offset).take batchSize
    if docs = [] then { w with phase := .writing .dormant }
    else
      match collect w.settings clock docs w.collected with
      -- the pass ends with an exception
      | none => { w with phase := .done }
      | some collected =>
        if docs.length < batchSize then { w with collected, phase := .writing .dormant }
        else { w with collected, phase := .scanning (offset+docs.length) total }
  else { w with phase := .writing .dormant }

/-- One memory of `_batch_update_status`; an exception skips it. -/
def updateStatus (stage : Stage) (timestamp : ℚ) (fails : ℕ → Bool)
    (state : List Row × List Act) (id : ℕ) : List Row × List Act :=
  match state.1.find? fun r => r.id = id with
  | none => state
  | some row =>
    match row.metadata.loaded with
    | none => state
    | some fields =>
      if fails id then state
      else
        (RowTable.modify (fun r => r.id = id)
          (fun r => { r with metadata := .object (demoted stage timestamp fields) }) state.1,
        state.2++[⟨stage,id,row.status⟩])

def World.batchUpdateStatus (stage : Stage) (fails : ℕ → Bool) (next : Phase) : World :=
  let state := (w.collected stage).foldl (updateStatus stage w.settings.now fails) (w.rows,w.acts)
  { w with
    rows := state.1, acts := state.2, phase := next
    collected := Function.update w.collected stage [] }

/-- The deletion of one batch of `batch_delete_memories_detailed`. -/
def World.deleteBatch : World :=
  let batch := (w.collected .deleted).take 200
  { w with
    rows := w.rows.filter fun r => r.id ∉ batch
    acts := w.acts++(w.rows.filter fun r => r.id ∈ batch).map fun r => ⟨.deleted,r.id,r.status⟩
    collected := Function.update w.collected .deleted ((w.collected .deleted).drop 200) }

def World.advance (fails : ℕ → Bool) : World :=
  match w.phase with
  | .counting =>
    if w.settings.days < 0 ∨ w.rows = [] then { w with phase := .done }
    else { w with phase := .scanning 0 w.rows.length }
  | .scanning offset total => w.readPage clock offset total
  | .writing .dormant => w.batchUpdateStatus .dormant fails (.writing .archived)
  | .writing .archived => w.batchUpdateStatus .archived fails (.writing .deleted)
  | .writing .deleted =>
    if w.collected .deleted = [] then { w with phase := .done } else w.deleteBatch
  | .done => w

/-- What other callers do to the table: a new memory comes last. -/
inductive Change
  | update (id : ℕ) (metadata : Column)
  | remove (id : ℕ)
  | insert (id : ℕ) (metadata : Column)
  deriving DecidableEq

def Change.apply (rows : List Row) : Change → List Row
  | .update id metadata => RowTable.modify (fun r => r.id = id) (fun r => { r with metadata }) rows
  | .remove id => rows.filter fun r => r.id ≠ id
  | .insert id metadata => if ∃ r ∈ rows, r.id = id then rows else rows++[⟨id,metadata⟩]

inductive Event
  | advance (clock : ℕ → ℚ) (fails : ℕ → Bool)
  /-- An exception or a cancellation ends the pass. -/
  | stop
  | other (change : Change)

def World.step : Event → World
  | .advance clock fails => w.advance clock fails
  | .stop => { w with phase := .done }
  | .other change => { w with rows := change.apply w.rows }

end Memora.Lifecycle

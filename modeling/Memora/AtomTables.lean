import Memora.AtomModels
import Memora.LockedTransactions

/-! The table of atoms with its full-text table, and the operations of the store as programs: what
each reads outside of its transactions, and which statements it runs inside of them. -/
namespace Memora.Atoms
open LockedTransactions

structure AtomTables where
  rows : List (ℕ × AtomRow) := []
  fts : List (ℕ × String) := []
  lastId : ℕ := 0

def searchable (e : ℕ × AtomRow) : Bool := e.2.status ≠ .forgotten

/-- A full-text row exists exactly for every stored atom that is not forgotten, with its
content. -/
structure AtomTables.Consistent (s : AtomTables) : Prop where
  fts_eq : s.fts = (s.rows.filter searchable).map fun e => (e.1,e.2.content)
  nodup : (s.rows.map Prod.fst).Nodup
  bounded : ∀ e ∈ s.rows, e.1 ≤ s.lastId

/-- `INSERT INTO memory_atoms`. -/
def AtomTables.insertRow (row : AtomRow) (s : AtomTables) : AtomTables :=
  { s with rows := s.rows++[(s.lastId+1,row)], lastId := s.lastId+1 }

/-- `INSERT INTO memory_atoms_fts` for the row inserted last. -/
def AtomTables.insertFts (content : String) (s : AtomTables) : AtomTables :=
  { s with fts := s.fts++[(s.lastId,content)] }

variable (ids : List ℕ) (s : AtomTables)

/-- `DELETE FROM memory_atoms_fts WHERE atom_id IN`. -/
def AtomTables.deleteFts : AtomTables :=
  { s with fts := s.fts.filter fun e => e.1 ∉ ids }

/-- `DELETE FROM memory_atoms WHERE id IN`. -/
def AtomTables.deleteRows : AtomTables :=
  { s with rows := s.rows.filter fun e => e.1 ∉ ids }

variable (p : ℕ × AtomRow → Bool)

/-- `UPDATE memory_atoms SET .. WHERE ..`. -/
def AtomTables.updateRows (f : AtomRow → AtomRow) (s : AtomTables) :
    AtomTables :=
  { s with rows := s.rows.map fun e => if p e then (e.1,f e.2) else e }

variable (status : AtomStatus)

def AtomRow.setStatus (r : AtomRow) : AtomRow := { r with status := status }

/-- `SELECT * FROM memory_atoms WHERE id = ?`. -/
def AtomTables.row? (id : ℕ) : Option AtomRow :=
  (s.rows.find? fun e => e.1 = id).map Prod.snd

/-- `SELECT id FROM memory_atoms WHERE .. LIMIT ?`; a negative limit is none. -/
def AtomTables.selectIds (limit : ℤ) (s : AtomTables) : List ℕ :=
  let ids := (s.rows.filter p).map Prod.fst
  if limit < 0 then ids else ids.take limit.toNat

abbrev TimedAtom := ℚ × MemoryAtom

def sqliteBatchSize : ℕ := 500

/-- The slices of `insert_many`. -/
def batches {β : Type*} (l : List β) : List (List β) :=
  (List.range ((l.length+(sqliteBatchSize - 1)) / sqliteBatchSize)).map fun i =>
    (l.drop (sqliteBatchSize * i)).take sqliteBatchSize

/-- `_insert_atom` for each row, then the commit. -/
def insertRows : List AtomRow → Transaction AtomTables
  | [] => .commit
  | row::rows => .change (·.insertRow row) (.change (·.insertFts row.content) (insertRows rows))

section
variable (lang : Language) (config : AtomConfig)

def prepareRows (atoms : List TimedAtom) : Except AtomError (List AtomRow) :=
  atoms.mapM fun a => insertedRow lang config a.1 a.2

/-- The transaction of one batch of `insert_many`. The check of the parents' sources is a
statement that may fail as any other. -/
def insertBatch (batch : List TimedAtom) : Transaction AtomTables :=
  match prepareRows lang config batch with
  | .error _ => .raise
  | .ok rows => insertRows rows

/-- `insert_many`. -/
def insertBatches : List (List TimedAtom) → Program AtomTables
  | [] => .done
  | batch::rest => .write (insertBatch lang config batch) (insertBatches rest)

/-- `replace_by_parent` behind the deletion of the old rows. -/
def insertReplacements (parent : ℕ) (atoms : List TimedAtom) : Transaction AtomTables :=
  if atoms.all fun a => a.2.parentMemoryId = parent then insertBatch lang config atoms else .raise

/-- `_delete_rows_for_parent`, then the new rows. -/
def replaceTransaction (parent : ℕ) (atoms : List TimedAtom) : Transaction AtomTables :=
  .select fun s =>
    let ids := s.selectIds (fun e => e.2.parentMemoryId = parent) (-1)
    if ids = [] then insertReplacements lang config parent atoms
    else .change (·.deleteFts ids) (.change (·.deleteRows ids) (insertReplacements lang config parent atoms))

structure Reinforced where
  count : ℤ
  confidence : ℚ
  ttlDays : ℚ
  expiresAt : ℚ
  decayType : DecayType
  reinforcedAt : ℚ

def reinforced (now : ℚ) (newConfidence : Option ℚ) (row : AtomRow) :
    Except AtomError Reinforced := do
  let personaModifier ← metadataFloat lang row.metadata "persona_decay_modifier" 1
  let emotionalIntensity ← metadataFloat lang row.metadata "emotional_intensity" (1 / 2)
  let count := row.reinforcementCount+1
  let ttl := computeTtl now row.atomType row.importance count (row.eventTime.filter (· ≠ 0))
    (clamp 0 1 emotionalIntensity) personaModifier config.probationaryEnabled
    config.probationaryTtlDays
  pure {
    count := count
    confidence := match newConfidence with
      | some q => row.confidence * (7 / 10)+q * (3 / 10)
      | none => row.confidence
    ttlDays := ttl.1
    expiresAt := now+ttl.1 * 86400
    decayType := ttl.2
    reinforcedAt := now }

def AtomRow.reinforce (u : Reinforced) (r : AtomRow) : AtomRow :=
  { r with
    reinforcementCount := u.count
    confidence := u.confidence
    ttlDays := u.ttlDays
    expiresAt := u.expiresAt
    decayType := u.decayType
    lastReinforcedAt := some u.reinforcedAt }

/-- `reinforce`: a read, then a transaction of its own for the update. -/
def reinforceProgram (id : ℕ) (now : ℚ) (newConfidence : Option ℚ) : Program AtomTables :=
  .read fun s =>
    match s.row? id with
    | none => .done
    | some row => match reinforced lang config now newConfidence row with
      | .error _ => .raise
      | .ok u => .write (.change (·.updateRows (fun e => e.1 = id) (·.reinforce u)) .commit) .done

end

/-- A loop of `forget_expired_atoms`, `cleanup_forgotten` or `delete_by_parent` inside its
transaction: full-text rows are deleted, rows are settled, and the next ids are selected. -/
def sweepLoop (pick : AtomTables → List ℕ) (settle : List ℕ → AtomTables → AtomTables) :
    ℕ → Transaction AtomTables
  | 0 => .commit
  | turns+1 => .select fun s =>
    let ids := pick s
    if ids = [] then .commit
    else .change (·.deleteFts ids) (.change (settle ids) (sweepLoop pick settle turns))

/-- The ids are selected before the transaction begins. Every turn settles at least one of the
rows, so there are at most as many turns as rows. -/
def sweepProgram (pick : AtomTables → List ℕ) (settle : List ℕ → AtomTables → AtomTables) :
    Program AtomTables :=
  .read fun s =>
    let ids := pick s
    if ids = [] then .done
    else .write (.change (·.deleteFts ids) (.change (settle ids) (.select fun s =>
      sweepLoop pick settle (s.rows.length+1)))) .done

def stale (cutoff : ℚ) (e : ℕ × AtomRow) : Bool :=
  e.2.status = status && e.2.expiresAt < cutoff

/-- The status update of `forget_expired_atoms`. -/
def AtomTables.markForgotten : AtomTables :=
  s.updateRows (fun e => e.1 ∈ ids) (·.setStatus .forgotten)

inductive AtomCall
  | insertMany (atoms : List TimedAtom)
  | replaceByParent (parent : ℕ) (atoms : List TimedAtom)
  | reinforce (id : ℕ) (now : ℚ) (newConfidence : Option ℚ)
  | expireStaleAtoms (now : ℚ)
  | cleanupForgotten (now olderThanDays : ℚ) (batchSize : ℤ)
  | forgetExpiredAtoms (now olderThanDays : ℚ) (batchSize : ℤ)
  | migrateToCold (now coldDaysThreshold maxImportance : ℚ)
  | deleteByParent (parent : ℕ) (batchSize : ℤ)

def updateProgram : Program AtomTables :=
  .write (.change (·.updateRows p (·.setStatus status)) .commit) .done

/-- The rows that `migrate_to_cold` moves. -/
def coldCandidate (threshold maxImportance : ℚ) (e : ℕ × AtomRow) : Bool :=
  e.2.status = .active && e.2.lastAccessedAt < threshold && e.2.importance < maxImportance

def atomProgram (lang : Language) (config : AtomConfig) : AtomCall → Program AtomTables
  | .insertMany atoms => insertBatches lang config (batches atoms)
  | .replaceByParent parent atoms => .write (replaceTransaction lang config parent atoms) .done
  | .reinforce id now newConfidence => reinforceProgram lang config id now newConfidence
  | .expireStaleAtoms now => updateProgram (stale .active now) .expired
  | .cleanupForgotten now olderThanDays batchSize =>
    sweepProgram (·.selectIds (stale .forgotten (now - olderThanDays * 86400)) batchSize)
    AtomTables.deleteRows
  | .forgetExpiredAtoms now olderThanDays batchSize =>
    sweepProgram (·.selectIds (stale .expired (now - olderThanDays * 86400)) batchSize)
    AtomTables.markForgotten
  | .migrateToCold now coldDaysThreshold maxImportance =>
    updateProgram (coldCandidate (now - coldDaysThreshold * 86400) maxImportance) .cold
  | .deleteByParent parent batchSize =>
    sweepProgram (·.selectIds (fun e => e.2.parentMemoryId = parent) batchSize)
    AtomTables.deleteRows

def AtomTables.addAtom (row : AtomRow) : AtomTables :=
  (s.insertRow row).insertFts row.content

def AtomTables.addAtoms (rows : List AtomRow) : AtomTables :=
  rows.foldl AtomTables.addAtom s

def AtomTables.removeIds : AtomTables :=
  (s.deleteFts ids).deleteRows ids

def AtomTables.forgetIds : AtomTables :=
  (s.deleteFts ids).markForgotten ids

def AtomTables.childIds (parent : ℕ) : List ℕ :=
  s.selectIds (fun e => e.2.parentMemoryId = parent) (-1)

end Memora.Atoms

import Mathlib

/-! A checksummed envelope and a last-known-good copy beside it. A file is replaced
atomically, so a crash falls between two replacements. -/
namespace Memora.Learning

def isOpaqueChar (c : Char) : Bool :=
  c.isAlphanum || c = '_' || c = '-'

/-- `_OPAQUE_ID_PATTERN`. -/
def isOpaqueId (s : String) : Bool :=
  decide (22 ≤ s.length) && decide (s.length ≤ 128) && s.toList.all isOpaqueChar

/-- An id that `_validate_opaque_id` accepts. -/
abbrev OpaqueId :=
  { s : String // isOpaqueId s = true }

/-- What the bytes of a state file parse to: an envelope is one that
`_read_verified_envelope` returns; the revision of a legacy file is a digest of its
bytes. -/
inductive Content (α β : Type*)
  | envelope (revision : OpaqueId) (payload : α)
  | legacy (revision : String) (payload : β)
  | invalid (reason : String)
  | unreadable
  deriving DecidableEq

structure Files (α β : Type*) where
  primary : Option (Content α β) := none
  backup : Option (Content α β) := none
  deriving DecidableEq

/-- What the store takes from elsewhere: the reason `_validate_payload` or the size limit
refuses an envelope for, and the revision derived for a recovery. -/
structure StoreEnv (α : Type*) where
  refusal : OpaqueId → α → Option String
  recoveryRevision : OpaqueId → String

structure LoadResult (α β : Type*) where
  payload : Option (α ⊕ β) := none
  stateRevision : Option OpaqueId := none
  stateCorrupt : Bool := false
  recoveryRequired : Bool := false
  recoveredFromBackup : Bool := false
  recoveryRevision : Option String := none
  reasonCode : String
  corruptionReasonCode : Option String := none
  migrationRequired : Bool := false
  migrationRevision : Option String := none
  deriving DecidableEq

/-- The revision an instance expects to replace: none named, no file at all, or this one. -/
inductive Expected
  | unset | missing | revision (r : String)
  deriving DecidableEq

def Expected.wellFormed : Expected → Bool
  | .revision r => isOpaqueId r
  | _ => true

def LoadResult.seen {α β : Type*} (r : LoadResult α β) : Expected :=
  r.stateRevision.elim .missing fun revision => .revision revision

variable {α β : Type*}

namespace Files

variable (env : StoreEnv α) (f : Files α β)

def recoverFromBackup (corruption : String) :
    LoadResult α β :=
  match f.backup with
  | some (.envelope revision payload) =>
    { payload := some (.inl payload)
      stateRevision := some revision
      stateCorrupt := true
      recoveryRequired := true
      recoveredFromBackup := true
      recoveryRevision := some (env.recoveryRevision revision)
      reasonCode := "learning_state_recovered_from_backup"
      corruptionReasonCode := some corruption }
  | _ =>
    { stateCorrupt := true
      recoveryRequired := true
      reasonCode := "learning_state_corrupt"
      corruptionReasonCode := some corruption }

def quarantinePrimary (moved : Bool) : Files α β :=
  if moved then { f with primary := none } else f

def loadSync (moved : Bool) : Files α β × LoadResult α β :=
  match f.primary with
  | none =>
    match f.backup with
    | none => (f,{ reasonCode := "learning_state_missing" })
    | some _ => (f,f.recoverFromBackup env "learning_state_primary_missing")
  | some (.envelope revision payload) =>
    (f,{
      payload := some (.inl payload)
      stateRevision := some revision
      reasonCode := "learning_state_loaded" })
  | some (.legacy revision payload) =>
    (f,{
      payload := some (.inr payload)
      recoveryRequired := true
      reasonCode := "learning_state_migration_required"
      migrationRequired := true
      migrationRevision := some revision })
  | some (.invalid reason) =>
    (f.quarantinePrimary moved,(f.quarantinePrimary moved).recoverFromBackup env reason)
  | some .unreadable =>
    (f.quarantinePrimary moved, (f.quarantinePrimary moved).recoverFromBackup env "learning_state_read_failed")

/-- The checks of `_save_sync`; what they let through becomes the backup. -/
def saveBase (expected : Expected) (new : Content α β) : Except String (Content α β) :=
  if f.primary.isNone && f.backup.isSome then .error "learning_state_recovery_required"
  else match expected, f.primary with
    | .unset, none => .ok new
    | .unset, some (.envelope revision payload) => .ok (.envelope revision payload)
    | .unset, some _ => .error "learning_state_recovery_required"
    | .missing, none => .ok new
    | .missing, some _ => .error "learning_state_revision_conflict"
    | .revision _, none => .error "learning_state_revision_conflict"
    | .revision r, some (.envelope revision payload) =>
      if revision.val = r then .ok (.envelope revision payload)
      else .error "learning_state_revision_conflict"
    | .revision _, some _ => .error "learning_state_recovery_required"

def replaceMoments (base new : Content α β) : List (Files α β) :=
  [{ f with backup := some base },{ primary := some new, backup := some base }]

/-- The files after each replacement, or the reason nothing is replaced. -/
def save (expected : Expected) (payload : α) (revision : String) :
    Except String (List (Files α β)) :=
  if h : isOpaqueId revision = true then
    if !expected.wellFormed then .error "learning_state_opaque_id_invalid"
    else match env.refusal ⟨revision,h⟩ payload with
      | some reason => .error reason
      | none => (f.saveBase expected (.envelope ⟨revision,h⟩ payload)).map fun base =>
          f.replaceMoments base (.envelope ⟨revision,h⟩ payload)
  else .error "learning_state_opaque_id_invalid"

/-- Backup and primary both receive the new envelope. -/
def migrateLegacy (legacyRevision : String) (payload : α) (revision : String) :
    Except String (List (Files α β)) :=
  if !isOpaqueId legacyRevision then .error "learning_state_opaque_id_invalid"
  else if h : isOpaqueId revision = true then
    match env.refusal ⟨revision,h⟩ payload, f.primary with
    | some reason, _ => .error reason
    | none, some (.legacy current _) =>
      if current = legacyRevision then
        .ok (f.replaceMoments (.envelope ⟨revision,h⟩ payload) (.envelope ⟨revision,h⟩ payload))
      else .error "learning_state_migration_conflict"
    | none, _ => .error "learning_state_migration_conflict"
  else .error "learning_state_opaque_id_invalid"

/-- Where a crash or a failed write after so many replacements leaves the files. -/
def stoppedAt (moments : List (Files α β)) (reached : ℕ) : Files α β :=
  ((moments.take reached).getLast?).getD f

end Files

structure Shared (α β : Type*) where
  files : Files α β := {}
  loaded : ℕ → Expected := fun _ => .unset

/-- Calls of the store instances, which the file lock serializes. A save or migration
stops after `reached` of three steps: its two replacements and the note of the revision
it wrote. An instance that starts is a new process. -/
inductive StoreCall (α : Type*)
  | start (i : ℕ)
  | load (i : ℕ) (moved : Bool)
  | save (i : ℕ) (payload : α) (revision : String) (expected : Option Expected) (reached : ℕ)
  | migrate (i : ℕ) (legacyRevision : String) (payload : α) (revision : String) (reached : ℕ)

namespace Shared

variable (w : Shared α β)

def note (i : ℕ) (e : Expected) : Shared α β :=
  { w with loaded := Function.update w.loaded i e }

/-- The expectation of a save: the one named, or what the instance last saw. -/
def expects (i : ℕ) (expected : Option Expected) : Expected :=
  expected.getD (w.loaded i)

def replaced (i : ℕ) (moments : List (Files α β)) (revision : String) (reached : ℕ) : Shared α β :=
  let w' := { w with files := w.files.stoppedAt moments reached }
  if 3 ≤ reached then w'.note i (.revision revision) else w'

def step (env : StoreEnv α) (w : Shared α β) : StoreCall α → Shared α β
  | .start i => w.note i .unset
  | .load i moved =>
    let r := w.files.loadSync env moved
    { w with files := r.1 }.note i r.2.seen
  | .save i payload revision expected reached =>
    match w.files.save env (w.expects i expected) payload revision with
    | .error _ => w
    | .ok moments => w.replaced i moments revision reached
  | .migrate i legacyRevision payload revision reached =>
    match w.files.migrateLegacy env legacyRevision payload revision with
    | .error _ => w
    | .ok moments => w.replaced i moments revision reached

def run (env : StoreEnv α) (w : Shared α β) (calls : List (StoreCall α)) : Shared α β :=
  calls.foldl (step env) w

end Shared

end Memora.Learning

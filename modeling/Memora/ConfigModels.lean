import Memora.ExceptLaws
import Memora.RepresentationModels

/-! The host hands the manager a mutable mapping. The manager reads it into a snapshot with a
revision, and applies changes under a lock: it replaces the mapping by the candidate, saves it in
a thread of its own, and takes the candidate back where the save fails. While a save is in
progress the mapping may be edited from outside, and the call may be cancelled. -/
namespace Memora.Configuration
open Memora.Representation (Json)

abbrev Config := List (String × Json)

/-- A key of the changes; the type annotation asks for texts only. -/
inductive ChangePath
  | text (path : String)
  | other (shown : String)
  deriving DecidableEq

def ChangePath.show : ChangePath → String
  | .text path => path
  | .other shown => shown

/-- What the manager is built on: the validated reading of the source with its defaults and
fallbacks, the validation of a candidate, and the digest of the sorted JSON text, which not every
mapping has. -/
structure ConfigEnv where
  readConfig : Config → Except String Config
  validate : Config → Except (List (String × String)) Config
  computeRevision : Config → Except String String
  persistenceCapable : Bool
  schemaLeafPaths : Option (List String)
  schemaLeafOptions : String → Option (List Json)

structure ConfigApplyResult where
  revision : String
  changedPaths : List String
  deriving DecidableEq

/-- How a call ends where it does not succeed; `failed` is any other exception. -/
inductive ApplyError
  | conflict (expectedRevision currentRevision : String)
  | validation (fieldErrors : List (String × String))
  | persistence (message : String)
  | cancelled
  | failed (message : String)
  deriving DecidableEq

structure ApplyRequest where
  changes : List (ChangePath × Json)
  expectedRevision : Option String := none
  persist : Bool := true

/-- `_matches_schema_option` for one option: the same type and value. -/
def sameScalar : Json → Json → Bool
  | .null, .null => true
  | .bool a, .bool b => a = b
  | .int a, .int b => a = b
  | .float a, .float b => a = b
  | .str a, .str b => a = b
  | _, _ => false

def matchesSchemaOption (value : Json) (options : List Json) : Bool :=
  options.any (sameScalar value)

def pathParts (path : String) : List String := (path.toList.splitOn '.').map String.ofList

variable (env : ConfigEnv)

/-- `_validate_change_paths`, for one path. -/
def ConfigEnv.pathError (path : ChangePath) (value : Json) : Option String :=
  match path with
  | .other _ => some "配置路径必须是字符串"
  | .text p =>
    if (pathParts p).any (· = "") then some "配置路径格式无效"
    else if env.schemaLeafPaths.any (p ∉ ·) && p ∉ ["quality.gate.bindings",
        "quality.gate.profiles","topic_segmentation.candidate_reuse.bucket_overrides"] then
      some "配置路径不在 AstrBot schema 中"
    else if (env.schemaLeafOptions p).any (!matchesSchemaOption value ·) then
      some "配置值不在 AstrBot schema 允许的选项中"
    else none

def ConfigEnv.validateChangePaths (changes : List (ChangePath × Json)) : List (String × String) :=
  if env.persistenceCapable && env.schemaLeafPaths.isNone then
    [("*","AstrBot 配置 schema 不可用，已拒绝持久化配置更新")]
  else changes.foldl (fun fieldErrors change => match env.pathError change.1 change.2 with
    | none => fieldErrors
    | some message => Dict.assign change.1.show message fieldErrors) []

def lookup (key : String) (c : Config) : Option Json := (c.find? fun e => e.1 = key).map Prod.snd

/-- Whatever stands in the way of the path is replaced. -/
def setDottedValue (target : Config) : List String → Json → Config
  | [], _ => target
  | [part], value => Dict.assign part value target
  | part::rest, value =>
    let next := match lookup part target with
      | some (.obj entries) => entries
      | _ => []
    Dict.assign part (.obj (setDottedValue next rest value)) target

def ConfigEnv.candidate (config : Config) (changes : List (ChangePath × Json)) :
    Except ApplyError (Config × String) :=
  match env.validateChangePaths changes with
  | e::es => .error (.validation (e::es))
  | [] =>
    let target := changes.foldl (fun c change => setDottedValue c (pathParts change.1.show) change.2) config
    match env.validate target with
    | .error fieldErrors => .error (.validation fieldErrors)
    | .ok snapshot =>
      match env.computeRevision snapshot with
      | .error message => .error (.failed message)
      | .ok revision => .ok (snapshot,revision)

structure Manager where
  config : Config
  revision : String
  sourceRevision : String

/-- A save in progress: what stood in the source, and the candidate that replaced it. Ghost: the
manager as the call found it, and the edits since. -/
structure Saving where
  request : ApplyRequest
  sourceBefore : Config
  candidate : Config
  candidateRevision : String
  cancellationRequested : Bool := false
  found : Manager
  edits : List (Config → Config) := []

structure World where
  source : Config
  manager : Manager
  saving : Option Saving := none

variable (w : World) (r : ApplyRequest)

def World.beginSave (snapshot : Config) (revision : String) : Saving where
  request := r
  sourceBefore := w.source
  candidate := snapshot
  candidateRevision := revision
  found := w.manager

def ConfigEnv.readSourceState (source : Config) : Except String (Config × String) :=
  match env.readConfig source with
  | .error message => .error message
  | .ok config =>
    match env.computeRevision config with
    | .error message => .error message
    | .ok revision => .ok (config,revision)

def World.load (source : Config) : Except String World :=
  match env.readSourceState source with
  | .error message => .error message
  | .ok (config,revision) => .ok ⟨source,⟨config,revision,revision⟩,none⟩

/-- `_reconcile_source_locked`. -/
def World.reconcileSource : Except String Manager :=
  match env.readSourceState w.source with
  | .error message => .error message
  | .ok (config,revision) =>
    if revision = w.manager.sourceRevision then .ok w.manager
    else .ok ⟨config,revision,revision⟩

structure Finished where
  request : ApplyRequest
  outcome : Except ApplyError ConfigApplyResult

def ApplyRequest.changedPaths : List String :=
  (r.changes.map fun c => c.1.show).insertionSort (· ≤ ·)

/-- The end of a call whose save went well: what the source holds now is published. -/
def World.saved (s : Saving) : World × Option Finished :=
  let w := { w with saving := none }
  match env.readSourceState w.source with
  | .error message => (w,some ⟨s.request,.error (.failed message)⟩)
  | .ok (config,revision) =>
    if revision = s.candidateRevision then
      let m : Manager := ⟨s.candidate,s.candidateRevision,s.candidateRevision⟩
      ({ w with manager := m },some ⟨s.request,
        if s.cancellationRequested then .error .cancelled
        else .ok ⟨s.candidateRevision,s.request.changedPaths⟩⟩)
    else
      -- the source is not the candidate any more
      ({ w with manager := ⟨config,revision,revision⟩ },some ⟨s.request,.error <|
        if s.cancellationRequested then .cancelled
        else .conflict ((s.request.expectedRevision.filter (· ≠ "")).getD s.candidateRevision) revision⟩)

def ConfigEnv.sourceStillMatches (source candidate : Config) : Bool :=
  match env.computeRevision source, env.computeRevision candidate with
  | .ok a, .ok b => a = b
  | _, _ => false

def World.saveFailed (s : Saving) (message : String) : World × Option Finished :=
  ({ w with
      source := if env.sourceStillMatches w.source s.candidate then s.sourceBefore else w.source
      saving := none },
    some ⟨s.request,.error <| if s.cancellationRequested then .cancelled
      else .persistence ("配置持久化失败: "++message)⟩)

/-- What `apply_config_changes` comes to without waiting: its end, or a source that the candidate
has replaced. -/
inductive Entry
  | ended (w : World) (done : Finished)
  | installed (w : World) (s : Saving)

/-- `apply_config_changes` up to the save. -/
def World.enter : Entry :=
  match w.reconcileSource env with
  | .error message => .ended w ⟨r,.error (.failed message)⟩
  | .ok m =>
    let w' := { w with manager := m }
    if r.expectedRevision.any (· ≠ m.revision) then
      .ended w' ⟨r,.error (.conflict (r.expectedRevision.getD "") m.revision)⟩
    else if r.changes.isEmpty then .ended w' ⟨r,.ok ⟨m.revision,[]⟩⟩
    else
      match env.candidate m.config r.changes with
      | .error e => .ended w' ⟨r,.error e⟩
      | .ok (snapshot,revision) =>
        if r.persist then
          let s := w.beginSave r snapshot revision
          .installed { w' with source := snapshot, saving := some s } s
        else
          .ended { w' with manager := { m with config := snapshot, revision := revision } }
            ⟨r,.ok ⟨revision,r.changedPaths⟩⟩

def World.applyConfigChanges : World × Option Finished :=
  match w.enter env r with
  | .ended w' done => (w',some done)
  | .installed w' s => if env.persistenceCapable then (w',none) else w'.saved env s

inductive Event
  | edit (f : Config → Config)
  | snapshot
  | apply (r : ApplyRequest)
  | cancel
  | saved
  | saveFailed (message : String)

/-- One event, and the call that ends with it. A call or a snapshot that finds the lock held goes
on waiting. -/
def World.next (e : Event) : World × Option Finished :=
  match w.saving with
  | none =>
    match e with
    | .edit f => ({ w with source := f w.source },none)
    | .snapshot =>
      match w.reconcileSource env with
      | .error _ => (w,none)
      | .ok m => ({ w with manager := m },none)
    | .apply r => w.applyConfigChanges env r
    | _ => (w,none)
  | some s =>
    match e with
    | .edit f =>
      ({ w with
          source := f w.source
          saving := some { s with edits := s.edits++[f] } },none)
    | .cancel => ({ w with saving := some { s with cancellationRequested := true } },none)
    | .saved => w.saved env s
    | .saveFailed message => w.saveFailed env s message
    | _ => (w,none)

def World.step (e : Event) : World := (w.next env e).1

def World.run (events : List Event) : World :=
  events.foldl (World.step env) w

end Memora.Configuration

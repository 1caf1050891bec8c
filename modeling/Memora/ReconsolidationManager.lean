import Memora.EngineUpdates
import Memora.ReconsolidationStore

/-! An application writes the proposed text under the revision it was proposed for, a rollback
writes the old text under the revision the application has left. Both then compare what they
find in the row with what they meant to write. -/
namespace Memora.Reconsolidation
open Engine
open Canonical (pythonStrip)

structure Settings where
  enabled : Bool
  minRecallCount : ℤ

variable (env : Env)

/-- `int(v)`; none where it raises. -/
def pythonInt : Value → Option ℤ
  | .null => none
  | .bool b => some (if b then 1 else 0)
  | .num q => some (truncate q)
  | .str s => env.parseInt s
  | .json _ => none

def callLlm (answer : Option String) : Option String :=
  let value := pythonStrip (answer.getD "")
  if 10 ≤ value.length then some value else none

/-- Whether a memory was recalled often enough; a count that is no number raises. -/
def recalledOften (cfg : Settings) (m : Metadata) : Bool :=
  let count := (m.get? "access_count").getD (.num 0)
  (pythonInt env (if count.truthy then count else .num 0)).any (max 1 cfg.minRecallCount ≤ ·)

/-- `maybe_propose` on the memory it loads, with the model's answer and the id a new candidate
would get; none when nothing is proposed. -/
def maybePropose (cfg : Settings) (s : Store) (memoryId : ℕ) (memory : Option MemoryRow)
    (context : String) (answer : Option String) (candidateId : String) :
    Option (Store × String × Candidate) :=
  match memory with
  | none => none
  | some m =>
    if !cfg.enabled || blank m.text || !recalledOften env cfg m.metadata || blank context ||
        m.revision env = "" then none
    else match callLlm answer with
      | none => none
      | some revised =>
        if revised = pythonStrip m.text then none
        else some (s.stageCandidate memoryId (m.revision env) m.text m.metadata revised candidateId)

def factMetadataKeys : List String := ["key_facts","fact_source_evidence"]

def applyTargetMetadata (m : Metadata) : Metadata := m.popAll factMetadataKeys

/-- The metadata of `_build_apply_payload`; none where the old count is no number. -/
def buildApplyPayload (oldMetadata : Metadata) (now : ℚ) : Option Metadata :=
  let target := applyTargetMetadata oldMetadata
  (pythonInt env ((target.get? "reconsolidation_count").getD (.num 0))).map fun n =>
    (((target.set "reconsolidation_count" (.num (n+1 : ℤ))).set
      "last_reconsolidated_at" (.num now)).pop "reconsolidation_history").pop "updated_at"

def comparable : Value → Value
  | .bool b => .num (if b then 1 else 0)
  | v => v

def metadataMatches (current expected : Metadata) : Bool :=
  ((current.pop "updated_at").mapValues comparable).same
  ((expected.pop "updated_at").mapValues comparable)

def applyMetadataMatches (current expected : Metadata) : Bool :=
  metadataMatches (applyTargetMetadata current) (applyTargetMetadata expected)

variable (memory : Option MemoryRow)

def loadedRevision : String :=
  (memory.map fun m => m.revision env).getD ""

def memoryContent : String := (memory.map MemoryRow.text).getD ""

def memoryMetadata : Metadata := (memory.map MemoryRow.metadata).getD {}

structure Stamp where
  text : String
  clean : token (some text) = some text

lemma revision_of_stamp {env : Env} {m : MemoryRow} {t : Stamp} (h : m.updatedAt = some t.text) :
    m.revision env = t.text := by
  rw [MemoryRow.revision,revisionOf,h,t.clean]
  rfl

lemma Stamp.strip (t : Stamp) : pythonStrip t.text = t.text ∧ t.text ≠ "" := by
  have hclean := t.clean
  rw [token,Option.map_some,Option.filter_eq_some_iff] at hclean
  obtain ⟨hstrip,hne⟩ := hclean
  exact ⟨Option.some.inj hstrip,by simpa using hne⟩

lemma unchangedSince_of_stamp {m : MemoryRow} {t : Stamp} (h : m.updatedAt = some t.text) :
    m.unchangedSince t.text = true := by
  obtain ⟨hstrip,hne⟩ := t.strip
  simp [MemoryRow.unchangedSince,h,hstrip,hne,Option.filter]

/-- What an update takes from outside: whether the retriever can embed and store the text, and
the clock's readings. -/
structure Write where
  available : Bool
  now : ℚ
  updatedAt : Stamp

/-- `update_memory` with a content, a metadata argument and an expected revision, on a memory
that nobody else writes; the row it leaves, or its reason code. -/
def updateMemory (content : String) (metadata : Metadata) (expected : String) (write : Write) :
    Except String MemoryRow :=
  match memory with
  | none => .error "source_not_found"
  | some m =>
    match prepareContent env m.metadata (m.revision env) content (some metadata) expected
        write.now with
    | .error e => .error e.code
    | .ok g =>
      match if write.available then
          updateContentIfRevision m content g.metadata expected g.dropped write.updatedAt.text
        else none with
      | none => .error UpdateReason.sourceRevisionMismatch.code
      | some m' => .ok m'

inductive Failure
  | store (e : StoreError)
  | raised
  deriving DecidableEq

/-- `apply_candidate` up to its update: the intent is stored. -/
def startApply (s : Store) (id : String) (now : ℚ) :
    Except Failure (Store × Candidate × Metadata) :=
  match s.getCandidate id with
  | none => .error (.store .notFound)
  | some c => match buildApplyPayload env c.oldMetadata now with
    | none => .error .raised
    | some target => match s.beginApply id c.sourceRevision target with
      | .error e => .error (.store e)
      | .ok r => .ok (r.1,r.2,target)

/-- What `_finalize_applied_candidate` checks. -/
def applyVerified (c : Candidate) (target : Metadata) (memory : Option MemoryRow) :
    Bool :=
  let revision := loadedRevision env memory
  revision ≠ "" && revision ≠ c.sourceRevision && memoryContent memory = c.proposedContent &&
    applyMetadataMatches (memoryMetadata memory) target

def finalizeAppliedCandidate (s : Store) (id : String) (c : Candidate) (target : Metadata)
    (reason : String) (memory : Option MemoryRow) : Except StoreError (Store × Option Candidate) :=
  if applyVerified env c target memory then
    (s.completeApply id reason (some (loadedRevision env memory,memoryMetadata memory))).map
      fun r => (r.1,some r.2)
  else
    (s.markApplyRecoveryRequired id "apply_result_unverified").map fun s' => (s',none)

inductive ApplyAnswer
  | applied (c : Candidate)
  | refused (reason : String)
  deriving DecidableEq

structure World where
  memories : Dict ℕ MemoryRow := {}
  store : Store := {}
  deriving DecidableEq

structure ApplyCall where
  now : ℚ
  write : Write

def World.applyCandidate (w : World) (id : String) (call : ApplyCall) :
    World × Except Failure ApplyAnswer :=
  match startApply env w.store id call.now with
  | .error e => (w,.error e)
  | .ok (s,c,target) =>
    match updateMemory env (w.memories.get? c.memoryId) c.proposedContent target c.sourceRevision
        call.write with
    | .error reason => match s.completeApply id reason none with
      | .error e => ({ w with store := s },.error (.store e))
      | .ok r => ({ w with store := r.1 },.ok (.refused reason))
    | .ok m =>
      let memories := w.memories.set c.memoryId m
      match finalizeAppliedCandidate env s id c target "applied" (memories.get? c.memoryId) with
      | .error e => (⟨memories,s⟩,.error (.store e))
      | .ok (s',none) => (⟨memories,s'⟩,.ok (.refused "apply_result_unverified"))
      | .ok (s',some c') => (⟨memories,s'⟩,.ok (.applied c'))

/-- The checks of `rollback_candidate` before its intent; the revision that guards the rollback,
or a reason code. -/
def rollbackCheck (c : Candidate) (memory : Option MemoryRow) :
    Except String String :=
  let applied := pythonStrip (c.appliedRevision.getD "")
  match c.appliedMetadata with
  | none => .error "apply_revision_missing"
  | some metadata =>
    if applied = "" then .error "apply_revision_missing"
    else if loadedRevision env memory = "" then .error "source_not_found"
    else if loadedRevision env memory ≠ applied || memoryContent memory ≠ c.proposedContent ||
        !metadataMatches (memoryMetadata memory) metadata then .error "source_revision_mismatch"
    else .ok applied

/-- What `rollback_candidate` checks after its update. -/
def rollbackVerified (c : Candidate) (applied : String) (memory : Option MemoryRow) :
    Bool :=
  let revision := loadedRevision env memory
  revision ≠ "" && revision ≠ applied && memoryContent memory = c.oldContent &&
    metadataMatches (memoryMetadata memory) c.oldMetadata

inductive RollbackAnswer
  | restored
  | refused (reason : String)
  deriving DecidableEq

/-- What a rollback takes from outside; `refreshes` tells whether the derived data follow. -/
structure RollbackCall where
  write : Write
  refreshes : Bool

/-- `rollback_candidate` after its update, on the memory it loads. -/
def finishRollback (s : Store) (id : String) (c : Candidate) (applied : String)
    (memory : Option MemoryRow) (refreshes : Bool) : Except StoreError (Store × RollbackAnswer) :=
  if !rollbackVerified env c applied memory then
    (s.markRollbackBlocked id "rollback_result_unverified").map
      fun s' => (s',.refused "rollback_result_unverified")
  else if !refreshes then .ok (s,.refused "derived_refresh_failed")
  else (s.completeRollback id).map fun r => (r.1,.restored)

/-- The end of `rollback_candidate`, when its update has been written. -/
def settleRollback (memories : Dict ℕ MemoryRow) (s : Store) (id : String) (c : Candidate)
    (applied : String) (refreshes : Bool) : World × Except Failure RollbackAnswer :=
  match finishRollback env s id c applied (memories.get? c.memoryId) refreshes with
  | .error e => (⟨memories,s⟩,.error (.store e))
  | .ok (s',answer) => (⟨memories,s'⟩,.ok answer)

def World.rollbackCandidate (w : World) (id : String) (call : RollbackCall) :
    World × Except Failure RollbackAnswer :=
  match w.store.getCandidate id with
  | none => (w,.error (.store .notFound))
  | some c =>
    if c.status ≠ .approved then (w,.error (.store (.conflict "candidate_status_changed")))
    else match rollbackCheck env c (w.memories.get? c.memoryId) with
      | .error reason => (w,.ok (.refused reason))
      | .ok applied => match w.store.beginRollback id applied with
        | .error e => (w,.error (.store e))
        | .ok s =>
          match updateMemory env (w.memories.get? c.memoryId) c.oldContent c.oldMetadata applied
              call.write with
          | .error reason => ({ w with store := s.cancelRollback id },.ok (.refused reason))
          | .ok m =>
            settleRollback env (w.memories.set c.memoryId m) s id c applied call.refreshes

end Memora.Reconsolidation

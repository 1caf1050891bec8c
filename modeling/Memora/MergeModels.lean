import Memora.AtomModels
import Memora.FirstSeen

/-! A near duplicate of a memory is not written again: the memory keeps its text and takes over the
candidate's evidence, references and topics, and remembers the key of the candidate, so that the
same candidate is not merged twice. -/
namespace Memora.Merging
open FirstSeen
open Memora.Canonical (pythonStrip)
open Memora.Representation (Json Metadata Row Unicode FactTextAlignment blank token recallable
  factsAligned pairedFacts normalizeFact)
open Memora.Atoms (hasUserSourceEvidence)

/-- What the merge takes from the language and its libraries: Unicode tables, `json.dumps` with
sorted keys, the equality of JSON values, `float` and `str`. -/
structure MergeEnv where
  unicode : Unicode
  identity : Json → String
  equal : Option Json → Option Json → Bool
  parseFloat : String → Option ℚ
  text : Json → String

def maxSourceEvidence : ℕ := 32
def maxMergedIdempotencyKeys : ℕ := 16
def maxSourceRefs : ℕ := 32
def maxTopics : ℕ := 5

structure MergeCandidate where
  metadata : Metadata
  importance : Json
  sessionId : String
  personaId : Option String
  idempotencyKey : String

structure DedupDocument where
  content : String

variable (env : MergeEnv)

/-- A number between zero and one, zero where there is none. -/
def importance : Option Json → ℚ
  | some (.int n) => max 0 (min 1 n)
  | some (.float q) => max 0 (min 1 q)
  | some (.str s) => match env.parseFloat s with
    | some q => max 0 (min 1 q)
    | none => 0
  | _ => 0

variable (c : MergeCandidate) (m : Metadata)

def mergeCount : ℤ :=
  match m.get? "merge_count" with
  | some (.int n) => if n < 0 then 0 else n
  | _ => 0

def items : Option Json → List Json
  | some (.arr l) => l
  | _ => []

/-- The old items first, then the new ones, without repetitions. -/
def union (existing incoming : Option Json) (limit : ℕ) : List Json :=
  (firstSeen env.identity [] (items existing++items incoming)).take limit

def keyText : Json → Option String
  | .str s => if blank s then none else some s
  | _ => none

/-- The keys a memory remembers. -/
def mergedKeys : List String :=
  (items (m.get? "merged_idempotency_keys")).filterMap keyText

/-- The keys with one more, of which the newest are kept. -/
def mergeKeys (key : String) : List String :=
  keepLast maxMergedIdempotencyKeys
    (if key ≠ "" && key ∉ mergedKeys m then mergedKeys m++[key] else mergedKeys m)

def reference : Json → Option Metadata
  | .obj entries => some (Dict.ofEntries entries)
  | _ => none

def userGroup : Json → Option (List Metadata)
  | .arr l => (l.mapM reference).filter hasUserSourceEvidence
  | _ => none

def factString : Json → String
  | .str s => s
  | _ => ""

def factGroups : Option (List (String × List Metadata)) :=
  match pairedFacts (m.get? "key_facts") (m.get? "fact_source_evidence") with
  | some facts =>
    ((items (m.get? "fact_source_evidence")).mapM userGroup).map ((facts.map factString).zip ·)
  | none => none

structure RefKey where
  messageId : ℤ
  messageSeq : ℤ
  role : String
  start : ℤ
  stop : ℤ
  fingerprint : String
  deriving DecidableEq

def intField (d : Metadata) (key : String) : ℤ :=
  match d.get? key with
  | some (.int n) => n
  | _ => 0

def textField (d : Metadata) (key : String) : String :=
  match d.get? key with
  | some (.str s) => s
  | _ => ""

def refKey (d : Metadata) : RefKey where
  messageId := intField d "message_id"
  messageSeq := intField d "message_seq"
  role := textField d "role"
  start := intField d "start"
  stop := intField d "end"
  fingerprint := textField d "message_fingerprint"

def mergeGroup (group additions : List Metadata) : Option (List Metadata) :=
  let retained := (firstSeen refKey [] (group++additions)).take maxSourceEvidence
  if hasUserSourceEvidence retained then some retained else none

def factKey (fact : String) : List Char := normalizeFact env.unicode fact

def additions (incoming : List (String × List Metadata)) (fact : String) : List Metadata :=
  (incoming.filter fun g => factKey env g.1 = factKey env fact).flatMap Prod.snd

/-- None where the two cannot be merged. -/
def mergeFactEvidence (existing incoming : Metadata) : Option (List (List Metadata)) :=
  match factGroups existing, factGroups incoming with
  | some owner, some added =>
    if added.all fun a => owner.any fun o => factKey env o.1 = factKey env a.1 then
      owner.mapM fun o => mergeGroup o.2 (additions env added o.1)
    else none
  | _, _ => none

def evidenceJson (groups : List (List Metadata)) : Json :=
  .arr (groups.map fun group => .arr (group.map fun d => .obj d.entries))

structure DedupScope where
  sessionId : String
  personaId : Option String
  scopeKey : String
  privacyLevel : String
  chatType : Option String
  participantIds : List String

def scopeText : Option Json → Option String
  | some (.str s) => if pythonStrip s = "" then none else some (pythonStrip s)
  | _ => none

def optionalText : Option Json → Option (Option String)
  | none | some .null => some none
  | value => (scopeText value).map some

def participantIds : Option Json → Option (List String)
  | none | some .null => some []
  | some (.arr l) => l.mapM fun j => scopeText (some j)
  | _ => none

def buildScope (sessionId personaId : Option Json) : Option DedupScope :=
  match scopeText (m.get? "scope_key"), scopeText (m.get? "privacy_level"), scopeText sessionId,
      optionalText personaId, optionalText (m.get? "chat_type"),
      participantIds (m.get? "participant_ids") with
  | some scope, some privacy, some session, some persona, some chat, some participants =>
    some ⟨session,persona,scope,privacy,chat,participants⟩
  | _, _, _, _, _, _ => none

def candidateScope : Option DedupScope :=
  buildScope c.metadata (some (.str c.sessionId)) (c.personaId.map .str)

def storedScope : Option DedupScope :=
  buildScope m (m.get? "session_id") (m.get? "persona_id")

def needsParticipantBoundary (s : DedupScope) : Bool :=
  s.privacyLevel = "confidential" || s.chatType = some "private"

def sameDedupScope (incoming stored : DedupScope) : Bool :=
  incoming.sessionId = stored.sessionId && incoming.personaId = stored.personaId &&
    incoming.scopeKey = stored.scopeKey && incoming.privacyLevel = stored.privacyLevel &&
    (incoming.chatType.isNone || stored.chatType.isNone || incoming.chatType = stored.chatType) &&
    (!needsParticipantBoundary incoming ||
      incoming.participantIds.any fun p => stored.participantIds.contains p)

inductive MergeStatus
  | merged | observed | miss | factMismatch | conflict | failed
  deriving DecidableEq

/-- What comes of writing the update. An unconfirmed update is committed, but the call returns
false or raises, as when a derived index fails after the commit. -/
inductive WriteAnswer
  | applied (stamp : String)
  | unconfirmed (stamp : String)
  | refused
  | cancelled (stamp : Option String)

structure Answers where
  loads : Bool := true
  write : WriteAnswer
  readsBack : Bool := true
  clock : ℚ

def memoryRevision (row : Row) : String :=
  ((token row.updatedAt).or (token row.createdAt)).getD
  (match (row.metadata.getD {}).get? "updated_at" with
      | none | some .null => ""
      | some (.str s) => pythonStrip s
      | some value => pythonStrip (env.text value))

def mergeable (document : DedupDocument) (row : Row) : Option (List (List Metadata)) :=
  let m := row.metadata.getD {}
  match candidateScope c, storedScope m with
  | some incoming, some stored =>
    if recallable m && row.text = some document.content &&
        factsAligned env.unicode row.text (m.get? "key_facts") (m.get? "fact_source_evidence") = .aligned &&
        sameDedupScope incoming stored &&
        env.equal (c.metadata.get? "revision_token") (m.get? "revision_token") &&
        env.equal (c.metadata.get? "resolver_revision") (m.get? "resolver_revision") then
      mergeFactEvidence env m c.metadata
    else none
  | _, _ => none

def setItems (key : String) (l : List Json) (updates : Metadata) : Metadata :=
  if l.isEmpty then updates else updates.set key (.arr l)

def countUpdates (clock : ℚ) : Metadata :=
  let raised := max (importance env (m.get? "importance")) (importance env (some c.importance))
  ((({} : Metadata).set "importance" (.float raised)).set
    "merge_count" (.int (mergeCount m+1))).set "last_merged_at" (.float clock)
    |>.set "merged_idempotency_keys" (.arr ((mergeKeys m c.idempotencyKey).map .str))

/-- `_merge_updates` with the evidence, as `update_memory` completes it. -/
def mergeUpdates (evidence : List (List Metadata)) (clock : ℚ) : Metadata :=
  let refs := union env (m.get? "source_refs") (c.metadata.get? "source_refs") maxSourceRefs
  let topics := union env (m.get? "topics") (c.metadata.get? "topics") maxTopics
  let updates := (setItems "topics" topics (setItems "source_refs" refs
    (countUpdates env c m clock))).set "fact_source_evidence" (evidenceJson evidence)
  if !topics.isEmpty && !env.equal (some (.arr topics)) (m.get? "topics") then
    updates.set "topic_observed_at" (.float clock)
  else updates

def written (row : Row) (evidence : List (List Metadata)) (clock : ℚ) (stamp : String) : Row :=
  let m := row.metadata.getD {}
  { row with
    metadata := some (m.update (mergeUpdates env c m evidence clock))
    updatedAt := some stamp }

def remembered : Bool :=
  c.idempotencyKey ≠ "" && c.idempotencyKey ∈ mergedKeys m

def mergeLanded (baseline : ℤ) (readsBack : Bool) (row : Row) : Bool :=
  readsBack &&
    if c.idempotencyKey ≠ "" then c.idempotencyKey ∈ mergedKeys (row.metadata.getD {})
    else baseline < mergeCount (row.metadata.getD {})

def landedStatus (landed : Bool) : MergeStatus := if landed then .merged else .conflict

def applyMerge (document : DedupDocument) (answers : Answers) (owner : Option Row) :
    Option MergeStatus × Option Row :=
  if !answers.loads then (some .failed,owner)
  else match owner with
    | none => (some .conflict,none)
    | some row => match mergeable env c document row with
      | none => (some .conflict,owner)
      | some evidence =>
        let m := row.metadata.getD {}
        -- a replay: the candidate is already part of the memory
        if remembered c m then (some .merged,owner)
        else if memoryRevision env row = "" then (some .conflict,owner)
        else
          let after := written env c row evidence answers.clock
          match answers.write with
          | .applied stamp => (some .merged,some (after stamp))
          | .unconfirmed stamp =>
            (some (landedStatus (mergeLanded c (mergeCount m) answers.readsBack (after stamp))),
              some (after stamp))
          | .refused =>
            (some (landedStatus (mergeLanded c (mergeCount m) answers.readsBack row)),owner)
          | .cancelled stamp => (none,stamp.elim owner fun s => some (after s))

end Memora.Merging

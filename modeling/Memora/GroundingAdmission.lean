import Memora.GroundingModels

/-! The verdicts on the facts are projected to the facts that are admitted, their evidence and the
evidence of the summary; the projection is written into the candidate, and the candidate into
the record that is stored. -/
namespace Memora.Grounding
open Memora.Canonical (pythonStrip)
open Memora.Representation (Json Metadata blank joinFacts isText)
open Memora.Merging (reference)

structure Disposition where
  factIndex : ℕ
  status : GroundingStatus
  reasonCodes : List String
  deriving DecidableEq

def disposition (index : ℕ) (r : GroundingResult) : Disposition := ⟨index,r.status,r.reasonCodes⟩

variable (results : List GroundingResult)

def factDispositions : List Disposition :=
  results.mapIdx disposition

/-- `dict.fromkeys` of the reasons. -/
def distinctReasons : List String :=
  FirstSeen.firstSeen id [] (results.flatMap (·.reasonCodes))

/-- The refused facts of a candidate of which others were admitted; its other metadata are
constants. -/
structure QuarantineCandidate where
  content : String
  importance : ℚ
  keyFacts : List String
  factSourceEvidence : List (List Metadata)
  factDispositions : List Disposition
  groundingReasonCodes : List String

def pick {α : Type*} (l : List α) (indices : List ℕ) : List α := indices.filterMap (l[·]?)

def quarantineFactCandidate (facts : List String) (results : List GroundingResult)
    (rejected : List ℕ) (importance : ℚ) : QuarantineCandidate where
  content := joinFacts (pick facts rejected)
  importance := importance
  keyFacts := pick facts rejected
  factSourceEvidence := (pick results rejected).map (·.evidence)
  factDispositions := rejected.filterMap fun i => (results[i]?).map (disposition i)
  groundingReasonCodes := distinctReasons (pick results rejected)

structure FactAdmission where
  keyFacts : List String
  factSourceEvidence : List (List Metadata)
  dispositions : List Disposition
  rejected : List ℕ
  summaryRebuilt : Bool
  quarantineCandidate : Option QuarantineCandidate
  subjectEvidence : List Metadata
  grounding : GroundingResult

def indicesWhere (verdict : Bool) (results : List GroundingResult) : List ℕ :=
  (List.range results.length).filter fun i => (results[i]?).any (·.allowed = verdict)

variable (evidence : List Metadata)

def admittedGrounding : GroundingResult :=
  ⟨true,.grounded,[],evidence,"","",false⟩

def refusedGrounding :
    GroundingResult := ⟨false,.quarantine,distinctReasons results,evidence,"","",false⟩

def projectFactAdmission (facts : List String) (results : List GroundingResult)
    (summaryAllowed : Bool) (summaryEvidence : List Metadata) (importance : ℚ) : FactAdmission :=
  let accepted := indicesWhere true results
  let refused := indicesWhere false results
  let summaryRebuilt := !refused.isEmpty || !summaryAllowed
  let groups := (pick results accepted).map (·.evidence)
  let grounding :=
    if accepted.isEmpty then refusedGrounding results summaryEvidence
    else admittedGrounding (if summaryRebuilt then groups.flatten else summaryEvidence)
  let subjectEvidence := (results.filter (·.allowed)).flatMap (·.evidence)
  { keyFacts := if accepted.isEmpty then [] else pick facts accepted
    factSourceEvidence := if accepted.isEmpty then [] else groups
    dispositions := factDispositions results
    rejected := refused
    summaryRebuilt := summaryRebuilt
    quarantineCandidate :=
      if !accepted.isEmpty && !refused.isEmpty then
        some (quarantineFactCandidate facts results refused importance)
      else none
    subjectEvidence := if subjectEvidence.isEmpty then grounding.evidence else subjectEvidence
    grounding := grounding }

/-- How `resolve_grounding_judge` ends: with the judge's word, without one, or cancelled. -/
inductive JudgeOutcome
  | judged (supported : Bool)
  | unavailable
  | cancelled
  deriving DecidableEq

def GroundingResult.withJudgeResult (r : GroundingResult) (supported : Bool) : GroundingResult :=
  if supported then
    { r with
      allowed := true, status := .grounded, reasonCodes := ["grounding_judge_supported"]
      requiresJudge := false }
  else
    { r with
      allowed := false, status := .quarantine, reasonCodes := ["grounding_judge_rejected"]
      requiresJudge := false }

def GroundingResult.withUnavailableJudge (r : GroundingResult) : GroundingResult :=
  { r with
    allowed := false, status := .quarantine, reasonCodes := ["grounding_judge_unavailable"]
    requiresJudge := false }

def askJudge (judge : GroundingResult → JudgeOutcome) (r : GroundingResult) :
    Option GroundingResult :=
  if r.requiresJudge then
    match judge r with
    | .judged supported => some (r.withJudgeResult supported)
    | .unavailable => some r.withUnavailableJudge
    | .cancelled => none
  else some r

def candidateFacts (mem : Metadata) : List String :=
  match mem.get? "key_facts" with
  | some (.arr items) => items.map fun item => match item with
    | .str s => s
    | _ => ""
  | _ => []

variable (env : GroundingEnv)

/-- Nothing where the judge is cancelled. -/
def admitCandidateFacts (judge : GroundingResult → JudgeOutcome) (mem : Metadata)
    (messages : List Message) (isGroupChat : Bool) (profile : GateProfile)
    (seqs : Option (List (Option ℤ))) (gateEnabled : Bool) (importance : ℚ) :
    Option FactAdmission := do
  let results ← (validateFacts env mem messages isGroupChat profile seqs).mapM (askJudge judge)
  let summary := validate env mem messages isGroupChat profile seqs
  let summaryEvidence :=
    if gateEnabled then summary.evidence else resolveEvidence env mem messages profile seqs
  some (projectFactAdmission (candidateFacts mem) results summary.allowed summaryEvidence
    importance)

def groupJson (group : List Metadata) : Json := .arr (group.map fun d => .obj d.entries)

def acceptedPosition (refused : List ℕ) (count : ℕ) (index : ℤ) : Option ℕ :=
  ((List.range count).filter (· ∉ refused)).findIdx? fun i => i = index

variable (metadata : Metadata) (admission : FactAdmission)

/-- One turn of the loop in `_admitted_fact_bindings`. -/
def remapBinding (count : ℕ) (raw : Json) : Option Json := do
  let binding ← reference raw
  let index ← intOf (binding.get? "fact_index")
  let position ← acceptedPosition admission.rejected count index
  let fact ← admission.keyFacts[position]?
  if isText (binding.get? "fact") fact then
    some (.obj (binding.set "fact_index" (.int position)).entries)
  else none

def admittedFactBindings (raw originalFacts : Option Json) (admission : FactAdmission) :
    List Json :=
  match raw, originalFacts with
  | some (.arr bindings), some (.arr facts) =>
    if ((List.range facts.length).filter (· ∉ admission.rejected)).length ≠
        admission.keyFacts.length then []
    else bindings.filterMap (remapBinding admission facts.length)
  | _, _ => []

def textsJson (l : List String) : Json := .arr (l.map .str)

def retainedTopics (topics : List String) : List String :=
  let retained := (env.casefold (" ".intercalate admission.keyFacts)).toList
  topics.filter fun topic => (env.casefold topic).toList <:+: retained

def applyFactAdmission (mem : Metadata) (admission : FactAdmission) (topics : List String) :
    Metadata × List String :=
  if admission.grounding.allowed then
    let bindings := admittedFactBindings (mem.get? "fact_bindings") (mem.get? "key_facts") admission
    let applied := (mem.set "key_facts" (textsJson admission.keyFacts)).set "fact_source_evidence"
      (.arr (admission.factSourceEvidence.map groupJson))
    let applied := if admission.summaryRebuilt then
      applied.set "summary" (.str (joinFacts admission.keyFacts)) else applied
    if admission.rejected.isEmpty then (applied.set "fact_bindings" (.arr bindings),topics)
    else
      let topics := retainedTopics env admission topics
      (((applied.set "topics" (textsJson topics)).set "causal_relations" (.arr [])).set
        "fact_bindings" (.arr bindings),topics)
  else ((mem.set "fact_source_evidence" (.arr [])).set "fact_bindings" (.arr []),topics)

def stringList : Option Json → List String
  | some (.arr items) => FirstSeen.firstSeen id [] (items.filterMap fun item =>
      (factString item).map pythonStrip)
  | _ => []

structure FactBinding where
  factIndex : ℕ
  fact : String
  target : String
  targetType : String
  deriving DecidableEq

def FactBinding.json (b : FactBinding) : Json :=
  .obj [("fact_index",.int b.factIndex),("fact",.str b.fact),("target",.str b.target),
    ("target_type",.str b.targetType)]

def declared (targetType : String) : Option (List String) :=
  if targetType = "topic" then some (stringList (metadata.get? "topics"))
  else if targetType = "entity" then some (stringList (metadata.get? "entities"))
  else if targetType = "participant" then some (stringList (metadata.get? "participants"))
  else none

def namesFact (given : Option Json) (fact : String) : Bool :=
  match given with
  | none => true
  | some .null => true
  | some (.str s) => s = fact
  | _ => false

/-- One turn of the loop in `validated_fact_bindings`: the binding that is kept, where one is;
nothing where the type of the target cannot be looked up. -/
def validBinding (facts : List String) (raw : Json) : Option (Option FactBinding) :=
  match reference raw with
  | none => some none
  | some binding =>
    match intOf (binding.get? "fact_index"), binding.get? "target" with
    | some index, some (.str target) =>
      match if index < 0 then none else facts[index.toNat]? with
      | none => some none
      | some fact =>
        match binding.get? "target_type" with
        | some (.arr _) => none
        | some (.obj _) => none
        | some (.str targetType) =>
          match declared metadata targetType with
          | none => some none
          | some labels =>
            if namesFact (binding.get? "fact") fact = true ∧ pythonStrip target ∈ labels then
              some (some ⟨index.toNat,fact,pythonStrip target,targetType⟩)
            else some none
        | _ => some none
    | _, _ => some none

def validatedFactBindings (raw : Option Json) (metadata : Metadata) (facts : List String) :
    Option (List FactBinding) :=
  match raw with
  | some (.arr bindings) =>
    if facts.isEmpty then some []
    else
      (bindings.mapM (validBinding metadata facts)).map fun kept =>
        FirstSeen.firstSeen (fun b => (b.factIndex,b.targetType,b.target)) [] (kept.filterMap id)
  | _ => some []

/-- `str(value or "")`. -/
def textOr : Option Json → String
  | some j => if truthy j then env.text j else ""
  | none => ""

/-- `key_facts` of the record: the texts that are not blank, stripped. -/
def storedFacts : Option Json → List String
  | some (.arr items) => items.filterMap fun item => (factString item).map pythonStrip
  | _ => []

def setWhere (condition : Bool) (d : Metadata) (key : String) (value : Json) : Metadata :=
  if condition then d.set key value else d

/-- The metadata of `build_storage_format` before the bindings. -/
def storageMetadata (data : Metadata) (isGroupChat : Bool) : Metadata :=
  let summary := textOr env (data.get? "summary")
  let facts := storedFacts (data.get? "key_facts")
  let base : Metadata := {
    entries := [("topics",(data.get? "topics").getD (.arr [])),("key_facts",textsJson facts),
      ("fact_source_evidence",(data.get? "fact_source_evidence").getD (.arr [])),
      ("sentiment",(data.get? "sentiment").getD (.str "neutral")),
      ("interaction_type",.str (if isGroupChat then "group_chat" else "private_chat")),
      ("privacy_level",.str (if isGroupChat then "public" else "confidential")),
      ("canonical_summary",.str (if facts.isEmpty then summary else joinFacts facts)),
      ("persona_summary",.str summary),("summary_schema_version",.str "v2")] }
  let base := match data.get? "participants" with
    | some participants => setWhere isGroupChat base "participants" participants
    | none => base
  let entities := stringList (data.get? "entities")
  setWhere (!entities.isEmpty) base "entities" (textsJson entities)

/-- Nothing where a binding raises. -/
def buildStorageFormat (fallbackExcerpt : String) (data : Metadata) (isGroupChat : Bool) :
    Option (String × Metadata) := do
  let summary := textOr env (data.get? "summary")
  let facts := storedFacts (data.get? "key_facts")
  let canonicalSummary := if facts.isEmpty then summary else joinFacts facts
  let metadata := storageMetadata env data isGroupChat
  let bindings ← validatedFactBindings (data.get? "fact_bindings") metadata facts
  some (if canonicalSummary = "" then fallbackExcerpt else canonicalSummary,
    setWhere (!bindings.isEmpty) metadata "fact_bindings" (.arr (bindings.map FactBinding.json)))

/-- `trusted` are the stripped `participant_ids` of the context. -/
def referencedSubjectIds (messages : List Message) (trusted : List String) : List String :=
  let users := evidence.filter fun d => Atoms.sourceRole d = some "user"
  let senders := users.filterMap fun d =>
    ((intOf (d.get? "message_index")).bind (messageAt messages)).map (·.senderId)
  FirstSeen.firstSeen id [] (senders.filter (· ∈ trusted))

def applyAdmissionMetadata (messages : List Message) (trusted : List String) : Metadata :=
  let ids := referencedSubjectIds admission.subjectEvidence messages trusted
  let metadata := (metadata.set "grounding_status" (.str admission.grounding.status.text)).set
    "source_evidence" (groupJson admission.grounding.evidence)
  setWhere (!ids.isEmpty) metadata "subject_ids" (textsJson ids)

end Memora.Grounding

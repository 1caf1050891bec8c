import Memora.MergeModels
import Memora.Selections

/-! A candidate of a reflection states facts and cites, for each of them, spans of the messages in
its window. A citation is resolved into evidence that names the message; a fact is checked
against what the user says in the cited spans. -/
namespace Memora.Grounding
open Memora.Canonical (pythonStrip)
open Memora.Representation (Json Metadata blank)
open Memora.Merging (reference)
open Memora.Atoms (isResolvedSourceReference)
open Memora.Selections (takeTo)

/-- A message of the window, with its content as `content_to_text` reads it. -/
structure Message where
  id : ℤ
  role : String
  text : String
  senderId : String

structure GateProfile where
  groupSubjectCheck : Bool := true
  numericCheck : Bool := true
  negationCheck : Bool := true
  minDeterministicScore : ℚ := 42 / 100
  minJudgeScore : ℚ := 8 / 100
  minInferenceScore : ℚ := 20 / 100
  maxReferences : ℤ := 8

/-- What the grounding takes from elsewhere: the fingerprint of a role and a text, case
mappings, `str`, and the word checks, each of which answers the reason for a refusal. -/
structure GroundingEnv where
  fingerprint : String → String → String
  lower : String → String
  casefold : String → String
  text : Json → String
  supportScore : String → String → GateProfile → ℚ
  validateGroupSubject : Metadata → List Message → Bool → GateProfile → Option (List Message) →
    Option String
  validateNumbers : String → String → List Message → Option String
  validateNegation : String → GateProfile → List Message → Option String

/-- A value that is an `int` and no `bool`. -/
def intOf : Option Json → Option ℤ
  | some (.int n) => some n
  | _ => none

/-- `content[start:end]`. -/
def slice (s : String) (start stop : ℕ) : String :=
  String.ofList ((s.toList.drop start).take (stop - start))

variable (messages : List Message)

/-- `messages[index]`, which the code only reads in range. -/
def messageAt (index : ℤ) : Option Message :=
  if index < 0 then none else messages[index.toNat]?

structure ResolvedReference where
  index : ℕ
  message : Message
  start : ℕ
  stop : ℕ

def ResolvedReference.span (r : ResolvedReference) : String := slice r.message.text r.start r.stop

/-- One turn of the loop in `resolve_references`; a bad reference is passed over. -/
def resolveReference (raw : Json) : Option ResolvedReference := do
  let d ← reference raw
  let index ← intOf (d.get? "message_index")
  let start ← intOf (d.get? "start")
  let stop ← intOf (d.get? "end")
  let message ← messageAt messages index
  let r : ResolvedReference := ⟨index.toNat,message,start.toNat,stop.toNat⟩
  if start < 0 ∨ stop ≤ start ∨ message.text.length < stop then none
  else if blank r.span then none
  else some r

variable (seqs : Option (List (Option ℤ)))

def referenceSeq (index : ℕ) : Option ℤ :=
  ((seqs.bind fun l => l[index]?).join).filter (0 ≤ ·)

variable (env : GroundingEnv)

def evidenceEntry (seqs : Option (List (Option ℤ))) (inferred : Bool) (r : ResolvedReference) :
    Metadata where
  entries := [("message_index",.int r.index),("message_id",.int r.message.id),
    ("message_seq",(referenceSeq seqs r.index).elim .null .int),("role",.str r.message.role),
    ("start",.int r.start),("end",.int r.stop),
    ("message_fingerprint",.str (env.fingerprint r.message.role r.message.text)),
    ("inferred",.bool inferred)]

structure Resolution where
  evidence : List Metadata
  sourceText : String
  referencedMessages : List Message

def resolveReferences (rawRefs : List Json) (messages : List Message) (inferred : Bool)
    (maxRefs : ℤ) (seqs : Option (List (Option ℤ))) : Option Resolution :=
  let resolved := (takeTo maxRefs rawRefs).filterMap (resolveReference messages)
  let users := resolved.filter fun r => r.message.role = "user"
  if resolved.isEmpty then none
  else some {
    evidence := resolved.map (evidenceEntry env seqs inferred)
    sourceText := "\n".intercalate (users.map fun r => pythonStrip r.span)
    referencedMessages := users.map fun r => { r.message with text := r.span } }

structure ScoredMessage where
  score : ℚ
  index : ℕ
  text : String

def inferReferences (claimText : String) (messages : List Message) (profile : GateProfile) :
    List Json :=
  let candidates := messages.zipIdx.filter fun m =>
    env.lower (pythonStrip m.1.role) = "user" ∧ blank m.1.text = false
  let scored := (candidates.map fun m =>
    ⟨env.supportScore claimText m.1.text profile,m.2,m.1.text⟩ : List ScoredMessage)
  let sorted := scored.insertionSort fun a b =>
    b.score < a.score ∨ (a.score = b.score ∧ b.index ≤ a.index)
  match sorted with
  | [] => []
  | best::_ =>
    if best.score < profile.minInferenceScore then []
    else
      let floor := max profile.minInferenceScore (best.score - 8 / 100)
      ((sorted.filter fun s => floor ≤ s.score).take 3).map fun s =>
        .obj [("message_index",.int s.index),("start",.int 0),("end",.int s.text.length)]

inductive GroundingStatus
  | grounded | needsJudge | quarantine
  deriving DecidableEq

def GroundingStatus.text : GroundingStatus → String
  | .grounded => "grounded"
  | .needsJudge => "needs_judge"
  | .quarantine => "quarantine"

structure GroundingResult where
  allowed : Bool
  status : GroundingStatus
  reasonCodes : List String
  evidence : List Metadata
  sourceText : String := ""
  claimText : String := ""
  requiresJudge : Bool := false

def rejected (reasonCode : String) (evidence : List Metadata := []) (sourceText : String := "")
    (claimText : String := "") : GroundingResult where
  allowed := false
  status := .quarantine
  reasonCodes := [reasonCode]
  evidence := evidence
  sourceText := sourceText
  claimText := claimText

def truthy : Json → Bool
  | .null => false
  | .bool b => b
  | .int n => n ≠ 0
  | .float q => q ≠ 0
  | .str s => s ≠ ""
  | .arr items => !items.isEmpty
  | .obj entries => !entries.isEmpty

def claimText (candidate : Metadata) : String :=
  match ((candidate.get? "summary").filter truthy).or (candidate.get? "content") with
  | some (.str s) => pythonStrip s
  | _ => ""

def rawReferences (candidate : Metadata) : Option (List Json) :=
  match candidate.get? "source_refs" with
  | some (.arr refs) => if refs.isEmpty then none else some refs
  | _ => none

variable (env : GroundingEnv)

def validateResolved (candidate : Metadata) (messages : List Message) (isGroupChat : Bool)
    (profile : GateProfile) (inferred : Bool) (claim : String) (r : Resolution) : GroundingResult :=
  if blank r.sourceText then rejected "grounding_user_source_missing" r.evidence "" claim
  else
    let subject := if profile.groupSubjectCheck then
      env.validateGroupSubject candidate r.referencedMessages isGroupChat profile
        (if inferred then some messages else none) else none
    let numeric := if profile.numericCheck then
      env.validateNumbers claim r.sourceText r.referencedMessages else none
    let negation := if profile.negationCheck then
      env.validateNegation claim profile r.referencedMessages else none
    match (subject.or numeric).or negation with
    | some reason => rejected reason r.evidence r.sourceText claim
    | none =>
      let score := env.supportScore claim r.sourceText profile
      if profile.minDeterministicScore ≤ score then
        ⟨true,.grounded,[],r.evidence,r.sourceText,claim,false⟩
      else if profile.minJudgeScore ≤ score then
        ⟨false,.needsJudge,["grounding_needs_judge"],r.evidence,r.sourceText,claim,true⟩
      else rejected "grounding_claim_unsupported" r.evidence r.sourceText claim

def validate (candidate : Metadata) (messages : List Message) (isGroupChat : Bool)
    (profile : GateProfile) (seqs : Option (List (Option ℤ))) : GroundingResult :=
  let claim := claimText candidate
  if claim = "" then rejected "grounding_claim_missing" [] "" claim
  else if messages.isEmpty then rejected "grounding_source_missing" [] "" claim
  else
    match rawReferences candidate with
    | some refs =>
      match resolveReferences env refs messages false profile.maxReferences seqs with
      | none => rejected "grounding_reference_invalid" [] "" claim
      | some r => validateResolved env candidate messages isGroupChat profile false claim r
    | none =>
      let inferred := inferReferences env claim messages profile
      if inferred.isEmpty then rejected "grounding_source_evidence_missing" [] "" claim
      else match resolveReferences env inferred messages true profile.maxReferences seqs with
        | none => rejected "grounding_source_evidence_missing" [] "" claim
        | some r => validateResolved env candidate messages isGroupChat profile true claim r

def resolveEvidence (candidate : Metadata) (messages : List Message) (profile : GateProfile)
    (seqs : Option (List (Option ℤ))) : List Metadata :=
  match rawReferences candidate with
  | none => []
  | some refs =>
    (resolveReferences env refs messages false profile.maxReferences seqs).elim [] (·.evidence)

def factString : Json → Option String
  | .str s => if blank s then none else some s
  | _ => none

def groupRefs : Json → Option (List Json)
  | .arr refs => some refs
  | _ => none

def validFacts : Option Json → Option (List String)
  | some (.arr items) => if items.isEmpty then none else items.mapM factString
  | _ => none

def validGroups : Option Json → Option (List (List Json))
  | some (.arr items) => items.mapM groupRefs
  | _ => none

def mismatchCount : Option Json → ℕ
  | some (.arr items) => max 1 items.length
  | _ => 1

/-- The loop of `_valid_message_sequences`. -/
def increasingFrom (previous : ℤ) : List (Option ℤ) → Bool
  | [] => true
  | none::_ => false
  | some value::values => previous < value && increasingFrom value values

def validMessageSequences (values : List (Option ℤ)) (count : ℕ) : Bool :=
  values.length = count && increasingFrom (-1) values

def factCandidate (candidate : Metadata) (fact : String) (refs : List Json) : Metadata where
  entries := [("summary",.str fact),("source_refs",.arr refs),
    ("participants",(candidate.get? "participants").getD (.arr []))]

/-- One turn of the loop in `validate_facts`. -/
def validateFact (candidate : Metadata) (messages : List Message) (isGroupChat : Bool)
    (profile : GateProfile) (seqs : Option (List (Option ℤ))) (fact : String) (refs : List Json) :
    GroundingResult :=
  if refs.isEmpty then rejected "grounding_source_evidence_missing" [] "" fact
  else
    let result := validate env (factCandidate candidate fact refs) messages isGroupChat profile seqs
    if result.evidence.length ≠ refs.length then
      rejected "grounding_reference_invalid" [] "" fact
    else if result.evidence.all isResolvedSourceReference = false then
      rejected "grounding_source_evidence_invalid" [] "" fact
    else result

def validateFacts (candidate : Metadata) (messages : List Message) (isGroupChat : Bool)
    (profile : GateProfile) (seqs : Option (List (Option ℤ))) : List GroundingResult :=
  match validFacts (candidate.get? "key_facts"),
    validGroups (candidate.get? "fact_source_refs") with
  | some facts, some groups =>
    if groups.length ≠ facts.length then
      List.replicate (mismatchCount (candidate.get? "key_facts")) (rejected "grounding_fact_evidence_mismatch")
    else if seqs.any fun values => !validMessageSequences values messages.length then
      List.replicate facts.length (rejected "grounding_message_sequence_invalid")
    else List.zipWith (validateFact env candidate messages isGroupChat profile seqs) facts groups
  | _, _ =>
    List.replicate (mismatchCount (candidate.get? "key_facts"))
    (rejected "grounding_fact_evidence_mismatch")

end Memora.Grounding

import Memora.CanonicalModels
import Memora.TextWords

/-! A memory in the current representation has a text that joins its facts, a summary equal to the
text, and its narrative in a field of its own. Here the rows, the target of a row, and the test
whether facts still stand in a text. -/
namespace Memora.Representation
open Canonical

inductive Json
  | null
  | bool (b : Bool)
  | int (n : ℤ)
  | float (q : ℚ)
  | str (s : String)
  | arr (items : List Json)
  | obj (entries : List (String × Json))

def Json.field : Json → JsonField
  | .str s => .text s
  | _ => .other

abbrev Metadata := Dict String Json

/-- A row of the documents table. The text is missing where the column holds no text, the
metadata where `parse_metadata` finds no object. -/
structure Row where
  id : ℤ
  text : Option String
  metadata : Option Metadata
  createdAt : Option String := none
  updatedAt : Option String := none

variable (m : Metadata) (text : String) (value : Option Json) (u : Unicode) (s : String)

def blank : Bool := pythonStrip s = ""

def token (value : Option String) : Option String :=
  (value.map pythonStrip).filter (· ≠ "")

/-- `memory_revision` of the two times. -/
def Row.revision (r : Row) : String := ((token r.updatedAt).or (token r.createdAt)).getD ""

inductive Reason
  | metadataInvalid | notRecallable | evidenceMappingMismatch | contentUnavailable
  | contentPreservationUnproven | revisionConflict | alreadyApplied | applyFailed
  | sourceNotFound | ownerNotFound | ownerNotRecallable
  deriving DecidableEq

inductive WriteKind
  | content | metadata | none
  deriving DecidableEq

structure RepresentationTarget where
  writeKind : WriteKind
  content : String
  metadataUpdates : Metadata
  changed : Bool
  reasonCode : Option Reason := none

def targetRepresentationVersion : String := "v2"

def unavailable (reason : Reason) : RepresentationTarget where
  writeKind := .none
  content := ""
  metadataUpdates := {}
  changed := false
  reasonCode := some reason

def isText : Bool :=
  match value with
  | some (.str t) => t = s
  | _ => false

def recallable : Bool :=
  isMemoryRecallable {
    memoryStatus := (m.get? "memory_status").map Json.field
    status := (m.get? "status").map Json.field
    summarySourceOrphan := match m.get? "summary_source_orphan" with
      | some (.bool true) => true
      | _ => false }

/-- An entry of `key_facts` that counts, stripped. -/
def factText : Json → Option String
  | .str s => if blank s then none else some (pythonStrip s)
  | _ => none

def normalizeFacts : Option Json → List String
  | some (.arr items) => items.filterMap factText
  | _ => []

/-- Evidence that is missing or empty was never recorded. -/
def evidenceAligned (factCount : ℕ) : Bool :=
  match value with
  | none | some .null => true
  | some (.arr items) => items.isEmpty || items.length = factCount
  | _ => false

def firstText : List (Option Json) → String
  | [] => ""
  | some (.str s)::rest => if blank s then firstText rest else pythonStrip s
  | _::rest => firstText rest

def joinFacts (facts : List String) : String := "；".intercalate facts

def persona : String := firstText [m.get? "persona_summary",m.get? "summary"]

def targetContent : String :=
  let facts := normalizeFacts (m.get? "key_facts")
  if facts = [] then text else joinFacts facts

def contentChanged : Bool :=
  normalizeFacts (m.get? "key_facts") ≠ [] && text ≠ targetContent m text

/-- What goes into `persona_summary`. -/
def narrativeUpdate : Option String :=
  if contentChanged m text then
    if !blank text && !isText (m.get? "persona_summary") text then some text else none
  else if (m.get? "persona_summary").isNone then
    let narrative := if persona m ≠ "" then persona m else text
    if !blank narrative then some narrative else none
  else none

def setText (key : String) (value : Option String) (m : Metadata) : Metadata :=
  match value with
  | some s => m.set key (.str s)
  | none => m

def missing : Option String :=
  if isText value s then none else some s

def metadataUpdates : Metadata :=
  setText "summary_schema_version" (missing (m.get? "summary_schema_version")
    targetRepresentationVersion)
    (setText "canonical_summary" (missing (m.get? "canonical_summary") (targetContent m text))
      (setText "persona_summary" (narrativeUpdate m text) {}))

def computeRepresentationTarget (content : Option String) (metadataRaw : Option Metadata) :
    RepresentationTarget :=
  match metadataRaw with
  | none => unavailable .metadataInvalid
  | some m =>
    let facts := normalizeFacts (m.get? "key_facts")
    let text := content.getD ""
    if !recallable m then unavailable .notRecallable
    else if !evidenceAligned (m.get? "fact_source_evidence") facts.length then
      unavailable .evidenceMappingMismatch
    else if blank (targetContent m text) then unavailable .contentUnavailable
    else if contentChanged m text && persona m ≠ "" && persona m ≠ text then
      unavailable .contentPreservationUnproven
    else
      let updates := metadataUpdates m text
      { writeKind := if contentChanged m text then .content
          else if updates.isEmpty then .none else .metadata
        content := targetContent m text
        metadataUpdates := updates
        changed := contentChanged m text || !updates.isEmpty }

def Row.target (r : Row) : RepresentationTarget := computeRepresentationTarget r.text r.metadata

inductive FactTextAlignment
  | aligned | misaligned | undeterminable
  deriving DecidableEq

/-- Unicode tables: compatibility composition, and the folding of a character. -/
structure Unicode where
  nfkc : List Char → List Char
  casefold : Char → List Char

def Unicode.folded (s : List Char) : List Char := (u.nfkc s).flatMap u.casefold

def normalizeFact : List Char :=
  TextWords.collapse pythonIsSpace ' ' (u.folded s.toList)

def factInContent (content : String) : Json → Bool
  | .str s => normalizeFact u s ≠ [] && (normalizeFact u content).tails.any (normalizeFact u s).isPrefixOf
  | _ => false

def Json.isFact : Json → Bool
  | .str s => !blank s
  | _ => false

/-- `fact_evidence_paired`, with the facts that it found. -/
def pairedFacts : Option Json → Option Json → Option (List Json)
  | some (.arr facts), some (.arr groups) =>
    if !facts.isEmpty && facts.all Json.isFact && groups.length = facts.length then some facts
    else none
  | _, _ => none

def factsAligned (content : Option String) (keyFacts evidence : Option Json) :
    FactTextAlignment :=
  match pairedFacts keyFacts evidence, content with
  | some facts, some text =>
    if blank text then .undeterminable
    else if facts.all (factInContent u text) then .aligned
    else .misaligned
  | _, _ => .undeterminable

end Memora.Representation

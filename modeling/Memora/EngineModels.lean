import Memora.CanonicalModels

/-! The row of a memory with all of its metadata, the revision that guards it, and the facts that
its text has to contain. -/
namespace Memora.Engine
open Canonical

/-- A JSON value; arrays and objects stay encoded. -/
inductive Value
  | null | bool (b : Bool) | num (q : ℚ) | str (s : String) | json (text : String)
  deriving DecidableEq

abbrev Metadata := Dict String Value

/-- What the engine takes from the language and its libraries: number and array parsing, the
text of a value, NFKC with case folding, and rounding of binary floats. -/
structure Env where
  parseFloat : String → Option ℚ
  parseInt : String → Option ℤ
  parseArray : String → Option (List Value)
  text : Value → String
  normalizeFact : String → String
  round : ℕ → ℚ → ℚ
  upper : String → String

def Value.truthy : Value → Bool
  | .null => false
  | .bool b => b
  | .num q => q ≠ 0
  | .str s => s ≠ ""
  | .json text => text ≠ "[]" && text ≠ "\x7b\x7d"

def getValue (m : Metadata) (k : String) : Value := (m.get? k).getD .null

variable (env : Env)

def safeFloat (v : Value) (default : ℚ) : ℚ :=
  match v with
  | .null => default
  | .bool b => if b then 1 else 0
  | .num q => q
  | .str s => if s = "" then default else (env.parseFloat s).getD default
  | .json _ => default

def clampFloat (v : Value) (default : ℚ) : ℚ :=
  max 0 (min 1 (safeFloat env v default))

/-- `int` of a float. -/
def truncate (q : ℚ) : ℤ := if 0 ≤ q then ⌊q⌋ else ⌈q⌉

/-- `int(v or 0)`, or zero where that raises. -/
def intOrZero (v : Value) : ℤ :=
  match v with
  | .null => 0
  | .bool b => if b then 1 else 0
  | .num q => truncate q
  | .str s => if s = "" then 0 else (env.parseInt s).getD 0
  | .json _ => 0

structure MemoryRow where
  text : String
  metadata : Metadata := {}
  createdAt : Option String := none
  updatedAt : Option String := none
  deriving DecidableEq

def token (value : Option String) : Option String :=
  (value.map pythonStrip).filter (· ≠ "")

/-- `memory_revision` of a loaded memory; blank when nothing tells its revision. -/
def revisionOf (createdAt updatedAt : Option String) (m : Metadata) : String :=
  let stored := match m.get? "updated_at" with
    | none | some .null => none
    | some v => token (some (env.text v))
  ((token updatedAt).or ((token createdAt).or stored)).getD ""

def MemoryRow.revision (m : MemoryRow) : String :=
  revisionOf env m.createdAt m.updatedAt m.metadata

/-- The comparison a guarded write makes inside its transaction, once in code and once more in
its statement. -/
def MemoryRow.unchangedSince (m : MemoryRow) (expected : String) : Bool :=
  pythonStrip (((m.updatedAt.filter (· ≠ "")).or m.createdAt).getD "") = expected &&
    m.updatedAt.or m.createdAt = some expected

inductive FactTextAlignment
  | aligned | misaligned | undeterminable
  deriving DecidableEq

def blank (s : String) : Bool := pythonStrip s = ""

def factInContent (content : String) (fact : Value) : Bool :=
  match fact with
  | .str s => env.normalizeFact s ≠ "" &&
      ((env.normalizeFact content).toList.tails.any (env.normalizeFact s).toList.isPrefixOf)
  | _ => false

def Value.array? : Value → Option (List Value)
  | .json text => env.parseArray text
  | _ => none

/-- `fact_evidence_paired`, with the facts it found. -/
def pairedFacts (keyFacts evidence : Value) : Option (List Value) :=
  match keyFacts.array? env, evidence.array? env with
  | some facts, some groups =>
    if !facts.isEmpty && facts.all (fun f => match f with
        | .str s => !blank s
        | _ => false) && groups.length = facts.length then some facts
    else none
  | _, _ => none

def factsAligned (content : String) (keyFacts evidence : Value) :
    FactTextAlignment :=
  match pairedFacts env keyFacts evidence with
  | none => .undeterminable
  | some facts =>
    if blank content then .undeterminable
    else if facts.all (factInContent env content) then .aligned
    else .misaligned

/-! ## A sample engine
Texts that are no numbers and no arrays, so that runs can be evaluated. -/

def sampleEnv : Env where
  parseFloat := fun _ => none
  parseInt := fun _ => none
  parseArray := fun _ => none
  text := fun _ => ""
  normalizeFact := fun s => s
  round := fun _ q => q
  upper := fun s => s

end Memora.Engine

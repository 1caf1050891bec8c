import Memora.CanonicalModels
import Memora.Selections
import Memora.TextWords

/-! The candidates of one retrieval, the privacy check a candidate has to pass before its text
leaves the process, and the shipped rerankers. A candidate is an object whose score the
rerankers overwrite, so the scores are kept beside the candidates, by object. -/
namespace Memora.Rerank
open Canonical Selections

/-- A metadata value as far as the privacy check tells values apart: a list or a tuple has
for each item its text, where it is one. -/
inductive FieldValue
  | missing
  | text (s : String)
  | items (l : List (Option String))
  | other

/-- The metadata of a candidate; nothing where it is no dictionary. Reading a field answers
nothing where the dictionary raises. -/
abbrev Metadata := Option (String → Option FieldValue)

/-- `HybridResult` without its score; `object` is the identity of the object. -/
structure Candidate where
  object : ℕ
  docId : ℤ
  content : String
  metadata : Metadata

/-- The field `final_score` of every object. -/
abbrev Scores (F : Type*) := ℕ → F

inductive ChatType
  | privateChat | groupChat
  deriving DecidableEq

structure ProviderPrivacyContext where
  chatType : ChatType
  scopeKey : String
  stableUserId : Option String
  scopeKey_visible : pythonStrip scopeKey ≠ ""
  stableUserId_visible : ∀ user ∈ stableUserId, pythonStrip user ≠ ""

def privacyLevels : List String := ["public","shared","confidential"]

def providerAllowedRoles : List String :=
  ["user","assistant","primary","supporting","conflict_left","conflict_right"]

/-- What `_candidate_scope` answers: `None`, `False`, or a scope. -/
inductive CandidateScope
  | missing
  | rejected
  | scope (s : String)
  deriving DecidableEq

/-- The loop of `_candidate_scope`; the inner answer is nothing where it returns `False`. -/
def readScopes (get : String → Option FieldValue) : List String →
    Option (Option (List (String × String)))
  | [] => some (some [])
  | key::keys => do
    match ← get key with
    | .missing => readScopes get keys
    | .text value =>
      if pythonStrip value = "" then some none
      else
        let scopes ← readScopes get keys
        some (scopes.map fun scopes => (key,value)::scopes)
    | _ => some none

def candidateScope (get : String → Option FieldValue) : Option CandidateScope := do
  match ← readScopes get ["scope_key","session_id","persona_id"] with
  | none => some .rejected
  | some scopes =>
    let source := (scopes.lookup "session_id").or (scopes.lookup "persona_id")
    match scopes.lookup "scope_key" with
    | none => some (source.elim .missing .scope)
    | some explicit =>
      if source.any fun s => s ≠ explicit then some .rejected else some (.scope explicit)

/-- What `_participant_ids` answers: `None`, `False`, or the set. -/
inductive ParticipantIds
  | missing
  | invalid
  | ids (l : List String)
  deriving DecidableEq

def participantIds (get : String → Option FieldValue) : Option ParticipantIds := do
  match ← get "participant_ids" with
  | .missing => some .missing
  | .items l =>
    if l.all fun item => item.any fun s => pythonStrip s ≠ "" then
      some (.ids (l.filterMap id))
    else some .invalid
  | _ => some .invalid

def roleAllowed : FieldValue → Bool
  | .missing => true
  | .text role => role ∈ providerAllowedRoles
  | _ => false

/-- Nothing where a field of the dictionary raises. -/
def candidateIsAllowed (context : ProviderPrivacyContext) (c : Candidate) : Option Bool :=
  match c.metadata with
  | none => some false
  | some get => do
    match ← get "privacy_level" with
    | .text level =>
      if level ∉ privacyLevels then return false
      if context.chatType = .groupChat ∧ level = "confidential" then return false
      if (← candidateScope get) ≠ .scope context.scopeKey then return false
      if roleAllowed (← get "role") = false then return false
      match ← participantIds get, context.chatType with
      | .invalid, _ => return false
      | _, .groupChat => return true
      | .missing, .privateChat => return false
      | .ids l, .privateChat => return context.stableUserId.any fun user => user ∈ l
    | _ => return false

/-- The candidates whose check answers `True`. -/
def allowed (context : ProviderPrivacyContext) (candidates : List Candidate) : List Candidate :=
  candidates.filter fun c => candidateIsAllowed context c = some true

/-- What the rerankers take from Python: arithmetic on floats, case mappings, and reading the
scores out of an answer (the first bracketed list, `json.loads` and `float`). -/
structure RerankEnv (F : Type*) where
  lit : ℚ → F
  neg : F → F
  add : F → F → F
  sub : F → F → F
  mul : F → F → F
  div : F → F → F
  sqrt : F → F
  lt : F → F → Bool
  eq : F → F → Bool
  lower : String → String
  casefold : String → String
  readScores : String → Option (List F)

variable {F : Type*} (env : RerankEnv F)

/-- `max(0.0, min(1.0, x))`. -/
def RerankEnv.clamp (x : F) : F :=
  let low := if env.lt x (env.lit 1) then x else env.lit 1
  if env.lt (env.lit 0) low then low else env.lit 0

variable (scores : Scores F)

/-- The order of the keys `(-final_score, doc_id)`. -/
def keyLt (a b : Candidate) : Bool :=
  let x := env.neg (scores a.object)
  let y := env.neg (scores b.object)
  if env.eq x y then a.docId < b.docId else env.lt x y

def scoreSorted (l : List Candidate) : List Candidate :=
  l.insertionSort fun a b => keyLt env scores b a = false

/-- `sorted(l, key=lambda r: r.final_score, reverse=True)`. -/
def sortedByScore (l : List Candidate) : List Candidate :=
  l.insertionSort fun a b => env.lt (scores a.object) (scores b.object) = false

def setScore (object : ℕ) (score : F) : Scores F :=
  Function.update scores object score

def tokenSet (text : String) : Finset (List Char) :=
  let tokens := (TextWords.words pythonIsSpace (env.lower text).toList).toFinset
  if tokens = ∅ then {"<empty>".toList} else tokens

def jaccard (a b : Finset (List Char)) : F :=
  env.div (env.lit (a ∩ b).card) (env.lit (max (a ∪ b).card 1))

def maxOf : F → List F → F
  | m, [] => m
  | m, x::l => maxOf (if env.lt m x then x else m) l

def mmrScore (mmrLambda : F) (scores : Scores F) (selected : List Candidate) (c : Candidate) : F :=
  let similarities := selected.map fun s =>
    jaccard env (tokenSet env c.content) (tokenSet env s.content)
  let maxSim := match similarities with
    | [] => env.lit 0
    | x::l => maxOf env x l
  env.sub (env.mul mmrLambda (scores c.object)) (env.mul (env.sub (env.lit 1) mmrLambda) maxSim)

/-- The scan for `best_idx`; `i` is the index of the next candidate. -/
def bestIndex (score : Candidate → F) : ℕ → Option ℕ → F → List Candidate → Option ℕ
  | _, best, _, [] => best
  | i, best, bestMmr, c::candidates =>
    if env.lt bestMmr (score c) then bestIndex score (i+1) (some i) (score c) candidates
    else bestIndex score (i+1) best bestMmr candidates

def mmrPick (mmrLambda : F) (scores : Scores F) (selected candidates : List Candidate) : Option ℕ :=
  if selected = [] then some 0
  else bestIndex env (mmrScore env mmrLambda scores selected) 0 none (env.lit (-1)) candidates

/-- The loop of `apply_mmr`. A turn takes one candidate away, so there are at most as many
turns as candidates. -/
def mmrLoop (mmrLambda : F) (scores : Scores F) (k : ℤ) : ℕ → List Candidate → List Candidate →
    List Candidate
  | 0, selected, _ => selected
  | turns+1, selected, candidates =>
    if candidates = [] ∨ k ≤ selected.length then selected
    else
      match mmrPick env mmrLambda scores selected candidates with
      | none => selected
      | some i => match candidates[i]? with
        | none => selected
        | some c => mmrLoop mmrLambda scores k turns (selected++[c]) (candidates.eraseIdx i)

def applyMmr (mmrLambda : F) (scores : Scores F) (k : ℤ) (results : List Candidate) :
    List Candidate :=
  if results.length ≤ k then results
  else mmrLoop env mmrLambda scores k results.length [] results

end Memora.Rerank

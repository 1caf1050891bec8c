import Memora.Dict

/-! The rows of the documents table with the part of their JSON metadata that the write path
reads. -/
namespace Memora.Canonical

/-- A present JSON field: a text, or any other value. -/
inductive JsonField
  | text (s : String)
  | other
  deriving DecidableEq

def JsonField.text? : JsonField → Option String
  | .text s => some s
  | .other => none

/-- The metadata of a memory; a column that is not a JSON object has no field. The flags
count when they are true. -/
structure Metadata where
  idempotencyKey : Option JsonField := none
  mergedIdempotencyKeys : Option (List JsonField) := none
  memoryStatus : Option JsonField := none
  status : Option JsonField := none
  statusChangedAt : Option String := none
  summarySourceOrphan : Bool := false
  summarySourcePending : Bool := false
  replacementPending : Bool := false
  sourceEpoch : Option String := none
  sourceDigest : Option String := none
  sourceFenceGeneration : Option String := none
  sourceFence : Option String := none
  sourceProvenanceComplete : Option Bool := none
  scopeKey : Option String := none
  privacyLevel : Option String := none
  resolverRevision : Option String := none
  sessionId : Option String := none
  personaId : Option String := none
  previousId : Option ℕ := none
  deriving DecidableEq

/-- `TRIM(text, characters)` and `str.strip`: cut the characters off both ends. -/
def stripWhere (cut : Char → Bool) (s : String) : String :=
  String.ofList ((s.toList.dropWhile cut).reverse.dropWhile cut).reverse

lemma stripWhere_stripWhere (cut : Char → Bool) (s : String) :
    stripWhere cut (stripWhere cut s) = stripWhere cut s := by
  have hstrip : ∀ t : String, stripWhere cut t =
      String.ofList ((t.toList.dropWhile cut).rdropWhile cut) := fun _ => rfl
  rw [hstrip (stripWhere cut s),hstrip s,String.toList_ofList]
  have hleft : ((s.toList.dropWhile cut).rdropWhile cut).dropWhile cut =
      (s.toList.dropWhile cut).rdropWhile cut := by
    cases hl : (s.toList.dropWhile cut).rdropWhile cut with
    | nil => rfl
    | cons c cs =>
      have hprefix : c::cs <+: s.toList.dropWhile cut := hl ▸ List.rdropWhile_prefix cut _
      obtain ⟨rest,hrest⟩ := hprefix
      have hne : s.toList.dropWhile cut ≠ [] := by simp [← hrest]
      have hhead := List.head_dropWhile_not cut hne
      have hc : cut c = false := by
        simpa [← hrest] using hhead
      rw [List.dropWhile_cons_of_neg (by simp [hc])]
  rw [hleft,List.rdropWhile_idempotent]

/-- The characters that `str.strip` removes. -/
def pythonIsSpace (c : Char) : Bool :=
  let n := c.toNat
  (9 ≤ n && n ≤ 13) || (28 ≤ n && n ≤ 32) || n = 0x85 || n = 0xa0 || n = 0x1680 ||
    (0x2000 ≤ n && n ≤ 0x200a) || n = 0x2028 || n = 0x2029 || n = 0x202f || n = 0x205f ||
    n = 0x3000

def pythonStrip (s : String) : String := stripWhere pythonIsSpace s

inductive MemoryStatus
  | active | dormant | archived | deleted | unknown
  deriving DecidableEq

def normalizeStatusText (s : String) : String :=
  String.ofList ((stripWhere (fun c => " \t\n\r\x0b\x0c".toList.contains c) s).toList.map fun c =>
    if 'A' ≤ c ∧ c ≤ 'Z' then Char.ofNat (c.toNat+32) else c)

def knownStatus (s : String) : Option MemoryStatus :=
  let normalized := normalizeStatusText s
  if normalized = "current" ∨ normalized = "stable" then some .active
  else if normalized = "active" then some .active
  else if normalized = "dormant" then some .dormant
  else if normalized = "archived" then some .archived
  else if normalized = "deleted" then some .deleted
  else none

def effectiveMemoryStatus (m : Metadata) : MemoryStatus :=
  match (m.memoryStatus.bind JsonField.text?).bind knownStatus with
  | some s => s
  | none => match (m.status.bind JsonField.text?).bind knownStatus with
    | some s => s
    | none => if m.memoryStatus.isSome || m.status.isSome then .unknown else .active

def isMemoryRecallable (m : Metadata) : Bool :=
  effectiveMemoryStatus m = .active && !m.summarySourceOrphan

def sourceAcceptanceAllowsDerivation (m : Metadata) : Bool :=
  !(m.summarySourceOrphan || m.summarySourcePending || m.replacementPending)

end Memora.Canonical

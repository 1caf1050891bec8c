import Memora.CanonicalModels

/-! Every normalized key maps to one canonical memory. Triggers on the documents table maintain
the mapping, a migration rebuilds it, a query checks it. -/
namespace Memora.Canonical

def pythonStripWhitespaceCodepoints : List ℕ :=
  [9,10,11,12,13,28,29,30,31,32,133,160,5760,8192,8193,8194,8195,8196,8197,
    8198,8199,8200,8201,8202,8232,8233,8239,8287,12288]

def sqlTrim (s : String) : String :=
  stripWhere (fun c => pythonStripWhitespaceCodepoints.contains c.toNat) s

def sqlLength (s : String) : ℕ := (s.toList.takeWhile (· ≠ '\x00')).length

def normalizedKeySql (m : Metadata) : Option String :=
  (m.idempotencyKey.bind JsonField.text?).map sqlTrim

def usableKey (m : Metadata) : Option String :=
  (normalizedKeySql m).filter fun k => 0 < sqlLength k

def normalizeCanonicalIdempotencyKey (value : String) : String := pythonStrip value

structure IdempotencyTables where
  documents : Dict ℕ Metadata := {}
  mapping : Dict String ℕ := {}

/-- `INSERT` into the mapping; none where a key or an owner is there already. -/
def insertMapping (mapping : Dict String ℕ) (key : String) (id : ℕ) : Option (Dict String ℕ) :=
  if (mapping.get? key).isSome || mapping.values.contains id then none
  else some (mapping.set key id)

def smallestOwner (documents : Dict ℕ Metadata) (key : String) : Option ℕ :=
  (documents.filter fun _ m => normalizedKeySql m = some key).keys.min?

/-- `INSERT OR IGNORE ... SELECT ... ORDER BY d.id ASC LIMIT 1` for a key that is freed. -/
def passOn (documents : Dict ℕ Metadata) (mapping : Dict String ℕ) (key : Option String) :
    Dict String ℕ :=
  match key with
  | none => mapping
  | some k => match smallestOwner documents k with
    | none => mapping
    | some id => (insertMapping mapping k id).getD mapping

/-- `DELETE ... WHERE canonical_memory_id = id`. -/
def dropOwner (mapping : Dict String ℕ) (id : ℕ) : Dict String ℕ :=
  mapping.filter fun _ owner => owner ≠ id

namespace IdempotencyTables

variable (s : IdempotencyTables)

/-- `INSERT` of a document with its trigger; none where either fails. -/
def insertDocument (id : ℕ) (m : Metadata) : Option IdempotencyTables :=
  if (s.documents.get? id).isSome then none
  else match usableKey m with
    | none => some { s with documents := s.documents.set id m }
    | some k => (insertMapping s.mapping k id).map fun mapping =>
        { documents := s.documents.set id m, mapping }

/-- `UPDATE OF metadata` with its trigger, which runs on the updated table. -/
def updateMetadata (id : ℕ) (m : Metadata) : Option IdempotencyTables :=
  match s.documents.get? id with
  | none => some s
  | some old =>
    let documents := s.documents.set id m
    if (normalizedKeySql old).getD "" = (normalizedKeySql m).getD "" then some { s with documents }
    else
      let mapping := passOn documents (dropOwner s.mapping id) (usableKey old)
      match usableKey m with
      | none => some { documents, mapping }
      | some k => (insertMapping mapping k id).map fun mapping => { documents, mapping }

def deleteDocument (id : ℕ) : IdempotencyTables :=
  match s.documents.get? id with
  | none => s
  | some old =>
    let documents := s.documents.pop id
    { documents, mapping := passOn documents (dropOwner s.mapping id) (usableKey old) }

inductive DocumentCall
  | insert (id : ℕ) (m : Metadata)
  | update (id : ℕ) (m : Metadata)
  | delete (id : ℕ)

/-- A statement that fails changes nothing. -/
def step : DocumentCall → IdempotencyTables
  | .insert id m => (s.insertDocument id m).getD s
  | .update id m => (s.updateMetadata id m).getD s
  | .delete id => s.deleteDocument id

def run (calls : List DocumentCall) : IdempotencyTables :=
  calls.foldl step s

/-- `rebuild_canonical_idempotency_mapping`: `MIN(memory_id)` for each key. -/
def rebuild (documents : Dict ℕ Metadata) : IdempotencyTables where
  documents := documents
  mapping := documents.entries.foldl (fun mapping e =>
    match usableKey e.2 with
    | none => mapping
    | some k => mapping.set k (((mapping.get? k).map (min e.1)).getD e.1)) {}

/-- An entry whose memory is missing or has another key; comparing with NULL selects nothing. -/
def strayEntry (documents : Dict ℕ Metadata) (e : String × ℕ) : Bool :=
  match documents.get? e.2 with
  | none => true
  | some m => (normalizedKeySql m).any fun k => e.1 ≠ k

/-- `validate_canonical_idempotency_mapping`. -/
def validate : Bool :=
  !(s.mapping.entries.any (strayEntry s.documents)) &&
    !((rebuild s.documents).mapping.entries.any fun e => s.mapping.get? e.1 ≠ some e.2)

/-- `find_canonical_memory_id_by_idempotency_key`. -/
def find (key : String) : Except String (Option ℕ) :=
  let k := normalizeCanonicalIdempotencyKey key
  if k = "" then .ok none
  else match s.mapping.get? k with
    | none => .ok none
    | some id =>
      if (s.documents.get? id).isSome then .ok (some id)
      else .error "canonical_idempotency_mapping_invalid"

end IdempotencyTables

end Memora.Canonical

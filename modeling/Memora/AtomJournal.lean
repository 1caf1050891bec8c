import Memora.AtomModels

/-! What the journal keeps of a staged atom, the atom a repair reads back, and when inserting
the one is inserting the other. -/
namespace Memora.Atoms
open Memora.Representation (Json)
open WriteOps (AtomType SourceValues orText hasText)
open Canonical (pythonStrip)

variable (lang : Language)

def orNumber (value fallback : ℚ) : ℚ := if value = 0 then fallback else value

def textOrNull : Option String → Json
  | some s => .str s
  | none => .null

def numberOrNull : Option ℚ → Json
  | some q => .float q
  | none => .null

/-- `clock` is what `time.time()` returns. -/
def serializeAtomForRepair (clock : ℚ) (a : MemoryAtom) : Metadata where
  entries := [("parent_memory_id",.int a.parentMemoryId),
    ("parent_revision",textOrNull a.parentRevision),
    ("parent_scope_key",textOrNull a.parentScopeKey),
    ("parent_privacy_level",textOrNull a.parentPrivacyLevel),
    ("source_evidence",.arr (a.sourceEvidence.map ofDict)),
    ("atom_type",.str (atomTypeValue a.atomType)),
    ("content",.str a.content), ("entities",.arr (a.entities.map .str)),
    ("importance",.float (orNumber a.importance (1 / 2))),
    ("confidence",.float (orNumber a.confidence (7 / 10))),
    ("created_at",.float (orNumber a.createdAt clock)),
    ("last_accessed_at",.float (orNumber a.lastAccessedAt clock)),
    ("last_reinforced_at",numberOrNull a.lastReinforcedAt), ("event_time",numberOrNull a.eventTime),
    ("ttl_days",.float (orNumber a.ttlDays 30)), ("expires_at",.float (orNumber a.expiresAt 0)),
    ("status",.str a.status.value), ("reinforcement_count",.int a.reinforcementCount),
    ("decay_type",.str a.decayType.value), ("session_id",textOrNull a.sessionId),
    ("persona_id",textOrNull a.personaId), ("metadata",ofDict a.metadata)]
  nodup := by
    simp only [List.map_cons,List.map_nil]
    decide

variable (value : Option Json)

/-- `payload.get(key, fallback) or fallback`. -/
def orValue (fallback : Json) : Json :=
  match value with
  | some v => if truthy v then v else fallback
  | none => fallback

/-- A field that is a text or missing; a value of another type is outside the model. -/
def optionalText : Option Json → Except AtomError (Option String)
  | none | some .null => .ok none
  | some (.str s) => .ok (some s)
  | _ => .error .type

def optionalNumber : Option Json → Except AtomError (Option ℚ)
  | none | some .null => .ok none
  | some (.int n) => .ok (some n)
  | some (.float q) => .ok (some q)
  | _ => .error .type

/-- `dict(value)`. -/
def asDict : Json → Option Metadata
  | .obj entries => some (Dict.ofEntries entries)
  | _ => none

def evidenceGroup : Option Json → Option (List Metadata)
  | some (.arr items) => items.mapM asDict
  | _ => none

def enumField {α : Type} (of : String → Option α) (fallback : α) : Option Json → α
  | some (.str s) => (of s).getD fallback
  | _ => fallback

def entityTexts : Option Json → Except AtomError (List String)
  | none => .ok []
  | some (.arr items) => .ok ((items.filter truthy).map fun
      | .str s => s
      | v => lang.text v)
  | _ => .error .type

/-- `dict(payload.get("metadata") or {})`. -/
def metadataField : Except AtomError Metadata :=
  match asDict (orValue value (.obj [])) with
  | some d => .ok d
  | none => .error .type

def contentText : String :=
  match orValue value (.str "") with
  | .str s => s
  | v => lang.text v

def deserializeAtomFromRepair (clock : ℚ) (payload : Metadata) (parentMemoryId : ℕ)
    (sessionId personaId : Option String) : Except AtomError (Option MemoryAtom) :=
  match (evidenceGroup (payload.get? "source_evidence")).filter hasUserSourceEvidence with
  | none => .ok none
  | some evidence =>
    let content := contentText lang (payload.get? "content")
    if pythonStrip content = "" then .ok none
    else do
      let parentRevision ← optionalText (payload.get? "parent_revision")
      let parentScopeKey ← optionalText (payload.get? "parent_scope_key")
      let parentPrivacyLevel ← optionalText (payload.get? "parent_privacy_level")
      let entities ← entityTexts lang (payload.get? "entities")
      let importance ← toFloat lang (orValue (payload.get? "importance") (.float (1 / 2)))
      let confidence ← toFloat lang (orValue (payload.get? "confidence") (.float (7 / 10)))
      let createdAt ← toFloat lang (orValue (payload.get? "created_at") (.float clock))
      let lastAccessedAt ← toFloat lang (orValue (payload.get? "last_accessed_at") (.float clock))
      let lastReinforcedAt ← optionalNumber (payload.get? "last_reinforced_at")
      let eventTime ← optionalNumber (payload.get? "event_time")
      let ttlDays ← toFloat lang (orValue (payload.get? "ttl_days") (.float 30))
      let expiresAt ← toFloat lang (orValue (payload.get? "expires_at") (.float 0))
      let reinforcementCount ← toInt lang (orValue (payload.get? "reinforcement_count") (.int 0))
      let session ← optionalText (payload.get? "session_id")
      let persona ← optionalText (payload.get? "persona_id")
      let metadata ← metadataField (payload.get? "metadata")
      pure (some {
        parentMemoryId := parentMemoryId
        parentRevision := parentRevision
        parentScopeKey := parentScopeKey
        parentPrivacyLevel := parentPrivacyLevel
        sourceEvidence := evidence
        atomType := enumField atomTypeOf .unknown (payload.get? "atom_type")
        content := content
        entities := entities
        importance := importance
        confidence := confidence
        createdAt := createdAt
        lastAccessedAt := lastAccessedAt
        lastReinforcedAt := lastReinforcedAt
        eventTime := eventTime
        ttlDays := ttlDays
        expiresAt := expiresAt
        status := enumField atomStatusOf .active (payload.get? "status")
        reinforcementCount := reinforcementCount
        decayType := enumField decayTypeOf .exponential (payload.get? "decay_type")
        sessionId := orText session sessionId
        personaId := orText persona personaId
        metadata := metadata })

lemma orValue_float (q fallback : ℚ) :
    toFloat lang (orValue (some (.float q)) (.float fallback)) = .ok (orNumber q fallback) := by
  by_cases h : q = 0
  · simp [orValue,truthy,h,toFloat,orNumber]
  · simp [orValue,truthy,h,toFloat,orNumber]

lemma toInt_orValue (n : ℤ) : toInt lang (orValue (some (.int n)) (.int 0)) = .ok n := by
  by_cases h : n = 0
  · simp [orValue,h,toInt]
  · simp [orValue,truthy,h,toInt]

lemma optionalText_textOrNull (s : Option String) : optionalText (some (textOrNull s)) = .ok s := by
  cases s <;> rfl

lemma optionalNumber_numberOrNull (q : Option ℚ) :
    optionalNumber (some (numberOrNull q)) = .ok q := by
  cases q <;> rfl

lemma asDict_ofDict (d : Metadata) : asDict (ofDict d) = some d := by
  simp [asDict,ofDict,Dict.ofEntries_entries]

lemma evidenceGroup_written (group : List Metadata) :
    evidenceGroup (some (.arr (group.map ofDict))) = some group := by
  unfold evidenceGroup
  induction group with
  | nil => rfl
  | cons d group ih =>
    simp only [List.map_cons,List.mapM_cons,asDict_ofDict] at ih ⊢
    rw [ih]
    rfl

lemma metadataField_ofDict (d : Metadata) : metadataField (some (ofDict d)) = .ok d := by
  by_cases h : d.entries = []
  · have hd : d = {} := Dict.eq_of_entries h
    subst hd
    rfl
  · have htrue : truthy (ofDict d) = true := by simpa [truthy,ofDict] using h
    simp [metadataField,orValue,htrue,asDict_ofDict]

lemma entityTexts_written (entities : List String) :
    entityTexts lang (some (.arr (entities.map .str))) = .ok (entities.filter (· ≠ "")) := by
  simp only [entityTexts,List.filter_map,List.map_map]
  congr 1
  exact List.map_id' _

lemma contentText_written (s : String) : contentText lang (some (.str s)) = s := by
  by_cases h : s = ""
  · simp [contentText,orValue,h]
  · simp [contentText,orValue,truthy,h]

lemma orNumber_orNumber (q fallback : ℚ) : orNumber (orNumber q fallback) fallback =
    orNumber q fallback := by
  unfold orNumber
  split_ifs <;> simp_all

lemma orNumber_zero (q : ℚ) : orNumber q 0 = q := by
  unfold orNumber
  split_ifs with h
  · exact h.symm
  · rfl

variable (written read : ℚ) (parentMemoryId : ℕ) (sessionId personaId : Option String)

def readBack (a : MemoryAtom) : MemoryAtom :=
  { a with
    parentMemoryId := parentMemoryId
    entities := a.entities.filter (· ≠ "")
    emotionTags := []
    importance := orNumber a.importance (1 / 2)
    confidence := orNumber a.confidence (7 / 10)
    createdAt := orNumber (orNumber a.createdAt written) read
    lastAccessedAt := orNumber (orNumber a.lastAccessedAt written) read
    ttlDays := orNumber a.ttlDays 30
    sessionId := orText a.sessionId sessionId
    personaId := orText a.personaId personaId }

lemma enumField_value {α : Type} {of : String → Option α} {value : α → String} (fallback : α)
    (h : ∀ a, of (value a) = some a) (a : α) :
    enumField of fallback (some (.str (value a))) = a := by
  simp [enumField,h]

/-- Reading what was written: the fallbacks of both sides, and nothing else. -/
theorem deserialize_serialize {a : MemoryAtom}
    (hevidence : hasUserSourceEvidence a.sourceEvidence = true)
    (hcontent : pythonStrip a.content ≠ "") :
    deserializeAtomFromRepair lang read (serializeAtomForRepair written a) parentMemoryId sessionId
        personaId = .ok (some (readBack written read parentMemoryId sessionId personaId a)) := by
  unfold deserializeAtomFromRepair
  have hget : ∀ key, (serializeAtomForRepair written a).get? key =
      ((serializeAtomForRepair written a).entries.find? fun e => e.1 = key).map Prod.snd :=
    fun _ => rfl
  simp only [hget]
  simp only [serializeAtomForRepair,List.find?_cons,decide_true,decide_false,
    String.reduceEq,Option.map_some]
  rw [evidenceGroup_written,Option.filter_some,if_pos hevidence]
  simp only [contentText_written,if_neg hcontent,optionalText_textOrNull,
    optionalNumber_numberOrNull,entityTexts_written,orValue_float,toInt_orValue,
    metadataField_ofDict,orNumber_orNumber,orNumber_zero,
    enumField_value .unknown atomTypeOf_value,enumField_value .active atomStatusOf_value,
    enumField_value .exponential decayTypeOf_value]
  rfl

lemma deserialize_blank {a : MemoryAtom} (hevidence : hasUserSourceEvidence a.sourceEvidence = true)
    (hcontent : pythonStrip a.content = "") :
    deserializeAtomFromRepair lang read (serializeAtomForRepair written a) parentMemoryId sessionId
        personaId = .ok none := by
  have hgroup : (serializeAtomForRepair written a).get? "source_evidence" =
      some (.arr (a.sourceEvidence.map ofDict)) := rfl
  have htext : (serializeAtomForRepair written a).get? "content" = some (.str a.content) := rfl
  unfold deserializeAtomFromRepair
  rw [hgroup,evidenceGroup_written,Option.filter_some,if_pos hevidence]
  simp only [htext,contentText_written,if_pos hcontent]

end Memora.Atoms

import Memora.AtomJournal

/-! A repair reads the atom back from the journal, binds it to its memory and inserts it; the
write it stands in for would have bound and inserted the atom itself. -/
namespace Memora.Atoms
open Memora.Representation (Json)
open WriteOps (AtomType SourceValues orText hasText)
open Canonical (pythonStrip)
open ExceptLaws (map_ok_injective)

variable (lang : Language) (config : AtomConfig)

variable (a : MemoryAtom)

def MemoryAtom.toAtom : WriteOps.Atom where
  content := a.content
  atomType := a.atomType
  sessionId := a.sessionId
  personaId := a.personaId
  parentMemoryId := a.parentMemoryId
  parentRevision := a.parentRevision
  parentScopeKey := a.parentScopeKey
  parentPrivacyLevel := a.parentPrivacyLevel
  grounded := hasUserSourceEvidence a.sourceEvidence

variable (written read : ℚ) (v : SourceValues)

/-- `bind_atoms_to_canonical_source` of one atom. -/
def MemoryAtom.bind (a : MemoryAtom) : MemoryAtom :=
  { a with
    parentMemoryId := v.memoryId
    parentRevision := some v.revision
    parentScopeKey := some v.scopeKey
    parentPrivacyLevel := some v.privacyLevel
    sessionId := v.sessionId
    personaId := v.personaId }

def insertDirectly (now : ℚ) (v : SourceValues) (a : MemoryAtom) : Except AtomError AtomRow :=
  insertedRow lang config now (a.bind v)

/-- The row a repair inserts for what the journal kept; none where it drops the atom or finds
it bound to another source. -/
def replayAtom (read now : ℚ) (v : SourceValues) (sessionId personaId : Option String)
    (payload : Metadata) : Except AtomError (Option AtomRow) := do
  match ← deserializeAtomFromRepair lang read payload v.memoryId sessionId personaId with
  | none => pure none
  | some b =>
    if b.toAtom.sourced then
      if (b.toAtom.mismatch v).isSome then pure none
      else (insertedRow lang config now b).map some
    else (insertedRow lang config now (b.bind v)).map some

def MemoryAtom.Staged (a : MemoryAtom) : Prop :=
  a.toAtom.sourced = false ∨ a.toAtom.mismatch v = none

/-- What a repair must not change: content, type, importance, confidence, lifetime, scope,
evidence and metadata. -/
structure MemoryAtom.Agrees (a b : MemoryAtom) : Prop where
  content : b.content = a.content
  atomType : b.atomType = a.atomType
  importance : b.importance = a.importance
  confidence : b.confidence = a.confidence
  ttlDays : b.ttlDays = a.ttlDays
  sessionId : b.sessionId = a.sessionId
  personaId : b.personaId = a.personaId
  parentScopeKey : b.parentScopeKey = a.parentScopeKey
  parentPrivacyLevel : b.parentPrivacyLevel = a.parentPrivacyLevel
  sourceEvidence : b.sourceEvidence = a.sourceEvidence
  metadata : b.metadata = a.metadata

def lifetimeFactors (m : Metadata) : Except AtomError (ℚ × ℚ) := do
  let personaModifier ← metadataFloat lang m "persona_decay_modifier" 1
  let emotionalIntensity ← metadataFloat lang m "emotional_intensity" (1 / 2)
  pure (personaModifier,emotionalIntensity)

def preparedWith (now : ℚ) (factors : ℚ × ℚ) (a : MemoryAtom) : MemoryAtom :=
  let ttl := computeTtl now a.atomType a.importance a.reinforcementCount a.eventTime
    (clamp 0 1 factors.2) factors.1 config.probationaryEnabled config.probationaryTtlDays
  { a with
    createdAt := now
    lastAccessedAt := now
    metadata := insertedMetadata a
    ttlDays := ttl.1
    decayType := ttl.2
    expiresAt := now+ttl.1 * 86400 }

variable {a : MemoryAtom}

lemma insertedMetadata_get? {key : String} (htags : key ≠ "emotion_tags")
    (hevidence : key ≠ "source_evidence") : (insertedMetadata a).get? key =
    a.metadata.get? key := by
  unfold insertedMetadata
  rw [Dict.get?_set_of_ne hevidence]
  split
  · rfl
  · rw [Dict.get?_set_of_ne htags]

lemma lifetimeFactors_inserted :
    lifetimeFactors lang (insertedMetadata a) = lifetimeFactors lang a.metadata := by
  unfold lifetimeFactors metadataFloat
  rw [insertedMetadata_get? (by decide) (by decide),insertedMetadata_get? (by decide) (by decide)]

lemma insertedRow_eq (now : ℚ) (hevidence : hasUserSourceEvidence a.sourceEvidence = true) :
    insertedRow lang config now a =
      (lifetimeFactors lang a.metadata).map fun f => (preparedWith config now f a).row := by
  rw [← lifetimeFactors_inserted]
  unfold insertedRow prepareAtomForInsert lifetimeFactors
  rw [if_neg (by simp [hevidence])]
  dsimp only
  cases metadataFloat lang (insertedMetadata a) "persona_decay_modifier" 1 with
  | error e => rfl
  | ok p =>
    cases metadataFloat lang (insertedMetadata a) "emotional_intensity" (1 / 2) with
    | error | ok => rfl

def MemoryAtom.Insertable : Prop :=
  ∃ factors, lifetimeFactors lang a.metadata = .ok factors

structure MemoryAtom.Survives (a : MemoryAtom) (sessionId personaId : Option String) : Prop where
  content : pythonStrip a.content ≠ ""
  importance : a.importance ≠ 0
  confidence : a.confidence ≠ 0
  ttlDays : a.ttlDays ≠ 0
  session : hasText a.sessionId = true ∨ a.sessionId = sessionId
  persona : hasText a.personaId = true ∨ a.personaId = personaId
  entities : a.Insertable lang → ∀ e ∈ a.entities, e ≠ ""
  emotionTags : a.Insertable lang →
    a.emotionTags = [] ∨ (a.metadata.get? "emotion_tags").isSome = true

lemma orNumber_eq {q fallback : ℚ} (hf : fallback ≠ 0) : orNumber q fallback = q ↔ q ≠ 0 := by
  unfold orNumber
  constructor
  · intro h hq
    rw [if_pos hq,hq] at h
    exact hf h
  · intro hq
    rw [if_neg hq]

lemma orText_eq {a b : Option String} : orText a b = a ↔ hasText a = true ∨ a = b := by
  unfold orText hasText
  split_ifs with h
  · exact iff_of_true rfl (.inl h)
  · simp only [h,false_or,Bool.false_eq_true]
    exact eq_comm

lemma readBack_agrees (parentMemoryId : ℕ) (sessionId personaId : Option String) (a : MemoryAtom) :
    a.Agrees (readBack written read parentMemoryId sessionId personaId a) ↔
      a.importance ≠ 0 ∧ a.confidence ≠ 0 ∧ a.ttlDays ≠ 0 ∧
      (hasText a.sessionId = true ∨ a.sessionId = sessionId) ∧
      (hasText a.personaId = true ∨ a.personaId = personaId) := by
  constructor
  · intro h
    exact ⟨(orNumber_eq (by norm_num)).mp h.importance,(orNumber_eq (by norm_num)).mp h.confidence,
      (orNumber_eq (by norm_num)).mp h.ttlDays,orText_eq.mp h.sessionId,orText_eq.mp h.personaId⟩
  · rintro ⟨hi,hc,ht,hs,hp⟩
    exact {
      content := rfl
      atomType := rfl
      importance := (orNumber_eq (by norm_num)).mpr hi
      confidence := (orNumber_eq (by norm_num)).mpr hc
      ttlDays := (orNumber_eq (by norm_num)).mpr ht
      sessionId := orText_eq.mpr hs
      personaId := orText_eq.mpr hp
      parentScopeKey := rfl
      parentPrivacyLevel := rfl
      sourceEvidence := rfl
      metadata := rfl }

lemma bind_of_matches {v : SourceValues} (h : a.toAtom.mismatch v = none) : a.bind v = a := by
  unfold WriteOps.Atom.mismatch at h
  split_ifs at h with h0 h1 h2 h3 h4 h5
  simp only [not_not,not_or] at h1 h2 h3 h4 h5
  obtain ⟨hs,hp⟩ := h5
  cases a
  subst h1 h2 h3 h4 hs hp
  rfl

lemma readBack_sourced (sessionId personaId : Option String) (a : MemoryAtom) :
    (readBack written read v.memoryId sessionId personaId a).toAtom.sourced = a.toAtom.sourced :=
  rfl

lemma replayAtom_eq (written read now : ℚ) (v : SourceValues) (sessionId personaId : Option String)
    (hevidence : hasUserSourceEvidence a.sourceEvidence = true)
    (hcontent : pythonStrip a.content ≠ "") (hstaged : a.Staged v)
    (hagrees : a.Agrees (readBack written read v.memoryId sessionId personaId a)) :
    replayAtom lang config read now v sessionId personaId (serializeAtomForRepair written a) =
      (insertedRow lang config now
        ((readBack written read v.memoryId sessionId personaId a).bind v)).map some := by
  unfold replayAtom
  rw [deserialize_serialize lang written read v.memoryId sessionId personaId hevidence hcontent]
  simp only [bind,Except.bind]
  by_cases hsourced : (readBack written read v.memoryId sessionId personaId a).toAtom.sourced = true
  · have hmatch : a.toAtom.mismatch v = none := by
      rcases hstaged with h | h
      · rw [readBack_sourced,h] at hsourced
        cases hsourced
      · exact h
    have hsame : (readBack written read v.memoryId sessionId personaId a).toAtom.mismatch v =
        none := by
      have hid : a.parentMemoryId = v.memoryId :=
        congrArg MemoryAtom.parentMemoryId (bind_of_matches hmatch).symm
      have heq : (readBack written read v.memoryId sessionId personaId a).toAtom = a.toAtom := by
        simp only [MemoryAtom.toAtom]
        rw [hagrees.sessionId,hagrees.personaId,hid]
        rfl
      rw [heq,hmatch]
    rw [if_pos hsourced,hsame,bind_of_matches hsame]
    simp
  · rw [if_neg hsourced]

lemma insertedMetadata_tags : (insertedMetadata a).get? "emotion_tags" =
      (a.metadata.get? "emotion_tags").or (some (.arr (a.emotionTags.map .str))) := by
  unfold insertedMetadata
  rw [Dict.get?_set_of_ne (by decide)]
  split
  · rename_i h
    obtain ⟨tags,htags⟩ := Option.isSome_iff_exists.mp h
    simp [htags]
  · rename_i h
    have hnone : a.metadata.get? "emotion_tags" = none := by simpa using h
    simp [hnone]

lemma insertedMetadata_readBack (parentMemoryId : ℕ) (sessionId personaId : Option String)
    (v : SourceValues) (a : MemoryAtom) :
    insertedMetadata ((readBack written read parentMemoryId sessionId personaId a).bind v) =
        insertedMetadata (a.bind v) ↔
      a.emotionTags = [] ∨ (a.metadata.get? "emotion_tags").isSome = true := by
  constructor
  · intro h
    have htags := congrArg (fun m => Dict.get? m "emotion_tags") h
    simp only [insertedMetadata_tags] at htags
    cases hm : a.metadata.get? "emotion_tags" with
    | some tags => exact .inr rfl
    | none =>
      simp only [MemoryAtom.bind,readBack,hm,Option.none_or,List.map_nil,Option.some.injEq,
        Json.arr.injEq] at htags
      exact .inl (List.map_eq_nil_iff.mp htags.symm)
  · intro h
    unfold insertedMetadata
    rcases h with h | h
    · simp only [MemoryAtom.bind,readBack,h]
      rfl
    · simp only [MemoryAtom.bind,readBack,h,if_true]

lemma insertedRow_readBack (written read now : ℚ) (parentMemoryId : ℕ)
    (sessionId personaId : Option String) (v : SourceValues)
    (hevidence : hasUserSourceEvidence a.sourceEvidence = true)
    (hagrees : a.Agrees (readBack written read parentMemoryId sessionId personaId a)) :
    insertedRow lang config now ((readBack written read parentMemoryId sessionId personaId a).bind v) =
        insertedRow lang config now (a.bind v) ↔
      (a.Insertable lang → ∀ e ∈ a.entities, e ≠ "") ∧
      (a.Insertable lang → a.emotionTags = [] ∨ (a.metadata.get? "emotion_tags").isSome = true) := by
  have hmeta := insertedMetadata_readBack written read parentMemoryId sessionId personaId v a
  have hi : orNumber a.importance (1 / 2) = a.importance := hagrees.importance
  have hc : orNumber a.confidence (7 / 10) = a.confidence := hagrees.confidence
  rw [insertedRow_eq lang config now (a := a.bind v) hevidence,
    insertedRow_eq lang config now (a := (readBack _ _ _ _ _ a).bind v) hevidence]
  have hsame : ((readBack written read parentMemoryId sessionId personaId a).bind v).metadata =
      (a.bind v).metadata := rfl
  rw [hsame]
  cases hf : lifetimeFactors lang (a.bind v).metadata with
  | error e =>
    have hno : ¬ a.Insertable lang := by
      rintro ⟨factors,hok⟩
      have : (a.bind v).metadata = a.metadata := rfl
      rw [this,hok] at hf
      simp at hf
    exact iff_of_true rfl ⟨fun h => absurd h hno,fun h => absurd h hno⟩
  | ok factors =>
    have hyes : a.Insertable lang := ⟨factors,hf⟩
    simp only [Except.map,Except.ok.injEq]
    constructor
    · intro h
      have hentities : a.entities.filter (· ≠ "") = a.entities := congrArg AtomRow.entities h
      refine ⟨fun _ e he => ?_,fun _ => hmeta.mp (congrArg AtomRow.metadata h)⟩
      simpa using List.filter_eq_self.mp hentities e he
    · rintro ⟨hentities,htags⟩
      have hfilter : a.entities.filter (· ≠ "") = a.entities :=
        List.filter_eq_self.mpr fun e he => by simpa using hentities hyes e he
      have hdict := hmeta.mpr (htags hyes)
      unfold preparedWith MemoryAtom.row
      rw [hdict]
      simp only [MemoryAtom.bind,readBack,hi,hc,hfilter]

/-- An atom comes back from the journal as it was, and its replay inserts what the write would
have inserted, exactly when it survives the fallbacks of the round trip. -/
theorem staged_atom_replays_iff (written read now : ℚ) (v : SourceValues)
    (sessionId personaId : Option String) (a : MemoryAtom)
    (hevidence : hasUserSourceEvidence a.sourceEvidence = true) (hstaged : a.Staged v) :
    ((∃ b, deserializeAtomFromRepair lang read (serializeAtomForRepair written a) v.memoryId
          sessionId personaId = .ok (some b) ∧ a.Agrees b) ∧
        replayAtom lang config read now v sessionId personaId (serializeAtomForRepair written a) =
          (insertDirectly lang config now v a).map some) ↔
      a.Survives lang sessionId personaId := by
  by_cases hblank : pythonStrip a.content = ""
  · have hnone : deserializeAtomFromRepair lang read (serializeAtomForRepair written a) v.memoryId
        sessionId personaId = .ok none :=
      deserialize_blank lang written read v.memoryId sessionId personaId hevidence hblank
    constructor
    · rintro ⟨⟨b,hb,-⟩,-⟩
      rw [hnone] at hb
      simp at hb
    · intro h
      exact absurd hblank h.content
  · have hread := deserialize_serialize lang written read v.memoryId sessionId personaId hevidence hblank
    constructor
    · rintro ⟨⟨b,hb,hagrees⟩,hreplay⟩
      rw [hread] at hb
      simp only [Except.ok.injEq,Option.some.injEq] at hb
      subst hb
      obtain ⟨hi,hc,ht,hs,hp⟩ := (readBack_agrees ..).mp hagrees
      rw [replayAtom_eq lang config written read now v sessionId personaId hevidence hblank hstaged
        hagrees] at hreplay
      have hrows := map_ok_injective (fun _ _ => Option.some.inj) hreplay
      obtain ⟨hentities,htags⟩ := (insertedRow_readBack lang config written read now v.memoryId
        sessionId personaId v hevidence hagrees).mp hrows
      exact ⟨hblank,hi,hc,ht,hs,hp,hentities,htags⟩
    · intro h
      have hagrees := (readBack_agrees written read v.memoryId sessionId personaId a).mpr
        ⟨h.importance,h.confidence,h.ttlDays,h.session,h.persona⟩
      refine ⟨⟨_,hread,hagrees⟩,?_⟩
      rw [replayAtom_eq lang config written read now v sessionId personaId hevidence hblank hstaged hagrees]
      rw [(insertedRow_readBack lang config written read now v.memoryId sessionId personaId v
        hevidence hagrees).mpr ⟨h.entities,h.emotionTags⟩]
      rfl

def sampleEvidence : Metadata where
  entries := [("message_id",.int 4),("message_seq",.int 3),("start",.int 0),("end",.int 9),
    ("role",.str "user"),("message_fingerprint",.str (String.ofList (List.replicate 64 'a')))]
  nodup := by
    simp only [List.map_cons,List.map_nil]
    decide

def sampleAtom (importance : ℚ) : MemoryAtom where
  parentMemoryId := 0
  content := "likes tea"
  importance := importance
  createdAt := 5
  lastAccessedAt := 5
  sessionId := some "s"
  sourceEvidence := [sampleEvidence]

def sampleLanguage : Language := ⟨fun _ => none,fun _ => none,fun _ => ""⟩

def sampleSource : SourceValues := ⟨1,"r","k","shared",some "s",none⟩

lemma sampleEvidence_user : hasUserSourceEvidence [sampleEvidence] = true := by decide +kernel

theorem staged_atom_replays_sample :
    ((∃ b, deserializeAtomFromRepair sampleLanguage 6 (serializeAtomForRepair 5 (sampleAtom 1)) 1
          (some "s") none = .ok (some b) ∧ (sampleAtom 1).Agrees b) ∧
        replayAtom sampleLanguage {} 6 7 sampleSource (some "s") none
            (serializeAtomForRepair 5 (sampleAtom 1)) =
          (insertDirectly sampleLanguage {} 7 sampleSource (sampleAtom 1)).map some) ↔
      (sampleAtom 1).Survives sampleLanguage (some "s") none :=
  staged_atom_replays_iff sampleLanguage {} 5 6 7 sampleSource (some "s") none (sampleAtom 1)
    sampleEvidence_user (.inl (by decide +kernel))

/-- An atom without importance comes back with the default importance. -/
theorem zero_importance_not_kept :
    hasUserSourceEvidence (sampleAtom 0).sourceEvidence = true ∧ (sampleAtom 0).content ≠ "" ∧
      ¬ ∃ b, deserializeAtomFromRepair sampleLanguage 6 (serializeAtomForRepair 5 (sampleAtom 0)) 1
        (some "s") none = .ok (some b) ∧ b.importance = (sampleAtom 0).importance := by
  refine ⟨sampleEvidence_user,by decide +kernel,?_⟩
  rintro ⟨b,hb,himportance⟩
  rw [deserialize_serialize sampleLanguage 5 6 1 (some "s") none sampleEvidence_user
    (by decide +kernel)] at hb
  simp only [Except.ok.injEq,Option.some.injEq] at hb
  subst hb
  have hzero : orNumber 0 (1 / 2) = 0 := himportance
  norm_num [orNumber] at hzero

end Memora.Atoms

import Memora.EvolutionReview

/-! The reader attaches an active projection to the memory of its primary source. It treats a
recorded source that is missing or out of bounds as a reason to leave the whole bundle out;
maintenance drops the mappings of such sources. -/
namespace Memora.Evolution

variable {T : Type}

structure ReadRequest (T : Type) where
  scopeKey : String
  privacyLevel : PrivacyLevel
  now : T
  candidates : List ℤ
  maxChars : ℕ := 2000
  maxItems : ℕ := 16
  maxPerCandidate : ℕ := 4
  maxSummaryChars : ℕ := 600
  projectionLimit : ℕ := 100
  disabledTypes : List ProjectionType := []

structure Attachment where
  candidate : ℤ
  projectionId : String
  projectionType : ProjectionType
  summary : String
  confidence : ℚ
  deriving DecidableEq

structure Bundle (T : Type) where
  projection : ProjectionRow T
  sources : List (SourceMapping T)

variable [LinearOrder T]

def visibleAt (now : T) (occurredAt validFrom validTo invalidAt : Option T)
    (requireOccurred : Bool) :
    Bool :=
  !(requireOccurred && occurredAt.isNone) && occurredAt.all (fun occurred => occurred ≤ now) &&
    validFrom.all (fun start => validTo.all fun stop => start ≤ stop) &&
    invalidAt.all (fun invalid => now < invalid) &&
    validFrom.all (fun start => start ≤ now) && validTo.all fun stop => now ≤ stop

namespace MemoryEvolutionStore

variable (db : MemoryEvolutionStore T)

/-- The snapshot that `load_sources` gives of a memory. -/
def loadedSource (id : ℤ) : Option (MemorySourceRef T) :=
  (db.document? id).bind loadSource

/-- `_source_is_current`, where the source was found. -/
def sourceCurrent (request : ReadRequest T) (m : SourceMapping T) :
    Bool :=
  (db.loadedSource m.memoryId).any fun source =>
    source.revisionToken = m.revisionToken && source.scopeKey = request.scopeKey &&
      privacyAllowed source.privacyLevel request.privacyLevel &&
      visibleAt request.now (m.occurredAt.or (some source.occurredAt)) m.validFrom m.validTo none true

def orderedSources (projectionId : String) : List (SourceMapping T) :=
  (db.mappingsOf projectionId).insertionSort fun a b => a.ordinal < b.ordinal ∨
    (a.ordinal = b.ordinal ∧ a.memoryId ≤ b.memoryId)

/-- `ORDER BY confidence DESC, projection_id ASC`. -/
def byConfidence (rows : List (ProjectionRow T)) : List (ProjectionRow T) :=
  rows.insertionSort fun a b => b.confidence < a.confidence ∨
    (a.confidence = b.confidence ∧ a.projectionId ≤ b.projectionId)

/-- `active_projection_bundles_for_seeds`; a mapping without a revision spoils its bundle. -/
def activeBundles (request : ReadRequest T) : List (Bundle T) :=
  let seeds := request.candidates.filter fun id => 0 ≤ id
  let rows := db.projections.filter fun p => decide (p.state = .active) && p.scopeKey =
    request.scopeKey &&
    (db.mappingsOf p.projectionId).any fun m => seeds.contains m.memoryId
  (((byConfidence rows).take request.projectionLimit).map fun p =>
    Bundle.mk p (db.orderedSources p.projectionId)).filter fun b =>
      b.sources.all fun m => Canonical.pythonStrip m.revisionToken ≠ ""

end MemoryEvolutionStore

/-- The checks of `ProjectionView`; a row that breaks one fails the whole read. -/
def Bundle.viewable (b : Bundle T) : Bool :=
  decide (Canonical.pythonStrip b.projection.projectionId ≠ "") &&
    decide (Canonical.pythonStrip b.projection.summary ≠ "") &&
    decide (0 ≤ b.projection.confidence) && decide (b.projection.confidence ≤ 1) &&
    b.projection.validFrom.all fun start => b.projection.validTo.all fun stop => start ≤ stop

def Bundle.valid (b : Bundle T) : Bool :=
  let ids := b.sources.map SourceMapping.memoryId
  !b.sources.isEmpty && decide (ids.dedup.length = ids.length) &&
    decide (b.sources.countP (fun m => m.role = .primary) = 1) &&
    (decide (b.projection.projectionType ≠ .conflictSet) || bothSides b.sources)

/-- The sort of `_attach_validated`. -/
def byRank (bundles : List (Bundle T)) : List (Bundle T) :=
  bundles.insertionSort fun a b => b.projection.confidence < a.projection.confidence ∨
    (a.projection.confidence = b.projection.confidence ∧
      (a.projection.projectionType.value < b.projection.projectionType.value ∨
        (a.projection.projectionType.value = b.projection.projectionType.value ∧
          a.projection.projectionId ≤ b.projection.projectionId)))

structure ReadState where
  attached : List Attachment := []
  totalChars : ℕ := 0
  stopped : Bool := false

variable (db : MemoryEvolutionStore T) (request : ReadRequest T)

/-- The candidate that a bundle may be attached to: it is active, within the bounds of the
request, visible, and every source it records is current. -/
def MemoryEvolutionStore.eligible (b : Bundle T) : Option ℤ :=
  let p := b.projection
  if p.state ≠ .active ∨ p.projectionType ∈ request.disabledTypes ∨
      p.scopeKey ≠ request.scopeKey then none
  else if !privacyAllowed p.privacyLevel request.privacyLevel then none
  else if !visibleAt request.now none p.validFrom p.validTo p.invalidAt false then none
  else if !b.sources.all (db.sourceCurrent request) then none
  else match b.sources.filter fun m => m.role = .primary with
    | [primary] =>
      if !request.candidates.contains primary.memoryId then none
      else if p.projectionType = .conflictSet ∧ bothSides b.sources = false then none
      else some primary.memoryId
    | _ => none

/-- One round of the loop of `_attach_validated`. -/
def MemoryEvolutionStore.attachOne (s : ReadState) (b : Bundle T) : ReadState :=
  let p := b.projection
  if s.stopped || s.attached.any fun a => a.projectionId = p.projectionId then s
  else match db.eligible request b with
    | none => s
    | some candidate =>
      let summary := String.ofList ((Canonical.pythonStrip p.summary).toList.take request.maxSummaryChars)
      let visibleChars := p.projectionType.value.length+summary.length+24
      let current := s.attached.filter fun a => a.candidate = candidate
      if summary = "" then s
      else if request.maxChars < s.totalChars+visibleChars then s
      else if request.maxPerCandidate ≤ current.length then s
      else if request.maxChars < (current.map fun a => a.summary.length).sum+summary.length then s
      else {
        attached := s.attached++[{
          candidate
          projectionId := p.projectionId
          projectionType := p.projectionType
          summary
          confidence := max 0 (min 1 p.confidence) }]
        totalChars := s.totalChars+visibleChars
        stopped := decide (request.maxItems ≤ s.attached.length+1) }

/-- `attach_with_stats`. -/
def MemoryEvolutionStore.attach :
    List Attachment :=
  if request.candidates.isEmpty || request.projectionLimit = 0 || request.maxChars = 0 ||
      request.maxItems = 0 || request.maxPerCandidate = 0 || request.maxSummaryChars = 0 then []
  else
    let bundles := db.activeBundles request
    if !bundles.all Bundle.viewable then []
    else ((byRank (bundles.filter Bundle.valid)).foldl (db.attachOne request) {}).attached

variable {db db' : MemoryEvolutionStore T} {request : ReadRequest T}

structure Shown (db : MemoryEvolutionStore T) (request : ReadRequest T) (p : ProjectionRow T) :
    Prop where
  active : p.state = .active
  current : ∀ m ∈ db.mappingsOf p.projectionId, db.sourceCurrent request m = true
  primary : ∃ m ∈ db.mappingsOf p.projectionId, m.role = .primary
  sides : p.projectionType = .conflictSet → bothSides (db.mappingsOf p.projectionId) = true

lemma eligible_some {b : Bundle T} {candidate : ℤ} (h : db.eligible request b = some candidate) :
    b.projection.state = .active ∧ (∀ m ∈ b.sources, db.sourceCurrent request m = true) ∧
      (∃ m ∈ b.sources, m.role = .primary) ∧
      (b.projection.projectionType = .conflictSet → bothSides b.sources = true) := by
  unfold MemoryEvolutionStore.eligible at h
  dsimp only at h
  split at h
  · cases h
  rename_i hactive
  split at h
  · cases h
  split at h
  · cases h
  split at h
  · cases h
  rename_i hcurrent
  split at h
  · rename_i primary hprimary
    split at h
    · cases h
    split at h
    · cases h
    rename_i hsides
    have hmem : primary ∈ b.sources.filter fun m => m.role = .primary := by
      rw [hprimary]
      exact List.mem_singleton_self _
    obtain ⟨hin,hrole⟩ := List.mem_filter.mp hmem
    refine ⟨?_,?_,⟨primary,hin,by simpa using hrole⟩,fun hconflict => ?_⟩
    · by_contra hother
      exact hactive (.inl hother)
    · have hall : b.sources.all (db.sourceCurrent request) = true := by simpa using hcurrent
      exact List.all_eq_true.mp hall
    · by_contra hmissing
      exact hsides ⟨hconflict,by simpa using hmissing⟩
  · cases h

lemma attachOne_attached {s : ReadState} {b : Bundle T} {a : Attachment}
    (ha : a ∈ (db.attachOne request s b).attached) :
    a ∈ s.attached ∨ (a.projectionId = b.projection.projectionId ∧
      db.eligible request b = some a.candidate) := by
  unfold MemoryEvolutionStore.attachOne at ha
  dsimp only at ha
  split at ha
  · exact .inl ha
  split at ha
  · exact .inl ha
  rename_i candidate hcandidate
  split at ha
  · exact .inl ha
  split at ha
  · exact .inl ha
  split at ha
  · exact .inl ha
  split at ha
  · exact .inl ha
  · rcases List.mem_append.mp ha with ha | ha
    · exact .inl ha
    · obtain rfl := List.mem_singleton.mp ha
      exact .inr ⟨rfl,hcandidate⟩

omit [LinearOrder T] in
lemma mem_activeBundles {b : Bundle T} (hb : b ∈ db.activeBundles request) :
    b.projection ∈ db.projections ∧
      ∀ m, m ∈ b.sources ↔ m ∈ db.mappingsOf b.projection.projectionId := by
  obtain ⟨p,hp,rfl⟩ := List.mem_map.mp (List.mem_filter.mp hb).1
  have hrow := List.mem_of_mem_take hp
  unfold MemoryEvolutionStore.byConfidence at hrow
  rw [List.mem_insertionSort] at hrow
  refine ⟨(List.mem_filter.mp hrow).1,fun m => ?_⟩
  unfold MemoryEvolutionStore.orderedSources
  rw [List.mem_insertionSort]

omit [LinearOrder T] in
lemma bothSides_congr {a b : List (SourceMapping T)} (h : ∀ m, m ∈ a ↔ m ∈ b)
    (ha : bothSides a = true) : bothSides b = true := by
  obtain ⟨hleft,hright⟩ := Bool.and_eq_true_iff.mp ha
  obtain ⟨l,hl,hlrole⟩ := List.any_eq_true.mp hleft
  obtain ⟨r,hr,hrrole⟩ := List.any_eq_true.mp hright
  exact Bool.and_eq_true_iff.mpr ⟨List.any_eq_true.mpr ⟨l,(h l).mp hl,hlrole⟩,
    List.any_eq_true.mpr ⟨r,(h r).mp hr,hrrole⟩⟩

lemma attached_shown {a : Attachment} (ha : a ∈ db.attach request) :
    ∃ p ∈ db.projections, p.projectionId = a.projectionId ∧ Shown db request p := by
  unfold MemoryEvolutionStore.attach at ha
  split at ha
  · cases ha
  dsimp only at ha
  split at ha
  · cases ha
  have hfold : ∀ (bundles : List (Bundle T)) (s : ReadState),
      a ∈ (bundles.foldl (db.attachOne request) s).attached → a ∈ s.attached ∨
        ∃ b ∈ bundles, a.projectionId = b.projection.projectionId ∧
          db.eligible request b = some a.candidate := by
    intro bundles
    induction bundles with
    | nil => exact fun s h => .inl h
    | cons b bundles ih =>
      intro s h
      rcases ih _ h with hs | ⟨b',hb',heligible⟩
      · rcases attachOne_attached hs with hs | heligible
        · exact .inl hs
        · exact .inr ⟨b,by simp,heligible⟩
      · exact .inr ⟨b',by simp [hb'],heligible⟩
  rcases hfold _ _ ha with hnone | ⟨b,hb,hid,heligible⟩
  · cases hnone
  unfold byRank at hb
  rw [List.mem_insertionSort] at hb
  obtain ⟨hp,hsources⟩ := mem_activeBundles (List.mem_filter.mp hb).1
  obtain ⟨hactive,hcurrent,⟨primary,hprimary,hrole⟩,hsides⟩ := eligible_some heligible
  exact ⟨b.projection,hp,hid.symm,hactive,fun m hm => hcurrent m ((hsources m).mpr hm),
    ⟨primary,(hsources primary).mp hprimary,hrole⟩,
    fun hconflict => bothSides_congr hsources (hsides hconflict)⟩

def EvolutionCall.maintains : EvolutionCall T → Bool
  | .sourceRevision _ _ | .deletedSource _ | .cleanup => true
  | _ => false

/-- Maintenance only drops mappings and only closes projections, and it closes a semantic summary
with the first mapping it drops. -/
structure Maintained (db db' : MemoryEvolutionStore T) : Prop where
  documents : db'.documents = db.documents
  mappings : ∀ m ∈ db'.mappings, m ∈ db.mappings
  ids : db'.projections.map ProjectionRow.projectionId =
    db.projections.map ProjectionRow.projectionId
  rows : ∀ p' ∈ db'.projections, ∃ p ∈ db.projections, p.projectionId = p'.projectionId ∧
    p.projectionType = p'.projectionType ∧ (p'.state = .active → p.state = .active)
  whole : ∀ p' ∈ db'.projections, p'.projectionType = .semanticSummary → p'.state = .active →
    ∀ m ∈ db.mappingsOf p'.projectionId, m ∈ db'.mappings

omit [LinearOrder T] in
lemma Maintained.refl (db : MemoryEvolutionStore T) : Maintained db db :=
  ⟨rfl,fun _ hm => hm,rfl,fun p hp => ⟨p,hp,rfl,rfl,fun h => h⟩,
    fun _ _ _ _ _ hm => (List.mem_filter.mp hm).1⟩

omit [LinearOrder T] in
lemma mem_mappingsOf {id : String} {m : SourceMapping T} :
    m ∈ db.mappingsOf id ↔ m ∈ db.mappings ∧ m.projectionId = id := by
  simp [MemoryEvolutionStore.mappingsOf]

omit [LinearOrder T] in
lemma Maintained.trans {a b c : MemoryEvolutionStore T} (h : Maintained a b)
    (h' : Maintained b c) : Maintained a c := by
  refine ⟨h'.documents.trans h.documents,fun m hm => h.mappings m (h'.mappings m hm),
    h'.ids.trans h.ids,?_,?_⟩
  · intro p'' hp''
    obtain ⟨p',hp',hid',htype',hstate'⟩ := h'.rows p'' hp''
    obtain ⟨p,hp,hid,htype,hstate⟩ := h.rows p' hp'
    exact ⟨p,hp,hid.trans hid',htype.trans htype',fun hactive => hstate (hstate' hactive)⟩
  · intro p'' hp'' hsemantic hactive m hm
    obtain ⟨p',hp',hid',htype',hstate'⟩ := h'.rows p'' hp''
    have hleft := h.whole p' hp' (htype'.trans hsemantic) (hstate' hactive) m (by rwa [hid'])
    exact h'.whole p'' hp'' hsemantic hactive m (mem_mappingsOf.mpr ⟨hleft,(mem_mappingsOf.mp hm).2⟩)

omit [LinearOrder T] in
lemma maintained_of_closed {now : T} {selected : ProjectionRow T → Bool}
    (hdocuments : db'.documents = db.documents) (hmappings : ∀ m ∈ db'.mappings, m ∈ db.mappings)
    (hprojections : db'.projections = invalidateProjections now selected db.projections)
    (hselected : ∀ p ∈ db.projections, p.projectionType = .semanticSummary → p.state = .active →
      ∀ m ∈ db.mappingsOf p.projectionId, m ∉ db'.mappings → selected p = true) :
    Maintained db db' := by
  refine ⟨hdocuments,hmappings,?_,?_,?_⟩
  · rw [hprojections]
    exact RowTable.map_modify _ _ _ _ fun _ _ _ => rfl
  · intro p' hp'
    rw [hprojections] at hp'
    obtain ⟨p,hp,rfl⟩ := RowTable.mem_modify.mp hp'
    refine ⟨p,hp,?_⟩
    split
    · exact ⟨rfl,rfl,fun h => absurd h (by simp [ProjectionRow.invalidated])⟩
    · exact ⟨rfl,rfl,fun h => h⟩
  · intro p' hp' hsemantic hactive m hm
    rw [hprojections] at hp'
    obtain ⟨p,hp,rfl⟩ := RowTable.mem_modify.mp hp'
    split at hactive
    · exact absurd hactive (by simp [ProjectionRow.invalidated])
    rename_i hopen
    rw [if_neg hopen] at hsemantic hm
    by_contra hdropped
    exact hopen (by simp [hselected p hp hsemantic hactive m hm hdropped,hactive])

omit [LinearOrder T] in
lemma maintenance_maintained (hids : (db.projections.map ProjectionRow.projectionId).Nodup)
    {call : EvolutionCall T} {now : T} (hcall : call.maintains = true)
    (h : db.attempt call now = .ok db') : Maintained db db' := by
  cases call with
  | canonical | applyPlan | review | rollback | invalidateAll =>
    exact absurd hcall (by simp [EvolutionCall.maintains])
  | sourceRevision id revision =>
    cases h
    refine maintained_of_closed rfl (fun m hm => (List.mem_filter.mp hm).1) rfl ?_
    intro p _ hsemantic _ m hm hdropped
    have hstale : (decide (m.memoryId = id) && decide (m.revisionToken ≠ revision)) = true := by
      by_contra hkept
      refine hdropped (List.mem_filter.mpr ⟨(mem_mappingsOf.mp hm).1,?_⟩)
      simpa only [Bool.not_eq_true',Bool.not_eq_true] using hkept
    rw [Bool.and_eq_true]
    exact ⟨List.any_eq_true.mpr ⟨m,hm,hstale⟩,by simp [hsemantic]⟩
  | deletedSource id =>
    cases h
    refine maintained_of_closed rfl (fun m hm => (List.mem_filter.mp hm).1) rfl ?_
    intro p _ hsemantic _ m hm hdropped
    have hgone : m.memoryId = id := by
      by_contra hkept
      exact hdropped (List.mem_filter.mpr ⟨(mem_mappingsOf.mp hm).1,by simpa using hkept⟩)
    rw [Bool.and_eq_true]
    exact ⟨List.any_eq_true.mpr ⟨m,hm,by simpa using hgone⟩,by simp [hsemantic]⟩
  | cleanup =>
    cases h
    refine maintained_of_closed rfl (fun m hm => (List.mem_filter.mp hm).1) rfl ?_
    intro p hp hsemantic _ m hm hdropped
    obtain ⟨hin,hof⟩ := mem_mappingsOf.mp hm
    have hany : db.projections.any (fun q => decide (q.state ≠ .invalidated) &&
        (decide (m.projectionId = q.projectionId) &&
          !db.sourceValid m.memoryId m.revisionToken q.scopeKey q.privacyLevel)) = true := by
      by_contra hkept
      exact hdropped (List.mem_filter.mpr ⟨hin,by simpa using hkept⟩)
    obtain ⟨q,hq,horphan⟩ := List.any_eq_true.mp hany
    obtain ⟨-,horphan⟩ := Bool.and_eq_true_iff.mp horphan
    -- the orphaned mapping is of this projection, since ids are distinct
    have hsame : q = p := by
      refine RowTable.eq_of_key_eq hids hq hp ?_
      have hqid : m.projectionId = q.projectionId := by simpa using (Bool.and_eq_true_iff.mp horphan).1
      exact hqid.symm.trans hof
    subst hsame
    rw [Bool.or_eq_true]
    right
    rw [Bool.and_eq_true]
    exact ⟨List.any_eq_true.mpr ⟨m,hm,horphan⟩,by simp [hsemantic]⟩

omit [LinearOrder T] in
lemma run_maintained (steps : List (EvolutionStep T)) {db : MemoryEvolutionStore T}
    (hids : (db.projections.map ProjectionRow.projectionId).Nodup)
    (hsteps : ∀ s ∈ steps, s.call.maintains = true) : Maintained db (db.run steps) := by
  induction steps generalizing db with
  | nil => exact .refl db
  | cons s steps ih =>
    have hstep : Maintained db (db.step s) := by
      unfold MemoryEvolutionStore.step
      split
      · exact .refl db
      · cases hcall : db.attempt s.call s.now with
        | error e => exact .refl db
        | ok db' => exact maintenance_maintained hids (hsteps s (by simp)) hcall
    exact hstep.trans (ih (by rw [hstep.ids]; exact hids) fun t ht => hsteps t (by simp [ht]))

/-- A projection with a recorded source that is not current is not attached. After any
maintenance it is attached only if it is no semantic summary, the mapping of that source is gone
and every source it still records, its primary among them, is current. -/
theorem attached_after_maintenance
    (hids : (db.projections.map ProjectionRow.projectionId).Nodup) (request : ReadRequest T)
    {p : ProjectionRow T} (hp : p ∈ db.projections) {m : SourceMapping T}
    (hm : m ∈ db.mappingsOf p.projectionId) (hstale : db.sourceCurrent request m = false)
    (steps : List (EvolutionStep T)) (hsteps : ∀ s ∈ steps, s.call.maintains = true) :
    (∀ a ∈ db.attach request, a.projectionId ≠ p.projectionId) ∧
    ∀ a ∈ (db.run steps).attach request, a.projectionId = p.projectionId →
      p.projectionType ≠ .semanticSummary ∧ m ∉ (db.run steps).mappings ∧
      (∀ left ∈ (db.run steps).mappingsOf p.projectionId, db.sourceCurrent request left = true) ∧
      (∃ primary ∈ (db.run steps).mappingsOf p.projectionId, primary.role = .primary) ∧
      (p.projectionType = .conflictSet → bothSides ((db.run steps).mappingsOf p.projectionId) = true) := by
  refine ⟨?_,?_⟩
  · intro a ha hid
    obtain ⟨q,hq,hqid,hshown⟩ := attached_shown ha
    obtain rfl := RowTable.eq_of_key_eq hids hq hp (hqid.trans hid)
    rw [hshown.current m hm] at hstale
    cases hstale
  · intro a ha hid
    have hmaintained := run_maintained steps hids hsteps
    obtain ⟨q,hq,hqid,hshown⟩ := attached_shown ha
    obtain ⟨p₀,hp₀,hid₀,htype₀,-⟩ := hmaintained.rows q hq
    obtain rfl := RowTable.eq_of_key_eq hids hp₀ hp (hid₀.trans (hqid.trans hid))
    have hcurrent : ∀ left ∈ (db.run steps).mappingsOf p₀.projectionId,
        db.sourceCurrent request left = true := by
      intro left hleft
      have h := hshown.current left (by rwa [← hid₀])
      unfold MemoryEvolutionStore.sourceCurrent MemoryEvolutionStore.loadedSource
        MemoryEvolutionStore.document? at h ⊢
      rwa [hmaintained.documents] at h
    have hgone : m ∉ (db.run steps).mappings := by
      intro hin
      rw [hcurrent m (mem_mappingsOf.mpr ⟨hin,(mem_mappingsOf.mp hm).2⟩)] at hstale
      cases hstale
    refine ⟨fun hsemantic => hgone ?_,hgone,hcurrent,?_,fun hconflict => ?_⟩
    · exact hmaintained.whole q hq (htype₀.symm.trans hsemantic) hshown.active m (by rwa [← hid₀])
    · obtain ⟨primary,hprimary,hrole⟩ := hshown.primary
      exact ⟨primary,by rwa [hid₀],hrole⟩
    · have hsides := hshown.sides (htype₀.symm.trans hconflict)
      rwa [hid₀]

def episodePlan : DerivedApplyPlan ℕ :=
  { ((sampleConfig.proposalToPlan
      { projections := [{
          projectionType := .episodeSummary
          sourceAliases := ["M1","M2"]
          summary := "tea, then coffee"
          confidence := 9 / 10 }] }
      ([teaMemory,coffeeMemory].filterMap loadSource)).toOption.getD {}) with
    originJobId := some "job-1" }

def staleEpisode : MemoryEvolutionStore ℕ :=
  ({} : MemoryEvolutionStore ℕ).run [{ call := .canonical [teaMemory,coffeeMemory], now := 3 },
     { call := .applyPlan episodePlan, now := 4 },
     { call := .canonical [teaMemory,{ coffeeMemory with updatedAt := some "2024-01-03" }], now := 5 }]

def sampleRequest : ReadRequest ℕ where
  scopeKey := "private:user-a"
  privacyLevel := .sharedLevel
  now := 9
  candidates := [1]

def revisionNoticed : List (EvolutionStep ℕ) :=
  [{ call := .sourceRevision 2 "2024-01-03", now := 6 }]

theorem attached_after_maintenance_sample :
    ((staleEpisode.attach sampleRequest).any fun a => a.projectionId = episodeId) = false := by
  have hrow : staleEpisode.projections.map ProjectionRow.projectionId = [episodeId] := by
    decide +kernel
  have hmapping : staleEpisode.mappings.map (fun m => (m.projectionId,
      staleEpisode.sourceCurrent sampleRequest m)) = [(episodeId,true),(episodeId,false)] := by
    decide +kernel
  obtain ⟨p,hp,hid⟩ := List.mem_map.mp (hrow ▸ List.mem_singleton_self episodeId)
  obtain ⟨m,hm,heq⟩ := List.mem_map.mp (hmapping ▸ List.mem_cons_of_mem _
    (List.mem_singleton_self (episodeId,false)))
  simp only [Prod.mk.injEq] at heq
  have hgone := (attached_after_maintenance (by rw [hrow]; exact List.nodup_singleton _) sampleRequest hp
    (mem_mappingsOf.mpr ⟨hm,heq.1.trans hid.symm⟩) heq.2 revisionNoticed
    (by simp [revisionNoticed,EvolutionCall.maintains])).1
  rw [List.any_eq_false]
  intro a ha hsame
  exact hgone a ha ((of_decide_eq_true hsame).trans hid.symm)

/-- The episode was left out for its stale source; dropping that source shows it again. -/
theorem episode_widened : staleEpisode.attach sampleRequest = [] ∧
      ((staleEpisode.run revisionNoticed).attach sampleRequest).map Attachment.projectionId = [episodeId] := by
  decide +kernel

end Memora.Evolution

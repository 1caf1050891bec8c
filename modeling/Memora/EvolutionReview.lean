import Memora.EvolutionRelations

/-! A relation of high impact becomes active by an approval alone, and a rejected one is opened
again by a replay alone, up to the invalidations that forget the rejection. -/
namespace Memora.Evolution

open ExceptLaws (bind_ok)

variable {T : Type} {db db' : MemoryEvolutionStore T} {plan : DerivedApplyPlan T}
    {revision : String}
  {row : RelationRow} {r' : RelationRow}

def EndValid (db : MemoryEvolutionStore T) (row : RelationRow) (id : ℤ)
    (revision : String) : Prop :=
  ∃ document, db.document? id = some document ∧ document.revision = revision ∧
    isMemoryActive document.metadata = true ∧
    (row.scopeKey ≠ "" → document.scopeKey = row.scopeKey) ∧
    privacyAllowed document.privacyLevel row.privacyLevel = true

def SourcesValid (db : MemoryEvolutionStore T) (row : RelationRow) : Prop :=
  EndValid db row row.sourceMemoryId row.sourceRevision ∧
  EndValid db row row.targetMemoryId row.targetRevision

lemma checkSource_ok {e : Expectations} {id : ℤ} (h : db.checkSource e id revision = .ok ()) :
    ∃ document, db.document? id = some document ∧ (revision ≠ "" → document.revision = revision) ∧
      isMemoryActive document.metadata = true ∧ (((e.scopes.filter fun s => s.1 = id).map Prod.snd) ≠ [] →
        document.scopeKey ∈ (e.scopes.filter fun s => s.1 = id).map Prod.snd) ∧
      ∀ p ∈ e.privacies, p.1 = id → privacyAllowed document.privacyLevel p.2 = true := by
  unfold MemoryEvolutionStore.checkSource at h
  split at h
  · cases h
  rename_i document hdocument
  dsimp only at h
  split at h
  · cases h
  rename_i hrevision
  split at h
  · cases h
  rename_i hactive
  split at h
  · cases h
  rename_i hscope
  split at h
  · cases h
  rename_i hprivacy
  refine ⟨document,hdocument,?_,by simpa using hactive,?_,?_⟩
  · intro hne
    by_contra hother
    exact hrevision ⟨hne,hother⟩
  · intro hne
    by_contra hout
    apply hscope
    rw [Bool.and_eq_true]
    refine ⟨?_,?_⟩
    · cases hl : (e.scopes.filter fun s => s.1 = id).map Prod.snd with
      | nil => exact absurd hl hne
      | cons _ _ => rfl
    · rw [Bool.not_eq_true',← Bool.not_eq_true,List.contains_iff_mem]
      exact hout
  · intro p hp hid
    by_contra hbad
    refine hprivacy (List.any_eq_true.mpr ⟨p,hp,?_⟩)
    simpa [hid] using hbad

lemma add_ok {e e' : Expectations} {id : ℤ} {scopeKey : Option String}
    {privacyLevel : Option PrivacyLevel} (h : e.add id revision scopeKey privacyLevel = .ok e')
    (hne : revision ≠ "") :
    e'.revisions = e.revisions.set id revision ∧
    (∀ v, v ≠ "" → e.revisions.get? id = some v → v = revision) ∧
      e'.scopes = e.scopes++((scopeKey.filter (· ≠ "")).map (id,·)).toList ∧
      e'.privacies = e.privacies++(privacyLevel.map (id,·)).toList := by
  unfold Expectations.add at h
  split at h
  · cases h
  rename_i hsame
  cases h
  refine ⟨by simp,fun v hv hget => ?_,rfl,rfl⟩
  by_contra hother
  exact hsame ⟨hne,by simp [hget,hv,hother]⟩

lemma validated_sources (hends : row.sourceRevision ≠ "" ∧ row.targetRevision ≠ "")
    (h : db.validatePlanSources row.reviewPlan = .ok ()) : SourcesValid db row := by
  have hrevision : ∀ (text : String) (id : ℤ), text ≠ "" →
      (row.reviewPlan : DerivedApplyPlan T).revisionOf (some text) id = text := by
    intro text id hne
    simp [DerivedApplyPlan.revisionOf,Option.filter,hne]
  obtain ⟨e,hfold,h⟩ := bind_ok h
  obtain ⟨e₂,hrel,hnil⟩ := bind_ok hfold
  obtain rfl : e₂ = e := Except.ok.inj hnil
  obtain ⟨e₁,hfirst,hsecond⟩ := bind_ok hrel
  rw [hrevision _ _ hends.1] at hfirst
  rw [hrevision _ _ hends.2] at hsecond
  obtain ⟨hrev₁,hkeep₁,hscopes₁,hprivacies₁⟩ := add_ok hfirst hends.1
  obtain ⟨hrev₂,hkeep₂,hscopes₂,hprivacies₂⟩ := add_ok hsecond hends.2
  have hscopes : e₂.scopes = if row.scopeKey = "" then [] else
      [(row.sourceMemoryId,row.scopeKey),(row.targetMemoryId,row.scopeKey)] := by
    rw [hscopes₂,hscopes₁]
    by_cases hempty : row.scopeKey = "" <;> simp [Option.filter,hempty]
  have hprivacies : e₂.privacies =
      [(row.sourceMemoryId,row.privacyLevel),(row.targetMemoryId,row.privacyLevel)] := by
    rw [hprivacies₂,hprivacies₁]
    rfl
  have hscope : ∀ s ∈ e₂.scopes, s.2 = row.scopeKey := by
    intro s hs
    rw [hscopes] at hs
    split at hs
    · cases hs
    · rcases List.mem_pair.mp hs with rfl | rfl <;> rfl
  have htarget : e₂.revisions.get? row.targetMemoryId = some row.targetRevision := by
    rw [hrev₂,Dict.get?_set_self]
  have hsource : e₂.revisions.get? row.sourceMemoryId = some row.sourceRevision := by
    rw [hrev₂,Dict.get?_set]
    split
    · rename_i hsame
      rw [← hkeep₂ row.sourceRevision hends.1 (by rw [hrev₁,← hsame,Dict.get?_set_self])]
    · rw [hrev₁,Dict.get?_set_self]
  have hin : ∀ id, id = row.sourceMemoryId ∨ id = row.targetMemoryId →
      (row.scopeKey ≠ "" → (id,row.scopeKey) ∈ e₂.scopes) ∧ (id,row.privacyLevel) ∈ e₂.privacies := by
    intro id hid
    rw [hscopes,hprivacies]
    rcases hid with rfl | rfl
    · exact ⟨fun hne => by rw [if_neg hne]; simp,by simp⟩
    · exact ⟨fun hne => by rw [if_neg hne]; simp,by simp⟩
  have hall := ExceptLaws.forM_ok h
  have hend : ∀ id revision, id = row.sourceMemoryId ∨ id = row.targetMemoryId → revision ≠ "" →
      e₂.revisions.get? id = some revision → EndValid db row id revision := by
    intro id revision hid hne hget
    obtain ⟨document,hdocument,hrev,hactive,hallowed,hprivate⟩ :=
      checkSource_ok (hall (id,revision) (Dict.get?_eq_some.mp hget))
    obtain ⟨hscopeIn,hprivacyIn⟩ := hin id hid
    refine ⟨document,hdocument,hrev hne,hactive,fun hkey => ?_,hprivate _ hprivacyIn rfl⟩
    have hmem : row.scopeKey ∈ (e₂.scopes.filter fun s => s.1 = id).map Prod.snd :=
      List.mem_map.mpr ⟨_,List.mem_filter.mpr ⟨hscopeIn hkey,by simp⟩,rfl⟩
    obtain ⟨s,hs,heq⟩ := List.mem_map.mp (hallowed (List.ne_nil_of_mem hmem))
    rw [← heq]
    exact hscope s (List.mem_filter.mp hs).1
  exact ⟨hend _ _ (.inl rfl) hends.1 hsource,hend _ _ (.inr rfl) hends.2 htarget⟩

def Carried (rows rows' : List RelationRow) : Prop :=
  ∀ r' ∈ rows', r'.relationType.highImpact = true → r'.state = .active →
    ∃ r ∈ rows, r.relationId = r'.relationId ∧ r.relationType = r'.relationType ∧ r.state = .active

lemma Carried.refl (rows : List RelationRow) : Carried rows rows :=
  fun r hr _ hactive => ⟨r,hr,rfl,rfl,hactive⟩

lemma Carried.trans {a b c : List RelationRow} (h : Carried a b) (h' : Carried b c) :
    Carried a c := by
  intro r hr himpact hactive
  obtain ⟨r₁,hr₁,hid,htype,hactive₁⟩ := h' r hr himpact hactive
  obtain ⟨r₂,hr₂,hid₂,htype₂,hactive₂⟩ := h r₁ hr₁ (by rw [htype]; exact himpact) hactive₁
  exact ⟨r₂,hr₂,hid₂.trans hid,htype₂.trans htype,hactive₂⟩

lemma upserted_carried {rel : RelationView}
    {rows rows' : List RelationRow} (hok : RowsOk rows)
    (hcandidate : rel.relationType.highImpact = true → rel.state = .candidate)
    (hup : Upserted plan rel rows rows') : Carried rows rows' := by
  cases hup with
  | updated =>
    intro r' hr' himpact hactive
    obtain ⟨r,hr,rfl⟩ := RowTable.mem_modify.mp hr'
    split at hactive
    · -- the key of the row gives its type, so the proposal is of high impact too
      rename_i hselected
      rw [if_pos hselected] at himpact ⊢
      simp only [Bool.and_eq_true,decide_eq_true_eq] at hselected
      have htype : r.relationType = rel.relationType := type_of_key (hok.keyed r hr) hselected.1
      have hstate := hcandidate (htype ▸ himpact)
      refine ⟨r,hr,rfl,rfl,?_⟩
      by_contra hother
      simp [RelationRow.reproposed,hother,hstate] at hactive
    · rename_i hselected
      rw [if_neg hselected] at himpact ⊢
      exact ⟨r,hr,rfl,rfl,hactive⟩
  | inserted new hid hkeyed hends htype hstate =>
    intro r' hr' himpact hactive
    rcases List.mem_append.mp hr' with hr | hr
    · exact ⟨r',hr,rfl,rfl,hactive⟩
    · obtain rfl := List.mem_singleton.mp hr
      rw [hcandidate (htype ▸ himpact)] at hstate
      rw [hstate] at hactive
      cases hactive

lemma applied_carried (h : db.Wellformed) (hbuilt : plan.Built)
    (happlied : Applied db plan db') : Carried db.relations db'.relations := by
  have hkept := ExceptLaws.foldlM_invariant (P := fun rows => RowsOk rows ∧ Carried db.relations rows)
    (fun rows rel hrel rows' hstep hP => by
      have hup := upsertRelation_ok hstep
      exact ⟨upserted_rowsOk hP.1 hup,
        hP.2.trans (upserted_carried hP.1 (built_candidate hbuilt rel hrel) hup)⟩)
    ⟨h.rows,.refl _⟩ happlied.relations
  exact hkept.2

lemma invalidated_carried (selected : RelationRow → Bool) (rows : List RelationRow) :
    Carried rows (invalidateRelations selected rows) := by
  intro r' hr' _ hactive
  obtain ⟨r,hr,rfl⟩ := RowTable.mem_modify.mp hr'
  split at hactive
  · exact absurd hactive (by simp [RelationRow.invalidated])
  · rename_i hselected
    rw [if_neg hselected]
    exact ⟨r,hr,rfl,rfl,hactive⟩

def Approved (db : MemoryEvolutionStore T) (s : EvolutionStep T) (id : String) : Prop :=
  s.raised = false ∧ ∃ candidateId revision, s.call = .review candidateId .approve revision ∧
    Canonical.pythonStrip candidateId = id ∧
    ∃ row ∈ db.relations, row.relationId = id ∧ row.state = .candidate ∧ SourcesValid db row

lemma reviewed_active (hok : RowsOk db.relations) {id : String} {action : ReviewAction}
    {newState : DerivedState} (h : Reviewed db id action row newState db')
    (hr' : r' ∈ db'.relations) (hactive : r'.state = .active) :
    (∃ r ∈ db.relations, r.relationId = r'.relationId ∧ r.relationType = r'.relationType ∧ r.state = .active) ∨
    (r'.relationId = id ∧ action = .approve ∧ row.state = .candidate ∧ SourcesValid db row) := by
  rw [h.relations] at hr'
  obtain ⟨r,hr,rfl⟩ := RowTable.mem_modify.mp hr'
  split at hactive
  · rename_i hselected
    rw [if_pos hselected]
    simp only [Bool.and_eq_true,decide_eq_true_eq] at hselected
    right
    obtain rfl : newState = .active := hactive
    have hnext := h.next
    cases action with
    | approve =>
      have hcandidate : row.state = .candidate := by
        cases hstate : row.state <;> simp [hstate,nextReviewState] at hnext
        rfl
      exact ⟨hselected.1.1,rfl,hcandidate, validated_sources (hok.ends row h.mem) (h.valid (by simp))⟩
    | reject | replay => cases hstate : row.state <;> simp [hstate,nextReviewState] at hnext
  · rename_i hselected
    rw [if_neg hselected]
    exact .inl ⟨r,hr,rfl,rfl,hactive⟩

lemma step_active (h : db.Wellformed) {s : EvolutionStep T}
    (hbuilt : ∀ plan, s.call = .applyPlan plan → plan.Built)
    (hr' : r' ∈ (db.step s).relations) (himpact : r'.relationType.highImpact = true)
    (hactive : r'.state = .active) :
    (∃ r ∈ db.relations, r.relationId = r'.relationId ∧ r.relationType = r'.relationType ∧
      r.state = .active) ∨ Approved db s r'.relationId := by
  unfold MemoryEvolutionStore.step at hr'
  split at hr'
  · exact .inl (Carried.refl _ r' hr' himpact hactive)
  rename_i hraised
  cases hcall : db.attempt s.call s.now with
  | error e =>
    rw [hcall] at hr'
    exact .inl (Carried.refl _ r' hr' himpact hactive)
  | ok db' =>
    rw [hcall] at hr'
    obtain ⟨call,now,raised⟩ := s
    cases call with
    | canonical documents =>
      cases hcall
      exact .inl (Carried.refl _ r' hr' himpact hactive)
    | applyPlan plan =>
      exact .inl (applied_carried h (hbuilt plan rfl) (applyDerivedPlan_ok hcall) r' hr' himpact hactive)
    | review id action revision =>
      obtain ⟨row,newState,hreviewed⟩ := review_ok hcall
      rcases reviewed_active h.rows hreviewed hr' hactive with hbefore | ⟨hid,rfl,hstate,hvalid⟩
      · exact .inl hbefore
      · exact .inr ⟨by simpa using hraised,id,revision,rfl,hid.symm,row,hreviewed.mem,
          hreviewed.named.trans hid.symm,hstate,hvalid⟩
    | sourceRevision | deletedSource | rollback | invalidateAll | cleanup =>
      cases hcall
      exact .inl (invalidated_carried _ _ r' hr' himpact hactive)

def ActiveIn (db : MemoryEvolutionStore T) (id : String) : Prop :=
  ∃ row ∈ db.relations, row.relationId = id ∧ row.state = .active ∧
    ∀ other ∈ db.relations, other.relationId = id → other = row

lemma activeIn_of_mem (h : db.Wellformed) {r : RelationRow} (hr : r ∈ db.relations)
    (hactive : r.state = .active) : ActiveIn db r.relationId :=
  ⟨r,hr,rfl,hactive,fun _ hother heq => RowTable.eq_of_key_eq h.rows.ids hother hr heq⟩

lemma run_snoc (db : MemoryEvolutionStore T) (steps : List (EvolutionStep T))
    (s : EvolutionStep T) : db.run (steps++[s]) = (db.run steps).step s := by
  unfold MemoryEvolutionStore.run
  rw [List.foldl_append]
  rfl

def ApprovedSince (start : MemoryEvolutionStore T) (steps : List (EvolutionStep T)) (id : String) :
    Prop :=
  ∃ before s after, steps = before++s::after ∧ Approved (start.run before) s id ∧
    ∀ done rest, after = done++rest → ActiveIn (start.run (before++s::done)) id

lemma ApprovedSince.snoc {start : MemoryEvolutionStore T} {steps : List (EvolutionStep T)}
    {id : String} (h : ApprovedSince start steps id) (s : EvolutionStep T)
    (hactive : ActiveIn (start.run (steps++[s])) id) : ApprovedSince start (steps++[s]) id := by
  obtain ⟨before,approval,after,rfl,happroved,hsince⟩ := h
  refine ⟨before,approval,after++[s],by simp,happroved,fun done rest heq => ?_⟩
  rcases List.eq_nil_or_concat rest with rfl | ⟨rest',last,rfl⟩
  · rw [List.append_nil] at heq
    rw [← heq]
    simpa using hactive
  · have hsplit : after = done++rest' := by
      rw [List.concat_eq_append,← List.append_assoc] at heq
      exact (List.append_inj' heq rfl).1
    exact hsince done rest' hsplit

/-- Plans of the manager, reviews, invalidations, rollbacks and cleanups run in any order over
memories that change at will: a relation of high impact is active only since an approval whose
sources were valid, and no plan makes one active. -/
theorem active_relations_approved {start : MemoryEvolutionStore T} (hfresh : start.Fresh)
    (steps : List (EvolutionStep T)) (hbuilt : ∀ s ∈ steps, ∀ plan, s.call = .applyPlan plan → plan.Built) :
    (∀ r ∈ (start.run steps).relations, r.relationType.highImpact = true → r.state = .active →
      ApprovedSince start steps r.relationId) ∧
    ∀ before s after plan, steps = before++s::after → s.call = .applyPlan plan →
      ∀ r ∈ (start.run (before++[s])).relations, r.relationType.highImpact = true →
        r.state = .active → ActiveIn (start.run before) r.relationId := by
  have hwf : ∀ before, (start.run before).Wellformed := run_wellformed (fresh_wellformed hfresh)
  refine ⟨?_,?_⟩
  · induction steps using List.reverseRecOn with
    | nil =>
      intro r hr
      change r ∈ start.relations at hr
      rw [hfresh.1] at hr
      cases hr
    | append_singleton before s ih =>
      intro r hr himpact hactive
      have hnow := activeIn_of_mem (hwf (before++[s])) hr hactive
      rw [run_snoc] at hr
      rcases step_active (hwf before) (hbuilt s (by simp)) hr himpact hactive with
        ⟨r₀,hr₀,hid,htype,hactive₀⟩ | happroved
      · have hbefore := ih (fun s hs => hbuilt s (List.mem_append_left _ hs)) r₀ hr₀
          (by rw [htype]; exact himpact) hactive₀
        rw [hid] at hbefore
        exact hbefore.snoc s hnow
      · refine ⟨before,s,[],rfl,happroved,fun done rest heq => ?_⟩
        obtain ⟨rfl,-⟩ := List.nil_eq_append_iff.mp heq
        exact hnow
  · intro before s after plan hsteps hplan r hr himpact hactive
    rw [run_snoc] at hr
    have hmem : s ∈ steps := by rw [hsteps]; simp
    rcases step_active (hwf before) (hbuilt s hmem) hr himpact hactive with
      ⟨r₀,hr₀,hid,-,hactive₀⟩ | ⟨-,_,_,hreview,-⟩
    · rw [← hid]
      exact activeIn_of_mem (hwf before) hr₀ hactive₀
    · rw [hplan] at hreview
      cases hreview

def teaMemory : CanonicalRow ℕ where
  id := 1
  metadata := { scopeKey := some "private:user-a", privacyLevel := some "shared" }
  createdAt := some "2024-01-01"
  updatedAt := some "2024-01-01"
  explicitOccurred := some 1
  subjectKey := some "subject:user-a"

def coffeeMemory : CanonicalRow ℕ :=
  { teaMemory with
    id := 2
    createdAt := some "2024-01-02"
    updatedAt := some "2024-01-02"
    explicitOccurred := some 2 }

def conflictId : String := "relation:a6bb7e15d5eb520ea5e7e4a7"

def episodeId : String := "projection:5806ab32b997be9250448aee"

def sampleConfig : PlanConfig where
  confidenceThreshold := 7 / 10
  autoActiveRelationTypes := [.sameEpisode,.supports,.related]
  stableId := fun kind _ => if kind = "relation" then conflictId else episodeId

def conflictProposal : EvolutionProposal ℕ where
  relations := [{
    sourceAlias := "M1"
    targetAlias := "M2"
    relationType := .contradicts
    confidence := 9 / 10 }]

def conflictPlan : DerivedApplyPlan ℕ :=
  { ((sampleConfig.proposalToPlan conflictProposal
      ([teaMemory,coffeeMemory].filterMap loadSource)).toOption.getD {}) with
    originJobId := some "job-1" }

lemma conflictPlan_built : conflictPlan.Built := by
  refine ⟨sampleConfig,conflictProposal,[teaMemory,coffeeMemory].filterMap loadSource,_,
    some "job-1",?_,rfl⟩
  have hmade : (sampleConfig.proposalToPlan conflictProposal
      ([teaMemory,coffeeMemory].filterMap loadSource)).toOption.isSome = true := by decide +kernel
  cases hplan : sampleConfig.proposalToPlan conflictProposal
      ([teaMemory,coffeeMemory].filterMap loadSource) with
  | error e =>
    rw [hplan] at hmade
    exact absurd hmade (by simp [Except.toOption])
  | ok plan => rfl

def approvedRun : List (EvolutionStep ℕ) :=
  [{ call := .canonical [teaMemory,coffeeMemory], now := 1 },
   { call := .applyPlan conflictPlan, now := 2 },
   { call := .review conflictId .approve 1, now := 3 }]

theorem active_relations_approved_sample :
    ApprovedSince ({} : MemoryEvolutionStore ℕ) approvedRun conflictId := by
  have hactive : (({} : MemoryEvolutionStore ℕ).run approvedRun).relations.map
      (fun r => (r.relationId,r.relationType,r.state)) =
        [(conflictId,.contradicts,.active)] := by decide +kernel
  obtain ⟨r,hr,heq⟩ := List.mem_map.mp (hactive ▸ List.mem_singleton_self _)
  simp only [Prod.mk.injEq] at heq
  have happroved := (@active_relations_approved ℕ {} ⟨rfl,rfl,rfl,rfl⟩ approvedRun (by
      intro s hs plan hplan
      simp only [approvedRun,List.mem_cons,List.not_mem_nil,or_false] at hs
      rcases hs with rfl | rfl | rfl
      · cases hplan
      · obtain rfl : conflictPlan = plan := EvolutionCall.applyPlan.inj hplan
        exact conflictPlan_built
      · cases hplan)).1 r hr (by rw [heq.2.1]; rfl) heq.2.2
  rw [heq.1] at happroved
  exact happroved

end Memora.Evolution

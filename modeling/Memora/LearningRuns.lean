import Memora.LearningChain
import Memora.LearningWorlds

/-! Every manager's memory and every payload on disk stays sound, as long as a rollback that
falls back on an unconfirmed publish finds no publication of another candidate active. -/
namespace Memora.Learning

variable {F γ : Type*} {env : SystemEnv F γ} {o : Origin F} {m : Manager F}

structure PublishPrepared (env : LearningEnv F γ) (m : Manager F)
    (candidateId expected : String) (seen : Option (ConfigSnapshot F))
    (operationId revision now : String) (i : Intent F) (m' : Manager F) : Prop where
  free : m.operationClaims.entries = []
  prepared : ∃ s candidate, seen = some s ∧ m.candidates.get? candidateId = some candidate ∧
    s.revision = expected ∧
    i = candidate.publishIntent candidateId m.activePublicationRevision expected s operationId
      revision now ∧
    m' = m.claimIntent i (operationKey env .publish candidateId expected)

variable {candidateId expected : String}

lemma validatePublish_revision {seen : ConfigSnapshot F} {current valid : Bool}
    (h : m.validatePublish candidateId expected seen current valid = none) :
    seen.revision = expected := by
  unfold Manager.validatePublish at h
  split at h
  · cases h
  split at h
  · cases h
  split at h
  · cases h
  split at h
  · cases h
  split at h
  · cases h
  split at h
  · cases h
  split at h
  · cases h
  · rename_i hbinding
    push Not at hbinding
    exact hbinding.2.1

variable {m' : Manager F} {i : Intent F} {seen : Option (ConfigSnapshot F)}

lemma preparePublish_ok {env : LearningEnv F γ}
    {current valid : Bool} {operationId revision now : String}
    (h : m.preparePublish env candidateId expected seen current valid operationId revision now = .ok (i,m')) :
    PublishPrepared env m candidateId expected seen operationId revision now i m' := by
  unfold Manager.preparePublish at h
  dsimp only at h
  split at h
  · cases h
  split at h
  · cases h
  rename_i s
  split at h
  · cases h
  rename_i hvalid
  split at h
  · cases h
  rename_i hconflict
  split at h
  · cases h
  rename_i candidate hcandidate
  cases h
  exact ⟨claimConflict_none hconflict,s,candidate,rfl,hcandidate,
    validatePublish_revision hvalid,rfl,rfl⟩

/-- Where the source of a rollback comes from: the candidate's own active publication, or
else an unconfirmed publish of it, unless another publication is active. -/
def RollbackChoice (m : Manager F) (candidateId : String) (current : ConfigSnapshot F)
    (source : RollbackSource F) : Prop :=
  (∃ p, m.activePublication = some p ∧ p.candidateId = candidateId ∧ source = p.source) ∨
    ∃ j, m.recoverablePublishIntent candidateId none = some j ∧
    compareIntentSnapshot j current = .applied ∧
      (∀ p, m.activePublication = some p → p.candidateId ≠ candidateId) ∧
      source = (m.activePublication.map Publication.source).getD j.source

structure RollbackPrepared (env : LearningEnv F γ) (m : Manager F)
    (candidateId expected : String) (current : Option (ConfigSnapshot F))
    (operationId now : String) (i : Intent F) (m' : Manager F) : Prop where
  free : m.operationClaims.entries = []
  prepared : ∃ s source hash, current = some s ∧ RollbackChoice m candidateId s source ∧
    i = source.intent candidateId expected s hash operationId now ∧
    m' = m.claimIntent i (operationKey env .rollback candidateId expected)

variable {operationId now : String} {source : RollbackSource F} {s : ConfigSnapshot F}
  {current : Option (ConfigSnapshot F)} {p : Payload F} {ids : LegacyIds}

lemma claimRollback_prepared {env : LearningEnv F γ}
    (h : m.claimRollback env candidateId expected source s operationId now = .prepared i m') :
    ∃ hash, i = source.intent candidateId expected s hash operationId now ∧
      m' = m.claimIntent i (operationKey env .rollback candidateId expected) := by
  unfold Manager.claimRollback at h
  split at h
  · cases h
  · rename_i hash hhash
    obtain ⟨rfl,rfl⟩ := RollbackStart.prepared.inj h
    exact ⟨hash,rfl,rfl⟩

lemma claimRollback_ne_clear {env : LearningEnv F γ} {r : Response} :
    m.claimRollback env candidateId expected source s operationId now ≠ .clear r m' := by
  unfold Manager.claimRollback
  split <;> simp

lemma prepareRollback_prepared {env : LearningEnv F γ}
    (h : m.prepareRollback env candidateId expected current operationId now = .prepared i m') :
    RollbackPrepared env m candidateId expected current operationId now i m' := by
  unfold Manager.prepareRollback at h
  split at h
  · cases h
  rename_i s
  split at h
  · cases h
  split at h
  · cases h
  split at h
  · cases h
  rename_i hconflict
  split at h
  · rename_i p hp
    split at h
    · cases h
    · obtain ⟨hash,hi,hm⟩ := claimRollback_prepared h
      obtain ⟨hactive,hcand⟩ := Option.filter_eq_some_iff.mp hp
      exact ⟨claimConflict_none hconflict,s,p.source,hash,rfl,
        Or.inl ⟨p,hactive,by simpa using hcand,rfl⟩,hi,hm⟩
  · rename_i hnone
    split at h
    · cases h
    rename_i j hj
    split at h
    · cases h
    · cases h
    · rename_i happlied
      obtain ⟨hash,hi,hm⟩ := claimRollback_prepared h
      have hother : ∀ p, m.activePublication = some p → p.candidateId ≠ candidateId := by
        intro p hp hcand
        have hsome : m.activePublication.filter (fun p => p.candidateId = candidateId) = some p :=
          Option.filter_eq_some_iff.mpr ⟨hp,by simpa using hcand⟩
        exact absurd (hnone.symm.trans hsome) (by simp)
      exact ⟨claimConflict_none hconflict,s,_,hash,rfl, .inr ⟨j,hj,happlied,hother,rfl⟩,hi,hm⟩

lemma prepareRollback_clear {env : LearningEnv F γ}
    {r : Response}
    (h : m.prepareRollback env candidateId expected current operationId now = .clear r m') :
    ∃ s j, current = some s ∧ m.recoverablePublishIntent candidateId none = some j ∧
      compareIntentSnapshot j s = .notApplied ∧ m' = Manager.clearRecoveredIntent env m j r ∧
        r.action = .rollback := by
  unfold Manager.prepareRollback at h
  split at h
  · cases h
  rename_i s
  split at h
  · cases h
  split at h
  · cases h
  split at h
  · cases h
  split at h
  · split at h
    · cases h
    · exact absurd h claimRollback_ne_clear
  · split at h
    · cases h
    · rename_i j hj
      split at h
      · rename_i hcompare
        obtain ⟨rfl,rfl⟩ := RollbackStart.clear.inj h
        exact ⟨s,j,rfl,hj,hcompare,rfl,rfl⟩
      · cases h
      · exact absurd h claimRollback_ne_clear

lemma latestIntent_mem {is : List (Intent F)} {j : Intent F}
    (h : Manager.latestIntent is = some j) : j ∈ is := by
  induction is with
  | nil => exact absurd h (by simp [Manager.latestIntent])
  | cons i rest ih =>
    unfold Manager.latestIntent at h
    split at h
    · exact List.mem_cons.mpr (.inl (Option.some.inj h).symm)
    · rename_i k hk
      split at h
      · cases h
        exact List.mem_cons_of_mem _ (ih hk)
      · exact List.mem_cons.mpr (.inl (Option.some.inj h).symm)

lemma recoverablePublishIntent_some {exclude : Option String} {j : Intent F}
    (h : m.recoverablePublishIntent candidateId exclude = some j) :
    ∃ k, m.publishIntents.get? k = some j ∧ j.action = .publish ∧ j.candidateId = candidateId := by
  obtain ⟨k,hk⟩ := Dict.mem_values.mp (latestIntent_mem h)
  obtain ⟨hget,hp⟩ := Dict.get?_filter.mp hk
  simp only [Bool.and_eq_true,decide_eq_true_eq] at hp
  exact ⟨k,hget,hp.1.2,hp.2⟩

theorem Payload.Sound.fresh (h : p.Sound o) {r : String}
    (hr : o.published r = none) : p.publications.get? r = none := by
  cases hq : p.publications.get? r with
  | none => rfl
  | some q =>
    obtain ⟨hkey,⟨i₀,hi₀,-⟩,-⟩ := h.publications r q hq
    rw [hkey,hr] at hi₀
    cases hi₀

lemma sound_preparePublish {env : LearningEnv F γ}
    {operationId revision now : String} (h : m.toPayload.Sound o)
    (hfresh : o.published revision = none) (hop : o.issued operationId = none)
    (hp : PublishPrepared env m candidateId expected seen operationId revision now i m') :
    m'.toPayload.Sound (o.draw i) := by
  obtain ⟨hfree,s,candidate,-,hcandidate,-,rfl,rfl⟩ := hp
  have hgrown := h.origin (Origin.grows_draw (i := candidate.publishIntent candidateId
    m.activePublicationRevision expected s operationId revision now) hop fun _ => hfresh)
  refine sound_claimIntent hgrown hfree ?_ (Origin.draw_issued o _) ?_ ?_ ?_ _
  · exact ⟨_,Origin.draw_published o rfl,rfl,fun _ => ⟨rfl,rfl⟩,fun ha => (nomatch ha)⟩
  · exact ⟨fun _ => rfl,fun ha => (nomatch ha)⟩
  · exact Option.isSome_iff_exists.mpr ⟨candidate,hcandidate⟩
  · exact fun _ => h.fresh hfresh

def OwnRollback (env : SystemEnv F γ) (m : Manager F) (candidateId : String) (seen : γ) : Prop :=
  ∀ p j s, m.activePublication = some p → m.recoverablePublishIntent candidateId none = some j →
    env.read seen = some s → compareIntentSnapshot j s = .applied → p.candidateId = candidateId

structure OwnSource (o : Origin F) (m : Manager F) (candidateId : String)
    (source : RollbackSource F) : Prop where
  traced : ∃ i₀, o.published source.publicationRevision = some i₀ ∧ candidateId = i₀.candidateId ∧
    source.before = i₀.before
  known : (m.candidates.get? candidateId).isSome = true
  top : ∀ q, m.publications.get? source.publicationRevision = some q →
    m.activePublicationRevision = some source.publicationRevision

lemma ownSource_of_choice (h : m.toPayload.Sound o) {seen : γ}
    (hs : env.read seen = some s) (hown : OwnRollback env m candidateId seen)
    (hc : RollbackChoice m candidateId s source) :
    OwnSource o m candidateId source := by
  rcases hc with ⟨p,hp,rfl,rfl⟩ | ⟨j,hj,happlied,hother,hsource⟩
  · obtain ⟨r,hr,hget⟩ := Option.bind_eq_some_iff.mp hp
    obtain ⟨hkey,⟨i₀,hi₀,hcand,hbefore⟩,hknown⟩ := h.publications r p hget
    refine ⟨⟨i₀,hi₀,hcand,hbefore⟩,hknown,fun _ _ => ?_⟩
    change m.activePublicationRevision = some p.publicationRevision
    rw [hr,hkey]
  · obtain ⟨k,hk,hact,hcand⟩ := recoverablePublishIntent_some hj
    have hnone : m.activePublication = none := by
      cases ha : m.activePublication with
      | none => rfl
      | some p => exact absurd (hown p j s ha hj hs happlied) (hother p ha)
    rw [hnone] at hsource
    obtain rfl : source = j.source := hsource
    obtain ⟨-,⟨i₀,hi₀,hcand₀,hpub,-⟩,hknown⟩ := h.intents k j hk
    rw [hcand] at hcand₀ hknown
    refine ⟨⟨i₀,hi₀,hcand₀,(hpub hact).2⟩,hknown,fun q hq => ?_⟩
    exact absurd ((h.unpublished k j hk hact).symm.trans hq) (by simp)

lemma sound_prepareRollback {seen : γ} (h : m.toPayload.Sound o)
    (hown : OwnRollback env m candidateId seen) (hop : o.issued operationId = none)
    (hp : RollbackPrepared env.toLearningEnv m candidateId expected (env.read seen) operationId now i m') :
    m'.toPayload.Sound (o.draw i) ∧ i.Traced o := by
  obtain ⟨hfree,s,source,hash,hs,hchoice,rfl,rfl⟩ := hp
  obtain ⟨⟨i₀,hi₀,hcand,hbefore⟩,hknown,htop⟩ := ownSource_of_choice h hs hown hchoice
  have htraced : (source.intent candidateId expected s hash operationId now).Traced o :=
    ⟨i₀,hi₀,hcand,fun ha => (nomatch ha),fun _ => hbefore⟩
  have hgrows : o.Grows (o.draw (source.intent candidateId expected s hash operationId now)) :=
    Origin.grows_draw hop fun ha => (nomatch ha)
  refine ⟨sound_claimIntent (h.origin hgrows) hfree htraced (Origin.draw_issued o _) ?_ hknown
    (fun ha => (nomatch ha)) _,htraced⟩
  exact ⟨fun ha => (nomatch ha),fun _ q hq => htop q hq⟩

theorem legacy_publication_none {env : LearningEnv F γ} (raw : LegacyRecord F)
    (publicationId candidateId now : String) :
    raw.publication env publicationId candidateId now = none := by
  unfold LegacyRecord.publication
  split
  · rename_i before after hbefore hafter
    unfold LegacyRecord.weights at hafter
    split at hafter
    · rename_i hkeys
      have habsent : raw.get? "previous_document_weight" = none := by
        rw [Dict.get?_eq_none]
        intro hmem
        have hname := List.all_eq_true.mp hkeys.1 _ hmem
        exact absurd hname (by decide)
      have hother : raw.number "previous_document_weight" = .other := by
        simp [LegacyRecord.number,habsent]
      rw [hother] at hbefore
      exact absurd hbefore (by simp [FloatOps.normalizeWeights,FloatOps.normalizeWith, FloatOps.finiteWeight])
    · cases hafter
  · rfl

lemma legacy_candidates_only {env : LearningEnv F γ} {l : Legacy F}
    (h : l.migrate env ids now = some p) :
    p.publications = {} ∧ p.publishIntents = {} ∧ p.operationClaims = {} ∧ p.tombstones = {} ∧
      p.activePublicationRevision = none ∧ p.terminalOperations = {} := by
  unfold Legacy.migrate at h
  have hpub : l.published.entries = [] := by
    by_contra hne
    obtain ⟨e,es,he⟩ := List.exists_cons_of_ne_nil hne
    rw [he] at h
    simp [legacy_publication_none] at h
  have hint : l.publishIntents.entries = [] := by
    by_contra hne
    obtain ⟨e,es,he⟩ := List.exists_cons_of_ne_nil hne
    rw [hpub,he] at h
    simp [LegacyRecord.intent,legacy_publication_none] at h
  rw [hpub,hint] at h
  have hfold : ∀ es : List (String × LegacyRecord F), (fun p : Payload F =>
      p.publications = {} ∧ p.publishIntents = {} ∧ p.operationClaims = {} ∧ p.tombstones = {} ∧
        p.terminalOperations = {})
      (es.foldl (fun p e => { p with
        candidates := p.candidates.set (ids.candidate e.1) (e.2.candidate env (ids.candidate e.1) e.1 now) })
        {}) := by
    intro es
    refine RunLaws.foldl_invariant (P := fun p : Payload F => p.publications = {} ∧
      p.publishIntents = {} ∧ p.operationClaims = {} ∧ p.tombstones = {} ∧ p.terminalOperations = {}) ?_ ?_ es
    · exact fun p e hp => hp
    · exact ⟨rfl,rfl,rfl,rfl,rfl⟩
  cases h
  obtain ⟨hpubs,hints,hclaims,htombs,hanswers⟩ := hfold l.candidates.entries
  refine ⟨hpubs,hints,hclaims,htombs,?_,hanswers⟩
  rw [hpubs]
  rfl

lemma sound_legacy {env : LearningEnv F γ} {l : Legacy F} (h : l.migrate env ids now = some p) :
    p.Sound o := by
  obtain ⟨hpub,hint,hclaims,htomb,hactive,-⟩ := legacy_candidates_only h
  have hempty := Payload.sound_empty (F := F) o
  constructor
  · exact hempty.toChained.congr hpub hactive
  · rw [hclaims]
    exact hempty.one_claim
  · rw [hclaims]
    exact fun k c hk => absurd hk (by simp)
  · rw [hint]
    exact fun k i hi => absurd hi (by simp)
  · rw [hint]
    exact fun k i hi => absurd hi (by simp)
  · rw [hint]
    exact fun k i hi => absurd hi (by simp)
  · rw [hpub]
    exact fun r q hq => absurd hq (by simp)
  · rw [htomb]
    exact fun k t ht => absurd ht (by simp)

structure World.Sound (w : World F γ) : Prop where
  managers : ∀ i, (w.managers i).toPayload.Sound w.origin
  files : w.shared.files.Holds (Payload.Sound w.origin)

variable {w : World F γ} {intent : Intent F}

lemma World.Sound.all (h : w.Sound) : w.All (Payload.Sound w.origin) := ⟨h.managers,h.files⟩

lemma World.All.sound {w' : World F γ} (h : w'.All (Payload.Sound w.origin)) (hq : w.Quiet w') :
    w'.Sound := by
  rw [← hq.origin] at h
  exact ⟨h.managers,h.files⟩

lemma World.Sound.setManager (h : w.Sound) (i : ℕ) {m : Manager F}
    (hm : m.toPayload.Sound w.origin) : (w.setManager i m).Sound :=
  (h.all.setManager i hm).sound (quiet_setManager w i m)

lemma sound_saveState (h : w.Sound) (i : ℕ) (d : Draw) (fault : Option SaveFault) :
    (w.saveState env i d fault).1.Sound :=
  (all_saveState h.all i d fault).sound (quiet_saveState w i d fault)

lemma sound_commit (h : w.Sound) (i : ℕ) (d : Draw) (fault : Option SaveFault) {m : Manager F}
    {undo : Manager F → Manager F} (hm : m.toPayload.Sound w.origin)
    (hundo : (undo m).toPayload.Sound w.origin) :
    (w.commit env i d fault m undo).1.Sound :=
  (all_commit h.all i d fault hm hundo).sound (quiet_commit w i d fault m undo)

lemma steady_sound (env : SystemEnv F γ) (o : Origin F) :
    Payload.Steady env.toLearningEnv (Payload.Sound o) where
  restore _ _ _ h hp := sound_restore h hp
  interrupt _ recoveryRevision now h := sound_interruptClaims h recoveryRevision now
  legacy _ _ _ _ _ hp _ := sound_legacy hp
  reload _ _ h := h.records _ _ _

lemma sound_load (h : w.Sound) (i : ℕ) (moved : Bool) (judge : Judge F)
    (recoveryRevision : String → String) (ids : LegacyIds) (d : Draw) (fault : Option SaveFault) :
    (w.load env i moved judge recoveryRevision ids d fault).Sound :=
  (all_load (steady_sound _ _) h.all i moved judge _ ids d fault).sound
    (quiet_load w i moved judge _ ids d fault)

lemma sound_storeReload (h : w.Sound) (i : ℕ) (moved : Bool) (judge : Judge F) (d : Draw)
    (fault : Option SaveFault) (next : Manager F → Option (ReloadOperation F)) :
    (w.storeReload env i moved judge d fault next).Sound :=
  (all_storeReload (steady_sound _ _) h.all i moved judge d fault next).sound
    (quiet_storeReload w i moved judge d fault next)

lemma sound_startTask (h : w.Sound) (i : ℕ) (d : Draw) (fault : Option SaveFault)
    {m : Manager F} (hm : m.toPayload.Sound w.origin) :
    (w.startTask env i d fault intent m).Sound := by
  have hcommit : (w.commit env i d fault m fun m => m.dropOperation intent.operationId).1.Sound :=
    sound_commit h i d fault hm (hm.calm (calm_dropOperation m intent.operationId))
  unfold World.startTask
  dsimp only
  split
  · exact ⟨hcommit.managers,hcommit.files⟩
  · exact hcommit

lemma sound_finish {result : ApplyResult} {d : Draw}
    (h : m.toPayload.Sound o) : (m.finish intent result d).Sound o := by
  unfold Manager.finish
  cases intent.action with
  | publish => exact sound_finishPublish h _ result _ _
  | rollback => exact sound_finishRollback h _ result _ _ _

lemma sound_finishTask (h : w.Sound) (t : Task F) (result : ApplyResult) (d : Draw)
    (fault : Option SaveFault) : (w.finishTask env t result d fault).Sound := by
  have hfinal : ∀ (m' : Manager F) reason, m'.toPayload.Sound w.origin →
      (w.saveFinal env t.owner d fault m' t.intent.operationId t.intent.action reason).Sound :=
    fun m' _ hm' => sound_commit h t.owner d fault hm' (hm'.records _ _ _)
  have hending : ((w.managers t.owner).finish t.intent result d).Sound w.origin :=
    sound_finish (h.managers t.owner)
  unfold World.finishTask
  split
  · exact h
  · rename_i m' heq
    rw [heq] at hending
    exact hfinal m' _ hending
  · rename_i m' heq
    rw [heq] at hending
    exact hfinal m' _ hending
  · rename_i m' heq
    rw [heq] at hending
    exact sound_commit h t.owner d fault hending hending

lemma keepRecords_rebuild {record : Candidate F} {id : String} {differs : Bool}
    (h : m.rebuildCandidates record id differs = some m') : World.keepRecords m m' = m := by
  unfold Manager.rebuildCandidates at h
  split at h
  · cases h
  · cases h
    rfl

lemma keepRecords_replaceWithReferenced (h : m.replaceWithReferenced = some m') :
    World.keepRecords m m' = m := by
  unfold Manager.replaceWithReferenced at h
  split at h
  · cases h
  · cases h
    rfl

lemma keepRecords_reset {env : LearningEnv F γ} {now : ℤ} (h : m.reset env now = some m') :
    World.keepRecords m m' = m := by
  have hprune : ∀ (items : List Manager.Prunable) (k : Manager F), World.keepRecords m k = m →
      World.keepRecords m (items.foldl (fun k item =>
        { k with
          tombstones := k.tombstones.pop item.tombstoneId
          terminalOperations := k.terminalOperations.pop item.terminalOperationKey }) k) = m := by
    intro items k hk
    refine RunLaws.foldl_invariant (P := fun k => World.keepRecords m k = m) ?_ hk items
    exact fun _ _ hk => hk
  unfold Manager.reset at h
  split at h
  · cases h
  cases h
  unfold Manager.pruneTombstones
  split
  · exact rfl
  · exact hprune _ _ rfl

lemma Manager.Reviewed.sound (hm : m.Reviewed env m') (h : m.toPayload.Sound o) :
    m'.toPayload.Sound o := by
  cases hm with
  | rebuilt hm => exact sound_rebuild h hm
  | replaced hm => exact sound_replaceWithReferenced h hm
  | reset hm => exact sound_reset h hm

lemma Manager.Reviewed.keepRecords (h : m.Reviewed env m') : World.keepRecords m m' = m := by
  cases h with
  | rebuilt h => exact keepRecords_rebuild h
  | replaced h => exact keepRecords_replaceWithReferenced h
  | reset h => exact keepRecords_reset h

/-- Ids are drawn only once, and a rollback that falls back on an unconfirmed publish finds
no publication of another candidate active. -/
def StepOk (env : SystemEnv F γ) (w : World F γ) (s : LearningStep F γ) : Prop :=
  match s.call with
  | .publish _ _ _ _ _ _ =>
    w.origin.published s.draw.publicationRevision = none ∧ w.origin.issued s.draw.operationId = none
  | .rollback i candidateId _ seen =>
    w.origin.issued s.draw.operationId = none ∧ OwnRollback env (w.managers i) candidateId seen
  | _ => True

lemma World.Sound.drawn (h : w.Sound) (hgrows : w.origin.Grows (w.origin.draw i)) :
    ({ w with origin := w.origin.draw i } : World F γ).Sound where
  managers := fun j => (h.managers j).origin hgrows
  files := fun revision payload hp => (h.files revision payload hp).origin hgrows

variable [DecidableEq F] [DecidableEq γ]

lemma sound_step {s : LearningStep F γ} (hok : StepOk env w s) (h : w.Sound) :
    (w.step env s).Sound := by
  obtain ⟨call,d,fault⟩ := s
  have hsteps := step_steps env w d fault call
  generalize w.step env ⟨call,d,fault⟩ = w' at hsteps ⊢
  cases hsteps with
  | ignored => exact h
  | start i enabled =>
    have hset := h.setManager i (m := { enabled := enabled }) (Payload.sound_empty w.origin)
    exact ⟨hset.managers,hset.files⟩
  | load i moved judge recoveryRevision ids => exact sound_load h i moved judge _ ids d fault
  | @publish i _ _ _ _ _ intent _ hp =>
    obtain ⟨hfresh,hop⟩ := hok
    have hprepared := preparePublish_ok hp
    have hgrows : w.origin.Grows (w.origin.draw intent) := by
      obtain ⟨-,s,candidate,-,-,-,rfl,-⟩ := hprepared
      exact Origin.grows_draw hop fun _ => hfresh
    exact sound_startTask (h.drawn hgrows) i d fault
      (sound_preparePublish (h.managers i) hfresh hop hprepared)
  | @clear _ i _ _ _ _ m hp =>
    have hm : m.toPayload.Sound w.origin := by
      obtain ⟨-,j,-,-,-,rfl,-⟩ := prepareRollback_clear hp
      exact sound_clearRecoveredIntent (h.managers i) _ _
    exact sound_commit h i d fault hm hm
  | @rollback i _ _ _ intent _ hp =>
    obtain ⟨hop,hown⟩ := hok
    have hprepared := prepareRollback_prepared hp
    have hgrows : w.origin.Grows (w.origin.draw intent) := by
      obtain ⟨-,s,source,hash,-,-,rfl,-⟩ := hprepared
      exact Origin.grows_draw hop fun ha => by cases ha
    exact sound_startTask (h.drawn hgrows) i d fault
      (sound_prepareRollback (h.managers i) hown hop hprepared).1
  | write =>
    unfold World.writeTask
    split
    · exact h
    · exact ⟨h.managers,h.files⟩
  | finish ht result =>
    exact sound_finishTask (w := w.dropTask _) ⟨h.managers,h.files⟩ _ result d fault
  | unknown t operationId after =>
    have hm := fun reason => sound_setRecovery (h.managers t.owner) t.intent.operationId
      t.intent.action reason d.recoveryRevision d.now
    exact sound_commit (w := { w.dropTask operationId with config := after })
      ⟨h.managers,h.files⟩ t.owner d fault (hm _) (hm _)
  | cancel operationId after hm =>
    have hsound := sound_markCancelled (h.managers _) hm
    exact sound_commit (w := { w.dropTask operationId with config := after })
      ⟨h.managers,h.files⟩ _ d fault hsound hsound
  | configure | drop => exact ⟨h.managers,h.files⟩
  | review hm =>
    refine sound_commit h _ d fault (hm.sound (h.managers _)) ?_
    rw [hm.keepRecords]
    exact h.managers _
  | reload i moved judge next => exact sound_storeReload h i moved judge d fault next
  | save i => exact sound_saveState h i d fault

end Memora.Learning

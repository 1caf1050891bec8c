import Memora.LearningLinks

/-! A history relates the intents in memory, the tasks between prepare and finish and the
adapter's writes: a rollback writes the weights its publish was allowed to replace. -/
namespace Memora.Learning

variable {F γ : Type*} {env : SystemEnv F γ} {w w' : World F γ}

structure HonestPort (env : SystemEnv F γ) : Prop where
  revision : ∀ c s, env.read c = some s → s.revision = env.config.revision c
  weights : ∀ c s, env.read c = some s → env.readWeights c = some s.weights
  hash : ∀ c s, env.read c = some s → env.weightSnapshotHash s.weights = some s.weightHash
  stable : ∀ c c', env.config.revision c = env.config.revision c' →
    env.readWeights c = env.readWeights c'

structure Intent.Recorded (env : SystemEnv F γ) (i : Intent F) : Prop where
  weights : ∀ c, env.config.revision c = i.requestedRevision →
    env.readWeights c = some i.before
  hash : env.weightSnapshotHash i.before = some i.beforeWeightHash

variable {i : Intent F}

lemma HonestPort.recorded (hport : HonestPort env) {c : γ} {s : ConfigSnapshot F}
    (hs : env.read c = some s) (hrev : i.requestedRevision = s.revision)
    (hbefore : i.before = s.weights) (hhash : i.beforeWeightHash = s.weightHash) :
    i.Recorded env where
  weights := by
    intro c' hc'
    rw [hbefore,← hport.weights c s hs]
    apply hport.stable
    rw [hc',hrev,hport.revision c s hs]
  hash := by
    rw [hbefore,hhash]
    exact hport.hash c s hs

structure AppliedWrite.Faithful (env : SystemEnv F γ) (o : Origin F) (e : AppliedWrite F γ) :
    Prop where
  issued : o.issued e.intent.operationId = some e.intent
  before : env.config.revision e.before = e.intent.requestedRevision
  after : env.readWeights e.after = some e.intent.target

structure Origin.Faithful (env : SystemEnv F γ) (o : Origin F) : Prop where
  publish : ∀ k i, o.issued k = some i → i.action = .publish →
    o.published i.publicationRevision = some i
  rollback : ∀ k i, o.issued k = some i → i.action = .rollback → i.Traced o
  recorded : ∀ r i, o.published r = some i → i.Recorded env

structure World.Faithful (env : SystemEnv F γ) (w : World F γ) : Prop where
  origin : w.origin.Faithful env
  tasks : ∀ t ∈ w.tasks, w.origin.issued t.intent.operationId = some t.intent
  results : ∀ t ∈ w.tasks, ∀ r, t.result = some r → r.applied = true →
    ∃ e ∈ w.writes, e.intent = t.intent
  writes : ∀ e ∈ w.writes, e.Faithful env w.origin

lemma World.Faithful.quiet (h : w.Faithful env) (hq : w.Quiet w') : w'.Faithful env where
  origin := by
    rw [hq.origin]
    exact h.origin
  tasks := by
    intro t ht
    rw [hq.origin]
    exact h.tasks t (hq.tasks t ht)
  results := by
    intro t ht
    rw [hq.writes]
    exact h.results t (hq.tasks t ht)
  writes := by
    rw [hq.writes,hq.origin]
    exact h.writes

lemma Origin.Faithful.draw {o : Origin F} (h : o.Faithful env) (hgrows : o.Grows (o.draw i))
    (hpublish : i.action = .publish → i.Recorded env)
    (hrollback : i.action = .rollback → i.Traced o) : (o.draw i).Faithful env where
  publish := by
    intro k j hj hact
    by_cases hk : k = i.operationId
    · subst hk
      obtain rfl := Option.some.inj ((o.draw_issued i).symm.trans hj)
      exact o.draw_published hact
    · simp only [Origin.draw,Function.update_of_ne hk] at hj
      exact hgrows.published _ _ (h.publish k j hj hact)
  rollback := by
    intro k j hj hact
    have htraced : j.Traced o := by
      by_cases hk : k = i.operationId
      · subst hk
        obtain rfl := Option.some.inj ((o.draw_issued i).symm.trans hj)
        exact hrollback hact
      · simp only [Origin.draw,Function.update_of_ne hk] at hj
        exact h.rollback k j hj hact
    obtain ⟨i₀,hi₀,hrest⟩ := htraced
    exact ⟨i₀,hgrows.published _ _ hi₀,hrest⟩
  recorded := by
    intro r j hj
    cases hact : i.action with
    | rollback =>
      simp only [Origin.draw,hact] at hj
      exact h.recorded r j hj
    | publish =>
      simp only [Origin.draw,hact,Function.update_apply] at hj
      split at hj
      · cases hj
        exact hpublish hact
      · exact h.recorded r j hj

lemma World.Faithful.drawn (h : w.Faithful env) (hgrows : w.origin.Grows (w.origin.draw i))
    (hpublish : i.action = .publish → i.Recorded env)
    (hrollback : i.action = .rollback → i.Traced w.origin) :
    ({ w with origin := w.origin.draw i } : World F γ).Faithful env where
  origin := h.origin.draw hgrows hpublish hrollback
  tasks := fun t ht => hgrows.issued _ _ (h.tasks t ht)
  results := h.results
  writes := fun e he =>
    ⟨hgrows.issued _ _ (h.writes e he).issued,(h.writes e he).before,(h.writes e he).after⟩

lemma faithful_startTask (h : w.Faithful env) (i : ℕ) (d : Draw) (fault : Option SaveFault)
    {intent : Intent F} (m : Manager F)
    (hissued : w.origin.issued intent.operationId = some intent) :
    (w.startTask env i d fault intent m).Faithful env := by
  have hq : w.Quiet (w.commit env i d fault m fun m => m.dropOperation intent.operationId).1 :=
    quiet_commit w i d fault m _
  have hcommit := h.quiet hq
  unfold World.startTask
  dsimp only
  split
  · refine ⟨hcommit.origin,?_,?_,hcommit.writes⟩
    · intro t ht
      rcases List.mem_append.mp ht with ht | ht
      · exact hcommit.tasks t ht
      · obtain rfl := List.mem_singleton.mp ht
        rw [hq.origin]
        exact hissued
    · intro t ht r hr
      rcases List.mem_append.mp ht with ht | ht
      · exact hcommit.results t ht r hr
      · obtain rfl := List.mem_singleton.mp ht
        cases hr
  · exact hcommit

variable {candidateId expected : String} {fault : Option SaveFault} {d : Draw}

lemma faithful_publish (hport : HonestPort env) (h : w.Faithful env) {i : ℕ} {seen : γ}
    {current valid : Bool} (hrev : w.origin.published d.publicationRevision = none)
    (hop : w.origin.issued d.operationId = none) :
    (w.publish env i candidateId expected seen current valid d fault).Faithful env := by
  unfold World.publish
  split
  · exact h
  · rename_i intent m hp
    obtain ⟨-,s,candidate,hs,-,hexpected,rfl,rfl⟩ := preparePublish_ok hp
    have hgrows : w.origin.Grows (w.origin.draw (candidate.publishIntent candidateId
        (w.managers i).activePublicationRevision expected s d.operationId d.publicationRevision
        d.now)) := Origin.grows_draw hop fun _ => hrev
    refine faithful_startTask (h.drawn hgrows ?_ ?_) i d fault _ (Origin.draw_issued _ _)
    · exact fun _ => hport.recorded hs hexpected.symm rfl rfl
    · exact fun ha => (nomatch ha)

lemma faithful_rollback (hw : w.Sound) (h : w.Faithful env) {i : ℕ} {seen : γ}
    (hop : w.origin.issued d.operationId = none)
    (hown : OwnRollback env (w.managers i) candidateId seen) :
    (w.rollback env i candidateId expected seen d fault).Faithful env := by
  unfold World.rollback
  split
  · exact h
  · exact h
  · exact h.quiet (quiet_commit w i d fault _ _)
  · rename_i intent m hp
    have hprepared := prepareRollback_prepared hp
    have htraced := (sound_prepareRollback (hw.managers i) hown hop hprepared).2
    obtain ⟨-,s,source,hash,-,-,rfl,rfl⟩ := hprepared
    have hgrows : w.origin.Grows (w.origin.draw (source.intent candidateId expected s hash
        d.operationId d.now)) := Origin.grows_draw hop fun ha => (nomatch ha)
    refine faithful_startTask (h.drawn hgrows ?_ ?_) i d fault _ (Origin.draw_issued _ _)
    · exact fun ha => (nomatch ha)
    · exact fun _ => htraced

lemma World.Starting.faithful (h : w.Starting) : w.Faithful env where
  origin := by
    rw [h.origin]
    exact ⟨fun _ _ hi => absurd hi (by simp),fun _ _ hi => absurd hi (by simp),
      fun _ _ hi => absurd hi (by simp)⟩
  tasks := by simp [h.tasks]
  results := by simp [h.tasks]
  writes := by simp [h.writes]

/-- Only the publication of this revision and this candidate are rolled back; the direct
parent takes over, everything else is as it was. -/
structure RollbackMarks (revision candidateId now : String) (result : ApplyResult)
    (p p' : Payload F) : Prop where
  own : ∀ q, p.publications.get? revision = some q → q.candidateId = candidateId
  source : p'.publications.get? revision = (p.publications.get? revision).map fun q =>
    { q with status := .rolledBack, rolledBackAt := some now }
  parent : ∀ q r, p.publications.get? revision = some q → q.parentPublicationRevision = some r →
    p'.publications.get? r = (p.publications.get? r).map fun q => q.reactivated result now
  others : ∀ r, r ≠ revision →
    (∀ q, p.publications.get? revision = some q → q.parentPublicationRevision ≠ some r) →
    p'.publications.get? r = p.publications.get? r
  candidate : p'.candidates.get? candidateId = (p.candidates.get? candidateId).map fun c =>
    { c with status := .rolledBack, reasonCode := "rolled_back" }
  candidates : ∀ id, id ≠ candidateId → p'.candidates.get? id = p.candidates.get? id

variable {result : ApplyResult}

lemma RollbackMarks.congr {revision candidateId now : String} {p p' p'' : Payload F}
    (h : RollbackMarks revision candidateId now result p p')
    (hpubs : p''.publications = p'.publications) (hcands : p''.candidates = p'.candidates) :
    RollbackMarks revision candidateId now result p p'' := by
  constructor
  · exact h.own
  · rw [hpubs]
    exact h.source
  · rw [hpubs]
    exact h.parent
  · rw [hpubs]
    exact h.others
  · rw [hcands]
    exact h.candidate
  · rw [hcands]
    exact h.candidates

variable (m : Manager F) {operationId : String} {c : OperationClaim}

lemma get?_markCandidate (id : String) (status : CandidateStatus) (reason id' : String) :
    (m.markCandidate id status reason).candidates.get? id' =
      if id' = id then (m.candidates.get? id).map fun c => { c with status, reasonCode := reason }
      else m.candidates.get? id' := by
  unfold Manager.markCandidate
  split
  · rename_i hnone
    split
    · rename_i hid
      rw [hid,hnone]
      rfl
    · rfl
  · rename_i c hc
    rw [Dict.get?_set,hc]
    rfl

lemma rollBackIntent_records (k : String) (i : Intent F) :
    (m.rollBackIntent k i).publications = m.publications ∧
      (m.rollBackIntent k i).candidates = m.candidates := by
  unfold Manager.rollBackIntent
  split
  · exact ⟨rfl,rfl⟩
  · exact ⟨rfl,rfl⟩

lemma confirmRollback_publications (k : String) (i : Intent F) (result : ApplyResult)
    (tombstoneId now : String) : (m.confirmRollback k i result tombstoneId now).publications =
      match m.publications.get? i.publicationRevision with
      | none => m.publications
      | some q => (m.rollBackPublication k i q result tombstoneId now).publications := by
  unfold Manager.confirmRollback
  rw [markCandidate_publications]
  cases m.publications.get? i.publicationRevision with
  | none => exact (rollBackIntent_records m k i).1
  | some q => rfl

lemma get?_confirmRollback_candidates (k : String) (i : Intent F) (result : ApplyResult)
    (tombstoneId now id : String) : (m.confirmRollback k i result tombstoneId now).candidates.get?
    id =
      if id = i.candidateId then (m.candidates.get? i.candidateId).map fun c =>
        { c with status := .rolledBack, reasonCode := "rolled_back" }
      else m.candidates.get? id := by
  unfold Manager.confirmRollback
  rw [get?_markCandidate]
  cases m.publications.get? i.publicationRevision with
  | none =>
    rw [(rollBackIntent_records m k i).2]
  | some q =>
    dsimp only
    rw [rollBackPublication_eq]

lemma marks_confirmRollback {o : Origin F} {m : Manager F} (h : m.toPayload.Sound o) {k : String}
    (hc : m.Claimed k .rollback c i) (result : ApplyResult) (tombstoneId now : String) :
    RollbackMarks i.publicationRevision i.candidateId now result m.toPayload
      (m.confirmRollback k i result tombstoneId now).toPayload := by
  have hpubs := confirmRollback_publications m k i result tombstoneId now
  have hcands := get?_confirmRollback_candidates m k i result tombstoneId now
  constructor
  · intro q hq
    exact (h.linked.rollbacks k i hc.intent hc.action).2 q hq
  · rw [hpubs]
    cases hq : m.publications.get? i.publicationRevision with
    | none => simp [hq]
    | some q =>
      have hne : q.parentPublicationRevision ≠ some i.publicationRevision :=
        fun hp => parent_ne_claimed h hc hq hp rfl
      simp only [get?_rollBackPublication,if_neg hne,if_true,Option.map_some]
  · intro q r hq hr
    have hne := parent_ne_claimed h hc hq hr
    rw [hpubs,hq]
    simp only [get?_rollBackPublication,if_pos hr,if_neg hne]
  · intro r hne hparent
    rw [hpubs]
    cases hq : m.publications.get? i.publicationRevision with
    | none => rfl
    | some q => simp only [get?_rollBackPublication,if_neg (hparent q hq),if_neg hne]
  · rw [hcands,if_pos rfl]
  · intro id hid
    rw [hcands,if_neg hid]

lemma finishRollback_confirmed {m : Manager F}
    (hclaimed : m.claimedIntent operationId .rollback = some (c,i))
    (happlied : result.applied = true) (tombstoneId recoveryRevision now : String) :
    ∃ r m', m.finishRollback operationId result tombstoneId recoveryRevision now = .confirmed r m' ∧
      m'.publications = (m.confirmRollback operationId i result tombstoneId now).publications ∧
      m'.candidates = (m.confirmRollback operationId i result tombstoneId now).candidates := by
  unfold Manager.finishRollback
  rw [hclaimed]
  dsimp only
  rw [if_pos happlied]
  exact ⟨_,_,rfl,rfl,rfl⟩

variable [DecidableEq F] [DecidableEq γ]

lemma applyWeights_applied {before : γ} {target : Weights F} {outcome : WriteOutcome}
    {after : Option γ} (h : (env.applyWeights before target expected outcome after).applied = true) :
    env.refusedApply before target expected = none ∧ env.config.revision before = expected ∧
      ∃ c, after = some c ∧ env.readWeights c = some target := by
  unfold LearningEnv.applyWeights at h
  cases hr : env.refusedApply before target expected with
  | some r =>
    rw [hr,Option.getD_some] at h
    unfold LearningEnv.refusedApply at hr
    split at hr
    · cases hr
      cases h
    split at hr
    · cases hr
      cases h
    split at hr
    · cases hr
      cases h
    · cases hr
  | none =>
    rw [hr,Option.getD_none] at h
    refine ⟨rfl,?_,?_⟩
    · unfold LearningEnv.refusedApply at hr
      split at hr
      · cases hr
      split at hr
      · cases hr
      · rename_i hrev
        exact (not_not.mp hrev).symm
    · unfold LearningEnv.writtenApply at h
      split at h
      · cases h
      · cases h
      · cases h
      · rename_i c
        split at h
        · cases h
        split at h
        · rename_i hread
          exact ⟨c,rfl,hread⟩
        · cases h
      · cases h
      · rename_i c
        split at h
        · cases h
        · rename_i hchecked
          push Not at hchecked
          exact ⟨c,rfl,hchecked.2.2⟩

lemma faithful_writeTask (h : w.Faithful env) {t : Task F} (ht : t ∈ w.tasks)
    (outcome : WriteOutcome) (after : γ) (readable : Bool) :
    (w.writeTask env t outcome after readable).Faithful env := by
  unfold World.writeTask
  split
  · exact h
  dsimp only
  -- the tasks of the same operation are the same task
  have hsame : ∀ u ∈ w.tasks, u.intent.operationId = t.intent.operationId → u.intent = t.intent := by
    intro u hu hop
    have hissued := h.tasks u hu
    rw [hop,h.tasks t ht] at hissued
    exact (Option.some.inj hissued).symm
  have hmore : ∀ e ∈ w.writes, ∀ (p : Prop) [Decidable p] (e' : AppliedWrite F γ),
      e ∈ if p then w.writes++[e'] else w.writes := by
    intro e he p _ e'
    split
    · exact List.mem_append_left _ he
    · exact he
  refine ⟨h.origin,?_,?_,?_⟩
  · intro u hu
    obtain ⟨v,hv,rfl⟩ := List.mem_map.mp hu
    by_cases hop : v.intent.operationId = t.intent.operationId
    · rw [if_pos hop]
      exact h.tasks v hv
    · rw [if_neg hop]
      exact h.tasks v hv
  · intro u hu r hr happlied
    obtain ⟨v,hv,rfl⟩ := List.mem_map.mp hu
    by_cases hop : v.intent.operationId = t.intent.operationId
    · rw [if_pos hop] at hr ⊢
      cases hr
      rw [if_pos happlied]
      exact ⟨_,List.mem_append_right _ (List.mem_singleton.mpr rfl),(hsame v hv hop).symm⟩
    · rw [if_neg hop] at hr ⊢
      obtain ⟨e,he,hintent⟩ := h.results v hv r hr happlied
      exact ⟨e,hmore e he _ _,hintent⟩
  · intro e he
    by_cases happlied : (env.applyWeights w.config t.intent.target t.intent.requestedRevision
        outcome (if readable then some after else none)).applied = true
    · rw [if_pos happlied] at he
      rcases List.mem_append.mp he with he | he
      · exact h.writes e he
      · obtain rfl := List.mem_singleton.mp he
        obtain ⟨hrefused,hrev,c,hc,hread⟩ := applyWeights_applied happlied
        refine ⟨h.tasks t ht,hrev,?_⟩
        rw [hrefused]
        split at hc
        · cases hc
          exact hread
        · cases hc
    · rw [if_neg happlied] at he
      exact h.writes e he

lemma faithful_step (hport : HonestPort env) {s : LearningStep F γ} (hok : StepOk env w s)
    (hw : w.Sound) (h : w.Faithful env) : (w.step env s).Faithful env := by
  obtain ⟨call,d,fault⟩ := s
  have hdrop : ∀ operationId after, w.Quiet { w.dropTask operationId with config := after } :=
    fun operationId _ => ⟨(quiet_dropTask w operationId).tasks,rfl,rfl⟩
  have hsteps := step_steps env w d fault call
  generalize hw' : w.step env ⟨call,d,fault⟩ = w' at hsteps ⊢
  cases hsteps with
  | ignored => exact h
  | configure c => exact h.quiet ⟨fun _ ht => ht,rfl,rfl⟩
  | start i enabled => exact h.quiet ⟨fun _ ht => (List.mem_filter.mp ht).1,rfl,rfl⟩
  | load i moved judge recoveryRevision ids => exact h.quiet (quiet_load w i moved judge _ ids d fault)
  | publish => exact hw' ▸ faithful_publish hport h hok.1 hok.2
  | rollback => exact hw' ▸ faithful_rollback hw h hok.1 hok.2
  | write ht outcome after readable => exact faithful_writeTask h ht outcome after readable
  | finish ht result =>
    exact h.quiet ((quiet_dropTask w _).trans (quiet_finishTask _ _ result d fault))
  | clear | review => exact h.quiet (quiet_commit w _ d fault _ _)
  | unknown | cancel => exact h.quiet ((hdrop _ _).trans (quiet_commit _ _ d fault _ _))
  | drop operationId config => exact h.quiet (hdrop operationId config)
  | reload i moved judge next => exact h.quiet (quiet_storeReload w i moved judge d fault next)
  | save i => exact h.quiet (quiet_saveState w i d fault)

lemma faithful_run (hport : HonestPort env) (hstart : w.Starting)
    {steps : List (LearningStep F γ)}
    (hok : RunLaws.Along (World.step env) (StepOk env) w steps) :
    (w.run env steps).Sound ∧ (w.run env steps).Faithful env :=
  RunLaws.along_invariant (P := fun w : World F γ => w.Sound ∧ w.Faithful env)
    (fun _ _ hok h => ⟨sound_step hok h.1,faithful_step hport hok h.1 h.2⟩)
    ⟨hstart.sound,hstart.faithful⟩ hok

lemma marks_finish (h : w.Sound) (hf : w.Faithful env) {t : Task F}
    (ht : w.task? operationId = some t) (hact : t.intent.action = .rollback)
    (hresult : t.result = some result) (happlied : result.applied = true)
    {claimed : OperationClaim × Intent F}
    (hclaimed : (w.managers t.owner).claimedIntent operationId .rollback = some claimed) :
    RollbackMarks t.intent.publicationRevision t.intent.candidateId d.now result
    (w.managers t.owner).toPayload
      ((w.step env ⟨.finish operationId,d,fault⟩).managers t.owner).toPayload := by
  obtain ⟨c,i⟩ := claimed
  have hc := claimedIntent_some hclaimed
  -- the intent in memory is the task's
  obtain ⟨hmem,hop⟩ := task?_some ht
  obtain ⟨j,hj,hrel⟩ := (h.managers t.owner).issued operationId i hc.intent
  have hissued := hf.tasks t hmem
  rw [hop,hj] at hissued
  cases hissued
  have hrev : i.publicationRevision = t.intent.publicationRevision := by rw [hrel]
  have hcand : i.candidateId = t.intent.candidateId := by rw [hrel]
  have hmarks := marks_confirmRollback (h.managers t.owner) hc result d.tombstoneId d.now
  rw [hrev,hcand] at hmarks
  -- the step saves that memory, with a recovery record where the save is refused
  obtain ⟨r,m',hfinish,hpubs,hcands⟩ := finishRollback_confirmed hclaimed happlied
    d.tombstoneId d.recoveryRevision d.now
  have hending : ((w.dropTask operationId).managers t.owner).finish t.intent result d =
      .confirmed r m' := by
    simp only [Manager.finish,hact,hop]
    exact hfinish
  have hstep : w.step env ⟨.finish operationId,d,fault⟩ =
      (w.dropTask operationId).saveFinal env t.owner d fault m' t.intent.operationId
        t.intent.action "final_state_persistence_failed" := by
    simp only [World.step,ht,Option.elim_some,hresult,World.finishTask,hending]
  rw [hstep]
  rcases commit_payload env (w.dropTask operationId) t.owner d fault m' (fun m =>
      m.addRecoveryRecord d.recoveryRevision t.intent.operationId t.intent.action.name
        "final_state_persistence_failed" d.now) with hkept | hkept
  · exact hmarks.congr ((congrArg Payload.publications hkept).trans hpubs)
      ((congrArg Payload.candidates hkept).trans hcands)
  · exact hmarks.congr ((congrArg Payload.publications hkept).trans hpubs)
      ((congrArg Payload.candidates hkept).trans hcands)

/-- The weights an applied rollback restored: those of every configuration the publish could
replace, in particular those of the one it did replace. -/
structure World.Restored (env : SystemEnv F γ) (w : World F γ) (i : Intent F)
    (before : Weights F) : Prop where
  source : ∃ i₀, w.origin.published i.publicationRevision = some i₀ ∧
    i₀.candidateId = i.candidateId ∧
      ∀ c, env.config.revision c = i₀.requestedRevision → env.readWeights c = some before
  published : ∀ e ∈ w.writes, e.intent.action = .publish →
    e.intent.publicationRevision = i.publicationRevision → env.readWeights e.before = some before
  written : ∃ e ∈ w.writes, e.intent = i ∧ env.readWeights e.after = some before

omit [DecidableEq F] [DecidableEq γ] in
lemma restored_of_task (h : w.Faithful env) {t : Task F} (ht : t ∈ w.tasks)
    (hact : t.intent.action = .rollback) (hresult : t.result = some result)
    (happlied : result.applied = true) : ∃ before, w.Restored env t.intent before := by
  obtain ⟨i₀,hi₀,hcand,-,htarget⟩ := h.origin.rollback _ _ (h.tasks t ht) hact
  have hrecorded := h.origin.recorded _ _ hi₀
  refine ⟨i₀.before,⟨i₀,hi₀,hcand.symm,hrecorded.weights⟩,?_,?_⟩
  · intro e he hpublish hrev
    have hfrom := h.origin.publish _ _ (h.writes e he).issued hpublish
    rw [hrev,hi₀] at hfrom
    cases hfrom
    exact hrecorded.weights e.before (h.writes e he).before
  · obtain ⟨e,he,hintent⟩ := h.results t ht result hresult happlied
    refine ⟨e,he,hintent,?_⟩
    rw [(h.writes e he).after,hintent,htarget hact]

omit [DecidableEq F] in
lemma normalizeWeights_float {ops : FloatOps F} {x y : F} {n : Weights F}
    (h : ops.normalizeWeights (.float x) (.float y) = some n) : n = ⟨x,y⟩ := by
  unfold FloatOps.normalizeWeights FloatOps.normalizeWith FloatOps.finiteWeight at h
  dsimp only at h
  split at h
  · rename_i d g hd hg
    split at h
    · cases h
      split at hd
      · split at hg
        · cases hd
          cases hg
          rfl
        · cases hg
      · cases hd
    · cases h
  · cases h

omit [DecidableEq F] [DecidableEq γ] in
lemma weightSnapshotHash_injective {env : LearningEnv F γ} (hfree : CollisionFree env)
    {v w : Weights F} {hash : String} (hv : env.weightSnapshotHash v = some hash)
    (hw : env.weightSnapshotHash w = some hash) : v = w := by
  obtain ⟨n,hn,hnhash⟩ := Option.map_eq_some_iff.mp hv
  obtain ⟨k,hk,hkhash⟩ := Option.map_eq_some_iff.mp hw
  obtain rfl := normalizeWeights_float hn
  obtain rfl := normalizeWeights_float hk
  have htexts := hfree ⟨_,.inr rfl⟩ ⟨_,.inr rfl⟩ (hnhash.trans hkhash.symm)
  have hlist := congrArg String.toList htexts
  simp only [namespacedText,toList_jsonObject_pair,List.cons.injEq,true_and,
    List.append_cancel_left_eq,List.append_cancel_right_eq] at hlist
  exact weightsText_injective env.floats (String.toList_inj.mp hlist)

omit [DecidableEq F] [DecidableEq γ] in
/-- A rollback that is answered without a write: the weights of before the publish are still
in force, and neither publications nor candidates change. -/
theorem notApplied_of_clear (hport : HonestPort env) (hfree : CollisionFree env.toLearningEnv)
    (h : w.Sound) (hf : w.Faithful env) {i : ℕ} {seen : γ} {operationId now : String} {r : Response}
    {m' : Manager F}
    (hp : (w.managers i).prepareRollback env.toLearningEnv candidateId expected (env.read seen) operationId now = .clear r m') :
    (∃ i₀ revision, w.origin.published revision = some i₀ ∧ i₀.candidateId = candidateId ∧
      env.readWeights seen = some i₀.before) ∧ m'.publications = (w.managers i).publications ∧
      m'.candidates = (w.managers i).candidates := by
  obtain ⟨s,j,hs,hj,hcompare,rfl,-⟩ := prepareRollback_clear hp
  refine ⟨?_,rfl,rfl⟩
  obtain ⟨k,hk,hact,hcand⟩ := recoverablePublishIntent_some hj
  obtain ⟨j₀,hj₀,hrel⟩ := (h.managers i).issued k j hk
  have hact₀ : j₀.action = .publish := by rw [← hact,hrel]
  have hfrom := hf.origin.publish k j₀ hj₀ hact₀
  refine ⟨j₀,_,hfrom,?_,?_⟩
  · rw [← hcand,hrel]
  · have hhash : s.weightHash = j₀.beforeWeightHash := by
      have hsame : j.beforeWeightHash = j₀.beforeWeightHash := by rw [hrel]
      unfold compareIntentSnapshot at hcompare
      split at hcompare
      · rename_i heq
        exact heq.trans hsame
      · split at hcompare
        · cases hcompare
        · cases hcompare
    have hweights : s.weights = j₀.before := weightSnapshotHash_injective hfree (hport.hash seen s hs)
        (hhash ▸ (hf.origin.recorded _ _ hfrom).hash)
    rw [hport.weights seen s hs,hweights]

/-- In every run in which no rollback takes the active publication of another candidate in
place of its own unconfirmed publish: a rollback whose write was applied restored the
weights from before the publish it names, and its end marks that publication and that
candidate only, the direct parent taking over; a rollback answered as not applied finds
the weights from before its publish and marks nothing. -/
theorem rollback_restores (env : SystemEnv F γ) (hport : HonestPort env)
    (hfree : CollisionFree env.toLearningEnv) (steps : List (LearningStep F γ))
    (hstart : w.Starting) (hok : RunLaws.Along (World.step env) (StepOk env) w steps) :
    (∀ operationId t result d fault claimed,
      (w.run env steps).task? operationId = some t → t.intent.action = .rollback →
      t.result = some result → result.applied = true →
      ((w.run env steps).managers t.owner).claimedIntent operationId .rollback = some claimed →
      (∃ before, (w.run env steps).Restored env t.intent before) ∧
        RollbackMarks t.intent.publicationRevision t.intent.candidateId d.now result
          ((w.run env steps).managers t.owner).toPayload
          (((w.run env steps).step env ⟨.finish operationId,d,fault⟩).managers t.owner).toPayload) ∧
    ∀ i candidateId expected seen operationId now r m',
      ((w.run env steps).managers i).prepareRollback env.toLearningEnv candidateId expected
        (env.read seen) operationId now = .clear r m' →
      (∃ i₀ revision, (w.run env steps).origin.published revision = some i₀ ∧
        i₀.candidateId = candidateId ∧ env.readWeights seen = some i₀.before) ∧
        m'.publications = ((w.run env steps).managers i).publications ∧
        m'.candidates = ((w.run env steps).managers i).candidates := by
  obtain ⟨hsound,hfaithful⟩ := faithful_run hport hstart hok
  constructor
  · intro operationId t result d fault claimed ht hact hresult happlied hclaimed
    exact ⟨restored_of_task hfaithful (task?_some ht).1 hact hresult happlied,
      marks_finish hsound hfaithful ht hact hresult happlied hclaimed⟩
  · intro i candidateId expected seen operationId now r m' hp
    exact notApplied_of_clear hport hfree hsound hfaithful hp

lemma sampleSystem_honest : HonestPort sampleSystem where
  revision := by
    intro c s hs
    obtain ⟨hash,-,rfl⟩ := Option.map_eq_some_iff.mp hs
    rfl
  weights := by
    intro c s hs
    obtain ⟨hash,hhash,rfl⟩ := Option.map_eq_some_iff.mp hs
    obtain ⟨n,hn,-⟩ := Option.map_eq_some_iff.mp hhash
    have hread : ∀ a b : Fin 11, (tenths.normalizeWeights (.float a) (.float b)).isSome = true →
        tenths.adapterNormalizeWeights (.float a) (.float b) = some ⟨a,b⟩ := by
      decide +kernel
    obtain ⟨a,b⟩ := c
    exact hread a b (by simp [sampleLearning] at hn; simp [hn])
  hash := by
    intro c s hs
    obtain ⟨hash,hhash,rfl⟩ := Option.map_eq_some_iff.mp hs
    exact hhash
  stable := by
    intro c c' h
    rw [weightsText_injective tenths h]

def stackedRollback : List (LearningStep (Fin 11) (Weights (Fin 11))) :=
  plainRollback.take 4 ++
  [{ call := .rebuild 0 (sampleCandidate "second" ⟨6,4⟩ ⟨5,5⟩) false
     draw := { candidateId := candidateB, stateRevision := "state-revision-number-4" } },
   { call := .publish 0 candidateB (weightsText tenths ⟨6,4⟩) ⟨6,4⟩ true true
     draw := { operationId := "second-publish-operation", publicationRevision := publicationB,
               stateRevision := "state-revision-number-5" } },
   { call := .write "second-publish-operation" (.done (weightsText tenths ⟨5,5⟩) weightPaths) ⟨5,5⟩ true },
   { call := .finish "second-publish-operation"
     draw := { stateRevision := "state-revision-number-6" } },
   { call := .rollback 0 candidateB (weightsText tenths ⟨5,5⟩) ⟨5,5⟩
     draw := { operationId := "second-rollback-operation", stateRevision := "state-revision-number-7" } },
   { call := .write "second-rollback-operation" (.done (weightsText tenths ⟨6,4⟩) weightPaths) ⟨6,4⟩ true },
   { call := .finish "second-rollback-operation"
     draw := { tombstoneId := "tombstone-of-a-rollback", stateRevision := "state-revision-number-8" } }]

/-- The end of that rollback also changes the first publication, which becomes active again;
and the crossed rollback marks the candidate of one publication and the publication of the
other. -/
theorem rollback_changes_others :
    (((sampleStart.run sampleSystem (stackedRollback.take 10)).managers 0).publications.get?
        publicationA).map (·.status) = some .superseded ∧
      (((sampleStart.run sampleSystem stackedRollback).managers 0).publications.get?
        publicationA).map (·.status) = some .active ∧
      (((sampleStart.run sampleSystem stackedRollback).managers 0).publications.get?
        publicationB).map (·.status) = some .rolledBack ∧
      (((sampleStart.run sampleSystem crossedRollback).managers 0).candidates.get?
        candidateA).map (·.status) = some .rolledBack ∧
      (((sampleStart.run sampleSystem crossedRollback).managers 0).publications.get?
        publicationB).map (fun q => (q.status,q.candidateId)) = some (.rolledBack,candidateB) ∧
      (((sampleStart.run sampleSystem crossedRollback).managers 0).candidates.get?
        candidateB).map (·.status) = some .published := by
  decide +kernel

theorem rollback_restores_sample :
    ∃ t, (sampleStart.run sampleSystem (plainRollback.take 6)).task?
    "first-rollback-operation" = some t ∧
      ∃ before, (sampleStart.run sampleSystem (plainRollback.take 6)).Restored sampleSystem
        t.intent before := by
  have htask : ((sampleStart.run sampleSystem (plainRollback.take 6)).task?
      "first-rollback-operation").map (fun t => (t.owner,t.intent.action,
        t.result.map (·.applied))) = some (0,.rollback,some true) := by
    decide +kernel
  have hclaim : (((sampleStart.run sampleSystem (plainRollback.take 6)).managers 0).claimedIntent
      "first-rollback-operation" .rollback).isSome = true := by
    decide +kernel
  obtain ⟨t,ht,hfields⟩ := Option.map_eq_some_iff.mp htask
  simp only [Prod.mk.injEq] at hfields
  obtain ⟨howner,hact,hresult⟩ := hfields
  obtain ⟨result,hr,happlied⟩ := Option.map_eq_some_iff.mp hresult
  obtain ⟨claimed,hclaimed⟩ := Option.isSome_iff_exists.mp hclaim
  rw [← howner] at hclaimed
  have hok : RunLaws.Along (World.step sampleSystem) (StepOk sampleSystem) sampleStart (plainRollback.take 6) :=
    (RunLaws.along_append.mp (show RunLaws.Along _ _ _ (plainRollback.take 6 ++
      plainRollback.drop 6) from along_plainRollback)).1
  exact ⟨t,ht,((rollback_restores sampleSystem sampleSystem_honest sampleLearning_collisionFree
    _ sampleStart_starting hok).1 _ t result {} none claimed ht hact hr happlied hclaimed).1⟩

end Memora.Learning

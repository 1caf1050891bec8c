import Memora.LearningLinks
import Memora.LearningReplay

/-! What every step keeps of the answers and publications, and when a run never answers that a
rolled back publication is published. -/
namespace Memora.Learning

variable {F γ : Type*} {env : SystemEnv F γ} {w w' : World F γ} {o : Origin F}

def Pending (tasks : List (Task F)) (r : String) : Prop :=
  ∃ t ∈ tasks, t.intent.action = .publish ∧ t.intent.publicationRevision = r

def Origin.Coherent (o : Origin F) : Prop :=
  ∀ k i, o.issued k = some i →
    i.operationId = k ∧ (i.action = .publish → o.published i.publicationRevision = some i)

structure World.Traceable (env : SystemEnv F γ) (w : World F γ) : Prop where
  origin : w.origin.Coherent
  tasks : ∀ t ∈ w.tasks, w.origin.issued t.intent.operationId = some t.intent
  payloads : w.All (Payload.Traceable env.toLearningEnv w.origin (Pending w.tasks))

lemma World.All.imp {P Q : Payload F → Prop} (h : w.All P) (hPQ : ∀ p, P p → Q p) : w.All Q :=
  ⟨fun i => hPQ _ (h.managers i),fun revision payload hp => hPQ _ (h.files revision payload hp)⟩

lemma Origin.Coherent.draw {i : Intent F} (h : o.Coherent) (hop : o.issued i.operationId = none)
    (hrev : i.action = .publish → o.published i.publicationRevision = none) :
    (o.draw i).Coherent := by
  intro k j hj
  by_cases hk : k = i.operationId
  · subst hk
    rw [Origin.draw_issued] at hj
    cases hj
    exact ⟨rfl,fun hact => Origin.draw_published o hact⟩
  · have hold : o.issued k = some j := by
      simpa only [Origin.draw,Function.update_of_ne hk] using hj
    obtain ⟨hkey,hpub⟩ := h k j hold
    exact ⟨hkey,fun hact => (Origin.grows_draw hop hrev).published _ _ (hpub hact)⟩

lemma World.All.traceable {tasks : List (Task F)} (ho : o.Coherent)
    (htasks : ∀ t ∈ tasks, o.issued t.intent.operationId = some t.intent)
    (hall : w.All (Payload.Traceable env.toLearningEnv o (Pending tasks)))
    (horigin : w.origin = o) (hfewer : ∀ t ∈ w.tasks, t ∈ tasks) : w.Traceable env where
  origin := by
    rw [horigin]
    exact ho
  tasks t ht := by
    rw [horigin]
    exact htasks t (hfewer t ht)
  payloads := by
    rw [horigin]
    refine hall.imp fun p hp => hp.mono ⟨fun _ _ h => h,fun _ _ h => h⟩ fun r _ hr => ?_
    obtain ⟨t,ht,hact,hrev⟩ := hr
    exact ⟨t,hfewer t ht,hact,hrev⟩

lemma World.Traceable.quiet (h : w.Traceable env) (hq : w.Quiet w')
    (hall : w'.All (Payload.Traceable env.toLearningEnv w.origin (Pending w.tasks))) :
    w'.Traceable env :=
  hall.traceable h.origin h.tasks hq.origin hq.tasks

lemma steady_traceable (env : SystemEnv F γ) (o : Origin F) (R : String → Prop) :
    Payload.Steady env.toLearningEnv (Payload.Traceable env.toLearningEnv o R) where
  restore _ _ _ h hp := h.sheds (sheds_restore hp)
  interrupt m recoveryRevision now h := h.sheds (sheds_interruptClaims m recoveryRevision now)
  legacy l ids now p judge hp hrestored := by
    obtain ⟨hpub,hint,hclaims,-,-,hanswers⟩ := legacy_candidates_only hp
    refine ⟨fun id c hc => ?_,?_,?_,?_,?_⟩
    · unfold Payload.restore at hrestored
      split_ifs at hrestored with _ _ _ hcandidates
      · cases hrestored
      · cases hrestored
      · cases hrestored
      · cases hrestored
      · have hall : p.candidates.entries.all (fun e => isOpaqueId e.1 && e.2.candidateId = e.1) =
            true := by simpa using hcandidates
        have hentry := List.all_eq_true.mp hall _ (Dict.get?_eq_some.mp hc)
        simp only [Bool.and_eq_true,decide_eq_true_eq] at hentry
        exact hentry.2
    · rw [hint]
      exact fun k i hi => absurd hi (by simp)
    · rw [hclaims]
      exact fun k c i hc => absurd hc (by simp)
    · rw [hpub]
      exact fun r q hq => absurd hq (by simp)
    · rw [hanswers]
      exact fun k a ha => absurd ha (by simp)
  reload m r h := h.sheds (sheds_of_records m.toPayload _ _ _ (fun _ i h => ⟨i,h,rfl⟩)
    (fun _ _ h => h) fun _ _ h => .inl h)

variable {m : Manager F} {t : Task F} {intent : Intent F}

lemma traceable_commit (h : w.Traceable env) (i : ℕ) (d : Draw) (fault : Option SaveFault)
    {undo : Manager F → Manager F}
    (hm : m.toPayload.Traceable env.toLearningEnv w.origin (Pending w.tasks))
    (hundo : (undo m).toPayload.Traceable env.toLearningEnv w.origin (Pending w.tasks)) :
    (w.commit env i d fault m undo).1.Traceable env :=
  h.quiet (quiet_commit w i d fault m undo) (all_commit h.payloads i d fault hm hundo)

lemma traceable_startTask (h : w.Traceable env) (i : ℕ) (d : Draw) (fault : Option SaveFault)
    {key : String} (hop : w.origin.issued intent.operationId = none)
    (hrev : intent.action = .publish → w.origin.published intent.publicationRevision = none)
    (hkey : intent.action = .publish → key = publishKey env.toLearningEnv intent) :
    (World.startTask env { w with origin := w.origin.draw intent } i d fault intent
      ((w.managers i).claimIntent intent key)).Traceable env := by
  have hgrows := Origin.grows_draw hop hrev
  have hpayloads : w.All (Payload.Traceable env.toLearningEnv (w.origin.draw intent)
      (Pending (w.tasks++[{ owner := i, intent }]))) := by
    refine h.payloads.imp fun p hp => hp.mono hgrows fun r hr hpending => ?_
    obtain ⟨t,ht,hact,hrevision⟩ := hpending
    rcases List.mem_append.mp ht with ht | ht
    · exact ⟨t,ht,hact,hrevision⟩
    · -- the revision of the new publish was not drawn before
      obtain rfl := List.mem_singleton.mp ht
      rw [← hrevision,hrev hact] at hr
      cases hr
  have hm := traceable_claimIntent (hpayloads.managers i) (Origin.draw_issued w.origin intent) hkey
  have hclaimed : World.All (Payload.Traceable env.toLearningEnv (w.origin.draw intent)
      (Pending (w.tasks++[{ owner := i, intent }]))) { w with origin := w.origin.draw intent } :=
    ⟨hpayloads.managers,hpayloads.files⟩
  have hall : (World.commit env { w with origin := w.origin.draw intent } i d fault
      ((w.managers i).claimIntent intent key) fun m => m.dropOperation intent.operationId).1.All
        (Payload.Traceable env.toLearningEnv (w.origin.draw intent)
          (Pending (w.tasks++[{ owner := i, intent }]))) :=
    all_commit hclaimed i d fault hm (hm.sheds (sheds_dropOperation _ intent.operationId))
  have hquiet : World.Quiet { w with origin := w.origin.draw intent }
      (World.commit env { w with origin := w.origin.draw intent } i d fault
        ((w.managers i).claimIntent intent key) fun m => m.dropOperation intent.operationId).1 :=
    quiet_commit _ i d fault _ _
  have hdrawn := h.origin.draw hop hrev
  have htasks : ∀ t ∈ w.tasks++[{ owner := i, intent }],
      (w.origin.draw intent).issued t.intent.operationId = some t.intent := by
    intro t ht
    rcases List.mem_append.mp ht with ht | ht
    · exact hgrows.issued _ _ (h.tasks t ht)
    · obtain rfl := List.mem_singleton.mp ht
      exact Origin.draw_issued w.origin intent
  unfold World.startTask
  dsimp only
  split
  · refine World.All.traceable hdrawn htasks ⟨hall.managers,hall.files⟩ hquiet.origin fun t ht => ?_
    rcases List.mem_append.mp ht with ht | ht
    · exact List.mem_append_left _ (hquiet.tasks t ht)
    · exact List.mem_append_right _ ht
  · exact hall.traceable hdrawn htasks hquiet.origin fun t ht =>
      List.mem_append_left _ (hquiet.tasks t ht)

lemma traceable_finish {R : String → Prop}
    (result : ApplyResult) (d : Draw) (h : m.toPayload.Traceable env.toLearningEnv o R)
    (hissued : o.issued intent.operationId = some intent)
    (hpublished : intent.action = .publish → o.published intent.publicationRevision = some intent ∧ ¬R intent.publicationRevision) :
    (m.finish intent result d).Traceable env.toLearningEnv o R := by
  unfold Manager.finish
  cases hact : intent.action with
  | publish => exact traceable_finishPublish h hissued hpublished result _ _
  | rollback => exact traceable_finishRollback h _ result _ _ _

theorem not_pending_dropTask (h : w.Traceable env) (ht : t ∈ w.tasks)
    (hact : t.intent.action = .publish) :
    ¬Pending (w.dropTask t.intent.operationId).tasks t.intent.publicationRevision := by
  rintro ⟨t',ht',hact',hrevision⟩
  obtain ⟨hmem,hne⟩ := List.mem_filter.mp ht'
  have hpub := (h.origin _ _ (h.tasks t ht)).2 hact
  have hpub' := (h.origin _ _ (h.tasks t' hmem)).2 hact'
  rw [hrevision] at hpub'
  have hintent : t.intent = t'.intent := Option.some.inj (hpub.symm.trans hpub')
  simp [hintent] at hne

lemma traceable_dropTask (h : w.Traceable env) (operationId : String) :
    (w.dropTask operationId).Traceable env :=
  h.quiet (quiet_dropTask w operationId) ⟨h.payloads.managers,h.payloads.files⟩

lemma traceable_finishTask (h : w.Traceable env) (ht : t ∈ w.tasks)
    (result : ApplyResult) (d : Draw) (fault : Option SaveFault) :
    ((w.dropTask t.intent.operationId).finishTask env t result d fault).Traceable env := by
  have hdrop := traceable_dropTask h t.intent.operationId
  have hending := traceable_finish result d (hdrop.payloads.managers t.owner) (h.tasks t ht)
    fun hact =>
      ⟨(h.origin _ _ (h.tasks t ht)).2 hact,not_pending_dropTask h ht hact⟩
  unfold World.finishTask
  split
  · exact hdrop
  · rename_i m' heq
    rw [heq] at hending
    exact traceable_commit hdrop t.owner d fault hending (hending.sheds (sheds_addRecoveryRecord m' _ _ _ _ _))
  · rename_i m' heq
    rw [heq] at hending
    exact traceable_commit hdrop t.owner d fault hending (hending.sheds (sheds_addRecoveryRecord m' _ _ _ _ _))
  · rename_i m' heq
    rw [heq] at hending
    exact traceable_commit hdrop t.owner d fault hending hending

lemma sheds_replaceWithReferenced {m m' : Manager F} (hm : m.replaceWithReferenced = some m') :
    m.toPayload.Sheds m'.toPayload := by
  unfold Manager.replaceWithReferenced at hm
  split at hm
  · cases hm
  · cases hm
    exact sheds_dropUnreferenced m

lemma World.Traceable.same (h : w.Traceable env) (hm : w'.managers = w.managers)
    (hs : w'.shared.files = w.shared.files) (ho : w'.origin = w.origin)
    (ht : ∀ t ∈ w'.tasks, ∃ u ∈ w.tasks, u.intent = t.intent) : w'.Traceable env := by
  have htasks : ∀ t ∈ w'.tasks, t ∈ w'.tasks := fun _ h => h
  refine World.All.traceable h.origin (fun t hmem => ?_) ⟨?_,?_⟩ ho htasks
  · obtain ⟨u,hu,heq⟩ := ht t hmem
    rw [← heq]
    exact h.tasks u hu
  all_goals
    have hmono : ∀ p, Payload.Traceable env.toLearningEnv w.origin (Pending w.tasks) p →
        Payload.Traceable env.toLearningEnv w.origin (Pending w'.tasks) p := by
      refine fun p hp => hp.mono ⟨fun _ _ h => h,fun _ _ h => h⟩ fun r _ hr => ?_
      obtain ⟨t,hmem,hact,hrev⟩ := hr
      obtain ⟨u,hu,heq⟩ := ht t hmem
      exact ⟨u,hu,heq ▸ hact,heq ▸ hrev⟩
  · rw [hm]
    exact fun i => hmono _ (h.payloads.managers i)
  · rw [hs]
    exact fun revision payload hp => hmono _ (h.payloads.files revision payload hp)

variable {a : Response} {candidateId expected : String} {current valid : Bool} {c c' : Candidate F}

lemma validatePublish_fails {seen : ConfigSnapshot F}
    (h : m.validatePublish candidateId expected seen current valid = some a) : a.ok = false := by
  have hfailed : ∀ reason, failure .publish reason = a → a.ok = false := by
    rintro reason rfl
    rfl
  unfold Manager.validatePublish at h
  split at h
  · exact hfailed _ (Option.some.inj h)
  split at h
  · exact hfailed _ (Option.some.inj h)
  split at h
  · exact hfailed _ (Option.some.inj h)
  split at h
  · exact hfailed _ (Option.some.inj h)
  split at h
  · exact hfailed _ (Option.some.inj h)
  split at h
  · exact hfailed _ (Option.some.inj h)
  split at h
  · exact hfailed _ (Option.some.inj h)
  split at h
  · split at h
    · exact hfailed _ (Option.some.inj h)
    · cases h
  · cases h

lemma claimConflict_fails {action : Action} {candidateId : String}
    (h : m.claimConflict action candidateId = some a) : a.ok = false := by
  obtain ⟨c,-,rfl⟩ := Option.map_eq_some_iff.mp h
  split
  · cases action with
    | publish | rollback => rfl
  · rfl

lemma preparePublish_error {env : LearningEnv F γ}
    {seen : Option (ConfigSnapshot F)} {operationId revision now : String}
    (h : m.preparePublish env candidateId expected seen current valid operationId revision now = .error a) :
    m.terminalOperations.get? (operationKey env .publish candidateId expected) = some a ∨
    a.ok = false := by
  unfold Manager.preparePublish at h
  dsimp only at h
  split at h
  · rename_i terminal hterminal
    cases h
    exact .inl hterminal
  refine .inr ?_
  split at h
  · cases h
    rfl
  split at h
  · rename_i unavailable hunavailable
    cases h
    exact validatePublish_fails hunavailable
  split at h
  · rename_i conflict hconflict
    cases h
    exact claimConflict_fails hconflict
  split at h
  · cases h
    rfl
  · cases h

def Finish.Published (m : Manager F) (k : String) (result : ApplyResult) (now : String) :
    Finish F → Prop
  | .unclaimed a | .settled a _ | .recovery a _ => a.ok = false
  | .confirmed a m' => ∃ c i applied, m.Claimed k .publish c i ∧ a = publishedResponse k i result applied ∧
      m' = (m.confirmPublish i result applied now).completeNonApplied k c.operationKey a

lemma published_finishPublish (m : Manager F) (k : String) (result : ApplyResult)
    (recoveryRevision now : String) :
    (m.finishPublish k result recoveryRevision now).Published m k result now := by
  unfold Manager.finishPublish
  split
  · rfl
  rename_i c i hci
  split
  · rfl
  split
  · split
    · rfl
    split
    · rfl
    · rename_i applied _ _
      exact ⟨c,i,applied,claimedIntent_some hci,rfl,rfl⟩
  · split
    · rfl
    · rfl

lemma inEffect_confirmed (h : w.Traceable env) (ht : t ∈ w.tasks)
    (hact : t.intent.action = .publish) (d : Draw) (fault : Option SaveFault) {c : OperationClaim}
    {i : Intent F} {result : ApplyResult} {applied now reason : String}
    (hc : (w.managers t.owner).Claimed t.intent.operationId .publish c i) :
    ((w.dropTask t.intent.operationId).saveFinal env t.owner d fault
      (((w.managers t.owner).confirmPublish i result applied now).completeNonApplied
        t.intent.operationId c.operationKey a) t.intent.operationId t.intent.action
          reason).InEffect i.publicationRevision := by
  have hrevision := ((h.payloads.managers t.owner).origin hc (h.tasks t ht)).2.1
  have hfresh : w.InEffect i.publicationRevision := by
    refine h.payloads.imp fun p hp ⟨q,hq,_⟩ => (hp.drawn _ q hq).2 ?_
    exact ⟨t,ht,hact,hrevision.symm⟩
  have hm : ¬(((w.managers t.owner).confirmPublish i result applied now).completeNonApplied
      t.intent.operationId c.operationKey a).toPayload.RolledBack i.publicationRevision := by
    rintro ⟨q,hq,hrolled⟩
    change ((w.managers t.owner).confirmPublish i result applied now).publications.get? _ = _ at hq
    rw [get?_confirmPublish,if_pos rfl] at hq
    cases hq
    exact absurd hrolled (by simp [Intent.publication])
  have hdropped : (w.dropTask t.intent.operationId).InEffect i.publicationRevision :=
    ⟨hfresh.managers,hfresh.files⟩
  refine all_commit hdropped t.owner d fault hm ?_
  exact hm

lemma rebuild_keeps {m m' : Manager F} {record : Candidate F} {fresh : String} {differs : Bool}
    (hm : m.rebuildCandidates record fresh differs = some m')
    (hnamed : ∀ id c, m.candidates.get? id = some c → c.candidateId = id)
    (hfresh : m.candidates.get? fresh = none)
    (hsame : m.enabled = true → m.writesBlocked = false → m.operationClaims.isEmpty = true →
      ∀ c, m.findSameCandidate record.binding = some c → c.status ≠ .published ∧ c.status ≠ .rolledBack)
    {id : String} (hc : m.candidates.get? id = some c)
    (hstatus : c.status = .published ∨ c.status = .rolledBack)
    (hc' : m'.candidates.get? id = some c') : c' = c := by
  unfold Manager.rebuildCandidates at hm
  split at hm
  · cases hm
  rename_i hfree
  simp only [Bool.or_eq_true,Bool.not_eq_true',not_or,Bool.not_eq_true,Bool.not_eq_false] at hfree
  obtain ⟨⟨henabled,hwritable⟩,hclaims⟩ := hfree
  cases hm
  rw [Dict.get?_set] at hc'
  split at hc'
  · rename_i hid
    exfalso
    have hrebuilt : (m.rebuiltCandidate record fresh differs).candidateId =
        ((m.findSameCandidate record.binding).map Candidate.candidateId).getD fresh := by
      unfold Manager.rebuiltCandidate
      cases m.findSameCandidate record.binding with
      | none | some => dsimp only; split <;> rfl
    rw [hrebuilt] at hid
    cases hfind : m.findSameCandidate record.binding with
    | none =>
      rw [hfind] at hid
      have hid' : id = fresh := hid
      rw [hid',hfresh] at hc
      cases hc
    | some existing =>
      rw [hfind] at hid
      have hid' : id = existing.candidateId := hid
      obtain ⟨k,hk⟩ := Dict.mem_values.mp (List.mem_of_find?_eq_some hfind)
      rw [hid',hnamed k existing hk,hk] at hc
      obtain rfl := Option.some.inj hc
      obtain ⟨hpublished,hrolled⟩ := hsame henabled hwritable hclaims existing hfind
      rcases hstatus with hstatus | hstatus
      · exact hpublished hstatus
      · exact hrolled hstatus
  · have hkept := (Dict.get?_filter.mp hc').1
    exact Option.some.inj (hkept.symm.trans hc)

variable [DecidableEq F] [DecidableEq γ] {s : LearningStep F γ}

omit [DecidableEq F] [DecidableEq γ] in
lemma Manager.Reviewed.sheds {m m' : Manager F} (h : m.Reviewed env m') :
    m.toPayload.Sheds m'.toPayload := by
  cases h with
  | rebuilt h => exact sheds_rebuild h
  | replaced h => exact sheds_replaceWithReferenced h
  | reset h => exact sheds_reset h

lemma traceable_step (hdrawn : Drawn w s) (h : w.Traceable env) : (w.step env s).Traceable env := by
  obtain ⟨call,d,fault⟩ := s
  have hsteps := step_steps env w d fault call
  generalize w.step env ⟨call,d,fault⟩ = w' at hsteps ⊢
  cases hsteps with
  | ignored => exact h
  | configure c => exact h.same rfl rfl rfl fun t ht => ⟨t,ht,rfl⟩
  | start i enabled =>
    have hset := h.payloads.setManager i (m := { enabled := enabled }) traceable_empty
    exact World.Traceable.quiet h ⟨fun _ ht => (List.mem_filter.mp ht).1,rfl,rfl⟩ ⟨hset.managers,hset.files⟩
  | load i moved judge recoveryRevision ids =>
    exact h.quiet (quiet_load w i moved judge _ ids d fault)
      (all_load (steady_traceable env _ _) h.payloads i moved judge _ ids d fault)
  | @publish i _ _ _ _ _ _ _ hp =>
    obtain ⟨hfresh,hop⟩ := hdrawn
    obtain ⟨-,s,candidate,-,-,-,rfl,rfl⟩ := preparePublish_ok hp
    exact traceable_startTask h i d fault hop (fun _ => hfresh) fun _ => rfl
  | @clear _ i _ _ _ _ m hp =>
    have hm : m.toPayload.Traceable env.toLearningEnv w.origin (Pending w.tasks) := by
      obtain ⟨-,j,-,-,-,rfl,hact⟩ := prepareRollback_clear hp
      exact (h.payloads.managers i).sheds (sheds_clearRecoveredIntent _ j hact)
    exact traceable_commit h i d fault hm hm
  | @rollback i _ _ _ _ _ hp =>
    obtain ⟨-,s,source,hash,-,-,rfl,rfl⟩ := prepareRollback_prepared hp
    exact traceable_startTask h i d fault hdrawn (fun ha => by cases ha) fun ha => (by cases ha)
  | write =>
    unfold World.writeTask
    split
    · exact h
    · refine h.same rfl rfl rfl fun u hu => ?_
      obtain ⟨v,hv,rfl⟩ := List.mem_map.mp hu
      refine ⟨v,hv,?_⟩
      split <;> rfl
  | finish ht result => exact traceable_finishTask h ht result d fault
  | unknown t operationId after =>
    have hconfig : World.Traceable env { w.dropTask operationId with config := after } :=
      (traceable_dropTask h operationId).same rfl rfl rfl fun t ht => ⟨t,ht,rfl⟩
    have hm := fun reason => (hconfig.payloads.managers t.owner).sheds (sheds_setRecovery _
      t.intent.operationId t.intent.action reason d.recoveryRevision d.now)
    exact traceable_commit hconfig t.owner d fault (hm _) (hm _)
  | cancel operationId after hm =>
    have hconfig : World.Traceable env { w.dropTask operationId with config := after } :=
      (traceable_dropTask h operationId).same rfl rfl rfl fun t ht => ⟨t,ht,rfl⟩
    have hcancelled := (hconfig.payloads.managers _).sheds (sheds_markCancelled hm)
    exact traceable_commit hconfig _ d fault hcancelled hcancelled
  | drop operationId config =>
    exact (traceable_dropTask h operationId).same rfl rfl rfl fun t ht => ⟨t,ht,rfl⟩
  | @review _ i _ hm =>
    refine traceable_commit h i d fault ((h.payloads.managers i).sheds hm.sheds) ?_
    rw [hm.keepRecords]
    exact h.payloads.managers i
  | reload i moved judge next =>
    exact h.quiet (quiet_storeReload w i moved judge d fault next)
      (all_storeReload (steady_traceable env _ _) h.payloads i moved judge d fault next)
  | save i => exact h.quiet (quiet_saveState w i d fault) (all_saveState h.payloads i d fault)

lemma rebuild_honest (hdrawn : Drawn w s)
    (hcond : Unrepeated env.toLearningEnv w s) (h : w.Traceable env) {i : ℕ}
    (hi : s.call.Rebuilds i) {id : String}
    (hc : (w.managers i).candidates.get? id = some c)
    (hstatus : c.status = .published ∨ c.status = .rolledBack)
    (hc' : ((w.step env s).managers i).candidates.get? id = some c') : c' = c := by
  obtain ⟨call,d,fault⟩ := s
  have hsame : ∀ {p : Payload F}, p.candidates = (w.managers i).candidates →
      p.candidates.get? id = some c' → c' = c := by
    intro p hp hget
    rw [hp] at hget
    exact Option.some.inj (hget.symm.trans hc)
  have hcommit : ∀ {m : Manager F}, World.keepRecords (w.managers i) m = w.managers i →
      ((w.commit env i d fault m (World.keepRecords (w.managers i))).1.managers
        i).candidates.get? id = some c' → c' = c ∨ m.candidates.get? id = some c' := by
    intro m hback hget
    rcases commit_payload env w i d fault m (World.keepRecords (w.managers i)) with hp | hp
    · refine .inr ?_
      rwa [hp] at hget
    · rw [hback] at hp
      exact .inl (hsame (congrArg Payload.candidates hp) hget)
  cases call with
  | rebuild j record differs =>
    obtain rfl : j = i := hi
    simp only [World.step] at hc'
    cases hm : (w.managers j).rebuildCandidates record d.candidateId differs with
    | none =>
      rw [hm] at hc'
      exact hsame rfl hc'
    | some m =>
      rw [hm] at hc'
      rcases hcommit (keepRecords_rebuild hm) hc' with heq | hnew
      · exact heq
      · exact rebuild_keeps hm (h.payloads.managers j).named hdrawn hcond hc hstatus hnew
  | replaceWithReferenced j =>
    obtain rfl : j = i := hi
    simp only [World.step] at hc'
    cases hm : (w.managers j).replaceWithReferenced with
    | none =>
      rw [hm] at hc'
      exact hsame rfl hc'
    | some m =>
      rw [hm] at hc'
      rcases hcommit (keepRecords_replaceWithReferenced hm) hc' with heq | hnew
      · exact heq
      · unfold Manager.replaceWithReferenced at hm
        split at hm
        · cases hm
        · cases hm
          exact Option.some.inj ((Dict.get?_filter.mp hnew).1.symm.trans hc)
  | _ => exact False.elim hi

lemma publish_honest (hcond : Unrepeated env.toLearningEnv w s)
    (h : w.Traceable env) (ha : w.publishAnswer env s = some a) (hact : a.action = .publish)
    (hok : a.ok = true) :
    ∃ r, a.publicationRevision = some r ∧ (w.step env s).InEffect r := by
  have hfails : ∀ {b : Response}, some b = some a → b.ok = false →
      ∃ r, a.publicationRevision = some r ∧ (w.step env s).InEffect r := by
    intro b hb hno
    cases hb
    exact absurd (hno.symm.trans hok) (by simp)
  obtain ⟨call,d,fault⟩ := s
  cases call with
  | publish i candidateId expected seen current valid =>
    simp only [World.publishAnswer] at ha
    split at ha
    · rename_i answer hp
      rcases preparePublish_error hp with hterminal | hno
      · obtain rfl := Option.some.inj ha
        -- the answer is the cached one, and its publication is still in effect
        obtain ⟨r,intent,hr,hpublished,hkey⟩ := (h.payloads.managers i).answers _ _ hterminal hact hok
        refine ⟨r,hr,?_⟩
        simp only [World.step,World.publish,hp]
        exact hcond answer hterminal hok r intent hpublished hkey
      · exact hfails ha hno
    · split at ha
      · exact hfails ha rfl
      · cases ha
  | finish operationId =>
    obtain ⟨t,ht,ha⟩ := Option.bind_eq_some_iff.mp ha
    obtain ⟨result,hresult,ha⟩ := Option.bind_eq_some_iff.mp ha
    obtain ⟨hmem,rfl⟩ := task?_some ht
    split at ha
    swap
    · cases ha
    rename_i hpublish
    have hending : ((w.managers t.owner).finish t.intent result d).Published (w.managers t.owner)
        t.intent.operationId result d.now := by
      unfold Manager.finish
      rw [hpublish]
      exact published_finishPublish _ _ _ _ _
    split at ha
    · rename_i answer heq
      rw [heq] at hending
      exact hfails ha hending
    · rename_i answer m heq
      rw [heq] at hending
      exact hfails ha hending
    · rename_i answer m heq
      rw [heq] at hending
      exact hfails ha hending
    · rename_i answer m heq
      rw [heq] at hending
      obtain ⟨c,i,applied,hc,rfl,rfl⟩ := hending
      split at ha
      · cases ha
        refine ⟨i.publicationRevision,rfl,?_⟩
        simp only [World.step,ht,hresult,Option.elim_some,World.finishTask]
        have hmanagers : (w.dropTask t.intent.operationId).managers = w.managers := rfl
        rw [hmanagers,heq]
        exact inEffect_confirmed h hmem hpublish d fault hc
      · exact hfails ha rfl
      · cases ha
  | unknown operationId after =>
    obtain ⟨t,ht,ha⟩ := Option.bind_eq_some_iff.mp ha
    split at ha
    · exact hfails ha rfl
    · cases ha
  | _ => exact absurd ha (by simp [World.publishAnswer])

omit [DecidableEq F] [DecidableEq γ] in
lemma World.Starting.traceable (h : w.Starting) : w.Traceable env where
  origin := by
    rw [h.origin]
    exact fun _ _ hi => absurd hi (by simp)
  tasks := by simp [h.tasks]
  payloads := h.all traceable_empty

/-- In every run of any number of managers, with crashes, failed saves and reloads: as long as
no answered publish is asked for again after a rollback and no rebuild recomputes a published
or rolled back candidate, rebuilds keep the status of those candidates and every answer that
something is published names a publication in effect. -/
theorem answers_in_effect (env : SystemEnv F γ) (steps : List (LearningStep F γ))
    (hstart : w.Starting) (hdrawn : RunLaws.Along (World.step env) Drawn w steps)
    (hcond : RunLaws.Along (World.step env) (Unrepeated env.toLearningEnv) w steps) :
    RunLaws.Along (World.step env) (World.Honest env) w steps := by
  refine RunLaws.along_imp (P := World.Traceable env) (fun _ _ hok h => traceable_step hok.1 h)
    (fun w s hok h => ?_) hstart.traceable (RunLaws.along_and hdrawn hcond)
  obtain ⟨hd,hc⟩ := hok
  refine ⟨fun i hi id c c' hget hstatus hget' => ?_,fun a ha hact hok => ?_⟩
  · rw [rebuild_honest hd hc h hi hget hstatus hget']
  · exact publish_honest hc h ha hact hok

lemma drawn_plainRollback : RunLaws.Along (World.step sampleSystem) Drawn sampleStart
    plainRollback := by
  refine ⟨?_,⟨?_,?_⟩,trivial,trivial,?_,trivial,trivial,trivial⟩
  · rfl
  · rfl
  · rfl
  · change (sampleStart.run sampleSystem (plainRollback.take 4)).origin.issued "first-rollback-operation" = none
    decide +kernel

lemma unrepeated_plainRollback : RunLaws.Along (World.step sampleSystem)
    (Unrepeated sampleSystem.toLearningEnv) sampleStart plainRollback := by
  refine ⟨?_,?_,trivial,trivial,trivial,trivial,trivial,trivial⟩
  · intro _ _ _ c hc
    exact absurd hc (by simp [Manager.findSameCandidate,sampleStart,Dict.values])
  · intro a ha
    have hnone : ((sampleStart.run sampleSystem (plainRollback.take 1)).managers 0).terminalOperations.get?
          (operationKey sampleLearning .publish candidateA (weightsText tenths ⟨7,3⟩)) = none := by
      decide +kernel
    exact absurd (hnone.symm.trans ha) (by simp)

theorem answers_in_effect_sample :
    RunLaws.Along (World.step sampleSystem) (World.Honest sampleSystem) sampleStart plainRollback ∧
      (World.publishAnswer sampleSystem (sampleStart.run sampleSystem (plainRollback.take 3))
        { call := .finish "first-publish-operation"
          draw := { stateRevision := "state-revision-number-3" } }).map (·.ok) = some true :=
  ⟨answers_in_effect sampleSystem plainRollback sampleStart_starting drawn_plainRollback
    unrepeated_plainRollback,by decide +kernel⟩

def publishAgain : LearningStep (Fin 11) (Weights (Fin 11)) where
  call := .publish 0 candidateA (weightsText tenths ⟨7,3⟩) ⟨7,3⟩ true true
  draw := { operationId := "other-publish-operation", publicationRevision :=
    "other-publication-revision",
            stateRevision := "state-revision-number-6" }

def rebuildAgain : LearningStep (Fin 11) (Weights (Fin 11)) where
  call := .rebuild 0 (sampleCandidate "first" ⟨7,3⟩ ⟨6,4⟩) false
  draw := { candidateId := "candidate-of-the-rebuild", stateRevision := "state-revision-number-6" }

/-- After its rollback a publication is still answered as published, and a rebuild makes its
candidate ready for review again. -/
theorem rolled_back_answered_again : sampleStart.Starting ∧
      RunLaws.Along (World.step sampleSystem) Drawn sampleStart (plainRollback++[publishAgain]) ∧
      RunLaws.Along (World.step sampleSystem) Drawn sampleStart (plainRollback++[rebuildAgain]) ∧
      ¬World.Honest sampleSystem (sampleStart.run sampleSystem plainRollback) publishAgain ∧
      ¬World.Honest sampleSystem (sampleStart.run sampleSystem plainRollback) rebuildAgain := by
  refine ⟨sampleStart_starting,?_,?_,fun h => ?_,fun h => ?_⟩
  · refine RunLaws.along_append.mpr ⟨drawn_plainRollback,⟨?_,?_⟩,trivial⟩
    · change (sampleStart.run sampleSystem plainRollback).origin.published "other-publication-revision" = none
      decide +kernel
    · change (sampleStart.run sampleSystem plainRollback).origin.issued "other-publish-operation" = none
      decide +kernel
  · refine RunLaws.along_append.mpr ⟨drawn_plainRollback,?_,trivial⟩
    change ((sampleStart.run sampleSystem plainRollback).managers 0).candidates.get?
      "candidate-of-the-rebuild" = none
    decide +kernel
  · have hanswer : ((sampleStart.run sampleSystem plainRollback).publishAnswer sampleSystem
        publishAgain).map (fun a => (a.action,a.ok,a.publicationRevision)) =
          some (.publish,true,some publicationA) := by
      decide +kernel
    obtain ⟨a,ha,hfields⟩ := Option.map_eq_some_iff.mp hanswer
    obtain ⟨hact,hrest⟩ := Prod.mk.inj hfields
    obtain ⟨hok,hrevision⟩ := Prod.mk.inj hrest
    obtain ⟨r,hr,heffect⟩ := h.publish a ha hact hok
    obtain rfl : publicationA = r := Option.some.inj (hrevision.symm.trans hr)
    have hrolled : ((((sampleStart.run sampleSystem plainRollback).step sampleSystem
        publishAgain).managers 0).publications.get? publicationA).map (·.status) = some .rolledBack := by
      decide +kernel
    obtain ⟨q,hq,hstatus⟩ := Option.map_eq_some_iff.mp hrolled
    exact heffect.managers 0 ⟨q,hq,hstatus⟩
  · have hbefore : (((sampleStart.run sampleSystem plainRollback).managers 0).candidates.get?
        candidateA).map (·.status) = some .rolledBack := by
      decide +kernel
    have hafter : ((((sampleStart.run sampleSystem plainRollback).step sampleSystem
        rebuildAgain).managers 0).candidates.get? candidateA).map (·.status) = some .readyForReview := by
      decide +kernel
    obtain ⟨c,hc,hstatus⟩ := Option.map_eq_some_iff.mp hbefore
    obtain ⟨c',hc',hstatus'⟩ := Option.map_eq_some_iff.mp hafter
    have hkept := h.rebuild 0 rfl candidateA c c' hc (.inr hstatus) hc'
    rw [hstatus,hstatus'] at hkept
    cases hkept

end Memora.Learning

import Memora.LearningRuns

/-! A publish that has ended is answered from its record, and a rebuild computes the candidates
afresh. A payload names each answer by the publish it was given for, and each publication by an
id that was drawn. -/
namespace Memora.Learning

variable {F γ : Type*}

/-- The answer a publish call returns at a step; none while it goes on, and where it raises. -/
def World.publishAnswer (env : SystemEnv F γ) (w : World F γ) (s : LearningStep F γ) :
    Option Response :=
  match s.call with
  | .publish i candidateId expected seen current valid =>
    match (w.managers i).preparePublish env.toLearningEnv candidateId expected (env.read seen)
        current valid s.draw.operationId s.draw.publicationRevision s.draw.now with
    | .error answer => some answer
    | .ok (intent,m) =>
      if (w.commit env i s.draw s.fault m fun m => m.dropOperation intent.operationId).2 = .refused
      then some (failure .publish "learning_state_persistence_failed")
      else none
  | .finish operationId =>
    (w.task? operationId).bind fun t => t.result.bind fun result =>
      if t.intent.action = .publish then
        match (w.managers t.owner).finish t.intent result s.draw with
        | .unclaimed answer | .settled answer _ | .recovery answer _ => some answer
        | .confirmed answer m =>
          match ((w.dropTask operationId).commit env t.owner s.draw s.fault m fun m =>
              m.addRecoveryRecord s.draw.recoveryRevision operationId t.intent.action.name
                "final_state_persistence_failed" s.draw.now).2 with
          | .stored => some answer
          | .refused => some { failure .publish "learning_publish_recovery_required" with
              recoveryRequired := true
              configApplied := true
              appliedRevision := result.appliedRevision }
          | .raised => none
      else none
  | .unknown operationId _ =>
    (w.task? operationId).bind fun t =>
      if t.intent.action = .publish then
        some { failure .publish "learning_publish_recovery_required" with recoveryRequired := true }
      else none
  | _ => none

def Payload.RolledBack (r : String) (p : Payload F) : Prop :=
  ∃ q, p.publications.get? r = some q ∧ q.status = .rolledBack

def World.InEffect (w : World F γ) (r : String) : Prop := w.All fun p => ¬p.RolledBack r

def LearningCall.Rebuilds (i : ℕ) : LearningCall F γ → Prop
  | .rebuild j _ _ | .replaceWithReferenced j => j = i
  | _ => False

variable [DecidableEq F] [DecidableEq γ]

structure World.Honest (env : SystemEnv F γ) (w : World F γ) (s : LearningStep F γ) : Prop where
  rebuild : ∀ i, s.call.Rebuilds i → ∀ id c c', (w.managers i).candidates.get? id = some c →
    c.status = .published ∨ c.status = .rolledBack →
    ((w.step env s).managers i).candidates.get? id = some c' → c'.status = c.status
  publish : ∀ a, w.publishAnswer env s = some a → a.action = .publish → a.ok = true →
    ∃ r, a.publicationRevision = some r ∧ (w.step env s).InEffect r

omit [DecidableEq F] [DecidableEq γ]

def publishKey (env : LearningEnv F γ) (i : Intent F) : String :=
  operationKey env .publish i.candidateId i.requestedRevision

def Drawn (w : World F γ) (s : LearningStep F γ) : Prop :=
  match s.call with
  | .publish .. => w.origin.published s.draw.publicationRevision = none ∧
      w.origin.issued s.draw.operationId = none
  | .rollback .. => w.origin.issued s.draw.operationId = none
  | .rebuild i .. => (w.managers i).candidates.get? s.draw.candidateId = none
  | _ => True

def Unrepeated (env : LearningEnv F γ) (w : World F γ) (s : LearningStep F γ) : Prop :=
  match s.call with
  | .publish i candidateId expected .. => ∀ a, (w.managers i).terminalOperations.get?
      (operationKey env .publish candidateId expected) = some a → a.ok = true →
      ∀ r intent, w.origin.published r = some intent →
        publishKey env intent = operationKey env .publish candidateId expected → w.InEffect r
  | .rebuild i record _ => (w.managers i).enabled = true → (w.managers i).writesBlocked = false →
      (w.managers i).operationClaims.isEmpty = true →
      ∀ c, (w.managers i).findSameCandidate record.binding = some c →
        c.status ≠ .published ∧ c.status ≠ .rolledBack
  | _ => True

/-- What a payload keeps so that answers can be traced; `R` are the publications under way. -/
structure Payload.Traceable (env : LearningEnv F γ) (o : Origin F) (R : String → Prop)
    (p : Payload F) : Prop where
  named : ∀ id c, p.candidates.get? id = some c → c.candidateId = id
  issued : ∀ k i, p.publishIntents.get? k = some i → ∃ j, o.issued k = some j ∧ j.Relabels i
  claims : ∀ k c i, p.operationClaims.get? k = some c → p.publishIntents.get? k = some i →
    i.action = .publish → c.operationKey = publishKey env i
  drawn : ∀ r q, p.publications.get? r = some q → (o.published r).isSome = true ∧ ¬R r
  answers : ∀ k a, p.terminalOperations.get? k = some a → a.action = .publish → a.ok = true →
    ∃ r i, a.publicationRevision = some r ∧ o.published r = some i ∧ publishKey env i = k

variable {env : LearningEnv F γ} {o o' : Origin F} {R R' : String → Prop} {p p' : Payload F}
  {m m' : Manager F} {a : Response} {publications : Dict String (Publication F)} {i : Intent F}
  {k : String}
  {c : OperationClaim}

lemma traceable_empty : ({} : Payload F).Traceable env o R where
  named := by simp
  issued := by simp
  claims := by simp
  drawn := by simp
  answers := by simp

lemma Payload.Traceable.mono (h : p.Traceable env o R) (ho : o.Grows o')
    (hR : ∀ r, (o.published r).isSome = true → R' r → R r) : p.Traceable env o' R' where
  named := h.named
  issued k i hi := by
    obtain ⟨j,hj,hrel⟩ := h.issued k i hi
    exact ⟨j,ho.issued _ _ hj,hrel⟩
  claims := h.claims
  drawn r q hq := by
    obtain ⟨hsome,hnot⟩ := h.drawn r q hq
    refine ⟨?_,fun hr => hnot (hR r hsome hr)⟩
    obtain ⟨i,hi⟩ := Option.isSome_iff_exists.mp hsome
    rw [ho.published r i hi]
    rfl
  answers k a ha hact hok := by
    obtain ⟨r,i,hr,hi,hkey⟩ := h.answers k a ha hact hok
    exact ⟨r,i,hr,ho.published _ _ hi,hkey⟩

/-- Records go, are relabelled or renamed to their key; new answers are about no publication. -/
structure Payload.Sheds (p p' : Payload F) : Prop where
  candidates : ∀ id c', p'.candidates.get? id = some c' → c'.candidateId = id ∨
    ∃ c, p.candidates.get? id = some c ∧ c'.candidateId = c.candidateId
  intents : ∀ k i', p'.publishIntents.get? k = some i' →
    ∃ i, p.publishIntents.get? k = some i ∧ i.Relabels i'
  claims : ∀ k c, p'.operationClaims.get? k = some c → p.operationClaims.get? k = some c
  publications : ∀ r q', p'.publications.get? r = some q' → ∃ q, p.publications.get? r = some q
  answers : ∀ k a, p'.terminalOperations.get? k = some a → p.terminalOperations.get? k = some a ∨
    a.action = .rollback ∨ a.ok = false

lemma Intent.Relabels.fields (env : LearningEnv F γ) {i i' : Intent F} (h : i.Relabels i') :
    i'.action = i.action ∧ i'.publicationRevision = i.publicationRevision ∧
      publishKey env i' = publishKey env i := by
  rw [h]
  exact ⟨rfl,rfl,rfl⟩

lemma Payload.Traceable.sheds (h : p.Traceable env o R) (hs : p.Sheds p') :
    p'.Traceable env o R where
  named id c' hc' := by
    rcases hs.candidates id c' hc' with hid | ⟨c,hc,hid⟩
    · exact hid
    · rw [hid]
      exact h.named id c hc
  issued k i' hi' := by
    obtain ⟨i,hi,hrel⟩ := hs.intents k i' hi'
    obtain ⟨j,hj,hji⟩ := h.issued k i hi
    exact ⟨j,hj,hji.trans hrel⟩
  claims k c i' hc hi' hact := by
    obtain ⟨i,hi,hrel⟩ := hs.intents k i' hi'
    obtain ⟨haction,-,hkey⟩ := hrel.fields env
    rw [hkey]
    exact h.claims k c i (hs.claims k c hc) hi (haction ▸ hact)
  drawn r q' hq' := by
    obtain ⟨q,hq⟩ := hs.publications r q' hq'
    exact h.drawn r q hq
  answers k a ha hact hok := by
    rcases hs.answers k a ha with hold | hroll | hno
    · exact h.answers k a hold hact hok
    · exact absurd (hroll.symm.trans hact) (by simp)
    · exact absurd (hno.symm.trans hok) (by simp)

lemma Payload.Sheds.refl (p : Payload F) : p.Sheds p where
  candidates _ c h := .inr ⟨c,h,rfl⟩
  intents _ i h := ⟨i,h,rfl⟩
  claims _ _ h := h
  publications _ q h := ⟨q,h⟩
  answers _ _ h := .inl h

lemma Payload.Sheds.trans {p₁ p₂ p₃ : Payload F} (h : p₁.Sheds p₂) (h' : p₂.Sheds p₃) :
    p₁.Sheds p₃ where
  candidates id c hc := by
    rcases h'.candidates id c hc with hid | ⟨c₂,hc₂,hid⟩
    · exact .inl hid
    · rcases h.candidates id c₂ hc₂ with hid₂ | ⟨c₁,hc₁,hid₁⟩
      · exact .inl (hid.trans hid₂)
      · exact .inr ⟨c₁,hc₁,hid.trans hid₁⟩
  intents k i hi := by
    obtain ⟨i₂,hi₂,hrel⟩ := h'.intents k i hi
    obtain ⟨i₁,hi₁,hrel₁⟩ := h.intents k i₂ hi₂
    exact ⟨i₁,hi₁,hrel₁.trans hrel⟩
  claims k c hc := h.claims k c (h'.claims k c hc)
  publications r q hq := by
    obtain ⟨q₂,hq₂⟩ := h'.publications r q hq
    exact h.publications r q₂ hq₂
  answers k a ha := by
    rcases h'.answers k a ha with hold | hnew
    · exact h.answers k a hold
    · exact .inr hnew

lemma sheds_of_records {intents : Dict String (Intent F)} {claims : Dict String OperationClaim}
    {answers : Dict String Response} (p : Payload F) (tombstones : Dict String Tombstone)
    (recovery : Dict String RecoveryRecord) (reload : Option (ReloadOperation F))
    (hi : ∀ k i', intents.get? k = some i' →
      ∃ i, p.publishIntents.get? k = some i ∧ i.Relabels i')
    (hc : ∀ k c, claims.get? k = some c → p.operationClaims.get? k = some c)
    (ha : ∀ k a, answers.get? k = some a → p.terminalOperations.get? k = some a ∨
      a.action = .rollback ∨ a.ok = false) :
    p.Sheds { p with
      publishIntents := intents
      operationClaims := claims
      terminalOperations := answers
      tombstones := tombstones
      recoveryRecords := recovery
      reloadOperation := reload } where
  candidates _ c h := .inr ⟨c,h,rfl⟩
  intents := hi
  claims := hc
  publications _ q h := ⟨q,h⟩
  answers := ha

lemma sheds_dropOperation (m : Manager F) (k : String) :
    m.toPayload.Sheds (m.dropOperation k).toPayload :=
  sheds_of_records m.toPayload _ _ _ (fun _ i h => ⟨i,(Dict.get?_pop.mp h).1,rfl⟩)
    (fun _ _ h => (Dict.get?_pop.mp h).1) fun _ _ h => .inl h

lemma sheds_answer (m : Manager F) (key : String) (ha : a.action = .rollback ∨ a.ok = false) :
    m.toPayload.Sheds
      { m.toPayload with terminalOperations := m.terminalOperations.set key a } := by
  refine sheds_of_records m.toPayload _ _ _ (fun _ i h => ⟨i,h,rfl⟩) (fun _ _ h => h)
    fun k b hb => ?_
  rw [Dict.get?_set] at hb
  split at hb
  · cases hb
    exact .inr ha
  · exact .inl hb

lemma sheds_completeNonApplied (m : Manager F) (k key : String)
    (ha : a.action = .rollback ∨ a.ok = false) :
    m.toPayload.Sheds (m.completeNonApplied k key a).toPayload :=
  (sheds_dropOperation m k).trans (sheds_answer (m.dropOperation k) key ha)

lemma sheds_needsRecovery (m : Manager F) (k : String) (reason : Option String) :
    m.toPayload.Sheds (m.needsRecovery k reason).toPayload := by
  unfold Manager.needsRecovery
  split
  · exact .refl _
  · rename_i i hi
    refine sheds_of_records m.toPayload _ _ _ (fun k' i' hi' => ?_) (fun _ _ h => h)
      fun _ _ h => .inl h
    rw [Dict.get?_set] at hi'
    split at hi'
    · rename_i hk
      cases hi'
      exact ⟨i,hk ▸ hi,rfl⟩
    · exact ⟨i',hi',rfl⟩

lemma sheds_addRecoveryRecord (m : Manager F) (rev k action reason now : String) :
    m.toPayload.Sheds (m.addRecoveryRecord rev k action reason now).toPayload :=
  sheds_of_records m.toPayload _ _ _ (fun _ i h => ⟨i,h,rfl⟩) (fun _ _ h => h) fun _ _ h => .inl h

lemma sheds_popClaim (m : Manager F) (k : String) : m.toPayload.Sheds
    { m.toPayload with operationClaims := m.operationClaims.pop k } :=
  sheds_of_records m.toPayload _ _ _ (fun _ i h => ⟨i,h,rfl⟩) (fun _ _ h => (Dict.get?_pop.mp h).1)
    fun _ _ h => .inl h

lemma sheds_setRecovery (m : Manager F) (k : String) (a : Action) (reason rev now : String) :
    m.toPayload.Sheds (m.setRecovery k a reason rev now).toPayload :=
  ((sheds_needsRecovery m k (some reason)).trans (sheds_popClaim _ k)).trans
    (sheds_addRecoveryRecord { m.needsRecovery k (some reason) with
      operationClaims := (m.needsRecovery k (some reason)).operationClaims.pop k } rev k a.name reason now)

lemma sheds_markCancelled {k rev now : String} (hm : m.markCancelled k rev now = some m') :
    m.toPayload.Sheds m'.toPayload := by
  obtain ⟨i,-,rfl⟩ := Option.map_eq_some_iff.mp hm
  exact ((sheds_needsRecovery m k none).trans (sheds_popClaim _ k)).trans
    (sheds_addRecoveryRecord { m.needsRecovery k none with
      operationClaims := (m.needsRecovery k none).operationClaims.pop k } rev k i.action.name
        "operation_cancelled" now)

lemma sheds_interruptClaims (m : Manager F) (rev : String → String) (now : String) :
    m.toPayload.Sheds (m.interruptClaims rev now).toPayload := by
  have hfold : ∀ (es : List (String × OperationClaim)) (k : Manager F), m.toPayload.Sheds k.toPayload →
      m.toPayload.Sheds (es.foldl (fun m e => (m.needsRecovery e.1 none).addRecoveryRecord (rev e.1)
        e.1 e.2.action.name "operation_interrupted" now) k).toPayload := by
    intro es k hk
    refine RunLaws.foldl_invariant (P := fun k : Manager F => m.toPayload.Sheds k.toPayload)
      (fun k e hk => ?_) hk es
    exact (hk.trans (sheds_needsRecovery k e.1 none)).trans (sheds_addRecoveryRecord _ _ _ _ _ _)
  refine (hfold m.operationClaims.entries m (.refl _)).trans ?_
  exact sheds_of_records _ _ _ _ (fun _ i h => ⟨i,h,rfl⟩) (fun k c h => absurd h (by simp))
    fun _ _ h => .inl h

lemma sheds_candidates (p : Payload F) {candidates : Dict String (Candidate F)}
    (h : ∀ id c', candidates.get? id = some c' → c'.candidateId = id ∨
      ∃ c, p.candidates.get? id = some c ∧ c'.candidateId = c.candidateId) :
    p.Sheds { p with candidates := candidates } where
  candidates := h
  intents _ i h := ⟨i,h,rfl⟩
  claims _ _ h := h
  publications _ q h := ⟨q,h⟩
  answers _ _ h := .inl h

lemma sheds_markCandidate (m : Manager F) (id : String) (status : CandidateStatus)
    (reason : String) : m.toPayload.Sheds (m.markCandidate id status reason).toPayload := by
  unfold Manager.markCandidate
  split
  · exact .refl _
  · rename_i c hc
    refine sheds_candidates m.toPayload fun id' c' hc' => ?_
    rw [Dict.get?_set] at hc'
    split at hc'
    · rename_i hid
      cases hc'
      exact .inr ⟨c,hid ▸ hc,rfl⟩
    · exact .inr ⟨c',hc',rfl⟩

lemma sheds_dropUnreferenced (m : Manager F) : m.toPayload.Sheds m.dropUnreferenced.toPayload :=
  sheds_candidates m.toPayload fun _ c hc => .inr ⟨c,(Dict.get?_filter.mp hc).1,rfl⟩

lemma sheds_rebuild {record : Candidate F} {id : String} {differs : Bool}
    (hm : m.rebuildCandidates record id differs = some m') : m.toPayload.Sheds m'.toPayload := by
  unfold Manager.rebuildCandidates at hm
  split at hm
  · cases hm
  · cases hm
    refine (sheds_dropUnreferenced m).trans (sheds_candidates _ fun id' c' hc' => ?_)
    rw [Dict.get?_set] at hc'
    split at hc'
    · rename_i hid
      cases hc'
      exact .inl hid.symm
    · exact .inr ⟨c',hc',rfl⟩

lemma sheds_publications (p : Payload F) (active : Option String)
    (tombstones : Dict String Tombstone)
    (h : ∀ r q', publications.get? r = some q' → ∃ q, p.publications.get? r = some q) :
    p.Sheds { p with
      publications := publications
      activePublicationRevision := active
      tombstones := tombstones } where
  candidates _ c h := .inr ⟨c,h,rfl⟩
  intents _ i h := ⟨i,h,rfl⟩
  claims _ _ h := h
  publications := h
  answers _ _ h := .inl h

lemma sheds_updatePublication (m : Manager F) (r : Option String)
    (f : Publication F → Publication F) : m.toPayload.Sheds
    (m.updatePublication r f).toPayload := by
  unfold Manager.updatePublication
  split
  · exact .refl _
  split
  · exact .refl _
  · rename_i r _ q hq
    refine sheds_publications m.toPayload _ _ fun r' q' hq' => ?_
    rw [Dict.get?_set] at hq'
    split at hq'
    · rename_i hr
      exact ⟨q,hr ▸ hq⟩
    · exact ⟨q',hq'⟩

lemma sheds_rollBackPublication (m : Manager F) (k : String) {q : Publication F}
    (result : ApplyResult) (tombstoneId now : String)
    (hq : m.publications.get? i.publicationRevision = some q) :
    m.toPayload.Sheds (m.rollBackPublication k i q result tombstoneId now).toPayload := by
  let m₁ : Manager F := { m with
    publications := m.publications.set i.publicationRevision
      { q with status := .rolledBack, rolledBackAt := some now }
    activePublicationRevision := q.parentPublicationRevision }
  have h₁ : m.toPayload.Sheds m₁.toPayload := by
    refine sheds_publications m.toPayload _ _ fun r q' hq' => ?_
    rw [Dict.get?_set] at hq'
    split at hq'
    · rename_i hr
      exact ⟨q,hr ▸ hq⟩
    · exact ⟨q',hq'⟩
  have h₂ := sheds_updatePublication m₁ q.parentPublicationRevision fun p =>
    p.reactivated result now
  exact (h₁.trans h₂).trans (sheds_publications _ _ _ fun _ q' hq' => ⟨q',hq'⟩)

lemma sheds_rollBackIntent (m : Manager F) (k : String) (i : Intent F) :
    m.toPayload.Sheds (m.rollBackIntent k i).toPayload := by
  unfold Manager.rollBackIntent
  split
  · exact .refl _
  · exact sheds_of_records m.toPayload _ _ _ (fun _ i h => ⟨i,(Dict.get?_pop.mp h).1,rfl⟩)
      (fun _ _ h => h) fun _ _ h => .inl h

lemma sheds_confirmRollback (m : Manager F) (k : String) (i : Intent F) (result : ApplyResult)
    (tombstoneId now : String) :
    m.toPayload.Sheds (m.confirmRollback k i result tombstoneId now).toPayload := by
  unfold Manager.confirmRollback
  split
  · exact (sheds_rollBackIntent m k i).trans (sheds_markCandidate _ _ _ _)
  · rename_i q hq
    exact (sheds_rollBackPublication m k result tombstoneId now hq).trans (sheds_markCandidate _ _ _ _)

lemma sheds_clearRecoveredIntent (m : Manager F) (i : Intent F)
    (ha : a.action = .rollback) : m.toPayload.Sheds (m.clearRecoveredIntent env i a).toPayload := by
  refine sheds_of_records m.toPayload _ _ _ (fun _ i h => ⟨i,(Dict.get?_pop.mp h).1,rfl⟩)
    (fun _ _ h => (Dict.get?_pop.mp h).1) fun k b hb => ?_
  rw [Dict.get?_set] at hb
  split at hb
  · cases hb
    exact .inr (.inl ha)
  · exact .inl hb

lemma sheds_reset {now : ℤ} (hm : m.reset env now = some m') : m.toPayload.Sheds m'.toPayload := by
  have hprune : ∀ (items : List Manager.Prunable) (k : Manager F), m.toPayload.Sheds k.toPayload →
      m.toPayload.Sheds (items.foldl (fun k item =>
        { k with
          tombstones := k.tombstones.pop item.tombstoneId
          terminalOperations := k.terminalOperations.pop item.terminalOperationKey }) k).toPayload := by
    intro items k hk
    refine RunLaws.foldl_invariant (P := fun k : Manager F => m.toPayload.Sheds k.toPayload)
      (fun k item hk => hk.trans ?_) hk items
    exact sheds_of_records k.toPayload _ _ _ (fun _ i h => ⟨i,h,rfl⟩) (fun _ _ h => h)
      fun _ _ h => .inl (Dict.get?_pop.mp h).1
  unfold Manager.reset at hm
  split at hm
  · cases hm
  cases hm
  unfold Manager.pruneTombstones
  split
  · exact sheds_dropUnreferenced m
  · exact hprune _ _ (sheds_dropUnreferenced m)

lemma restoreCandidate_id (judge : Judge F) (c : Candidate F) :
    (restoreCandidate env judge c).candidateId = c.candidateId := by
  unfold restoreCandidate
  split
  · rfl
  · split <;> rfl

lemma sheds_restore {judge : Judge F} (h : p.restore env judge = some p') : p.Sheds p' := by
  unfold Payload.restore at h
  split_ifs at h
  cases h
  refine sheds_candidates p fun id c' hc' => ?_
  rw [Dict.get?_mapValues] at hc'
  obtain ⟨c,hc,rfl⟩ := Option.map_eq_some_iff.mp hc'
  exact .inr ⟨c,hc,restoreCandidate_id judge c⟩

lemma traceable_claimIntent (h : m.toPayload.Traceable env o R) {key : String}
    (hissued : o.issued i.operationId = some i)
    (hkey : i.action = .publish → key = publishKey env i) :
    (m.claimIntent i key).toPayload.Traceable env o R where
  named := h.named
  issued k j hj := by
    change (m.publishIntents.set _ _).get? k = some j at hj
    rw [Dict.get?_set] at hj
    split at hj
    · rename_i hk
      cases hj
      exact ⟨i,by rw [hk,hissued],rfl⟩
    · exact h.issued k j hj
  claims k c j hc hj hact := by
    change (m.operationClaims.set _ _).get? k = some c at hc
    change (m.publishIntents.set _ _).get? k = some j at hj
    rw [Dict.get?_set] at hc hj
    by_cases hk : k = i.operationId
    · rw [if_pos hk] at hc hj
      cases hc
      cases hj
      exact hkey hact
    · rw [if_neg hk] at hc hj
      exact h.claims k c j hc hj hact
  drawn := h.drawn
  answers := h.answers

lemma traceable_publications (h : p.Traceable env o R) (active : Option String)
    (hdrawn : ∀ r q, publications.get? r = some q → (∃ q₀, p.publications.get? r = some q₀) ∨
      ((o.published r).isSome = true ∧ ¬R r)) :
    ({ p with
      publications := publications
      activePublicationRevision := active } : Payload F).Traceable env o R where
  named := h.named
  issued := h.issued
  claims := h.claims
  drawn r q hq := by
    rcases hdrawn r q hq with ⟨q₀,hq₀⟩ | hnew
    · exact h.drawn r q₀ hq₀
    · exact hnew
  answers := h.answers

lemma traceable_answer (h : p.Traceable env o R) (key : String)
    {r : String} (hr : a.publicationRevision = some r) (hi : o.published r = some i)
    (hkey : publishKey env i = key) : ({ p with
      terminalOperations := p.terminalOperations.set key a } : Payload F).Traceable env o R where
  named := h.named
  issued := h.issued
  claims := h.claims
  drawn := h.drawn
  answers k b hb hact hok := by
    rw [Dict.get?_set] at hb
    split at hb
    · rename_i hk
      cases hb
      exact ⟨r,i,hr,hi,hkey.trans hk.symm⟩
    · exact h.answers k b hb hact hok

lemma Payload.Traceable.origin (h : m.toPayload.Traceable env o R)
    {i j : Intent F} (hc : m.Claimed k .publish c i)
    (hj : o.issued k = some j) : j.action = .publish ∧
      i.publicationRevision = j.publicationRevision ∧ c.operationKey = publishKey env j := by
  obtain ⟨j',hj',hrel⟩ := h.issued k i hc.intent
  obtain rfl : j = j' := Option.some.inj (hj.symm.trans hj')
  obtain ⟨haction,hrevision,hkey⟩ := hrel.fields env
  refine ⟨haction ▸ hc.action,hrevision,?_⟩
  rw [h.claims k c i hc.claim hc.intent hc.action,hkey]

lemma traceable_confirmPublish (h : m.toPayload.Traceable env o R)
    {i j : Intent F} (hc : m.Claimed k .publish c i)
    (hj : o.issued k = some j) (hpublished : o.published j.publicationRevision = some j)
    (hR : ¬R j.publicationRevision) (result : ApplyResult) (applied now : String) :
    ((m.confirmPublish i result applied now).completeNonApplied k c.operationKey
      (publishedResponse k i result applied)).toPayload.Traceable env o R := by
  obtain ⟨-,hrevision,hkey⟩ := h.origin hc hj
  have hpubs : Payload.Traceable env o R { m.toPayload with
      publications := (m.confirmPublish i result applied now).publications
      activePublicationRevision := some i.publicationRevision } := by
    refine traceable_publications h _ fun r q hq => ?_
    rw [get?_confirmPublish] at hq
    split at hq
    · rename_i hr
      refine .inr ?_
      rw [hr,hrevision,hpublished]
      exact ⟨rfl,hR⟩
    · split at hq
      · obtain ⟨q₀,hq₀,-⟩ := Option.map_eq_some_iff.mp hq
        exact .inl ⟨q₀,hq₀⟩
      · exact .inl ⟨q,hq⟩
  have hdropped := hpubs.sheds (sheds_dropOperation { m with
    publications := (m.confirmPublish i result applied now).publications
    activePublicationRevision := some i.publicationRevision } k)
  have hanswer := traceable_answer hdropped c.operationKey
    (a := publishedResponse k i result applied)
    rfl (hrevision ▸ hpublished) hkey.symm
  have heq : (m.confirmPublish i result applied now).completeNonApplied k c.operationKey
      (publishedResponse k i result applied) = (Manager.completeNonApplied { m with
        publications := (m.confirmPublish i result applied now).publications
        activePublicationRevision := some i.publicationRevision } k c.operationKey
          (publishedResponse k i result applied)).markCandidate i.candidateId .published "published" := by
    conv_lhs => rw [confirmPublish_eq]
    rw [markCandidate_completeNonApplied]
  rw [heq]
  exact Payload.Traceable.sheds hanswer (sheds_markCandidate (Manager.completeNonApplied { m with
    publications := (m.confirmPublish i result applied now).publications
    activePublicationRevision := some i.publicationRevision } k c.operationKey
      (publishedResponse k i result applied)) i.candidateId .published "published")

def Finish.Traceable (env : LearningEnv F γ) (o : Origin F) (R : String → Prop) : Finish F → Prop
  | .unclaimed _ => True
  | .settled _ m => m.toPayload.Traceable env o R
  | .confirmed _ m => m.toPayload.Traceable env o R
  | .recovery _ m => m.toPayload.Traceable env o R

lemma traceable_finishPublish (h : m.toPayload.Traceable env o R) {j : Intent F}
    (hj : o.issued k = some j) (hpublished : j.action = .publish → o.published j.publicationRevision = some j ∧
      ¬R j.publicationRevision) (result : ApplyResult) (recoveryRevision now : String) :
    (m.finishPublish k result recoveryRevision now).Traceable env o R := by
  have hunknown := h.sheds (sheds_setRecovery m k .publish "learning_publish_recovery_required"
    recoveryRevision now)
  have hfailed : ∀ key reason, (m.completeNonApplied k key
      (failure .publish reason)).toPayload.Traceable env o R :=
    fun key _ => h.sheds (sheds_completeNonApplied m k key (.inr rfl))
  unfold Manager.finishPublish
  split
  · trivial
  rename_i c i hci
  have hc := claimedIntent_some hci
  obtain ⟨hpub,hR⟩ := hpublished (h.origin hc hj).1
  split
  · exact hfailed _ _
  split
  · split
    · exact hunknown
    split
    · exact hunknown
    · exact traceable_confirmPublish h hc hj hpub hR result _ now
  · split
    · exact hunknown
    · exact hfailed _ _

lemma traceable_finishRollback (h : m.toPayload.Traceable env o R) (k : String)
    (result : ApplyResult) (tombstoneId recoveryRevision now : String) :
    (m.finishRollback k result tombstoneId recoveryRevision now).Traceable env o R := by
  unfold Manager.finishRollback
  split
  · trivial
  rename_i c i hci
  split
  · exact (h.sheds (sheds_confirmRollback m k i result tombstoneId now)).sheds
      (sheds_completeNonApplied _ k _ (.inl rfl))
  split
  · exact h.sheds (sheds_setRecovery m k .rollback _ recoveryRevision now)
  · exact h.sheds (sheds_completeNonApplied m k _ (.inl rfl))

end Memora.Learning

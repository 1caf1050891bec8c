import Memora.LearningSystem

/-! A payload is sound when its claim, its publications, its intents and its tombstones fit
together. Most operations only drop or relabel records; publishing and rolling back move
the active publication along its chain. -/
namespace Memora.Learning

variable {F γ : Type*} {env : SystemEnv F γ}

def Intent.Relabels (i i' : Intent F) : Prop :=
  i' = { i with phase := i'.phase, reasonCode := i'.reasonCode }

lemma Intent.Relabels.trans {i j k : Intent F} (hij : i.Relabels j) (hjk : j.Relabels k) :
    i.Relabels k := by
  unfold Intent.Relabels at *
  rw [hjk,hij]

variable (o : Origin F) {r : Option String} {rs : List String}

def Intent.Traced (i : Intent F) : Prop :=
  ∃ i₀, o.published i.publicationRevision = some i₀ ∧ i.candidateId = i₀.candidateId ∧
    (i.action = .publish → i.operationId = i₀.operationId ∧ i.before = i₀.before) ∧
    (i.action = .rollback → i.target = i₀.before)

def Publication.Traced (q : Publication F) : Prop :=
  ∃ i₀, o.published q.publicationRevision = some i₀ ∧ q.candidateId = i₀.candidateId ∧
  q.before = i₀.before

def Payload.Lineage (p : Payload F) : Option String → List String → Prop
  | none, [] => True
  | some r, s::ss => r = s ∧
      ∃ q, p.publications.get? r = some q ∧ p.Lineage q.parentPublicationRevision ss
  | _, _ => False

structure Payload.Chained (p : Payload F) : Prop where
  active : ∀ r q, p.publications.get? r = some q →
    (q.status = .active ↔ p.activePublicationRevision = some r)
  chain : ∃ rs, p.Lineage p.activePublicationRevision rs ∧ rs.Nodup ∧
    ∀ r ∈ rs.tail, ∀ q, p.publications.get? r = some q → q.status = .superseded

structure Payload.Holds (p : Payload F) (i : Intent F) : Prop where
  publish : i.action = .publish → i.parentPublicationRevision = p.activePublicationRevision
  rollback : i.action = .rollback → ∀ q, p.publications.get? i.publicationRevision = some q →
    p.activePublicationRevision = some i.publicationRevision

structure Payload.Sound (o : Origin F) (p : Payload F) : Prop extends p.Chained where
  one_claim : p.operationClaims.entries.length ≤ 1
  claimed : ∀ k c, p.operationClaims.get? k = some c →
    ∃ i, p.publishIntents.get? k = some i ∧ p.Holds i
  unpublished : ∀ k i, p.publishIntents.get? k = some i → i.action = .publish →
    p.publications.get? i.publicationRevision = none
  intents : ∀ k i, p.publishIntents.get? k = some i →
    i.operationId = k ∧ i.Traced o ∧ (p.candidates.get? i.candidateId).isSome = true
  issued : ∀ k i, p.publishIntents.get? k = some i → ∃ j, o.issued k = some j ∧ j.Relabels i
  publications : ∀ r q, p.publications.get? r = some q →
    q.publicationRevision = r ∧ q.Traced o ∧ (p.candidates.get? q.candidateId).isSome = true
  tombstones : ∀ k t, p.tombstones.get? k = some t →
    ∃ q, p.publications.get? t.publicationRevision = some q ∧ q.candidateId = t.candidateId

lemma Payload.sound_empty : ({} : Payload F).Sound o where
  active := by simp
  chain := ⟨[],trivial,by simp,by simp⟩
  one_claim := by simp
  claimed := by simp
  unpublished := by simp
  intents := by simp
  issued := by simp
  publications := by simp
  tombstones := by simp

lemma Payload.Lineage.congr {p p' : Payload F} (h : p.Lineage r rs)
    (hlink : ∀ s ∈ rs, ∀ q, p.publications.get? s = some q → ∃ q', p'.publications.get? s = some q' ∧
      q'.parentPublicationRevision = q.parentPublicationRevision) : p'.Lineage r rs := by
  induction rs generalizing r with
  | nil =>
    cases r with
    | none => trivial
    | some r => exact h.elim
  | cons s ss ih =>
    cases r with
    | none => exact h.elim
    | some r =>
      obtain ⟨rfl,q,hq,hrest⟩ := h
      obtain ⟨q',hq',hparent⟩ := hlink r (by simp) q hq
      have htail := ih hrest fun s hs => hlink s (by simp [hs])
      exact ⟨rfl,q',hq',by rwa [hparent]⟩

variable {p : Payload F}

lemma Payload.Lineage.known (h : p.Lineage r rs) :
    ∀ s ∈ rs, ∃ q, p.publications.get? s = some q := by
  induction rs generalizing r with
  | nil => simp
  | cons s ss ih =>
    cases r with
    | none => exact h.elim
    | some r =>
      obtain ⟨rfl,q,hq,hrest⟩ := h
      intro t ht
      rcases List.mem_cons.mp ht with rfl | ht
      · exact ⟨q,hq⟩
      · exact ih hrest t ht

lemma Payload.Lineage.head (h : p.Lineage r rs) : rs.head? = r := by
  cases rs with
  | nil =>
    cases r with
    | none => rfl
    | some r => exact h.elim
  | cons s ss =>
    cases r with
    | none => exact h.elim
    | some r => simp [h.1]

lemma Payload.Chained.known (h : p.Chained) {r : String}
    (hr : p.activePublicationRevision = some r) : ∃ q, p.publications.get? r = some q := by
  obtain ⟨rs,hrs,-,-⟩ := h.chain
  have hmem : r ∈ rs := by
    have hhead := hrs.head
    rw [hr] at hhead
    exact List.mem_of_mem_head? (by simp [hhead])
  exact hrs.known r hmem

lemma Payload.Chained.congr {p p' : Payload F} (h : p.Chained)
    (hpub : p'.publications = p.publications)
    (hact : p'.activePublicationRevision = p.activePublicationRevision) : p'.Chained where
  active := by
    rw [hpub,hact]
    exact h.active
  chain := by
    obtain ⟨rs,hrs,hnodup,htail⟩ := h.chain
    refine ⟨rs,?_,hnodup,?_⟩
    · rw [hact]
      refine hrs.congr fun s _ q hq => ⟨q,?_,rfl⟩
      rw [hpub,hq]
    · rw [hpub]
      exact htail

structure Payload.Calm (p p' : Payload F) : Prop where
  publications : p'.publications = p.publications
  active : p'.activePublicationRevision = p.activePublicationRevision
  tombstones : ∀ k t, p'.tombstones.get? k = some t → p.tombstones.get? k = some t
  intents : ∀ k i', p'.publishIntents.get? k = some i' →
    ∃ i, p.publishIntents.get? k = some i ∧ i.Relabels i'
  claims : ∀ k c, p'.operationClaims.get? k = some c → p.operationClaims.get? k = some c ∧
    ((p.publishIntents.get? k).isSome = true → (p'.publishIntents.get? k).isSome = true)
  count : p'.operationClaims.entries.length ≤ p.operationClaims.entries.length
  candidates : ∀ id, (p.candidates.get? id).isSome = true →
    ((∃ r q, p.publications.get? r = some q ∧ q.candidateId = id) ∨
      ∃ k i, p.publishIntents.get? k = some i ∧ i.candidateId = id) →
    (p'.candidates.get? id).isSome = true

lemma Payload.Sound.calm {o : Origin F} {p p' : Payload F} (h : p.Sound o) (hc : p.Calm p') :
    p'.Sound o where
  toChained := h.toChained.congr hc.publications hc.active
  one_claim := hc.count.trans h.one_claim
  claimed := by
    intro k c hk
    obtain ⟨hk₀,hkeep⟩ := hc.claims k c hk
    obtain ⟨i,hi,hholds⟩ := h.claimed k c hk₀
    obtain ⟨i',hi'⟩ := Option.isSome_iff_exists.mp (hkeep (by simp [hi]))
    obtain ⟨i₁,hi₁,hrel⟩ := hc.intents k i' hi'
    obtain rfl : i = i₁ := Option.some.inj (hi.symm.trans hi₁)
    refine ⟨i',hi',?_,?_⟩
    · rw [hrel,hc.active]
      exact hholds.publish
    · rw [hrel,hc.active,hc.publications]
      exact hholds.rollback
  unpublished := by
    intro k i' hi' hact
    obtain ⟨i,hi,hrel⟩ := hc.intents k i' hi'
    rw [hrel] at hact ⊢
    rw [hc.publications]
    exact h.unpublished k i hi hact
  intents := by
    intro k i' hi'
    obtain ⟨i,hi,hrel⟩ := hc.intents k i' hi'
    obtain ⟨hkey,htraced,hknown⟩ := h.intents k i hi
    rw [hrel]
    exact ⟨hkey,htraced,hc.candidates _ hknown (.inr ⟨k,i,hi,rfl⟩)⟩
  issued := by
    intro k i' hi'
    obtain ⟨i,hi,hrel⟩ := hc.intents k i' hi'
    obtain ⟨j,hj,hji⟩ := h.issued k i hi
    exact ⟨j,hj,hji.trans hrel⟩
  publications := by
    intro r q hq
    rw [hc.publications] at hq
    obtain ⟨hkey,htraced,hknown⟩ := h.publications r q hq
    exact ⟨hkey,htraced,hc.candidates _ hknown (.inl ⟨r,q,hq,rfl⟩)⟩
  tombstones := by
    intro k t ht
    rw [hc.publications]
    exact h.tombstones k t (hc.tombstones k t ht)

structure Origin.Grows (o o' : Origin F) : Prop where
  published : ∀ r i, o.published r = some i → o'.published r = some i
  issued : ∀ k i, o.issued k = some i → o'.issued k = some i

lemma Origin.grows_draw {o : Origin F} {i : Intent F} (hop : o.issued i.operationId = none)
    (hrev : i.action = .publish → o.published i.publicationRevision = none) :
    o.Grows (o.draw i) where
  published := by
    intro r j hj
    unfold Origin.draw
    cases hact : i.action with
    | rollback => exact hj
    | publish =>
      have hne : r ≠ i.publicationRevision := by
        rintro rfl
        exact absurd ((hrev hact).symm.trans hj) (by simp)
      simpa only [Function.update_of_ne hne] using hj
  issued := by
    intro k j hj
    have hne : k ≠ i.operationId := by
      rintro rfl
      exact absurd (hop.symm.trans hj) (by simp)
    simpa only [Origin.draw,Function.update_of_ne hne] using hj

lemma Origin.draw_issued (i : Intent F) : (o.draw i).issued i.operationId = some i :=
  Function.update_self ..

lemma Origin.draw_published {i : Intent F} (h : i.action = .publish) :
    (o.draw i).published i.publicationRevision = some i := by
  simp only [Origin.draw,h,Function.update_self]

lemma Payload.Sound.origin {o o' : Origin F} (h : p.Sound o) (ho : o.Grows o') : p.Sound o' where
  toChained := h.toChained
  one_claim := h.one_claim
  claimed := h.claimed
  unpublished := h.unpublished
  intents := by
    intro k i hi
    obtain ⟨hkey,⟨i₀,hi₀,htraced⟩,hknown⟩ := h.intents k i hi
    exact ⟨hkey,⟨i₀,ho.published _ _ hi₀,htraced⟩,hknown⟩
  issued := by
    intro k i hi
    obtain ⟨j,hj,hrel⟩ := h.issued k i hi
    exact ⟨j,ho.issued _ _ hj,hrel⟩
  publications := by
    intro r q hq
    obtain ⟨hkey,⟨i₀,hi₀,htraced⟩,hknown⟩ := h.publications r q hq
    exact ⟨hkey,⟨i₀,ho.published _ _ hi₀,htraced⟩,hknown⟩
  tombstones := h.tombstones

variable {o : Origin F} {m : Manager F}

lemma candidateIsReferenced_iff {id : String} : m.candidateIsReferenced id = true ↔
    (∃ r q, m.publications.get? r = some q ∧ q.candidateId = id) ∨
      ∃ k i, m.publishIntents.get? k = some i ∧ i.candidateId = id := by
  simp only [Manager.candidateIsReferenced,Bool.or_eq_true,List.any_eq_true,
    decide_eq_true_eq,Dict.mem_values]
  grind

lemma calm_dropUnreferenced : m.toPayload.Calm m.dropUnreferenced.toPayload where
  publications := rfl
  active := rfl
  tombstones := fun _ _ h => h
  intents := fun _ i h => ⟨i,h,rfl⟩
  claims := fun _ _ h => ⟨h,id⟩
  count := le_rfl
  candidates := by
    intro id hid hnamed
    obtain ⟨c,hc⟩ := Option.isSome_iff_exists.mp hid
    have hkept : m.dropUnreferenced.candidates.get? id = some c :=
      Dict.get?_filter.mpr ⟨hc,candidateIsReferenced_iff.mpr hnamed⟩
    simp [hkept]

lemma calm_setCandidate (m : Manager F) (key : String) (c : Candidate F) :
    m.toPayload.Calm { m.toPayload with candidates := m.candidates.set key c } where
  publications := rfl
  active := rfl
  tombstones := fun _ _ h => h
  intents := fun _ i h => ⟨i,h,rfl⟩
  claims := fun _ _ h => ⟨h,id⟩
  count := le_rfl
  candidates := by
    intro key' hkey _
    rw [Dict.get?_set]
    split
    · rfl
    · exact hkey

variable {m' : Manager F}

lemma sound_rebuild {record : Candidate F} {id : String} {differs : Bool}
    (h : m.toPayload.Sound o) (hm : m.rebuildCandidates record id differs = some m') :
    m'.toPayload.Sound o := by
  unfold Manager.rebuildCandidates at hm
  split at hm
  · cases hm
  · cases hm
    exact (h.calm calm_dropUnreferenced).calm (calm_setCandidate m.dropUnreferenced _ _)

lemma sound_replaceWithReferenced (h : m.toPayload.Sound o)
    (hm : m.replaceWithReferenced = some m') : m'.toPayload.Sound o := by
  unfold Manager.replaceWithReferenced at hm
  split at hm
  · cases hm
  · cases hm
    exact h.calm calm_dropUnreferenced

lemma calm_forget (m : Manager F) (k key : String) : m.toPayload.Calm { m.toPayload with
    tombstones := m.tombstones.pop k, terminalOperations := m.terminalOperations.pop key } where
  publications := rfl
  active := rfl
  tombstones := fun _ _ h => (Dict.get?_pop.mp h).1
  intents := fun _ i h => ⟨i,h,rfl⟩
  claims := fun _ _ h => ⟨h,id⟩
  count := le_rfl
  candidates := fun _ h _ => h

lemma sound_pruneTombstones (h : m.toPayload.Sound o) (now : ℤ) :
    (m.pruneTombstones env.toLearningEnv now).toPayload.Sound o := by
  unfold Manager.pruneTombstones
  split
  · exact h
  · exact RunLaws.foldl_invariant (P := fun m : Manager F => m.toPayload.Sound o)
      (fun m item hm => hm.calm (calm_forget m _ _)) h _

lemma sound_reset {now : ℤ} (h : m.toPayload.Sound o)
    (hm : m.reset env.toLearningEnv now = some m') : m'.toPayload.Sound o := by
  unfold Manager.reset at hm
  split at hm
  · cases hm
  · cases hm
    exact sound_pruneTombstones (h.calm calm_dropUnreferenced) now

lemma calm_relabel (m : Manager F) {k : String} {i i' : Intent F}
    (hi : m.publishIntents.get? k = some i) (hrel : i.Relabels i') :
    m.toPayload.Calm { m.toPayload with publishIntents := m.publishIntents.set k i' } where
  publications := rfl
  active := rfl
  tombstones := fun _ _ h => h
  intents := by
    intro k' j hj
    rw [Dict.get?_set] at hj
    split at hj
    · rename_i hk
      cases hj
      exact ⟨i,by rw [hk,hi],hrel⟩
    · exact ⟨j,hj,rfl⟩
  claims := by
    intro k' c hc
    refine ⟨hc,fun hs => ?_⟩
    rw [Dict.get?_set]
    split
    · rfl
    · exact hs
  count := le_rfl
  candidates := fun _ h _ => h

lemma sound_needsRecovery (h : m.toPayload.Sound o) (k : String) (reason : Option String) :
    (m.needsRecovery k reason).toPayload.Sound o := by
  unfold Manager.needsRecovery
  split
  · exact h
  · rename_i i hi
    exact h.calm (calm_relabel m hi rfl)

lemma Dict.length_filter_le {κ ν : Type*} [DecidableEq κ] (p : κ → ν → Bool) (d : Dict κ ν) :
    (d.filter p).entries.length ≤ d.entries.length := List.length_filter_le _ _

lemma calm_release (m : Manager F) (k : String) :
    m.toPayload.Calm { m.toPayload with operationClaims := m.operationClaims.pop k } where
  publications := rfl
  active := rfl
  tombstones := fun _ _ h => h
  intents := fun _ i h => ⟨i,h,rfl⟩
  claims := fun _ _ h => ⟨(Dict.get?_pop.mp h).1,id⟩
  count := Dict.length_filter_le _ _
  candidates := fun _ h _ => h

lemma calm_dropOperation (m : Manager F) (k : String) :
    m.toPayload.Calm (m.dropOperation k).toPayload where
  publications := rfl
  active := rfl
  tombstones := fun _ _ h => h
  intents := fun _ i h => ⟨i,(Dict.get?_pop.mp h).1,rfl⟩
  claims := by
    intro k' c hc
    obtain ⟨hc₀,hne⟩ := Dict.get?_pop.mp hc
    refine ⟨hc₀,fun hs => ?_⟩
    change ((m.publishIntents.pop k).get? k').isSome = true
    rwa [Dict.get?_pop_of_ne hne]
  count := Dict.length_filter_le _ _
  candidates := fun _ h _ => h

lemma Payload.Sound.records (h : p.Sound o) (terminal : Dict String Response)
    (recovery : Dict String RecoveryRecord) (reload : Option (ReloadOperation F)) :
    ({ p with terminalOperations := terminal, recoveryRecords := recovery,
              reloadOperation := reload } : Payload F).Sound o :=
  h.calm ⟨rfl,rfl,fun _ _ h => h,fun _ i h => ⟨i,h,rfl⟩,fun _ _ h => ⟨h,id⟩,le_rfl,
    fun _ h _ => h⟩

lemma sound_completeNonApplied (h : m.toPayload.Sound o) (k key : String) (r : Response) :
    (m.completeNonApplied k key r).toPayload.Sound o :=
  (h.calm (calm_dropOperation m k)).records _ _ _

lemma sound_setRecovery (h : m.toPayload.Sound o) (k : String) (a : Action)
    (reason recoveryRevision now : String) :
    (m.setRecovery k a reason recoveryRevision now).toPayload.Sound o := by
  have hneeds := sound_needsRecovery h k (some reason)
  exact (hneeds.calm (calm_release _ k)).records _ _ _

lemma sound_markCancelled {k recoveryRevision now : String} (h : m.toPayload.Sound o)
    (hm : m.markCancelled k recoveryRevision now = some m') :
    m'.toPayload.Sound o := by
  obtain ⟨i,-,rfl⟩ := Option.map_eq_some_iff.mp hm
  have hneeds := sound_needsRecovery h k none
  exact (hneeds.calm (calm_release _ k)).records _ _ _

lemma sound_clearRecoveredIntent (h : m.toPayload.Sound o) (i : Intent F) (r : Response) :
    (m.clearRecoveredIntent env.toLearningEnv i r).toPayload.Sound o :=
  (h.calm (calm_dropOperation m i.operationId)).records _ _ _

lemma sound_markCandidate (h : m.toPayload.Sound o) (id : String) (status : CandidateStatus)
    (reason : String) : (m.markCandidate id status reason).toPayload.Sound o := by
  unfold Manager.markCandidate
  split
  · exact h
  · exact h.calm (calm_setCandidate m _ _)

lemma sound_interruptClaims (h : m.toPayload.Sound o) (recoveryRevision : String → String)
    (now : String) : (m.interruptClaims recoveryRevision now).toPayload.Sound o := by
  have hfold : (m.operationClaims.entries.foldl (fun m e =>
      (m.needsRecovery e.1 none).addRecoveryRecord (recoveryRevision e.1) e.1 e.2.action.name
        "operation_interrupted" now) m).toPayload.Sound o :=
    RunLaws.foldl_invariant (P := fun m : Manager F => m.toPayload.Sound o)
      (fun m e hm => (sound_needsRecovery hm e.1 none).records _ _ _) h _
  exact hfold.calm {
    publications := rfl
    active := rfl
    tombstones := fun _ _ h => h
    intents := fun _ i h => ⟨i,h,rfl⟩
    claims := fun _ _ h => absurd (show (none : Option OperationClaim) = some _ from h) (by simp)
    count := Nat.zero_le _
    candidates := fun _ h _ => h }

lemma sound_restore {p p' : Payload F} {judge : Judge F} (h : p.Sound o)
    (hp : p.restore env.toLearningEnv judge = some p') : p'.Sound o := by
  unfold Payload.restore at hp
  split at hp
  · cases hp
  split at hp
  · cases hp
  split at hp
  · cases hp
  split at hp
  · cases hp
  cases hp
  exact h.calm ⟨rfl,rfl,fun _ _ h => h,fun _ i h => ⟨i,h,rfl⟩,fun _ _ h => ⟨h,id⟩,le_rfl,
    fun id hid _ => by simpa [Dict.get?_mapValues] using hid⟩

end Memora.Learning

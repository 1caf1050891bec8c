import Memora.LearningInvariants

/-! A confirmed publish puts a publication on top of the chain, a confirmed rollback takes the
top one off; both need that the claim's intent still fits the active publication. -/
namespace Memora.Learning

variable {F γ : Type*} {env : SystemEnv F γ} {o : Origin F} {m : Manager F}

lemma claims_single {p : Payload F} (h : p.operationClaims.entries.length ≤ 1) {k k' : String}
    {c c' : OperationClaim} (hk : p.operationClaims.get? k = some c)
    (hk' : p.operationClaims.get? k' = some c') : k' = k := by
  have hmem := Dict.get?_eq_some.mp hk
  have hmem' := Dict.get?_eq_some.mp hk'
  cases he : p.operationClaims.entries with
  | nil => simp [he] at hmem
  | cons e es =>
    rw [he] at h hmem hmem'
    have hes : es = [] := by simpa using h
    subst hes
    have h₁ := List.mem_singleton.mp hmem
    have h₂ := List.mem_singleton.mp hmem'
    exact congrArg Prod.fst (h₂.trans h₁.symm)

variable {a : Action}

lemma claimConflict_none {id : String} (h : m.claimConflict a id = none) :
    m.operationClaims.entries = [] := by
  have hfirst : m.firstClaim = none := Option.map_eq_none_iff.mp h
  by_contra hne
  unfold Manager.firstClaim at hfirst
  cases hmin : m.operationClaims.keys.min? with
  | none =>
    have hkeys := List.min?_eq_none_iff.mp hmin
    exact hne (List.map_eq_nil_iff.mp hkeys)
  | some k =>
    have hk : k ∈ m.operationClaims.keys := List.min?_mem hmin
    obtain ⟨c,hc⟩ := Dict.mem_keys.mp hk
    rw [hmin] at hfirst
    exact absurd (hfirst.symm.trans hc) (by simp)

lemma get?_of_no_entries {κ ν : Type*} [DecidableEq κ] {d : Dict κ ν} (h : d.entries = [])
    (k : κ) : d.get? k = none := by
  simp [Dict.get?,h]

variable {i : Intent F}

lemma sound_claimIntent (h : m.toPayload.Sound o) (hfree : m.operationClaims.entries = [])
    (htraced : i.Traced o) (hissued : o.issued i.operationId = some i)
    (hholds : m.toPayload.Holds i) (hknown : (m.candidates.get? i.candidateId).isSome = true)
    (hnew : i.action = .publish → m.publications.get? i.publicationRevision = none) (key : String) :
    (m.claimIntent i key).toPayload.Sound o where
  toChained := h.toChained.congr rfl rfl
  one_claim := by
    change (Dict.assign _ _ m.operationClaims.entries).length ≤ 1
    rw [hfree]
    simp [Dict.assign]
  claimed := by
    intro k c hk
    change (m.operationClaims.set _ _).get? k = some c at hk
    rw [Dict.get?_set,get?_of_no_entries hfree] at hk
    split at hk
    · rename_i hop
      refine ⟨i,?_,hholds.publish,hholds.rollback⟩
      change (m.publishIntents.set _ _).get? k = some i
      rw [hop,Dict.get?_set_self]
    · cases hk
  unpublished := by
    intro k j hj hact
    change (m.publishIntents.set _ _).get? k = some j at hj
    rw [Dict.get?_set] at hj
    split at hj
    · cases hj
      exact hnew hact
    · exact h.unpublished k j hj hact
  intents := by
    intro k j hj
    change (m.publishIntents.set _ _).get? k = some j at hj
    rw [Dict.get?_set] at hj
    split at hj
    · rename_i hop
      cases hj
      exact ⟨hop.symm,htraced,hknown⟩
    · exact h.intents k j hj
  issued := by
    intro k j hj
    change (m.publishIntents.set _ _).get? k = some j at hj
    rw [Dict.get?_set] at hj
    split at hj
    · rename_i hop
      cases hj
      exact ⟨i,by rw [hop,hissued],rfl⟩
    · exact h.issued k j hj
  publications := h.publications
  tombstones := h.tombstones

structure Manager.Claimed (m : Manager F) (k : String) (a : Action) (c : OperationClaim)
    (i : Intent F) : Prop where
  claim : m.operationClaims.get? k = some c
  intent : m.publishIntents.get? k = some i
  action : i.action = a

variable {c : OperationClaim} {k : String}

lemma claimedIntent_some (h : m.claimedIntent k a = some (c,i)) : m.Claimed k a c i := by
  unfold Manager.claimedIntent at h
  split at h
  · rename_i c' i' hc hi
    split at h
    · rename_i hact
      cases h
      exact ⟨hc,hi,hact.2⟩
    · cases h
  · cases h

lemma Payload.Sound.holds (h : m.toPayload.Sound o) (hc : m.Claimed k a c i) :
    m.toPayload.Holds i := by
  obtain ⟨j,hj,hholds⟩ := h.claimed k c hc.claim
  obtain rfl : i = j := Option.some.inj (hc.intent.symm.trans hj)
  exact hholds

lemma updatePublication_fields (m : Manager F) (r : Option String)
    (f : Publication F → Publication F) : m.updatePublication r f =
      { m with publications := (m.updatePublication r f).publications } := by
  unfold Manager.updatePublication
  split
  · rfl
  · split <;> rfl

lemma get?_updatePublication (m : Manager F) (r : Option String)
    (f : Publication F → Publication F) (s : String) :
    (m.updatePublication r f).publications.get? s =
      if r = some s then (m.publications.get? s).map f else m.publications.get? s := by
  unfold Manager.updatePublication
  split
  · simp
  · rename_i r
    split
    · rename_i hq
      by_cases hs : r = s
      · subst hs
        simp [hq]
      · simp [hs]
    · rename_i q hq
      by_cases hs : r = s
      · subst hs
        simp [hq]
      · simp [hs,Dict.get?_set_of_ne (Ne.symm hs)]

lemma sound_settled (h : m.toPayload.Sound o) (hc : m.Claimed k a c i)
    {p : Dict String (Publication F)} {active : Option String} {t : Dict String Tombstone}
    (hchained : ({ m.toPayload with publications := p, activePublicationRevision := active } : Payload F).Chained)
    (hunpublished : ∀ k' j, k' ≠ k → m.publishIntents.get? k' = some j → j.action = .publish → p.get? j.publicationRevision = none)
    (hps : ∀ r q, p.get? r = some q → q.publicationRevision = r ∧ q.Traced o ∧ (m.candidates.get? q.candidateId).isSome = true)
    (hts : ∀ k' s, t.get? k' = some s → ∃ q, p.get? s.publicationRevision = some q ∧ q.candidateId = s.candidateId)
    (key : String) (r : Response) :
    (Manager.completeNonApplied { m with
      publications := p, activePublicationRevision := active, tombstones := t } k key r).toPayload.Sound o where
  toChained := hchained.congr rfl rfl
  one_claim := (Dict.length_filter_le _ _).trans h.one_claim
  claimed := by
    intro k' c' hk'
    obtain ⟨hc',hne⟩ := Dict.get?_pop.mp hk'
    exact absurd (claims_single h.one_claim hc.claim hc') hne
  unpublished := by
    intro k' j hj hact
    obtain ⟨hj',hne⟩ := Dict.get?_pop.mp hj
    exact hunpublished k' j hne hj' hact
  intents := by
    intro k' j hj
    exact h.intents k' j (Dict.get?_pop.mp hj).1
  issued := by
    intro k' j hj
    exact h.issued k' j (Dict.get?_pop.mp hj).1
  publications := hps
  tombstones := hts

@[simp] lemma markCandidate_publications (m : Manager F) (id : String)
    (status : CandidateStatus) (reason : String) :
    (m.markCandidate id status reason).publications = m.publications := by
  unfold Manager.markCandidate
  split <;> rfl

lemma markCandidate_completeNonApplied (m : Manager F) (id : String) (status : CandidateStatus)
    (reason k key : String) (r : Response) : (m.markCandidate id status reason).completeNonApplied k
    key r =
      (m.completeNonApplied k key r).markCandidate id status reason := by
  have hsame : (m.completeNonApplied k key r).candidates = m.candidates := rfl
  unfold Manager.markCandidate
  rw [hsame]
  split <;> rfl

lemma get?_confirmPublish (m : Manager F) (i : Intent F) (result : ApplyResult)
    (applied now s : String) :
    (m.confirmPublish i result applied now).publications.get? s =
      if s = i.publicationRevision then some (i.publication result applied now)
      else if i.parentPublicationRevision = some s then
        (m.publications.get? s).map fun p => { p with status := .superseded }
      else m.publications.get? s := by
  unfold Manager.confirmPublish
  simp only [markCandidate_publications,Dict.get?_set,get?_updatePublication]

lemma confirmPublish_eq (m : Manager F) (i : Intent F) (result : ApplyResult)
    (applied now : String) : m.confirmPublish i result applied now = Manager.markCandidate { m with
        publications := (m.confirmPublish i result applied now).publications
        activePublicationRevision := some i.publicationRevision } i.candidateId .published "published" := by
  have hpubs : (m.confirmPublish i result applied now).publications =
      (m.updatePublication i.parentPublicationRevision fun p =>
        { p with status := .superseded }).publications.set i.publicationRevision
          (i.publication result applied now) := by
    exact markCandidate_publications _ _ _ _
  rw [hpubs]
  unfold Manager.confirmPublish
  rw [updatePublication_fields m i.parentPublicationRevision]

lemma publish_revision_ne (h : m.toPayload.Sound o) {k k' : String} {i j : Intent F}
    (hi : m.publishIntents.get? k = some i) (hj : m.publishIntents.get? k' = some j)
    (hpi : i.action = .publish) (hpj : j.action = .publish) (hne : k' ≠ k) :
    j.publicationRevision ≠ i.publicationRevision := by
  intro heq
  obtain ⟨hki,⟨i₀,hi₀,-,hpubi,-⟩,-⟩ := h.intents k i hi
  obtain ⟨hkj,⟨j₀,hj₀,-,hpubj,-⟩,-⟩ := h.intents k' j hj
  rw [heq] at hj₀
  obtain rfl : i₀ = j₀ := Option.some.inj (hi₀.symm.trans hj₀)
  have hop : j.operationId = i.operationId := ((hpubj hpj).1).trans ((hpubi hpi).1).symm
  exact hne (hkj.symm.trans (hop.trans hki))

lemma chained_confirmPublish (h : m.toPayload.Sound o) (hc : m.Claimed k .publish c i)
    (result : ApplyResult) (applied now : String) : ({ m.toPayload with
      publications := (m.confirmPublish i result applied now).publications
      activePublicationRevision := some i.publicationRevision } : Payload F).Chained := by
  have hparent : i.parentPublicationRevision = m.activePublicationRevision :=
    (h.holds hc).publish hc.action
  have hfresh : m.publications.get? i.publicationRevision = none :=
    h.unpublished k i hc.intent hc.action
  obtain ⟨rs,hrs,hnodup,htail⟩ := h.chain
  have hnotin : i.publicationRevision ∉ rs := by
    intro hmem
    obtain ⟨q,hq⟩ := hrs.known _ hmem
    exact absurd (hfresh.symm.trans hq) (by simp)
  refine ⟨?_,i.publicationRevision::rs,⟨rfl,i.publication result applied now,?_,?_⟩,?_,?_⟩
  · intro r q hq
    rw [get?_confirmPublish] at hq
    split at hq
    · rename_i hr
      cases hq
      simp [hr,Intent.publication]
    · rename_i hr
      have hne : i.publicationRevision ≠ r := fun he => hr he.symm
      split at hq
      · obtain ⟨p,-,rfl⟩ := Option.map_eq_some_iff.mp hq
        simp [hne]
      · rename_i hpr
        rw [hparent] at hpr
        have hstatus := h.active r q hq
        simp only [Option.some.injEq,hne,iff_false]
        exact fun hact => hpr (hstatus.mp hact)
  · simp [get?_confirmPublish]
  · change Payload.Lineage _ i.parentPublicationRevision rs
    rw [hparent]
    refine hrs.congr fun s hs q hq => ?_
    have hne : s ≠ i.publicationRevision := fun he => hnotin (he ▸ hs)
    rw [get?_confirmPublish,if_neg hne,hq]
    split
    · exact ⟨_,rfl,rfl⟩
    · exact ⟨q,rfl,rfl⟩
  · exact List.nodup_cons.mpr ⟨hnotin,hnodup⟩
  · intro r hr q hq
    have hmem : r ∈ rs := hr
    have hne : r ≠ i.publicationRevision := fun he => hnotin (he ▸ hmem)
    rw [get?_confirmPublish,if_neg hne] at hq
    split at hq
    · obtain ⟨p,-,rfl⟩ := Option.map_eq_some_iff.mp hq
      rfl
    · rename_i hpr
      -- below the old top everything was superseded already
      have hhead := hrs.head
      rw [hparent] at hpr
      cases rs with
      | nil => simp at hmem
      | cons t ts =>
        rcases List.mem_cons.mp hmem with rfl | hts
        · exact absurd hhead.symm hpr
        · exact htail r hts q hq

lemma sound_confirmPublish (h : m.toPayload.Sound o) (hc : m.Claimed k .publish c i)
    (result : ApplyResult) (applied now key : String) (r : Response) :
    ((m.confirmPublish i result applied now).completeNonApplied k key r).toPayload.Sound o := by
  obtain ⟨hop,htraced,hknown⟩ := h.intents k i hc.intent
  have hfresh : m.publications.get? i.publicationRevision = none :=
    h.unpublished k i hc.intent hc.action
  have hpubs := get?_confirmPublish m i result applied now
  have hsettled := sound_settled h hc (p := (m.confirmPublish i result applied now).publications)
    (t := m.tombstones) (chained_confirmPublish h hc result applied now) ?_ ?_ ?_ key r
  · have hmark := sound_markCandidate hsettled i.candidateId .published "published"
    have heq : (m.confirmPublish i result applied now).completeNonApplied k key r =
        (Manager.completeNonApplied { m with
          publications := (m.confirmPublish i result applied now).publications
          activePublicationRevision := some i.publicationRevision
          tombstones := m.tombstones } k key r).markCandidate i.candidateId .published "published" := by
      conv_lhs => rw [confirmPublish_eq]
      rw [markCandidate_completeNonApplied]
    rw [heq]
    exact hmark
  · intro k' j hne hj hact
    have hrev := publish_revision_ne h hc.intent hj hc.action hact hne
    rw [hpubs,if_neg hrev,h.unpublished k' j hj hact]
    simp
  · intro s q hq
    rw [hpubs] at hq
    split at hq
    · rename_i hs
      cases hq
      obtain ⟨i₀,hi₀,hcand,hpub,-⟩ := htraced
      exact ⟨hs.symm,⟨i₀,hi₀,hcand,(hpub hc.action).2⟩,hknown⟩
    · split at hq
      · obtain ⟨p,hp,rfl⟩ := Option.map_eq_some_iff.mp hq
        exact h.publications s p hp
      · exact h.publications s q hq
  · intro k' t ht
    obtain ⟨q,hq,hcand⟩ := h.tombstones k' t ht
    have hne : t.publicationRevision ≠ i.publicationRevision := by
      intro he
      rw [he,hfresh] at hq
      cases hq
    rw [hpubs,if_neg hne,hq]
    split
    · exact ⟨_,rfl,hcand⟩
    · exact ⟨q,rfl,hcand⟩

lemma get?_rollBackPublication (m : Manager F) (k : String) (i : Intent F) (q : Publication F)
    (result : ApplyResult) (tombstoneId now s : String) :
    (m.rollBackPublication k i q result tombstoneId now).publications.get? s =
      if q.parentPublicationRevision = some s then
        (if s = i.publicationRevision then
          some { q with status := .rolledBack, rolledBackAt := some now }
        else m.publications.get? s).map fun p => p.reactivated result now
      else if s = i.publicationRevision then
        some { q with status := .rolledBack, rolledBackAt := some now }
      else m.publications.get? s := by
  unfold Manager.rollBackPublication
  simp only [get?_updatePublication,Dict.get?_set]

lemma rollBackPublication_eq (m : Manager F) (k : String) (i : Intent F) (q : Publication F)
    (result : ApplyResult) (tombstoneId now : String) :
    m.rollBackPublication k i q result tombstoneId now = { m with
      publications := (m.rollBackPublication k i q result tombstoneId now).publications
      activePublicationRevision := q.parentPublicationRevision
      tombstones := m.tombstones.set tombstoneId
        { tombstoneId, operationId := k, candidateId := i.candidateId,
          publicationRevision := i.publicationRevision, completedAt := now } } := by
  unfold Manager.rollBackPublication
  dsimp only
  rw [updatePublication_fields _ q.parentPublicationRevision]

variable {q : Publication F}

lemma lineage_of_claimed (h : m.toPayload.Sound o) (hc : m.Claimed k .rollback c i)
    (hq : m.publications.get? i.publicationRevision = some q) :
    ∃ rs, m.toPayload.Lineage q.parentPublicationRevision rs ∧ i.publicationRevision ∉ rs ∧
    rs.Nodup ∧
      ∀ r ∈ rs, ∀ p, m.publications.get? r = some p → p.status = .superseded := by
  have hactive : m.activePublicationRevision = some i.publicationRevision :=
    (h.holds hc).rollback hc.action q hq
  obtain ⟨rs,hrs,hnodup,htail⟩ := h.chain
  rw [hactive] at hrs
  cases rs with
  | nil => exact hrs.elim
  | cons r rest =>
    obtain ⟨rfl,q',hq',hrest⟩ := hrs
    obtain rfl : q = q' := Option.some.inj (hq.symm.trans hq')
    obtain ⟨hnotin,hrestNodup⟩ := List.nodup_cons.mp hnodup
    exact ⟨rest,hrest,hnotin,hrestNodup,htail⟩

lemma parent_ne_claimed (h : m.toPayload.Sound o) (hc : m.Claimed k .rollback c i)
    (hq : m.publications.get? i.publicationRevision = some q) {s : String}
    (hs : q.parentPublicationRevision = some s) : s ≠ i.publicationRevision := by
  obtain ⟨rs,hrs,hnotin,-,-⟩ := lineage_of_claimed h hc hq
  rintro rfl
  rw [hs] at hrs
  cases rs with
  | nil => exact hrs.elim
  | cons r rest =>
    have hr : i.publicationRevision = r := hrs.1
    exact hnotin (by simp [← hr])

lemma chained_rollBackPublication (h : m.toPayload.Sound o) (hc : m.Claimed k .rollback c i)
    (hq : m.publications.get? i.publicationRevision = some q) (result : ApplyResult)
    (tombstoneId now : String) : ({ m.toPayload with
      publications := (m.rollBackPublication k i q result tombstoneId now).publications
      activePublicationRevision := q.parentPublicationRevision } : Payload F).Chained := by
  have hactive : m.activePublicationRevision = some i.publicationRevision :=
    (h.holds hc).rollback hc.action q hq
  obtain ⟨rs,hrs,hnotin,hnodup,hbelow⟩ := lineage_of_claimed h hc hq
  have hpubs := get?_rollBackPublication m k i q result tombstoneId now
  refine ⟨?_,rs,?_,hnodup,?_⟩
  · intro r p hp
    rw [hpubs] at hp
    split at hp
    · rename_i hr
      obtain ⟨p₀,-,rfl⟩ := Option.map_eq_some_iff.mp hp
      simp [hr,Publication.reactivated]
    · rename_i hr
      split at hp
      · cases hp
        simp [hr]
      · rename_i hne
        have hstatus := h.active r p hp
        rw [hactive,Option.some.injEq] at hstatus
        simp only [hr,iff_false]
        exact fun hact => hne (hstatus.mp hact).symm
  · refine hrs.congr fun s hs p hp => ?_
    have hne : s ≠ i.publicationRevision := fun he => hnotin (he ▸ hs)
    rw [hpubs,if_neg hne,hp]
    split
    · exact ⟨_,rfl,rfl⟩
    · exact ⟨p,rfl,rfl⟩
  · intro r hr p hp
    have hmem : r ∈ rs := List.mem_of_mem_tail hr
    have hne : r ≠ i.publicationRevision := fun he => hnotin (he ▸ hmem)
    -- the parent is the head of the rest, so it is not in its tail
    have hnot_parent : q.parentPublicationRevision ≠ some r := by
      intro hpr
      have hhead := hrs.head
      rw [hpr] at hhead
      cases rs with
      | nil => simp at hmem
      | cons t ts =>
        obtain rfl : t = r := by simpa using hhead
        exact (List.nodup_cons.mp hnodup).1 hr
    rw [hpubs,if_neg hnot_parent,if_neg hne] at hp
    exact hbelow r hmem p hp

lemma sound_rollBackPublication (h : m.toPayload.Sound o) (hc : m.Claimed k .rollback c i)
    (hq : m.publications.get? i.publicationRevision = some q) (result : ApplyResult)
    (tombstoneId now key : String) (r : Response) :
    ((m.rollBackPublication k i q result tombstoneId now).completeNonApplied k key r).toPayload.Sound o := by
  obtain ⟨hqkey,hqtraced,hqknown⟩ := h.publications _ q hq
  have hpubs := get?_rollBackPublication m k i q result tombstoneId now
  -- the rolled-back publication and the reactivated parent keep what links them
  have hlinks : ∀ s p, (m.rollBackPublication k i q result tombstoneId now).publications.get? s =
      some p → ∃ p₀, m.publications.get? s = some p₀ ∧
        p.publicationRevision = p₀.publicationRevision ∧ p.candidateId = p₀.candidateId ∧
        p.before = p₀.before := by
    intro s p hp
    rw [hpubs] at hp
    split at hp
    · obtain ⟨p₁,hp₁,rfl⟩ := Option.map_eq_some_iff.mp hp
      split at hp₁
      · rename_i hs
        obtain rfl := Option.some.inj hp₁
        exact ⟨q,by rw [hs,hq],rfl,rfl,rfl⟩
      · exact ⟨p₁,hp₁,rfl,rfl,rfl⟩
    · split at hp
      · rename_i hs
        cases hp
        exact ⟨q,by rw [hs,hq],rfl,rfl,rfl⟩
      · exact ⟨p,hp,rfl,rfl,rfl⟩
  have hkept : ∀ s p₀, m.publications.get? s = some p₀ →
      ∃ p, (m.rollBackPublication k i q result tombstoneId now).publications.get? s = some p := by
    intro s p₀ hp₀
    rw [hpubs]
    split
    · split <;> simp [hp₀]
    · split <;> simp [hp₀]
  rw [rollBackPublication_eq]
  refine sound_settled h hc (chained_rollBackPublication h hc hq result tombstoneId now) ?_
    ?_ ?_ key r
  · intro k' j _ hj hact
    have hnone := h.unpublished k' j hj hact
    cases hp : (m.rollBackPublication k i q result tombstoneId now).publications.get? j.publicationRevision with
    | none => rfl
    | some p =>
      obtain ⟨p₀,hp₀,-⟩ := hlinks _ p hp
      exact absurd (hnone.symm.trans hp₀) (by simp)
  · intro s p hp
    obtain ⟨p₀,hp₀,hrev,hcand,hbefore⟩ := hlinks s p hp
    obtain ⟨hkey,⟨i₀,hi₀,hcand₀,hbefore₀⟩,hknown⟩ := h.publications s p₀ hp₀
    refine ⟨hrev.trans hkey,⟨i₀,?_,hcand.trans hcand₀,hbefore.trans hbefore₀⟩,?_⟩
    · rw [hrev,hi₀]
    · rw [hcand]
      exact hknown
  · intro k' t ht
    rw [Dict.get?_set] at ht
    split at ht
    · cases ht
      obtain ⟨p,hp⟩ := hkept _ q hq
      obtain ⟨p₀,hp₀,-,hcand,-⟩ := hlinks _ p hp
      obtain rfl : q = p₀ := Option.some.inj (hq.symm.trans hp₀)
      refine ⟨p,hp,?_⟩
      -- the intent and the publication go back to the same publish
      obtain ⟨-,⟨i₀,hi₀,hci,-,-⟩,-⟩ := h.intents k i hc.intent
      obtain ⟨i₁,hi₁,hcq,-⟩ := hqtraced
      rw [hqkey] at hi₁
      obtain rfl : i₀ = i₁ := Option.some.inj (hi₀.symm.trans hi₁)
      exact hcand.trans (hcq.trans hci.symm)
    · obtain ⟨q₀,hq₀,hcand⟩ := h.tombstones k' t ht
      obtain ⟨p,hp⟩ := hkept _ q₀ hq₀
      obtain ⟨p₀,hp₀,-,hcand₀,-⟩ := hlinks _ p hp
      obtain rfl : q₀ = p₀ := Option.some.inj (hq₀.symm.trans hp₀)
      exact ⟨p,hp,hcand₀.trans hcand⟩

lemma sound_rollBackIntent (h : m.toPayload.Sound o) (hc : m.Claimed k a c i) (key : String)
    (r : Response) : ((m.rollBackIntent k i).completeNonApplied k key r).toPayload.Sound o := by
  unfold Manager.rollBackIntent
  split
  · exact sound_completeNonApplied h k key r
  · refine h.calm {
      publications := rfl
      active := rfl
      tombstones := fun _ _ ht => ht
      intents := fun _ j hj => ⟨j,(Dict.get?_pop.mp (Dict.get?_pop.mp hj).1).1,rfl⟩
      claims := ?_
      count := Dict.length_filter_le _ _
      candidates := fun _ hid _ => hid }
    intro k' c' hk'
    obtain ⟨hc',hne⟩ := Dict.get?_pop.mp hk'
    exact absurd (claims_single h.one_claim hc.claim hc') hne

lemma sound_confirmRollback (h : m.toPayload.Sound o) (hc : m.Claimed k .rollback c i)
    (result : ApplyResult) (tombstoneId now key : String) (r : Response) :
    ((m.confirmRollback k i result tombstoneId now).completeNonApplied k key r).toPayload.Sound
      o := by
  unfold Manager.confirmRollback
  rw [markCandidate_completeNonApplied]
  apply sound_markCandidate
  split
  · exact sound_rollBackIntent h hc key r
  · rename_i q hq
    exact sound_rollBackPublication h hc hq result tombstoneId now key r

def Finish.Sound (o : Origin F) : Finish F → Prop
  | .unclaimed _ => True
  | .settled _ m => m.toPayload.Sound o
  | .confirmed _ m => m.toPayload.Sound o
  | .recovery _ m => m.toPayload.Sound o

lemma sound_finishPublish (h : m.toPayload.Sound o) (k : String) (result : ApplyResult)
    (recoveryRevision now : String) : (m.finishPublish k result recoveryRevision now).Sound o := by
  unfold Manager.finishPublish
  split
  · trivial
  · rename_i c i hci
    have hc := claimedIntent_some hci
    have hunknown := sound_setRecovery h k .publish "learning_publish_recovery_required" recoveryRevision now
    split
    · exact sound_completeNonApplied h k _ _
    split
    · split
      · exact hunknown
      · split
        · exact hunknown
        · exact sound_confirmPublish h hc result _ now _ _
    · split
      · exact hunknown
      · exact sound_completeNonApplied h k _ _

lemma sound_finishRollback (h : m.toPayload.Sound o) (k : String) (result : ApplyResult)
    (tombstoneId recoveryRevision now : String) :
    (m.finishRollback k result tombstoneId recoveryRevision now).Sound o := by
  unfold Manager.finishRollback
  split
  · trivial
  · rename_i c i hci
    have hc := claimedIntent_some hci
    split
    · exact sound_confirmRollback h hc result tombstoneId now _ _
    · split
      · exact sound_setRecovery h k .rollback _ recoveryRevision now
      · exact sound_completeNonApplied h k _ _

end Memora.Learning

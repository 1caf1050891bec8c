import Memora.EvolutionReview

/-! A rejection is one value of the state, which every invalidation overwrites. It holds as long as
no plan proposes the relation again after that. -/
namespace Memora.Evolution

variable {T : Type} {db db' : MemoryEvolutionStore T} {action : ReviewAction}

def MemoryEvolutionStore.lastReview (db : MemoryEvolutionStore T) (id : String) :
    Option ReviewAction :=
  (db.reviews.filter fun v => v.relationId = id).getLast?.map ReviewRow.action

def MemoryEvolutionStore.Closed (db : MemoryEvolutionStore T) : Prop :=
  ∀ r ∈ db.relations, db.lastReview r.relationId = some .reject → r.state ≠ .candidate ∧
  r.state ≠ .active

def NoReopening (db : MemoryEvolutionStore T) (s : EvolutionStep T) : Prop :=
  ∀ plan, s.call = .applyPlan plan → ∀ r ∈ db.relations,
    db.lastReview r.relationId = some .reject → r.state = .invalidated →
      r.relationKey ∉ plan.relations.map plan.keyOf

lemma mem_of_lastReview (h : db.Wellformed) {id : String}
    (hlast : db.lastReview id = some action) : id ∈ db.relations.map RelationRow.relationId := by
  obtain ⟨v,hv,-⟩ := Option.map_eq_some_iff.mp hlast
  obtain ⟨hin,hid⟩ := List.mem_filter.mp (List.mem_of_getLast? hv)
  have hsame : v.relationId = id := by simpa using hid
  rw [← hsame]
  exact h.reviewed v hin

lemma applied_closed {plan : DerivedApplyPlan T} (h : db.Wellformed) (hclosed : db.Closed)
    (hgood : ∀ r ∈ db.relations, db.lastReview r.relationId = some .reject →
      r.state = .invalidated → r.relationKey ∉ plan.relations.map plan.keyOf)
    (happlied : Applied db plan db') : db'.Closed := by
  have hlast : ∀ id, db'.lastReview id = db.lastReview id := by
    intro id
    unfold MemoryEvolutionStore.lastReview
    rw [happlied.reviews]
  -- the rejected rows are out of reach of the update, the invalidated ones are not proposed
  have hkept := ExceptLaws.foldlM_invariant (P := fun rows : List RelationRow =>
      (∀ r ∈ rows, db.lastReview r.relationId = some .reject → r.state = .rejected ∨
        (r.state = .invalidated ∧ r.relationKey ∉ plan.relations.map plan.keyOf)) ∧
      ∀ id ∈ db.relations.map RelationRow.relationId, id ∈ rows.map RelationRow.relationId)
    (fun rows rel hrel rows' hstep hP => by
      have hup := upsertRelation_ok hstep
      refine ⟨?_,fun id hid => upserted_ids hup (hP.2 id hid)⟩
      cases hup with
      | updated =>
        intro r' hr' hbarred
        obtain ⟨r,hr,rfl⟩ := RowTable.mem_modify.mp hr'
        split at hbarred
        · rename_i hselected
          simp only [Bool.and_eq_true,decide_eq_true_eq] at hselected
          rcases hP.1 r hr hbarred with hrejected | ⟨-,hout⟩
          · exact absurd hrejected hselected.2
          · exact absurd (List.mem_map.mpr ⟨rel,hrel,hselected.1.symm⟩) hout
        · rename_i hselected
          rw [if_neg hselected]
          exact hP.1 r hr hbarred
      | inserted new hid hkeyed hends htype hstate =>
        intro r' hr' hbarred
        rcases List.mem_append.mp hr' with hr | hr
        · exact hP.1 r' hr hbarred
        · obtain rfl := List.mem_singleton.mp hr
          obtain ⟨r,hr,heq⟩ := List.mem_map.mp (hP.2 _ (mem_of_lastReview h hbarred))
          exact absurd heq (hid r hr))
    ⟨fun r hr hbarred => by
      obtain ⟨hcandidate,hactive⟩ := hclosed r hr hbarred
      cases hstate : r.state with
      | candidate => exact absurd hstate hcandidate
      | active => exact absurd hstate hactive
      | invalidated => exact .inr ⟨rfl,hgood r hr hbarred hstate⟩
      | rejected => exact .inl rfl,fun _ hid => hid⟩ happlied.relations
  intro r hr hbarred
  rw [hlast] at hbarred
  rcases hkept.1 r hr hbarred with hstate | ⟨hstate,-⟩
  · simp [hstate]
  · simp [hstate]

lemma reviewed_closed (h : db.Wellformed) (hclosed : db.Closed) {id : String}
    {row : RelationRow} {newState : DerivedState}
    (hreviewed : Reviewed db id action row newState db') : db'.Closed := by
  obtain ⟨v,hvid,hvaction,hreviews⟩ := hreviewed.reviews
  intro r' hr' hbarred
  rw [hreviewed.relations] at hr'
  obtain ⟨r,hr,rfl⟩ := RowTable.mem_modify.mp hr'
  by_cases hid : r.relationId = id
  · -- the one row of this id is the reviewed one
    obtain rfl : r = row := RowTable.eq_of_key_eq h.rows.ids hr hreviewed.mem (hid.trans hreviewed.named.symm)
    rw [if_pos (by simp [hid])] at hbarred ⊢
    have haction : action = .reject := by
      unfold MemoryEvolutionStore.lastReview at hbarred
      rw [hreviews,List.filter_append] at hbarred
      simpa [hvid,hid,hvaction] using hbarred
    subst haction
    have hnext := hreviewed.next
    cases hstate : r.state <;> simp [hstate,nextReviewState] at hnext
    simp [← hnext]
  · rw [if_neg (by simp [hid])] at hbarred ⊢
    refine hclosed r hr ?_
    unfold MemoryEvolutionStore.lastReview at hbarred ⊢
    rw [hreviews,List.filter_append] at hbarred
    have hother : ¬v.relationId = r.relationId := fun heq => hid (heq.symm.trans hvid)
    simpa [hother] using hbarred

lemma invalidated_closed (hclosed : db.Closed) (selected : RelationRow → Bool)
    (hrelations : db'.relations = invalidateRelations selected db.relations)
    (hreviews : db'.reviews = db.reviews) : db'.Closed := by
  intro r' hr' hbarred
  have hlast : ∀ id, db'.lastReview id = db.lastReview id := by
    intro id
    unfold MemoryEvolutionStore.lastReview
    rw [hreviews]
  rw [hlast] at hbarred
  rw [hrelations] at hr'
  obtain ⟨r,hr,rfl⟩ := RowTable.mem_modify.mp hr'
  split
  · simp [RelationRow.invalidated]
  · rename_i hselected
    rw [if_neg hselected] at hbarred
    exact hclosed r hr hbarred

lemma step_closed (h : db.Wellformed) (hclosed : db.Closed) {s : EvolutionStep T}
    (hgood : NoReopening db s) : (db.step s).Closed := by
  unfold MemoryEvolutionStore.step
  split
  · exact hclosed
  cases hcall : db.attempt s.call s.now with
  | error e => exact hclosed
  | ok db' =>
    obtain ⟨call,now,raised⟩ := s
    cases call with
    | canonical documents =>
      cases hcall
      exact hclosed
    | applyPlan plan => exact applied_closed h hclosed (hgood plan rfl) (applyDerivedPlan_ok hcall)
    | review id action revision =>
      obtain ⟨row,newState,hreviewed⟩ := review_ok hcall
      exact reviewed_closed h hclosed hreviewed
    | sourceRevision | deletedSource | rollback | invalidateAll | cleanup =>
      cases hcall
      exact invalidated_closed hclosed _ rfl rfl

/-- In a run in which no plan proposes a relation again that was rejected last and then
invalidated, what an operator rejected stays closed until a replay. -/
theorem rejected_relations_closed {start : MemoryEvolutionStore T} (hfresh : start.Fresh)
    (steps : List (EvolutionStep T)) (hgood : RunLaws.Along MemoryEvolutionStore.step NoReopening start steps) :
    ∀ before after, steps = before++after → (start.run before).Closed := by
  rintro before after rfl
  have hstart : start.Wellformed ∧ start.Closed :=
    ⟨fresh_wellformed hfresh,fun r hr => by rw [hfresh.1] at hr; cases hr⟩
  exact (RunLaws.along_invariant (P := fun db : MemoryEvolutionStore T => db.Wellformed ∧ db.Closed)
    (fun db s hs h => ⟨step_wellformed h.1 s,step_closed h.1 h.2 hs⟩) hstart
    (RunLaws.along_append.mp hgood).1).2

def reopenedRun : List (EvolutionStep ℕ) :=
  [{ call := .canonical [teaMemory,coffeeMemory], now := 1 },
   { call := .applyPlan conflictPlan, now := 2 },
   { call := .review conflictId .reject 1, now := 3 },
   { call := .invalidateAll, now := 4 },
   { call := .applyPlan conflictPlan, now := 5 }]

theorem rejected_relations_closed_sample : (({} : MemoryEvolutionStore ℕ).run
    (reopenedRun.take 4)).Closed := by
  refine @rejected_relations_closed ℕ {} ⟨rfl,rfl,rfl,rfl⟩
    (reopenedRun.take 4) ⟨?_,?_,?_,?_,trivial⟩ (reopenedRun.take 4) [] (by simp)
  · intro plan hplan
    cases hplan
  · intro plan _ r hr
    cases hr
  · intro plan hplan
    cases hplan
  · intro plan hplan
    cases hplan

/-- The rejected relation is a candidate again without a replay, by a plan of the manager. -/
theorem rejection_forgotten : conflictPlan.Built ∧
      (({} : MemoryEvolutionStore ℕ).run reopenedRun).lastReview conflictId = some .reject ∧
      ¬(({} : MemoryEvolutionStore ℕ).run reopenedRun).Closed := by
  refine ⟨conflictPlan_built,by decide +kernel,fun hclosed => ?_⟩
  have hrow : (({} : MemoryEvolutionStore ℕ).run reopenedRun).relations.map
      (fun r => (r.relationId,r.state)) = [(conflictId,.candidate)] := by decide +kernel
  obtain ⟨r,hr,heq⟩ := List.mem_map.mp (hrow ▸ List.mem_singleton_self _)
  simp only [Prod.mk.injEq] at heq
  exact (hclosed r hr (by rw [heq.1]; decide +kernel)).1 heq.2

end Memora.Evolution

import Memora.EvolutionPlans

/-! A plan proposes, an operator reviews, and invalidations only ever close: what each of these can
do to one row of the relations. -/
namespace Memora.Evolution

open ExceptLaws (bind_ok)

variable {T : Type} {db db' : MemoryEvolutionStore T}

lemma relationType_value_injective {a b : RelationType} (h : a.value = b.value) : a = b := by
  cases a <;> cases b <;> first | rfl | exact absurd h (by decide)

lemma last_part {a b x y : String} (h : a++":"++x = b++":"++y) (hx : ':' ∉ x.toList)
    (hy : ':' ∉ y.toList) : x = y := by
  have hlast : ∀ {a x : String}, ':' ∉ x.toList →
      ((a++":"++x).toList.reverse.takeWhile fun d => d ≠ ':') = x.toList.reverse := by
    intro a x hx
    have hcolon : (":" : String).toList = [':'] := rfl
    rw [String.toList_append,String.toList_append,hcolon,List.reverse_append,
      List.takeWhile_append_of_pos (by
        intro d hd
        have hne : d ≠ ':' := fun heq => hx (heq ▸ List.mem_reverse.mp hd)
        simpa using hne)]
    simp
  have hrev : x.toList.reverse = y.toList.reverse := by rw [← hlast hx,← hlast hy,h]
  exact String.toList_injective (List.reverse_injective hrev)

def RelationRow.Keyed (r : RelationRow) : Prop :=
  ∃ ends : String, r.relationKey = ends++":"++r.relationType.value

variable {rel : RelationView}

lemma type_of_key {r : RelationRow} (h : r.Keyed) {sourceRevision targetRevision : String}
    (hkey : r.relationKey = relationKey rel sourceRevision targetRevision) :
    r.relationType = rel.relationType := by
  obtain ⟨ends,hends⟩ := h
  have hno : ∀ t : RelationType, ':' ∉ t.value.toList := by
    intro t
    cases t <;> decide
  apply relationType_value_injective
  exact last_part (hends.symm.trans hkey) (hno _) (hno _)

def DerivedApplyPlan.keyOf (plan : DerivedApplyPlan T) (rel : RelationView) : String :=
  relationKey rel (plan.revisionOf rel.sourceRevision rel.sourceMemoryId)
    (plan.revisionOf rel.targetRevision rel.targetMemoryId)

inductive Upserted (plan : DerivedApplyPlan T) (rel : RelationView) (rows : List RelationRow) :
    List RelationRow → Prop
  | updated : Upserted plan rel rows
      (RowTable.modify (fun r => r.relationKey = plan.keyOf rel && r.state ≠ .rejected)
        (fun r => r.reproposed rel plan.originJobId) rows)
  | inserted (new : RelationRow) (hid : ∀ r ∈ rows, r.relationId ≠ new.relationId)
      (hkeyed : new.Keyed) (hends : new.sourceRevision ≠ "" ∧ new.targetRevision ≠ "")
      (htype : new.relationType = rel.relationType) (hstate : new.state = rel.state) :
      Upserted plan rel rows (rows++[new])

variable {rows rows' : List RelationRow} {plan : DerivedApplyPlan T}

lemma upsertRelation_ok (h : upsertRelation plan rows rel = .ok rows') :
    Upserted plan rel rows rows' := by
  unfold upsertRelation at h
  dsimp only at h
  split at h
  · cases h
  rename_i hends
  split at h
  · cases h
    exact .updated
  split at h
  · cases h
  · rename_i hid
    cases h
    refine .inserted _ ?_ ⟨_,rfl⟩ (not_or.mp hends) rfl rfl
    intro r hr heq
    exact hid (List.any_eq_true.mpr ⟨r,hr,by simpa using heq⟩)

structure Applied (db : MemoryEvolutionStore T) (plan : DerivedApplyPlan T)
    (db' : MemoryEvolutionStore T) : Prop where
  valid : db.validatePlanSources plan = .ok ()
  relations : plan.relations.foldlM (upsertRelation plan) db.relations = .ok db'.relations
  reviews : db'.reviews = db.reviews
  documents : db'.documents = db.documents

lemma applyDerivedPlan_ok (h : db.applyDerivedPlan plan = .ok db') :
    Applied db plan db' := by
  obtain ⟨_,hvalid,h⟩ := bind_ok h
  obtain ⟨relations,hrelations,h⟩ := bind_ok h
  obtain ⟨w,-,h⟩ := bind_ok h
  obtain ⟨mappings,-,h⟩ := bind_ok h
  cases h
  exact ⟨hvalid,hrelations,rfl,rfl⟩

structure Reviewed (db : MemoryEvolutionStore T) (id : String) (action : ReviewAction)
    (row : RelationRow) (newState : DerivedState) (db' : MemoryEvolutionStore T) : Prop where
  mem : row ∈ db.relations
  named : row.relationId = id
  reviewable : row.relationType.reviewable = true
  next : nextReviewState row.state action = some newState
  valid : action ≠ .reject → db.validatePlanSources row.reviewPlan = .ok ()
  relations : db'.relations = RowTable.modify (fun r => r.relationId = id &&
    r.revision = row.revision && r.state = row.state)
    (fun r => { r with state := newState, revision := row.revision+1 }) db.relations
  documents : db'.documents = db.documents
  reviews : ∃ v : ReviewRow, v.relationId = id ∧ v.action = action ∧ db'.reviews = db.reviews++[v]

lemma review_ok {id : String} {action : ReviewAction} {revision : ℕ}
    (h : db.reviewRelationCandidate (Canonical.pythonStrip id) action revision = .ok db') :
    ∃ row newState, Reviewed db (Canonical.pythonStrip id) action row newState db' := by
  unfold MemoryEvolutionStore.reviewRelationCandidate at h
  have hstrip : Canonical.pythonStrip (Canonical.pythonStrip id) = Canonical.pythonStrip id :=
    Canonical.stripWhere_stripWhere _ _
  rw [hstrip] at h
  split at h
  · cases h
  split at h
  · cases h
  split at h
  · cases h
  rename_i row hfind
  split at h
  · cases h
  rename_i hreviewable
  split at h
  · cases h
  split at h
  · cases h
  rename_i newState hnext
  have hid : row.relationId = Canonical.pythonStrip id := by simpa using List.find?_some hfind
  split at h
  · cases h
  rename_i hvalid
  dsimp only at h
  split at h
  · cases h
  · cases h
    have hmem := List.mem_of_find?_eq_some hfind
    refine ⟨row,newState,hmem,hid,by simpa using hreviewable,hnext,?_,rfl,rfl,_,rfl,rfl,rfl⟩
    intro hne
    rw [if_neg hne] at hvalid
    exact hvalid

def RelationRow.frozen (r : RelationRow) : String × String × ℤ × ℤ × String × String ×
    RelationType :=
  (r.relationId,r.relationKey,r.sourceMemoryId,r.targetMemoryId,r.sourceRevision,
    r.targetRevision,r.relationType)

lemma ids_of_frozen (h : rows'.map RelationRow.frozen = rows.map RelationRow.frozen) :
    rows'.map RelationRow.relationId = rows.map RelationRow.relationId := by
  have hids : ∀ rows : List RelationRow,
      rows.map RelationRow.relationId = (rows.map RelationRow.frozen).map Prod.fst := by
    intro rows
    rw [List.map_map]
    rfl
  rw [hids,h,← hids]

structure RowsOk (rows : List RelationRow) : Prop where
  ids : (rows.map RelationRow.relationId).Nodup
  keyed : ∀ r ∈ rows, r.Keyed
  ends : ∀ r ∈ rows, r.sourceRevision ≠ "" ∧ r.targetRevision ≠ ""

lemma RowsOk.of_frozen (h : RowsOk rows)
    (hfrozen : rows'.map RelationRow.frozen = rows.map RelationRow.frozen) : RowsOk rows' := by
  have hback : ∀ r' ∈ rows', ∃ r ∈ rows, r.frozen = r'.frozen := by
    intro r' hr'
    have hmem : r'.frozen ∈ rows.map RelationRow.frozen := by
      rw [← hfrozen]
      exact List.mem_map_of_mem hr'
    exact List.mem_map.mp hmem
  refine ⟨?_,?_,?_⟩
  · rw [ids_of_frozen hfrozen]
    exact h.ids
  · intro r' hr'
    obtain ⟨r,hr,heq⟩ := hback r' hr'
    obtain ⟨ends,hends⟩ := h.keyed r hr
    simp only [RelationRow.frozen,Prod.mk.injEq] at heq
    exact ⟨ends,by rw [← heq.2.1,← heq.2.2.2.2.2.2]; exact hends⟩
  · intro r' hr'
    obtain ⟨r,hr,heq⟩ := hback r' hr'
    simp only [RelationRow.frozen,Prod.mk.injEq] at heq
    rw [← heq.2.2.2.2.1,← heq.2.2.2.2.2.1]
    exact h.ends r hr

lemma upserted_rowsOk (h : RowsOk rows) (hup : Upserted plan rel rows rows') :
    RowsOk rows' := by
  cases hup with
  | updated => exact h.of_frozen (RowTable.map_modify _ _ _ _ fun _ _ _ => rfl)
  | inserted new hid hkeyed hends htype hstate =>
    refine ⟨?_,?_,?_⟩
    · rw [List.map_append,List.nodup_append]
      refine ⟨h.ids,List.nodup_singleton _,?_⟩
      intro x hx y hy heq
      obtain ⟨r,hr,rfl⟩ := List.mem_map.mp hx
      have hnew : y = new.relationId := by simpa using hy
      exact hid r hr (heq.trans hnew)
    · intro r hr
      rcases List.mem_append.mp hr with hr | hr
      · exact h.keyed r hr
      · rw [List.mem_singleton.mp hr]
        exact hkeyed
    · intro r hr
      rcases List.mem_append.mp hr with hr | hr
      · exact h.ends r hr
      · rw [List.mem_singleton.mp hr]
        exact hends

lemma upserted_ids (hup : Upserted plan rel rows rows') {id : String}
    (hid : id ∈ rows.map RelationRow.relationId) : id ∈ rows'.map RelationRow.relationId := by
  cases hup with
  | updated =>
    have hkept := ids_of_frozen (RowTable.map_modify RelationRow.frozen
      (fun r => r.relationKey = plan.keyOf rel && r.state ≠ .rejected)
      (fun r => r.reproposed rel plan.originJobId) rows fun _ _ _ => rfl)
    rw [hkept]
    exact hid
  | inserted new hid' hkeyed hends htype hstate =>
    rw [List.map_append]
    exact List.mem_append_left _ hid

structure MemoryEvolutionStore.Wellformed (db : MemoryEvolutionStore T) : Prop where
  rows : RowsOk db.relations
  reviewed : ∀ v ∈ db.reviews, v.relationId ∈ db.relations.map RelationRow.relationId

def MemoryEvolutionStore.Fresh (db : MemoryEvolutionStore T) : Prop :=
  db.relations = [] ∧ db.projections = [] ∧ db.mappings = [] ∧ db.reviews = []

lemma fresh_wellformed (h : db.Fresh) : db.Wellformed := by
  obtain ⟨hrelations,-,-,hreviews⟩ := h
  refine ⟨⟨?_,?_,?_⟩,?_⟩
  · simp [hrelations]
  · simp [hrelations]
  · simp [hrelations]
  · simp [hreviews]

lemma wellformed_of_frozen (h : db.Wellformed)
    (hfrozen : db'.relations.map RelationRow.frozen = db.relations.map RelationRow.frozen)
    (hreviews : db'.reviews = db.reviews) : db'.Wellformed := by
  refine ⟨h.rows.of_frozen hfrozen,fun v hv => ?_⟩
  rw [ids_of_frozen hfrozen]
  exact h.reviewed v (hreviews ▸ hv)

lemma applied_wellformed (h : db.Wellformed) (happlied : Applied db plan db') :
    db'.Wellformed := by
  have hrows : RowsOk db'.relations := ExceptLaws.foldlM_invariant
    (fun rows rel _ rows' hrel hok => upserted_rowsOk hok (upsertRelation_ok hrel)) h.rows
    happlied.relations
  refine ⟨hrows,fun v hv => ?_⟩
  rw [happlied.reviews] at hv
  exact ExceptLaws.foldlM_invariant
    (P := fun rows : List RelationRow => v.relationId ∈ rows.map RelationRow.relationId)
    (fun rows rel _ rows' hrel hin => upserted_ids (upsertRelation_ok hrel) hin) (h.reviewed v hv)
    happlied.relations

lemma attempt_wellformed (h : db.Wellformed) {call : EvolutionCall T} {now : T}
    (hcall : db.attempt call now = .ok db') : db'.Wellformed := by
  cases call with
  | canonical documents =>
    cases hcall
    exact wellformed_of_frozen h rfl rfl
  | applyPlan plan => exact applied_wellformed h (applyDerivedPlan_ok hcall)
  | review id action revision =>
    obtain ⟨row,newState,hreviewed⟩ := review_ok hcall
    obtain ⟨v,hid,-,hreviews⟩ := hreviewed.reviews
    have hfrozen : db'.relations.map RelationRow.frozen = db.relations.map RelationRow.frozen := by
      rw [hreviewed.relations]
      exact RowTable.map_modify _ _ _ _ fun _ _ _ => rfl
    refine ⟨h.rows.of_frozen hfrozen,fun w hw => ?_⟩
    rw [ids_of_frozen hfrozen]
    rw [hreviews] at hw
    rcases List.mem_append.mp hw with hw | hw
    · exact h.reviewed w hw
    · rw [List.mem_singleton.mp hw,hid,← hreviewed.named]
      exact List.mem_map_of_mem hreviewed.mem
  | sourceRevision | deletedSource | rollback | invalidateAll | cleanup =>
    cases hcall
    exact wellformed_of_frozen h (RowTable.map_modify _ _ _ _ fun _ _ _ => rfl) rfl

lemma step_wellformed (h : db.Wellformed) (s : EvolutionStep T) : (db.step s).Wellformed := by
  unfold MemoryEvolutionStore.step
  split
  · exact h
  · cases hcall : db.attempt s.call s.now with
    | error e => exact h
    | ok db' => exact attempt_wellformed h hcall

lemma run_wellformed (h : db.Wellformed) (steps : List (EvolutionStep T)) :
    (db.run steps).Wellformed :=
  RunLaws.foldl_invariant (P := MemoryEvolutionStore.Wellformed)
  (fun _ s h => step_wellformed h s) h steps

end Memora.Evolution

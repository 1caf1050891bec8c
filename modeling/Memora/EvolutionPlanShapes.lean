import Memora.EvolutionReader

/-! Every relation and every mapping of a plan goes back to sources it was made from, with their
revision, within their scope and at least as private as they are. -/
namespace Memora.Evolution

open ExceptLaws (bind_ok)

variable {T : Type} {config : PlanConfig} {sources : List (MemorySourceRef T)}

lemma aliasOf_ok {name : String} {s : MemorySourceRef T} (h : aliasOf sources name = .ok s) :
    s ∈ sources := by
  unfold aliasOf at h
  split at h
  · rename_i x hx
    cases h
    exact List.fst_mem_of_mem_zipIdx (List.mem_of_find?_eq_some hx)
  · cases h

lemma scopes_of_compatible {first : MemorySourceRef T} {rest : List (MemorySourceRef T)}
    (h : ensureScopeCompatible (first::rest) = .ok ()) :
    ∀ s ∈ rest, s.scopeKey = first.scopeKey := by
  dsimp only [ensureScopeCompatible] at h
  split at h
  · cases h
  · rename_i hany
    intro s hs
    by_contra hne
    exact hany (List.any_eq_true.mpr ⟨s,hs,by simpa using hne⟩)

lemma scope_of_compatible {first second : MemorySourceRef T} {relationType : RelationType}
    (h : ensureCompatible first second relationType = .ok ()) :
    second.scopeKey = first.scopeKey := by
  obtain ⟨_,hscope,-⟩ := bind_ok h
  exact scopes_of_compatible hscope second (List.mem_singleton_self _)

lemma strictest_fold (rest : List (MemorySourceRef T)) (level : PrivacyLevel) :
    level.rank ≤ (rest.foldl (fun level s =>
        if level.rank < s.privacyLevel.rank then s.privacyLevel else level) level).rank ∧
      ∀ s ∈ rest, s.privacyLevel.rank ≤ (rest.foldl (fun level s =>
        if level.rank < s.privacyLevel.rank then s.privacyLevel else level) level).rank := by
  induction rest generalizing level with
  | nil => simp
  | cons s rest ih =>
    obtain ⟨hlevel,hrest⟩ := ih (if level.rank < s.privacyLevel.rank then s.privacyLevel else level)
    have hstep : level.rank ≤ (if level.rank < s.privacyLevel.rank then s.privacyLevel else level).rank ∧
        s.privacyLevel.rank ≤ (if level.rank < s.privacyLevel.rank then s.privacyLevel else level).rank := by
      split
      · omega
      · omega
    refine ⟨hstep.1.trans hlevel,fun x hx => ?_⟩
    rcases List.mem_cons.mp hx with rfl | hx
    · exact hstep.2.trans hlevel
    · exact hrest x hx

lemma le_strictest (first : MemorySourceRef T) (rest : List (MemorySourceRef T)) :
    ∀ s ∈ first::rest, s.privacyLevel.rank ≤ (strictestPrivacy first rest).rank := by
  obtain ⟨hfirst,hrest⟩ := strictest_fold rest first.privacyLevel
  intro s hs
  rcases List.mem_cons.mp hs with rfl | hs
  · exact hfirst
  · exact hrest s hs

def RelationView.edge (rel : RelationView) : ℤ × ℤ := (rel.sourceMemoryId,rel.targetMemoryId)

structure RelationView.Between (rel : RelationView) (s t : MemorySourceRef T) : Prop where
  source : rel.sourceMemoryId = s.memoryId
  target : rel.targetMemoryId = t.memoryId
  sourceRevision : rel.sourceRevision = some s.revisionToken
  targetRevision : rel.targetRevision = some t.revisionToken
  scope : s.scopeKey = rel.scopeKey ∧ t.scopeKey = rel.scopeKey
  privacy : s.privacyLevel.rank ≤ rel.privacyLevel.rank ∧
    t.privacyLevel.rank ≤ rel.privacyLevel.rank

lemma planRelation_between {acc acc' : List RelationView × List (ℤ × ℤ)} {item : RelationProposal}
    (h : config.planRelation sources acc item = .ok acc') :
    ∃ rel, (∃ s ∈ sources, ∃ t ∈ sources, rel.Between s t) ∧ rel.edge ∉ acc.2 ∧
      acc' = (acc.1++[rel],rel.edge::acc.2) := by
  obtain ⟨s,hs,h⟩ := bind_ok h
  obtain ⟨t,ht,h⟩ := bind_ok h
  split at h
  · cases h
  obtain ⟨_,hcompatible,h⟩ := bind_ok h
  split at h
  · cases h
  rename_i hcycle
  cases h
  have hprivacy := le_strictest s [t]
  refine ⟨_,⟨s,aliasOf_ok hs,t,aliasOf_ok ht,rfl,rfl,rfl,rfl,⟨rfl,?_⟩,?_,?_⟩,?_,rfl⟩
  · exact scope_of_compatible hcompatible
  · exact hprivacy s (by simp)
  · exact hprivacy t (by simp)
  · intro hmem
    apply hcycle
    have hcontains : acc.2.contains (s.memoryId,t.memoryId) = true := List.contains_iff_mem.mpr hmem
    rw [hcontains]
    rfl

structure Part (sources : List (MemorySourceRef T)) (p : ProjectionView T)
    (mappings : List (SourceMapping T)) : Prop where
  named : ∀ m ∈ mappings, m.projectionId = p.projectionId
  sourced : ∀ m ∈ mappings, ∃ s ∈ sources, m.memoryId = s.memoryId ∧
    m.revisionToken = s.revisionToken ∧ s.scopeKey = p.scopeKey ∧
    s.privacyLevel.rank ≤ p.privacyLevel.rank
  ids : p.sourceMemoryIds = mappings.map SourceMapping.memoryId
  nodup : (mappings.map SourceMapping.memoryId).Nodup
  primary : ∃ m, mappings.filter (fun m => m.role = .primary) = [m]
  sides : p.projectionType = .conflictSet → bothSides mappings = true

variable (projectionType : ProjectionType) (projectionId : String)

def mappingsOver (items : List (MemorySourceRef T)) : List (SourceMapping T) :=
  items.zipIdx.map fun s => {
    projectionId
    memoryId := s.1.memoryId
    revisionToken := s.1.revisionToken
    role := PlanConfig.sourceRole projectionType s.2
    ordinal := s.2 }

lemma ids_mappingsOver (items : List (MemorySourceRef T)) :
    (mappingsOver projectionType projectionId items).map SourceMapping.memoryId =
      items.map MemorySourceRef.memoryId := by
  unfold mappingsOver
  rw [List.map_map]
  have hfst : (SourceMapping.memoryId ∘ fun s : MemorySourceRef T × ℕ => ({
      projectionId
      memoryId := s.1.memoryId
      revisionToken := s.1.revisionToken
      role := PlanConfig.sourceRole projectionType s.2
      ordinal := s.2 } : SourceMapping T)) = MemorySourceRef.memoryId ∘ Prod.fst := rfl
  rw [hfst,← List.map_map,List.zipIdx_map_fst]

lemma primary_mappingsOver (first : MemorySourceRef T) (rest : List (MemorySourceRef T)) :
    ∃ m, (mappingsOver projectionType projectionId (first::rest)).filter
      (fun m => m.role = .primary) = [m] := by
  refine ⟨_,congrArg _ (List.filter_eq_nil_iff.mpr ?_)⟩
  intro m hm
  obtain ⟨x,hx,rfl⟩ := List.mem_map.mp hm
  have hlater : x.2 ≠ 0 := by
    have := List.le_snd_of_mem_zipIdx hx
    omega
  simp only [PlanConfig.sourceRole,if_neg hlater,decide_eq_true_eq]
  split
  · split
    · simp
    · split <;> simp
  · simp

lemma sides_mappingsOver {items : List (MemorySourceRef T)} (h : 3 ≤ items.length) :
    bothSides (mappingsOver .conflictSet projectionId items) = true := by
  match items, h with
  | a::b::c::rest, _ =>
    unfold mappingsOver bothSides
    simp [PlanConfig.sourceRole]

lemma planProjection_part {acc acc' : PlanConfig.ProjectionPlans T} {item : ProjectionProposal T}
    (h : config.planProjection sources acc item = .ok acc') :
    ∃ p mappings, Part sources p mappings ∧ acc'.projections = acc.projections++[p] ∧
      acc'.sources = acc.sources++mappings := by
  obtain ⟨items,hitems,h⟩ := bind_ok h
  dsimp only at h
  split at h
  · cases h
  rename_i hdistinct
  split at h
  · cases h
  obtain ⟨_,hcompatible,h⟩ := bind_ok h
  cases items with
  | nil => cases h
  | cons first rest => ?_
  dsimp only at h
  split at h
  · cases h
  rename_i hroles
  cases h
  obtain ⟨_,hscopes,-⟩ := bind_ok hcompatible
  have hscope : ∀ s ∈ first::rest, s.scopeKey = first.scopeKey := by
    intro s hs
    rcases List.mem_cons.mp hs with rfl | hs
    · rfl
    · exact scopes_of_compatible hscopes s hs
  have hnodup : ((first::rest).map MemorySourceRef.memoryId).Nodup := by
    rw [← (List.dedup_sublist _).eq_of_length (not_not.mp hdistinct)]
    exact List.nodup_dedup _
  refine ⟨_,_,⟨?_,?_,?_,?_,?_,?_⟩,rfl,rfl⟩
  · intro m hm
    obtain ⟨x,-,rfl⟩ := List.mem_map.mp hm
    rfl
  · intro m hm
    obtain ⟨x,hx,rfl⟩ := List.mem_map.mp hm
    have hmem := List.fst_mem_of_mem_zipIdx hx
    obtain ⟨_,-,halias⟩ := ExceptLaws.mapM_ok hitems x.1 hmem
    exact ⟨x.1,aliasOf_ok halias,rfl,rfl,hscope x.1 hmem,le_strictest first rest x.1 hmem⟩
  · exact (ids_mappingsOver item.projectionType _ (first::rest)).symm
  · exact (ids_mappingsOver item.projectionType _ (first::rest)) ▸ hnodup
  · exact primary_mappingsOver item.projectionType _ first rest
  · intro hconflict
    dsimp only at hconflict
    have hlength : 3 ≤ (first::rest).length := by
      by_contra hshort
      exact hroles ⟨hconflict,by omega⟩
    rw [hconflict]
    exact sides_mappingsOver _ hlength

/-- A plan over distinct sources: relations along distinct edges, and projections each with its
own part of the mappings. -/
structure DerivedApplyPlan.Over (plan : DerivedApplyPlan T) (sources : List (MemorySourceRef T)) :
    Prop where
  distinct : (sources.map MemorySourceRef.memoryId).Nodup
  between : ∀ rel ∈ plan.relations, ∃ s ∈ sources, ∃ t ∈ sources, rel.Between s t
  edges : (plan.relations.map RelationView.edge).Nodup
  parts : ∃ parts : List (ProjectionView T × List (SourceMapping T)),
    (∀ part ∈ parts, Part sources part.1 part.2) ∧ plan.projections = parts.map Prod.fst ∧
      plan.projectionSources = parts.flatMap Prod.snd
  revisions : plan.sourceRevisions =
    sources.foldl (fun table s => table.set s.memoryId s.revisionToken) {}

lemma relations_between {proposals : List RelationProposal}
    {acc : List RelationView × List (ℤ × ℤ)}
    (h : proposals.foldlM (config.planRelation sources) ([],[]) = .ok acc) :
    (∀ rel ∈ acc.1, ∃ s ∈ sources, ∃ t ∈ sources, rel.Between s t) ∧
    (acc.1.map RelationView.edge).Nodup := by
  have hall : (∀ rel ∈ acc.1, ∃ s ∈ sources, ∃ t ∈ sources, rel.Between s t) ∧
      (acc.1.map RelationView.edge).Nodup ∧ ∀ e ∈ acc.1.map RelationView.edge, e ∈ acc.2 := by
    refine ExceptLaws.foldlM_invariant (P := fun acc : List RelationView × List (ℤ × ℤ) =>
      (∀ rel ∈ acc.1, ∃ s ∈ sources, ∃ t ∈ sources, rel.Between s t) ∧
        (acc.1.map RelationView.edge).Nodup ∧ ∀ e ∈ acc.1.map RelationView.edge, e ∈ acc.2)
      ?_ (by simp) h
    intro acc item _ acc' hitem hacc
    obtain ⟨hbetween,hnodup,hseen⟩ := hacc
    obtain ⟨rel,hrel,hnew,rfl⟩ := planRelation_between hitem
    refine ⟨?_,?_,?_⟩
    · intro x hx
      rcases List.mem_append.mp hx with hx | hx
      · exact hbetween x hx
      · obtain rfl := List.mem_singleton.mp hx
        exact hrel
    · apply RowTable.nodup_append hnodup (by simp)
      intro x hx r hr heq
      obtain rfl := List.mem_singleton.mp hx
      exact hnew (heq ▸ hseen _ (List.mem_map_of_mem hr))
    · intro e he
      rw [List.map_append,List.mem_append,List.map_singleton,List.mem_singleton] at he
      rcases he with he | rfl
      · exact List.mem_cons_of_mem _ (hseen e he)
      · exact List.mem_cons_self ..
  exact ⟨hall.1,hall.2.1⟩

lemma projections_parts {proposals : List (ProjectionProposal T)}
    {acc : PlanConfig.ProjectionPlans T}
    (h : proposals.foldlM (config.planProjection sources) {} = .ok acc) :
    ∃ parts : List (ProjectionView T × List (SourceMapping T)),
      (∀ part ∈ parts, Part sources part.1 part.2) ∧ acc.projections = parts.map Prod.fst ∧
        acc.sources = parts.flatMap Prod.snd := by
  refine ExceptLaws.foldlM_invariant (P := fun acc : PlanConfig.ProjectionPlans T =>
    ∃ parts : List (ProjectionView T × List (SourceMapping T)),
      (∀ part ∈ parts, Part sources part.1 part.2) ∧ acc.projections = parts.map Prod.fst ∧
        acc.sources = parts.flatMap Prod.snd) ?_ ⟨[],by simp⟩ h
  rintro acc item - acc' hitem ⟨parts,hparts,hprojections,hsources⟩
  obtain ⟨p,mappings,hpart,hp,hm⟩ := planProjection_part hitem
  refine ⟨parts++[(p,mappings)],?_,?_,?_⟩
  · intro part hmem
    rcases List.mem_append.mp hmem with hmem | hmem
    · exact hparts part hmem
    · obtain rfl := List.mem_singleton.mp hmem
      exact hpart
  · rw [hp,hprojections,List.map_append,List.map_singleton]
  · rw [hm,hsources,List.flatMap_append,List.flatMap_singleton]

lemma made_over {proposal : EvolutionProposal T} {made : DerivedApplyPlan T}
    (h : config.proposalToPlan proposal sources = .ok made) (originJobId : Option String) :
    ({ made with originJobId } : DerivedApplyPlan T).Over sources := by
  unfold PlanConfig.proposalToPlan at h
  dsimp only at h
  split at h
  · cases h
  split at h
  · cases h
  rename_i hdistinct
  obtain ⟨relations,hrelations,h⟩ := bind_ok h
  obtain ⟨plans,hplans,h⟩ := bind_ok h
  cases h
  obtain ⟨hbetween,hedges⟩ := relations_between hrelations
  refine ⟨?_,hbetween,hedges,projections_parts hplans,rfl⟩
  rw [← (List.dedup_sublist _).eq_of_length (not_not.mp hdistinct)]
  exact List.nodup_dedup _

end Memora.Evolution

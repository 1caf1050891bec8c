import Memora.EvolutionStore
import Memora.ExceptLaws

/-! The manager turns a checked proposal into a plan that only writes derived rows. -/
namespace Memora.Evolution

open ExceptLaws (bind_ok)

variable {T : Type}

structure RelationProposal where
  sourceAlias : String
  targetAlias : String
  relationType : RelationType
  confidence : ℚ

structure ProjectionProposal (T : Type) where
  projectionType : ProjectionType
  sourceAliases : List String
  summary : String
  confidence : ℚ
  validFrom : Option T := none
  validTo : Option T := none

structure EvolutionProposal (T : Type) where
  relations : List RelationProposal := []
  projections : List (ProjectionProposal T) := []

/-- The configuration of the builder; `stableId` is the digest of the parts of an id. -/
structure PlanConfig where
  candidateLimit : ℕ := 16
  confidenceThreshold : ℚ
  autoActiveRelationTypes : List RelationType
  requireReviewForHighImpact : Bool := true
  stableId : String → List String → String

def RelationType.highImpact : RelationType → Bool
  | .updates | .preferenceChange | .causes | .contradicts | .supersedes => true
  | _ => false

def RelationType.lowImpact : RelationType → Bool
  | .sameEpisode | .supports | .related => true
  | _ => false

/-- `_alias`: the sources are named M1, M2 and so on. -/
def aliasOf (sources : List (MemorySourceRef T)) (name : String) :
    Except String (MemorySourceRef T) :=
  match sources.zipIdx.find? fun x => "M"++toString (x.2+1) = name with
  | some x => .ok x.1
  | none => .error "unknown_alias"

def ensureScopeCompatible : List (MemorySourceRef T) → Except String Unit
  | [] => .error "source_not_found"
  | first::rest =>
    if rest.any fun s => s.scopeKey ≠ first.scopeKey then .error "scope_mismatch" else .ok ()

def ensureCompatible (first second : MemorySourceRef T) (relationType : RelationType) :
    Except String Unit := do
  ensureScopeCompatible [first,second]
  let subjectRequired := decide (first.privacyLevel = .confidentialLevel) ||
    decide (second.privacyLevel = .confidentialLevel) || relationType.reviewable
  let subject := first.subjectKey.filter (· ≠ "")
  if subjectRequired && (subject.isNone || decide (first.subjectKey ≠ second.subjectKey)) then
    .error "subject_mismatch"
  else .ok ()

def ensureProjectionCompatible (sources : List (MemorySourceRef T)) : Except String Unit := do
  ensureScopeCompatible sources
  let subjects := (sources.map MemorySourceRef.subjectKey).dedup
  if sources.any (fun s => s.privacyLevel = .confidentialLevel) &&
      (decide (subjects.length ≠ 1) || subjects.contains none) then .error "subject_mismatch"
  else .ok ()

def strictestPrivacy (first : MemorySourceRef T) (rest : List (MemorySourceRef T)) : PrivacyLevel :=
  rest.foldl (fun level s => if level.rank < s.privacyLevel.rank then s.privacyLevel else level)
    first.privacyLevel

/-- The search of `_path_exists`; every edge is pushed at most once, so that many pops suffice. -/
def pathSearch (edges : List (ℤ × ℤ)) (target : ℤ) : ℕ → List ℤ → List ℤ → Bool
  | 0, _, _ => false
  | _, [], _ => false
  | fuel+1, current::pending, visited =>
    if current = target then true
    else if visited.contains current then pathSearch edges target fuel pending visited
    else pathSearch edges target fuel
      (((edges.filter fun e => e.1 = current).map Prod.snd)++pending) (current::visited)

def pathExists (edges : List (ℤ × ℤ)) (start target : ℤ) : Bool :=
  pathSearch edges target (edges.length+1) [start] []

namespace PlanConfig

variable (config : PlanConfig)

def relationState (relationType : RelationType) (confidence : ℚ) : DerivedState :=
  if config.autoActiveRelationTypes.contains relationType && relationType.lowImpact &&
      decide (config.confidenceThreshold ≤ confidence) &&
      !(relationType.highImpact && config.requireReviewForHighImpact) then .active
  else .candidate

def planRelation (sources : List (MemorySourceRef T))
    (acc : List RelationView × List (ℤ × ℤ)) (item : RelationProposal) :
    Except String (List RelationView × List (ℤ × ℤ)) := do
  let source ← aliasOf sources item.sourceAlias
  let target ← aliasOf sources item.targetAlias
  if source.memoryId = target.memoryId then .error "self_relation"
  else do
    ensureCompatible source target item.relationType
    if acc.2.contains (source.memoryId,target.memoryId) ||
        acc.2.contains (target.memoryId,source.memoryId) ||
        pathExists acc.2 target.memoryId source.memoryId then .error "duplicate_or_cycle"
    else .ok (acc.1++[{
      relationId := config.stableId "relation" [toString source.memoryId,source.revisionToken,
        toString target.memoryId,target.revisionToken,item.relationType.value]
      sourceMemoryId := source.memoryId
      targetMemoryId := target.memoryId
      relationType := item.relationType
      confidence := item.confidence
      scopeKey := source.scopeKey
      privacyLevel := strictestPrivacy source [target]
      state := config.relationState item.relationType item.confidence
      sourceRevision := some source.revisionToken
      targetRevision := some target.revisionToken }],(source.memoryId,target.memoryId)::acc.2)

def sourceRole (projectionType : ProjectionType) (ordinal : ℕ) : SourceRole :=
  if ordinal = 0 then .primary
  else if projectionType = .conflictSet then
    if ordinal = 1 then .conflictLeft else if ordinal = 2 then .conflictRight else .supporting
  else .supporting

structure ProjectionPlans (T : Type) where
  projections : List (ProjectionView T) := []
  sources : List (SourceMapping T) := []
  seen : List (ProjectionType × List ℤ) := []

def planProjection (sources : List (MemorySourceRef T)) (acc : ProjectionPlans T)
    (item : ProjectionProposal T) : Except String (ProjectionPlans T) := do
  let items ← item.sourceAliases.mapM (aliasOf sources)
  let ids := items.map MemorySourceRef.memoryId
  let key := (item.projectionType,ids.insertionSort (· ≤ ·))
  if ids.dedup.length ≠ ids.length then .error "duplicate_projection_source"
  else if acc.seen.contains key then .error "duplicate_projection"
  else do
    ensureProjectionCompatible items
    match items with
    | [] => .error "source_not_found"
    | first::rest =>
      if item.projectionType = .conflictSet ∧ items.length < 3 then .error "conflict_source_roles"
      else
        let projectionId := config.stableId "projection" (item.projectionType.value ::
          items.flatMap fun s => [toString s.memoryId,s.revisionToken])
        .ok {
          projections := acc.projections++[{
            projectionId
            projectionType := item.projectionType
            summary := item.summary
            sourceMemoryIds := ids
            scopeKey := first.scopeKey
            privacyLevel := strictestPrivacy first rest
            confidence := item.confidence
            state := if item.projectionType = .conflictSet ∨
              item.confidence < config.confidenceThreshold then .candidate else .active
            validFrom := item.validFrom
            validTo := item.validTo }]
          sources := acc.sources++items.zipIdx.map fun s => {
            projectionId
            memoryId := s.1.memoryId
            revisionToken := s.1.revisionToken
            role := sourceRole item.projectionType s.2
            ordinal := s.2 }
          seen := key::acc.seen }

def proposalToPlan (proposal : EvolutionProposal T) (sources : List (MemorySourceRef T)) :
    Except String (DerivedApplyPlan T) :=
  let ids := sources.map MemorySourceRef.memoryId
  if config.candidateLimit < proposal.relations.length ∨
      config.candidateLimit < proposal.projections.length then .error "proposal_limit_exceeded"
  else if ids.dedup.length ≠ ids.length then .error "duplicate_source"
  else do
    let relations ← proposal.relations.foldlM (config.planRelation sources) ([],[])
    let plans ← proposal.projections.foldlM (config.planProjection sources) {}
    .ok {
      relations := relations.1
      projections := plans.projections
      projectionSources := plans.sources
      sourceRevisions := sources.foldl (fun table s => table.set s.memoryId s.revisionToken) {} }

end PlanConfig

/-- The manager's plans: made from a proposal, for a job or for an outside caller. -/
def DerivedApplyPlan.Built (plan : DerivedApplyPlan T) : Prop :=
  ∃ (config : PlanConfig) (proposal : EvolutionProposal T) (sources : List (MemorySourceRef T))
    (made : DerivedApplyPlan T) (originJobId : Option String),
    config.proposalToPlan proposal sources = .ok made ∧
    plan = { made with originJobId := originJobId }

lemma relationState_candidate (config : PlanConfig) {relationType : RelationType}
    (h : relationType.highImpact = true) (confidence : ℚ) :
    config.relationState relationType confidence = .candidate := by
  cases relationType <;> simp_all [PlanConfig.relationState,RelationType.highImpact,
    RelationType.lowImpact]

lemma planRelation_ok {config : PlanConfig} {sources : List (MemorySourceRef T)}
    {acc acc' : List RelationView × List (ℤ × ℤ)} {item : RelationProposal}
    (h : config.planRelation sources acc item = .ok acc') :
    ∃ rel, acc'.1 = acc.1++[rel] ∧ rel.state =
    config.relationState rel.relationType rel.confidence := by
  unfold PlanConfig.planRelation at h
  obtain ⟨source,-,h⟩ := bind_ok h
  obtain ⟨target,-,h⟩ := bind_ok h
  split at h
  · cases h
  obtain ⟨_,-,h⟩ := bind_ok h
  split at h
  · cases h
  · cases h
    exact ⟨_,rfl,rfl⟩

lemma built_candidate {plan : DerivedApplyPlan T} (h : plan.Built) :
    ∀ rel ∈ plan.relations, rel.relationType.highImpact = true → rel.state = .candidate := by
  obtain ⟨config,proposal,sources,made,originJobId,hmade,rfl⟩ := h
  unfold PlanConfig.proposalToPlan at hmade
  dsimp only at hmade
  split at hmade
  · cases hmade
  split at hmade
  · cases hmade
  obtain ⟨relations,hrelations,hmade⟩ := bind_ok hmade
  obtain ⟨plans,-,hmade⟩ := bind_ok hmade
  cases hmade
  refine ExceptLaws.foldlM_invariant (P := fun acc : List RelationView × List (ℤ × ℤ) =>
    ∀ rel ∈ acc.1, rel.relationType.highImpact = true →
    rel.state = .candidate) ?_ (by simp) hrelations
  intro acc item _ acc' hitem hacc rel hrel himpact
  obtain ⟨new,hacc',hstate⟩ := planRelation_ok hitem
  rw [hacc'] at hrel
  rcases List.mem_append.mp hrel with hrel | hrel
  · exact hacc rel hrel himpact
  · obtain rfl := List.mem_singleton.mp hrel
    rw [hstate]
    exact relationState_candidate config himpact _

end Memora.Evolution

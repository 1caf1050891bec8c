import Memora.EvolutionReader

/-! What was found directly is followed by memories one active relation away, within the boundary of
the request and its budgets. The relations are derived, the memories that are added canonical. -/
namespace Memora.Expansion
open Evolution

/-- A row of `memory_relations` with its times. -/
structure TimedRelation (T : Type) where
  row : RelationRow
  validFrom : Option T := none
  validTo : Option T := none
  invalidAt : Option T := none

structure HybridResult (F M : Type) where
  docId : ℤ
  finalScore : F
  content : String
  rest : M
  deriving DecidableEq

structure Graph (T : Type) where
  relations : List (TimedRelation T)
  documents : List (CanonicalRow T)
  text : ℤ → String

structure ExpandRequest (T : Type) where
  scopeKey : String
  privacyLevel : PrivacyLevel
  maxChars : ℕ
  maxItems : ℕ
  now : T
  perSeedLimit : ℕ
  globalLimit : ℕ

/-- `min(1.0, score * confidence * decay)` and the fields of a derived result. -/
structure ExpandOps (F M T : Type) where
  derivedScore : F → ℚ → T → T → F
  derivedRest : F → RelationRow → MemorySourceRef T → M

variable {F M T : Type} [LinearOrder F] [LinearOrder T]

def raiseScore (docId : ℤ) (score : F) (items : List (HybridResult F M)) :
    List (HybridResult F M) :=
  items.map fun d => if d.docId = docId then { d with finalScore := max d.finalScore score } else d

/-- One turn of `_deduplicate_direct`. -/
def addDirect (direct : List (HybridResult F M)) (seed : HybridResult F M) :
    List (HybridResult F M) :=
  if seed.docId ∈ direct.map HybridResult.docId then raiseScore seed.docId seed.finalScore direct
  else direct++[seed]

def deduplicateDirect (seeds : List (HybridResult F M)) : List (HybridResult F M) :=
  seeds.foldl addDirect []

def oppositeEndpoint (r : RelationRow) (seedId : ℤ) : Option (ℤ × String) :=
  if r.sourceMemoryId = seedId then some (r.targetMemoryId,r.targetRevision)
  else if r.targetMemoryId = seedId then some (r.sourceMemoryId,r.sourceRevision)
  else none

def relationIsCurrent (r : TimedRelation T) (now : T) : Bool :=
  visibleAt now none r.validFrom r.validTo r.invalidAt false

namespace Graph

variable (graph : Graph T)

def activeRelationsForSeeds (seedId : ℤ) (scopeKey : String) (limit : ℕ) : List (TimedRelation T) :=
  ((graph.relations.filter fun r =>
      (r.row.sourceMemoryId = seedId || r.row.targetMemoryId = seedId) && r.row.state = .active &&
        (scopeKey = "" || r.row.scopeKey = scopeKey)).insertionSort
    fun a b => b.row.confidence ≤ a.row.confidence).take limit

def source? (id : ℤ) : Option (MemorySourceRef T) :=
  (graph.documents.find? fun row => row.id = id).bind loadSource

def content (id : ℤ) : String := String.ofList ((graph.text id).toList.take 4000)

end Graph

structure Proposal (T : Type) where
  seedId : ℤ
  relation : TimedRelation T
  targetId : ℤ
  expectedRevision : String

variable (graph : Graph T) (request : ExpandRequest T)

def propose (seedId : ℤ) (r : TimedRelation T) : Option (Proposal T) :=
  match oppositeEndpoint r.row seedId with
  | none => none
  | some (targetId,expectedRevision) =>
    if r.row.scopeKey ≠ request.scopeKey ∨
        privacyAllowed r.row.privacyLevel request.privacyLevel = false ∨
        relationIsCurrent r request.now = false ∨ expectedRevision = "" then none
    else some ⟨seedId,r,targetId,expectedRevision⟩

def collectProposals (direct : List (HybridResult F M)) : List (Proposal T) :=
  direct.flatMap fun seed => (graph.activeRelationsForSeeds seed.docId request.scopeKey
    request.perSeedLimit).filterMap (propose request seed.docId)

def sourceIsCurrent (source : MemorySourceRef T) (expectedRevision : String)
    (request : ExpandRequest T) : Bool :=
  source.revisionToken = expectedRevision && source.scopeKey = request.scopeKey &&
    privacyAllowed source.privacyLevel request.privacyLevel &&
    visibleAt request.now (some source.occurredAt) none none none true

/-- What the loop of `_merge_candidates` carries. -/
structure MergeState (F M : Type) where
  direct : List (HybridResult F M)
  derived : List (HybridResult F M) := []

variable (ops : ExpandOps F M T) (graph : Graph T) (request : ExpandRequest T)

/-- Assignment to `derived_by_id`. -/
def setDerived (derived : List (HybridResult F M)) (item : HybridResult F M) :
    List (HybridResult F M) :=
  if item.docId ∈ derived.map HybridResult.docId then
    derived.map fun d => if d.docId = item.docId then item else d
  else derived++[item]

def mergeOne (s : MergeState F M) (p : Proposal T) : MergeState F M :=
  match (graph.source? p.targetId).filter fun t => sourceIsCurrent t p.expectedRevision request,
      s.direct.find? fun d => d.docId = p.seedId with
  | some target, some seed =>
    let score := ops.derivedScore seed.finalScore p.relation.row.confidence target.occurredAt request.now
    if p.targetId ∈ s.direct.map HybridResult.docId then
      { s with direct := raiseScore p.targetId score s.direct }
    else if s.derived.any fun d => d.docId = p.targetId && score ≤ d.finalScore then s
    else if graph.content p.targetId = "" then s
    else
      let item : HybridResult F M := ⟨p.targetId,score,graph.content p.targetId,
        ops.derivedRest score p.relation.row target⟩
      { s with derived := setDerived s.derived item }
  | _, _ => s

/-- The last loop: at most `limit` items, and none that is longer than what is left. -/
def accept : ℕ → ℕ → List (HybridResult F M) → List (HybridResult F M)
  | 0, _, _ => []
  | _, _, [] => []
  | limit+1, chars, candidate::candidates =>
    if chars < candidate.content.length then accept (limit+1) chars candidates
    else candidate::accept limit (chars - candidate.content.length) candidates

def contentChars (items : List (HybridResult F M)) : ℕ :=
  (items.map fun item => item.content.length).sum

def byScore (derived : List (HybridResult F M)) : List (HybridResult F M) :=
  derived.insertionSort fun a b =>
    b.finalScore < a.finalScore ∨ (a.finalScore = b.finalScore ∧ a.docId ≤ b.docId)

def mergeCandidates (direct : List (HybridResult F M)) (proposals : List (Proposal T)) :
    List (HybridResult F M) :=
  let s := proposals.foldl (mergeOne ops graph request) { direct }
  s.direct++accept (min request.globalLimit (request.maxItems - direct.length))
    (request.maxChars - contentChars direct) (byScore s.derived)

/-- The expansion; `graph` is none where one of the reads fails. -/
def expand (ops : ExpandOps F M T) (graph : Option (Graph T)) (request : ExpandRequest T)
    (seeds : List (HybridResult F M)) : List (HybridResult F M) :=
  let direct := deduplicateDirect seeds
  if direct = [] ∨ request.perSeedLimit = 0 ∨ request.globalLimit = 0 then direct
  else match graph with
    | none => direct
    | some graph => match collectProposals graph request direct with
      | [] => direct
      | proposals => mergeCandidates ops graph request direct proposals

def firstOfIds : List ℤ → List (HybridResult F M) → List (HybridResult F M)
  | _, [] => []
  | seen, seed::seeds =>
    if seed.docId ∈ seen then firstOfIds seen seeds
    else seed::firstOfIds (seen++[seed.docId]) seeds

def Raised (a b : HybridResult F M) : Prop :=
  b = { a with finalScore := b.finalScore } ∧ a.finalScore ≤ b.finalScore

abbrev RaisedAll (kept direct : List (HybridResult F M)) : Prop := List.Forall₂ Raised kept direct

variable {kept direct items seeds : List (HybridResult F M)} {docId : ℤ} {score : F}

lemma Raised.refl (a : HybridResult F M) : Raised a a := ⟨rfl,le_rfl⟩

lemma RaisedAll.ids (h : RaisedAll kept direct) :
    direct.map HybridResult.docId = kept.map HybridResult.docId := by
  induction h with
  | nil => rfl
  | cons hab _ ih =>
    rw [List.map_cons,List.map_cons,ih,hab.1]

lemma RaisedAll.chars (h : RaisedAll kept direct) : contentChars direct = contentChars kept := by
  unfold contentChars
  induction h with
  | nil => rfl
  | cons hab _ ih => rw [List.map_cons,List.map_cons,List.sum_cons,List.sum_cons,ih,hab.1]

lemma raiseScore_ids : (raiseScore docId score items).map HybridResult.docId =
    items.map HybridResult.docId := by
  rw [raiseScore,List.map_map]
  refine List.map_congr_left fun d _ => ?_
  simp only [Function.comp_apply]
  split <;> rfl

lemma RaisedAll.raiseScore (h : RaisedAll kept direct) (docId : ℤ) (score : F) :
    RaisedAll kept (raiseScore docId score direct) := by
  induction h with
  | nil => exact .nil
  | cons hab _ ih =>
    refine .cons ?_ ih
    dsimp only
    split_ifs
    · refine ⟨?_,hab.2.trans (le_max_left _ _)⟩
      rw [hab.1]
    · exact hab

lemma RaisedAll.foldl_addDirect (h : RaisedAll kept direct) :
    RaisedAll (kept++firstOfIds (direct.map HybridResult.docId) seeds)
    (seeds.foldl addDirect direct) := by
  induction seeds generalizing kept direct with
  | nil => simpa [firstOfIds] using h
  | cons seed seeds ih =>
    rw [List.foldl_cons,addDirect,firstOfIds]
    split_ifs with hseen
    · have hrest := ih (h.raiseScore seed.docId seed.finalScore)
      rwa [raiseScore_ids] at hrest
    · have hrest := ih (List.rel_append h (.cons (Raised.refl seed) .nil))
      rwa [List.map_append,List.append_assoc] at hrest

omit [LinearOrder F] in
lemma firstOfIds_nodup (seen : List ℤ) (seeds : List (HybridResult F M)) :
    ((firstOfIds seen seeds).map HybridResult.docId).Nodup ∧
      ∀ d ∈ firstOfIds seen seeds, d.docId ∉ seen := by
  induction seeds generalizing seen with
  | nil => simp [firstOfIds]
  | cons seed seeds ih =>
    rw [firstOfIds]
    split_ifs with hseen
    · exact ih seen
    · obtain ⟨hnodup,hfresh⟩ := ih (seen++[seed.docId])
      constructor
      · rw [List.map_cons,List.nodup_cons]
        refine ⟨fun hmem => ?_,hnodup⟩
        obtain ⟨d,hd,hid⟩ := List.mem_map.mp hmem
        exact hfresh d hd (by simp [hid])
      · intro d hd hmem
        rcases List.mem_cons.mp hd with rfl | hd
        · exact hseen hmem
        · exact hfresh d hd (List.mem_append_left _ hmem)

lemma deduplicateDirect_raised (seeds : List (HybridResult F M)) :
    RaisedAll (firstOfIds [] seeds) (deduplicateDirect seeds) := by
  have h : RaisedAll ([] : List (HybridResult F M)) [] := .nil
  have hfold : RaisedAll ([]++firstOfIds ([].map HybridResult.docId) seeds) (seeds.foldl addDirect []) :=
    h.foldl_addDirect
  simpa [deduplicateDirect] using hfold

def Reached (r : TimedRelation T) (seedId docId : ℤ) :
    Prop :=
  ∃ expectedRevision source, oppositeEndpoint r.row seedId = some (docId,expectedRevision) ∧
    graph.source? docId = some source ∧ sourceIsCurrent source expectedRevision request = true

def Backed (direct : List ℤ) (item : HybridResult F M) : Prop :=
  item.content = graph.content item.docId ∧ ∃ r ∈ graph.relations, ∃ seedId ∈ direct,
    r.row.state = .active ∧ r.row.scopeKey = request.scopeKey ∧
    privacyAllowed r.row.privacyLevel request.privacyLevel = true ∧
    relationIsCurrent r request.now = true ∧ Reached graph request r seedId item.docId

structure Proposal.Sound (graph : Graph T) (request : ExpandRequest T) (direct : List ℤ)
    (p : Proposal T) : Prop where
  seed : p.seedId ∈ direct
  stored : p.relation ∈ graph.relations
  active : p.relation.row.state = .active
  scope : p.relation.row.scopeKey = request.scopeKey
  privacy : privacyAllowed p.relation.row.privacyLevel request.privacyLevel = true
  current : relationIsCurrent p.relation request.now = true
  endpoint : oppositeEndpoint p.relation.row p.seedId = some (p.targetId,p.expectedRevision)

variable {ops graph request}

omit [LinearOrder F] in
lemma collectProposals_sound {p : Proposal T} (h : p ∈ collectProposals graph request direct) :
    p.Sound graph request (direct.map HybridResult.docId) := by
  obtain ⟨seed,hseed,hp⟩ := List.mem_flatMap.mp h
  obtain ⟨r,hr,hpropose⟩ := List.mem_filterMap.mp hp
  have hstored := List.mem_of_mem_take hr
  rw [List.mem_insertionSort,List.mem_filter] at hstored
  obtain ⟨hstored,hactive⟩ := hstored
  simp only [Bool.and_eq_true,decide_eq_true_eq] at hactive
  unfold propose at hpropose
  split at hpropose
  · cases hpropose
  rename_i targetId expectedRevision hendpoint
  split_ifs at hpropose with hguards
  cases hpropose
  simp only [not_or,not_not,Bool.not_eq_false] at hguards
  exact ⟨List.mem_map_of_mem hseed,hstored,hactive.1.2,hguards.1,hguards.2.1,hguards.2.2.1,
    hendpoint⟩

structure Merged (graph : Graph T) (request : ExpandRequest T)
    (direct : List (HybridResult F M)) (s : MergeState F M) : Prop where
  raised : RaisedAll direct s.direct
  distinct : (s.derived.map HybridResult.docId).Nodup
  apart : ∀ d ∈ s.derived, d.docId ∉ direct.map HybridResult.docId
  backed : ∀ d ∈ s.derived, Backed graph request (direct.map HybridResult.docId) d

omit [LinearOrder F] in
lemma mem_setDerived {derived : List (HybridResult F M)} {item d : HybridResult F M}
    (h : d ∈ setDerived derived item) : d = item ∨ d ∈ derived := by
  unfold setDerived at h
  split_ifs at h
  · obtain ⟨x,hx,rfl⟩ := List.mem_map.mp h
    split_ifs
    · exact .inl rfl
    · exact .inr hx
  · exact (List.mem_append.mp h).symm.imp_left List.mem_singleton.mp

omit [LinearOrder F] in
lemma setDerived_nodup {derived : List (HybridResult F M)} {item : HybridResult F M}
    (h : (derived.map HybridResult.docId).Nodup) :
    ((setDerived derived item).map HybridResult.docId).Nodup := by
  unfold setDerived
  split_ifs with hmem
  · have hids : (derived.map fun d => if d.docId = item.docId then item else d).map
        HybridResult.docId = derived.map HybridResult.docId := by
      rw [List.map_map]
      refine List.map_congr_left fun d _ => ?_
      simp only [Function.comp_apply]
      split_ifs with hid
      · exact hid.symm
      · rfl
    rwa [hids]
  · rw [List.map_append,List.map_singleton]
    exact List.nodup_append.mpr ⟨h,List.nodup_singleton _,fun a ha b hb hab =>
      hmem (List.mem_singleton.mp hb ▸ hab ▸ ha)⟩

lemma Merged.mergeOne {s : MergeState F M} {p : Proposal T} (h : Merged graph request direct s)
    (hp : p.Sound graph request (direct.map HybridResult.docId)) :
    Merged graph request direct (mergeOne ops graph request s p) := by
  unfold Expansion.mergeOne
  split
  · rename_i target seed htarget _
    obtain ⟨hsource,hcurrent⟩ := Option.filter_eq_some_iff.mp htarget
    dsimp only
    split_ifs with hdirect
    · exact ⟨h.raised.raiseScore ..,h.distinct,h.apart,h.backed⟩
    · exact h
    · exact h
    · rw [h.raised.ids] at hdirect
      refine ⟨h.raised,setDerived_nodup h.distinct,fun d hd => ?_,fun d hd => ?_⟩
      · rcases mem_setDerived hd with rfl | hd
        · exact hdirect
        · exact h.apart d hd
      · rcases mem_setDerived hd with rfl | hd
        · exact ⟨rfl,p.relation,hp.stored,p.seedId,hp.seed,hp.active,hp.scope,hp.privacy,
            hp.current,p.expectedRevision,target,hp.endpoint,hsource,hcurrent⟩
        · exact h.backed d hd
  · exact h

omit [LinearOrder F] in
lemma accept_sublist (limit chars : ℕ) (items : List (HybridResult F M)) :
    (accept limit chars items).Sublist items ∧ (accept limit chars items).length ≤ limit ∧
      contentChars (accept limit chars items) ≤ chars := by
  induction items generalizing limit chars with
  | nil => cases limit <;> simp [accept,contentChars]
  | cons item items ih =>
    cases limit with
    | zero => simp [accept,contentChars]
    | succ limit =>
      rw [accept]
      split_ifs with hlong
      · obtain ⟨hsub,hlength,hchars⟩ := ih (limit+1) chars
        exact ⟨hsub.cons _,hlength,hchars⟩
      · obtain ⟨hsub,hlength,hchars⟩ := ih limit (chars - item.content.length)
        refine ⟨hsub.cons_cons _,Nat.succ_le_succ hlength,?_⟩
        unfold contentChars at hchars ⊢
        rw [List.map_cons,List.sum_cons]
        omega

structure Added (graph : Graph T) (request : ExpandRequest T)
    (direct added : List (HybridResult F M)) : Prop where
  limit : added.length ≤ request.globalLimit
  items : added ≠ [] → direct.length+added.length ≤ request.maxItems
  chars : contentChars added ≤ request.maxChars - contentChars direct
  distinct : ((direct++added).map HybridResult.docId).Nodup
  backed : ∀ d ∈ added, Backed graph request (direct.map HybridResult.docId) d

lemma mergeCandidates_added (hnodup : (direct.map HybridResult.docId).Nodup)
    {proposals : List (Proposal T)}
    (hsound : ∀ p ∈ proposals, p.Sound graph request (direct.map HybridResult.docId)) :
    ∃ direct' added, mergeCandidates ops graph request direct proposals = direct'++added ∧
      RaisedAll direct direct' ∧ Added graph request direct' added := by
  have hmerged : Merged graph request direct (proposals.foldl (mergeOne ops graph request) { direct }) := by
    have hstart : Merged graph request direct ({ direct } : MergeState F M) :=
      ⟨List.forall₂_same.mpr fun d _ => Raised.refl d,by simp,by simp,by simp⟩
    generalize ({ direct } : MergeState F M) = s at hstart
    induction proposals generalizing s with
    | nil => exact hstart
    | cons p proposals ih =>
      exact ih (fun q hq => hsound q (List.mem_cons_of_mem _ hq)) _
        (hstart.mergeOne (hsound p (List.mem_cons_self ..)))
  refine ⟨_,_,rfl,hmerged.raised,?_⟩
  generalize proposals.foldl (mergeOne ops graph request) { direct } = s at hmerged
  have hids := hmerged.raised.ids
  have hlengths := hmerged.raised.length_eq
  obtain ⟨hsub,hlength,hchars⟩ := accept_sublist
    (min request.globalLimit (request.maxItems - direct.length))
    (request.maxChars - contentChars direct) (byScore s.derived)
  have hperm : (byScore s.derived).Perm s.derived := List.perm_insertionSort _ _
  have hmem := fun d hd => hperm.subset (hsub.subset (a := d) hd)
  refine ⟨by omega,fun hne => ?_,?_,?_,fun d hd => ?_⟩
  · have := List.length_pos_iff.mpr hne
    omega
  · rwa [hmerged.raised.chars]
  · rw [List.map_append,List.nodup_append,hids]
    refine ⟨hnodup,((hperm.map _).nodup_iff.mpr hmerged.distinct).sublist (hsub.map _),?_⟩
    intro a ha b hb hab
    obtain ⟨d,hd,rfl⟩ := List.mem_map.mp hb
    exact hmerged.apart d (hmem d hd) (hab ▸ ha)
  · rw [hids]
    exact hmerged.backed d (hmem d hd)

lemma RaisedAll.trans (h : RaisedAll kept direct) (h' : RaisedAll direct items) :
    RaisedAll kept items := by
  induction h generalizing items with
  | nil => exact h'
  | cons hab _ ih =>
    cases h' with
    | cons hbc hrest =>
      refine .cons ⟨?_,hab.2.trans hbc.2⟩ (ih hrest)
      rw [hbc.1,hab.1]

/-- An expansion gives the first seed of each id, in their order and unchanged but for scores that
are raised, and then what it adds. -/
theorem expand_direct_then_added (ops : ExpandOps F M T) (graph : Option (Graph T))
    (request : ExpandRequest T) (seeds : List (HybridResult F M)) :
    ∃ direct added, expand ops graph request seeds = direct++added ∧
    RaisedAll (firstOfIds [] seeds) direct ∧
      match graph with
      | none => added = []
      | some graph => Added graph request direct added := by
  have hraised := deduplicateDirect_raised seeds
  have hnodup : ((deduplicateDirect seeds).map HybridResult.docId).Nodup := by
    rw [hraised.ids]
    exact (firstOfIds_nodup [] seeds).1
  have hnone : ∀ g : Graph T, Added g request (deduplicateDirect seeds) [] := fun g =>
    ⟨Nat.zero_le _,by simp,Nat.zero_le _,by simpa using hnodup,by simp⟩
  unfold expand
  dsimp only
  split_ifs with hstop
  · refine ⟨_,[],(List.append_nil _).symm,hraised,?_⟩
    cases graph with
    | none => rfl
    | some g => exact hnone g
  · cases graph with
    | none => exact ⟨_,[],(List.append_nil _).symm,hraised,rfl⟩
    | some g =>
      dsimp only
      split
      · exact ⟨_,[],(List.append_nil _).symm,hraised,hnone g⟩
      · have hsound : ∀ p ∈ collectProposals g request (deduplicateDirect seeds),
            p.Sound g request ((deduplicateDirect seeds).map HybridResult.docId) :=
          fun p hp => collectProposals_sound hp
        obtain ⟨direct,added,heq,hmore,hadded⟩ := mergeCandidates_added hnodup hsound
        exact ⟨direct,added,heq,hraised.trans hmore,hadded⟩

def sampleOps : ExpandOps ℕ Unit ℕ where
  derivedScore _ _ _ _ := 80
  derivedRest _ _ _ := ()

def sampleRow (id : ℤ) (revision : String) : CanonicalRow ℕ :=
  { id, metadata := { scopeKey := some "s" }, createdAt := some revision, updatedAt := none
    ingestedAt := some 1 }

/-- A relation from memory 1, at a revision it had before. -/
def sampleRelation (target : ℤ) : TimedRelation ℕ where
  row := ⟨"r","k",1,1,target,"old","a",.related,.active,1,"s",.sharedLevel,none⟩

def sampleGraph : Graph ℕ where
  relations := [sampleRelation 2,sampleRelation 3]
  documents := [sampleRow 1 "new",sampleRow 2 "a",sampleRow 3 "a"]
  text _ := "tea"

def sampleSeeds : List (HybridResult ℕ Unit) := [⟨1,90,"one",()⟩,⟨3,10,"three",()⟩]

/-- A direct result changes its score, and a memory is added along a relation that was recorded for
an earlier revision of the direct result. -/
theorem stale_seed_expands : expand sampleOps (some sampleGraph) ⟨"s",.sharedLevel,100,8,5,2,8⟩
    sampleSeeds =
      [⟨1,90,"one",()⟩,⟨3,80,"three",()⟩,⟨2,80,"tea",()⟩] ∧
    (sampleGraph.source? 1).map MemorySourceRef.revisionToken = some "new" ∧
    ∀ r ∈ sampleGraph.relations, r.row.sourceMemoryId = 1 ∧ r.row.sourceRevision = "old" := by
  decide +kernel

end Memora.Expansion

import Memora.EvolutionPlanShapes
import Memora.JoinedPairs
import Memora.KeyedUpserts

/-! The applier checks what the builder made, and its two upserts go by keys and ids that the
builder never compares. A plan over current sources passes the checks; it is stored when the ids it
brings are not taken, and then a second application changes revision counters alone. -/
namespace Memora.Evolution

open ExceptLaws (bind_ok)
open KeyedUpserts

variable {T : Type} {db db' : MemoryEvolutionStore T} {plan : DerivedApplyPlan T}
  {sources : List (MemorySourceRef T)}

def MemoryEvolutionStore.Current (db : MemoryEvolutionStore T)
    (sources : List (MemorySourceRef T)) :
    Prop :=
  ∀ s ∈ sources, db.loadedSource s.memoryId = some s

variable {s : MemorySourceRef T} {m : SourceMapping T} {rel : RelationView} {e : Expectations}

lemma loadedSource_some {id : ℤ} (h : db.loadedSource id = some s) :
    ∃ row, db.document? id = some row ∧ isMemoryActive row.metadata = true ∧
      row.revision = s.revisionToken ∧ s.revisionToken ≠ "" ∧ row.scopeKey = s.scopeKey ∧
      row.privacyLevel = s.privacyLevel := by
  obtain ⟨row,hrow,hload⟩ := Option.bind_eq_some_iff.mp h
  unfold loadSource at hload
  split at hload
  · cases hload
  rename_i hactive
  split at hload
  · cases hload
  rename_i hrevision
  obtain ⟨_,-,rfl⟩ := Option.map_eq_some_iff.mp hload
  exact ⟨row,hrow,by simpa using hactive,rfl,hrevision,rfl,rfl⟩

structure Expectations.Of (e : Expectations) (sources : List (MemorySourceRef T)) : Prop where
  revisions : ∀ id revision, e.revisions.get? id = some revision →
    ∃ s ∈ sources, s.memoryId = id ∧ s.revisionToken = revision
  scopes : ∀ x ∈ e.scopes, ∃ s ∈ sources, s.memoryId = x.1 ∧ s.scopeKey = x.2
  privacies : ∀ x ∈ e.privacies, ∃ s ∈ sources, s.memoryId = x.1 ∧
    s.privacyLevel.rank ≤ x.2.rank

lemma source_eq (hdistinct : (sources.map MemorySourceRef.memoryId).Nodup)
    {s t : MemorySourceRef T} (hs : s ∈ sources) (ht : t ∈ sources)
    (h : s.memoryId = t.memoryId) : s = t :=
  List.inj_on_of_nodup_map hdistinct hs ht h

lemma revisions_of_sources {table : Dict ℤ String}
    {items : List (MemorySourceRef T)} (hitems : ∀ s ∈ items, s ∈ sources)
    (h : ∀ id revision, table.get? id = some revision →
      ∃ s ∈ sources, s.memoryId = id ∧ s.revisionToken = revision) :
    ∀ id revision, (items.foldl (fun table s => table.set s.memoryId s.revisionToken) table).get?
    id =
        some revision → ∃ s ∈ sources, s.memoryId = id ∧ s.revisionToken = revision := by
  induction items generalizing table with
  | nil => exact h
  | cons s items ih =>
    refine ih (fun t ht => hitems t (List.mem_cons_of_mem _ ht)) ?_
    intro id revision hget
    rw [Dict.get?_set] at hget
    split at hget
    · rename_i hid
      exact ⟨s,hitems s (List.mem_cons_self ..),hid.symm,Option.some.inj hget⟩
    · exact h id revision hget

lemma Expectations.Of.add (h : e.Of sources)
    (hdistinct : (sources.map MemorySourceRef.memoryId).Nodup) (hs : s ∈ sources)
    {scopeKey : Option String} (hscope : ∀ k, scopeKey = some k → s.scopeKey = k)
    {privacyLevel : Option PrivacyLevel}
    (hprivacy : ∀ p, privacyLevel = some p → s.privacyLevel.rank ≤ p.rank) :
    ∃ e', e.add s.memoryId s.revisionToken scopeKey privacyLevel = .ok e' ∧ e'.Of sources := by
  have hsame : ¬(s.revisionToken ≠ "" ∧ (e.revisions.get? s.memoryId).any
      (fun previous => previous ≠ "" && previous ≠ s.revisionToken) = true) := by
    rintro ⟨-,hany⟩
    cases hget : e.revisions.get? s.memoryId with
    | none => simp [hget] at hany
    | some previous =>
      obtain ⟨t,ht,hid,rfl⟩ := h.revisions _ _ hget
      obtain rfl := source_eq hdistinct ht hs hid
      simp [hget] at hany
  refine ⟨_,if_neg hsame,?_,?_,?_⟩
  · intro id revision hget
    split at hget
    · exact h.revisions id revision hget
    · rw [Dict.get?_set] at hget
      split at hget
      · rename_i hid
        exact ⟨s,hs,hid.symm,Option.some.inj hget⟩
      · exact h.revisions id revision hget
  · intro x hx
    rcases List.mem_append.mp hx with hx | hx
    · exact h.scopes x hx
    · obtain ⟨k,hk,rfl⟩ := Option.map_eq_some_iff.mp (Option.mem_toList.mp hx)
      exact ⟨s,hs,rfl,hscope k (Option.filter_eq_some_iff.mp hk).1⟩
  · intro x hx
    rcases List.mem_append.mp hx with hx | hx
    · exact h.privacies x hx
    · obtain ⟨p,hp,rfl⟩ := Option.map_eq_some_iff.mp (Option.mem_toList.mp hx)
      exact ⟨s,hs,rfl,hprivacy p hp⟩

lemma checkSource_current (hcurrent : db.Current sources)
    (hdistinct : (sources.map MemorySourceRef.memoryId).Nodup) (h : e.Of sources)
    (hs : s ∈ sources) : db.checkSource e s.memoryId s.revisionToken = .ok () := by
  obtain ⟨row,hrow,hactive,hrevision,hne,hscope,hprivacy⟩ := loadedSource_some (hcurrent s hs)
  unfold MemoryEvolutionStore.checkSource
  rw [hrow]
  dsimp only
  rw [if_neg (by simp [hrevision]),if_neg (by simp [hactive]),if_neg,if_neg]
  · rw [List.any_eq_true]
    rintro ⟨x,hx,hbad⟩
    simp only [Bool.and_eq_true,decide_eq_true_eq,Bool.not_eq_true',privacyAllowed,
      decide_eq_false_iff_not] at hbad
    obtain ⟨t,ht,hid,hrank⟩ := h.privacies x hx
    obtain rfl := source_eq hdistinct ht hs (hid.trans hbad.1)
    rw [hprivacy] at hbad
    exact hbad.2 hrank
  · intro hbad
    rw [Bool.and_eq_true,Bool.not_eq_true',Bool.not_eq_true',← Bool.not_eq_true,
      ← Bool.not_eq_true,List.isEmpty_iff,List.contains_iff_mem] at hbad
    obtain ⟨k,hk⟩ := List.exists_mem_of_ne_nil _ hbad.1
    obtain ⟨x,hx,rfl⟩ := List.mem_map.mp hk
    obtain ⟨hx,hid⟩ := List.mem_filter.mp hx
    obtain ⟨t,ht,htid,hkey⟩ := h.scopes x hx
    obtain rfl := source_eq hdistinct ht hs (htid.trans (of_decide_eq_true hid))
    apply hbad.2
    rw [hscope,hkey]
    exact hk

lemma revisionOf_some {revision : String} (h : revision ≠ "") (id : ℤ) :
    plan.revisionOf (some revision) id = revision := by
  simp [DerivedApplyPlan.revisionOf,Option.filter,h]

lemma revision_ne_empty (hcurrent : db.Current sources) (hs : s ∈ sources) :
    s.revisionToken ≠ "" := by
  obtain ⟨_,-,-,-,hne,-⟩ := loadedSource_some (hcurrent s hs)
  exact hne

lemma part_of_mapping (hover : plan.Over sources)
    (hids : (plan.projections.map ProjectionView.projectionId).Nodup)
    (hm : m ∈ plan.projectionSources) :
    ∃ p ∈ plan.projections, (plan.projections.find? fun p => p.projectionId = m.projectionId) =
      some p ∧ ∃ s ∈ sources, m.memoryId = s.memoryId ∧ m.revisionToken = s.revisionToken ∧
        s.scopeKey = p.scopeKey ∧ s.privacyLevel.rank ≤ p.privacyLevel.rank := by
  obtain ⟨parts,hparts,hprojections,hmappings⟩ := hover.parts
  rw [hmappings] at hm
  obtain ⟨part,hpart,hm⟩ := List.mem_flatMap.mp hm
  have hp : part.1 ∈ plan.projections := hprojections ▸ List.mem_map_of_mem hpart
  refine ⟨part.1,hp,?_,(hparts part hpart).sourced m hm⟩
  rw [(hparts part hpart).named m hm]
  exact RowTable.find?_key hids hp

lemma validated_over (hover : plan.Over sources) (hcurrent : db.Current sources)
    (hids : (plan.projections.map ProjectionView.projectionId).Nodup) :
    db.validatePlanSources plan = .ok () := by
  have hdistinct := hover.distinct
  have hstart : ({ revisions := plan.sourceRevisions } : Expectations).Of sources := by
    refine ⟨?_,by simp,by simp⟩
    rw [hover.revisions]
    exact revisions_of_sources (fun _ hs => hs) (by simp)
  have hrelations : ∃ e, plan.relations.foldlM (fun (e : Expectations) rel => do
      let e ← e.add rel.sourceMemoryId (plan.revisionOf rel.sourceRevision rel.sourceMemoryId)
        (some rel.scopeKey) (some rel.privacyLevel)
      e.add rel.targetMemoryId (plan.revisionOf rel.targetRevision rel.targetMemoryId)
        (some rel.scopeKey) (some rel.privacyLevel)) { revisions := plan.sourceRevisions } =
      .ok e ∧ e.Of sources := by
    apply ExceptLaws.foldlM_total (P := fun e : Expectations => e.Of sources) _ hstart
    intro e rel hrel he
    obtain ⟨s,hs,t,ht,hbetween⟩ := hover.between rel hrel
    rw [hbetween.source,hbetween.target,hbetween.sourceRevision,hbetween.targetRevision,
      revisionOf_some (revision_ne_empty hcurrent hs),revisionOf_some (revision_ne_empty hcurrent ht)]
    obtain ⟨e₁,h₁,he₁⟩ := he.add hdistinct hs (fun k hk => hbetween.scope.1.trans (Option.some.inj hk))
      (fun p hp => Option.some.inj hp ▸ hbetween.privacy.1)
    obtain ⟨e₂,h₂,he₂⟩ := he₁.add hdistinct ht (fun k hk => hbetween.scope.2.trans (Option.some.inj hk))
      (fun p hp => Option.some.inj hp ▸ hbetween.privacy.2)
    exact ⟨e₂,by rw [h₁]; exact h₂,he₂⟩
  obtain ⟨e₁,h₁,he₁⟩ := hrelations
  have hsources : ∃ e, plan.projectionSources.foldlM (fun (e : Expectations) source =>
      let projection := plan.projections.find? fun p => p.projectionId = source.projectionId
      e.add source.memoryId source.revisionToken (projection.map ProjectionView.scopeKey)
        (projection.map ProjectionView.privacyLevel)) e₁ = .ok e ∧ e.Of sources := by
    apply ExceptLaws.foldlM_total (P := fun e : Expectations => e.Of sources) _ he₁
    intro e m hm he
    obtain ⟨p,-,hfind,s,hs,hid,hrevision,hscope,hprivacy⟩ := part_of_mapping hover hids hm
    rw [hfind,hid,hrevision]
    exact he.add hdistinct hs (fun k hk => hscope.trans (Option.some.inj hk))
      (fun level hlevel => Option.some.inj hlevel ▸ hprivacy)
  obtain ⟨e₂,h₂,he₂⟩ := hsources
  have hall : e₂.revisions.entries.forM (fun expected => db.checkSource e₂ expected.1 expected.2) = .ok () := by
    apply ExceptLaws.forM_of_ok
    intro expected hexpected
    obtain ⟨s,hs,hid,hrevision⟩ := he₂.revisions _ _ (Dict.get?_eq_some.mpr hexpected)
    rw [← hid,← hrevision]
    exact checkSource_current hcurrent hdistinct he₂ hs
  unfold MemoryEvolutionStore.validatePlanSources
  rw [h₁]
  simp only [bind,Except.bind] at h₂ ⊢
  rw [h₂]
  exact hall

lemma colon_not_mem_toString (n : ℤ) : ':' ∉ (toString n).toList := by
  have hdigits : ∀ m : ℕ, ':' ∉ (Nat.repr m).toList := by
    intro m h
    rw [Nat.toList_repr] at h
    exact absurd (Nat.isDigit_of_mem_toDigits (by decide) (by decide) h) (by decide)
  cases n with
  | ofNat m => exact hdigits m
  | negSucc m =>
    change ':' ∉ ("-"++Nat.repr (m+1)).toList
    rw [String.toList_append,List.mem_append,not_or]
    exact ⟨by decide,hdigits (m+1)⟩

theorem joined_id {a b : ℤ} {x y : String} (h : toString a++":"++x = toString b++":"++y) :
    a = b ∧ x = y := by
  have hlist : (toString a).toList ++ ':'::x.toList = (toString b).toList ++ ':'::y.toList := by
    have hcolon : (":" : String).toList = [':'] := rfl
    have := congrArg String.toList h
    simpa only [String.toList_append,hcolon,List.append_assoc,List.singleton_append] using this
  have hspan := congrArg (List.span (· ≠ ':')) hlist
  rw [JoinedPairs.span_join (colon_not_mem_toString a),JoinedPairs.span_join
    (colon_not_mem_toString b),Prod.mk.injEq,List.cons.injEq] at hspan
  exact ⟨Int.repr_injective (String.toList_injective hspan.1),String.toList_injective hspan.2.2⟩

lemma joined_text {u x y : String} (h : u++":"++x = u++":"++y) : x = y := by
  have := congrArg String.toList h
  rw [String.toList_append,String.toList_append (s := u++":")] at this
  exact String.toList_injective (List.append_cancel_left this)

lemma relationKey_eq (rel : RelationView) (sourceRevision targetRevision : String) :
    relationKey rel sourceRevision targetRevision =
    toString rel.sourceMemoryId++":"++(sourceRevision++":" ++
        (toString rel.targetMemoryId++":"++(targetRevision++":"++rel.relationType.value))) := by
  simp only [relationKey,String.append_assoc]

lemma keyOf_between (hcurrent : db.Current sources) {s t : MemorySourceRef T}
    (hs : s ∈ sources) (ht : t ∈ sources) (h : rel.Between s t) :
    plan.keyOf rel = toString s.memoryId++":"++(s.revisionToken++":" ++
      (toString t.memoryId++":"++(t.revisionToken++":"++rel.relationType.value))) := by
  rw [DerivedApplyPlan.keyOf,h.sourceRevision,h.targetRevision,
    revisionOf_some (revision_ne_empty hcurrent hs),revisionOf_some (revision_ne_empty hcurrent ht),
    relationKey_eq,h.source,h.target]

lemma relation_keys_nodup (hover : plan.Over sources) (hcurrent : db.Current sources) :
    (plan.relations.map plan.keyOf).Nodup := by
  apply List.Nodup.map_on _ (List.Nodup.of_map _ hover.edges)
  intro rel hrel other hother hkey
  obtain ⟨s,hs,t,ht,hbetween⟩ := hover.between rel hrel
  obtain ⟨s',hs',t',ht',hbetween'⟩ := hover.between other hother
  rw [keyOf_between hcurrent hs ht hbetween,keyOf_between hcurrent hs' ht' hbetween'] at hkey
  obtain ⟨hsource,hrest⟩ := joined_id hkey
  obtain rfl := source_eq hover.distinct hs hs' hsource
  obtain ⟨htarget,-⟩ := joined_id (joined_text hrest)
  apply List.inj_on_of_nodup_map hover.edges hrel hother
  simp only [RelationView.edge,hbetween.source,hbetween.target,hbetween'.source,
    hbetween'.target,htarget]

def DerivedApplyPlan.relationScheme (plan : DerivedApplyPlan T) :
    Scheme RelationRow RelationView String String where
  key := RelationRow.relationKey
  id := RelationRow.relationId
  keyOf := plan.keyOf
  idOf := RelationView.relationId
  fresh rel := {
    relationId := rel.relationId
    relationKey := plan.keyOf rel
    revision := 1
    sourceMemoryId := rel.sourceMemoryId
    targetMemoryId := rel.targetMemoryId
    sourceRevision := plan.revisionOf rel.sourceRevision rel.sourceMemoryId
    targetRevision := plan.revisionOf rel.targetRevision rel.targetMemoryId
    relationType := rel.relationType
    state := rel.state
    confidence := rel.confidence
    scopeKey := rel.scopeKey
    privacyLevel := rel.privacyLevel
    originJobId := plan.originJobId }
  rewrite rel r := if r.state ≠ .rejected then r.reproposed rel plan.originJobId else r
  key_fresh _ := rfl
  id_fresh _ := rfl
  key_rewrite rel r := by split <;> rfl
  id_rewrite rel r := by split <;> rfl

lemma upsertRelation_write (rows : List RelationRow)
    (hsource : plan.revisionOf rel.sourceRevision rel.sourceMemoryId ≠ "")
    (htarget : plan.revisionOf rel.targetRevision rel.targetMemoryId ≠ "") :
    upsertRelation plan rows rel = plan.relationScheme.write rows rel := by
  have hmodify : RowTable.modify (fun r => r.relationKey = plan.keyOf rel && r.state ≠ .rejected)
      (fun r => r.reproposed rel plan.originJobId) rows =
      RowTable.modify (fun r => plan.relationScheme.key r = plan.relationScheme.keyOf rel)
        (plan.relationScheme.rewrite rel) rows := by
    apply RowTable.modify_congr
    intro r _
    by_cases hkey : r.relationKey = plan.keyOf rel
    · by_cases hstate : r.state = .rejected
      · simp [hstate,DerivedApplyPlan.relationScheme]
      · simp [hstate,DerivedApplyPlan.relationScheme]
    · simp [hkey,DerivedApplyPlan.relationScheme]
  unfold upsertRelation Scheme.write
  rw [if_neg (not_or.mpr ⟨hsource,htarget⟩),← hmodify]
  rfl

lemma upsertRelations_write (hover : plan.Over sources) (hcurrent : db.Current sources)
    (rows : List RelationRow) : plan.relations.foldlM (upsertRelation plan) rows =
      plan.relations.foldlM plan.relationScheme.write rows := by
  apply ExceptLaws.foldlM_congr
  intro rows rel hrel
  obtain ⟨s,hs,t,ht,hbetween⟩ := hover.between rel hrel
  apply upsertRelation_write
  · rw [hbetween.sourceRevision,revisionOf_some (revision_ne_empty hcurrent hs)]
    exact revision_ne_empty hcurrent hs
  · rw [hbetween.targetRevision,revisionOf_some (revision_ne_empty hcurrent ht)]
    exact revision_ne_empty hcurrent ht

def DerivedApplyPlan.sourcesOf (plan : DerivedApplyPlan T) (p : ProjectionView T) :
    List (SourceMapping T) :=
  plan.projectionSources.filter fun s => s.projectionId = p.projectionId

def DerivedApplyPlan.primaryOf (plan : DerivedApplyPlan T) (p : ProjectionView T) : ℤ :=
  ((plan.sourcesOf p).filter fun s => s.role = .primary).head?.elim 0 SourceMapping.memoryId

def DerivedApplyPlan.projectionKeyOf (plan : DerivedApplyPlan T) (p : ProjectionView T) : String :=
  projectionKey p (plan.sourcesOf p)

def DerivedApplyPlan.projectionScheme (plan : DerivedApplyPlan T) :
    Scheme (ProjectionRow T) (ProjectionView T) String String where
  key := ProjectionRow.projectionKey
  id := ProjectionRow.projectionId
  keyOf := plan.projectionKeyOf
  idOf := ProjectionView.projectionId
  fresh p := {
    projectionId := p.projectionId
    projectionKey := plan.projectionKeyOf p
    projectionType := p.projectionType
    revision := 1
    state := p.state
    summary := p.summary
    primarySourceMemoryId := plan.primaryOf p
    scopeKey := p.scopeKey
    privacyLevel := p.privacyLevel
    confidence := p.confidence
    validFrom := p.validFrom
    validTo := p.validTo
    invalidAt := p.invalidAt
    originJobId := plan.originJobId }
  rewrite p r := r.reproposed p (plan.primaryOf p) plan.originJobId
  key_fresh _ := rfl
  id_fresh _ := rfl
  key_rewrite _ _ := rfl
  id_rewrite _ _ := rfl

structure DerivedApplyPlan.Backed (plan : DerivedApplyPlan T) (p : ProjectionView T) : Prop where
  primary : ∃ m, ((plan.sourcesOf p).filter fun s => s.role = .primary) = [m]
  ids : (p.sourceMemoryIds.all ((plan.sourcesOf p).map SourceMapping.memoryId).contains &&
    ((plan.sourcesOf p).map SourceMapping.memoryId).all p.sourceMemoryIds.contains) = true
  sides : ¬(p.projectionType = .conflictSet ∧ bothSides (plan.sourcesOf p) = false)

def ProjectionWrites.after (w : ProjectionWrites T) (plan : DerivedApplyPlan T)
    (p : ProjectionView T) (rows : List (ProjectionRow T)) : ProjectionWrites T where
  projections := rows
  mappings := w.mappings.filter fun m =>
    m.projectionId ≠ (plan.projectionScheme.storedId w.projections p).getD p.projectionId
  ids := w.ids.set p.projectionId ((plan.projectionScheme.storedId w.projections p).getD
    p.projectionId)
  seen := plan.projectionKeyOf p::w.seen

variable {p : ProjectionView T}

lemma primaryOf_eq
    (h : ((plan.sourcesOf p).filter fun s => s.role = .primary) = [m]) :
    plan.primaryOf p = m.memoryId := by
  rw [DerivedApplyPlan.primaryOf,h]
  rfl

lemma upsertProjection_backed (h : plan.Backed p) (w : ProjectionWrites T) :
    upsertProjection plan w p = if w.seen.contains (plan.projectionKeyOf p) then
        .error "duplicate_projection"
      else (plan.projectionScheme.write w.projections p).map (w.after plan p) := by
  obtain ⟨m,hm⟩ := h.primary
  have hprimary := primaryOf_eq hm
  rw [upsertProjection]
  simp only [show ((plan.projectionSources.filter fun s => s.projectionId = p.projectionId).filter
    fun s => s.role = .primary) = [m] from hm]
  change (if (!(p.sourceMemoryIds.all ((plan.sourcesOf p).map SourceMapping.memoryId).contains &&
      ((plan.sourcesOf p).map SourceMapping.memoryId).all p.sourceMemoryIds.contains)) = true then _
    else if p.projectionType = .conflictSet ∧ bothSides (plan.sourcesOf p) = false then _
    else if w.seen.contains (plan.projectionKeyOf p) = true then _ else _) = _
  rw [h.ids,if_neg (by simp),if_neg h.sides]
  split
  · rfl
  unfold Scheme.write
  rw [show (w.projections.find? fun r => r.projectionKey =
    projectionKey p (plan.projectionSources.filter
    fun s => s.projectionId = p.projectionId)) =
      w.projections.find? fun r => r.projectionKey = plan.projectionKeyOf p from rfl]
  cases hfind : w.projections.find? fun r => r.projectionKey = plan.projectionKeyOf p with
  | some stored =>
    have hkey : (w.projections.any fun r =>
        plan.projectionScheme.key r = plan.projectionScheme.keyOf p) = true := by
      rw [← List.isSome_find?]
      exact Option.isSome_of_eq_some hfind
    have hstored : plan.projectionScheme.storedId w.projections p = some stored.projectionId :=
      congrArg (Option.map ProjectionRow.projectionId) hfind
    rw [if_pos hkey]
    simp only [Except.map,ProjectionWrites.after,hstored,Option.getD_some]
    rw [← hprimary]
    rfl
  | none =>
    have hkey : ¬(w.projections.any fun r =>
        plan.projectionScheme.key r = plan.projectionScheme.keyOf p) = true := by
      rw [← List.isSome_find?]
      change ¬(w.projections.find? fun r => r.projectionKey = plan.projectionKeyOf p).isSome = true
      rw [hfind]
      simp
    have hstored : plan.projectionScheme.storedId w.projections p = none :=
      congrArg (Option.map ProjectionRow.projectionId) hfind
    rw [if_neg hkey]
    by_cases hid : (w.projections.any fun r => r.projectionId = p.projectionId) = true
    · rw [if_pos hid]
      change _ = Except.map _ (if (w.projections.any fun r => r.projectionId = p.projectionId) =
        true then _ else _)
      rw [if_pos hid]
      rfl
    · rw [if_neg hid]
      change _ = Except.map _ (if (w.projections.any fun r => r.projectionId = p.projectionId) =
        true then _ else _)
      rw [if_neg hid]
      simp only [Except.map,ProjectionWrites.after,hstored,Option.getD_none]
      rw [← hprimary]
      rfl

variable {w w' : ProjectionWrites T} {items : List (ProjectionView T)}

lemma backed_of_upsert (h : upsertProjection plan w p = .ok w') : plan.Backed p := by
  unfold upsertProjection at h
  dsimp only at h
  split at h
  · rename_i primary hprimary
    split at h
    · cases h
    rename_i hids
    split at h
    · cases h
    rename_i hsides
    rw [Bool.not_eq_true,Bool.not_eq_false'] at hids
    exact ⟨⟨primary,hprimary⟩,hids,hsides⟩
  · cases h

lemma upsertProjection_ok :
    upsertProjection plan w p = .ok w' ↔ plan.Backed p ∧ plan.projectionKeyOf p ∉ w.seen ∧
      ∃ rows, plan.projectionScheme.write w.projections p = .ok rows ∧ w' = w.after plan p rows := by
  constructor
  · intro h
    have hbacked := backed_of_upsert h
    rw [upsertProjection_backed hbacked] at h
    split at h
    · cases h
    rename_i hseen
    cases hwrite : plan.projectionScheme.write w.projections p with
    | error e =>
      rw [hwrite] at h
      exact absurd h (by simp [Except.map])
    | ok rows =>
      rw [hwrite] at h
      exact ⟨hbacked,by simpa using hseen,rows,rfl,(Except.ok.inj h).symm⟩
  · rintro ⟨hbacked,hseen,rows,hwrite,rfl⟩
    rw [upsertProjection_backed hbacked,if_neg (by simpa using hseen),hwrite]
    rfl

structure Passed (plan : DerivedApplyPlan T) (items : List (ProjectionView T))
    (w w' : ProjectionWrites T) : Prop where
  backed : ∀ p ∈ items, plan.Backed p
  keys : (items.map plan.projectionKeyOf).Nodup
  unseen : ∀ p ∈ items, plan.projectionKeyOf p ∉ w.seen
  rows : items.foldlM plan.projectionScheme.write w.projections = .ok w'.projections
  mappings : w'.mappings = w.mappings.filter fun m =>
    items.all fun p => plan.projectionScheme.storedId w'.projections p ≠ some m.projectionId
  ids : ∀ id, id ∉ items.map ProjectionView.projectionId → w'.ids.get? id = w.ids.get? id
  stored : (items.map ProjectionView.projectionId).Nodup → ∀ p ∈ items,
    w'.ids.get? p.projectionId = plan.projectionScheme.storedId w'.projections p

lemma passed (h : items.foldlM (upsertProjection plan) w = .ok w') : Passed plan items w w' := by
  induction items generalizing w with
  | nil =>
    obtain rfl : w = w' := Except.ok.inj h
    exact ⟨by simp,by simp,by simp,rfl,by simp,fun _ _ => rfl,by simp⟩
  | cons p items ih =>
    obtain ⟨w₁,hfirst,hrest⟩ := bind_ok h
    obtain ⟨hbacked,hseen,rows,hwrite,rfl⟩ := upsertProjection_ok.mp hfirst
    have hpassed := ih hrest
    have hstays : plan.projectionScheme.storedId w'.projections p =
        some ((plan.projectionScheme.storedId w.projections p).getD p.projectionId) :=
      ExceptLaws.foldlM_invariant (P := fun rows => plan.projectionScheme.storedId rows p =
          some ((plan.projectionScheme.storedId w.projections p).getD p.projectionId))
        (fun _ _ _ _ hw hs => storedId_stays hw hs) (storedId_written hwrite) hpassed.rows
    refine ⟨?_,?_,?_,?_,?_,?_,?_⟩
    · intro q hq
      rcases List.mem_cons.mp hq with rfl | hq
      · exact hbacked
      · exact hpassed.backed q hq
    · rw [List.map_cons,List.nodup_cons]
      refine ⟨fun hmem => ?_,hpassed.keys⟩
      obtain ⟨q,hq,hkey⟩ := List.mem_map.mp hmem
      exact hpassed.unseen q hq (hkey ▸ List.mem_cons_self ..)
    · intro q hq
      rcases List.mem_cons.mp hq with rfl | hq
      · exact hseen
      · exact fun hin => hpassed.unseen q hq (List.mem_cons_of_mem _ hin)
    · rw [List.foldlM_cons,hwrite]
      exact hpassed.rows
    · rw [hpassed.mappings,ProjectionWrites.after,List.filter_filter]
      apply List.filter_congr
      intro m _
      rw [List.all_cons,hstays,Bool.and_comm]
      congr 1
      rw [decide_eq_decide,ne_eq,ne_eq,Option.some.injEq,eq_comm]
    · intro id hid
      rw [List.map_cons,List.mem_cons,not_or] at hid
      rw [hpassed.ids id hid.2]
      exact Dict.get?_set_of_ne hid.1
    · intro hnodup q hq
      rw [List.map_cons,List.nodup_cons] at hnodup
      rcases List.mem_cons.mp hq with rfl | hq
      · rw [hpassed.ids _ hnodup.1,hstays]
        exact Dict.get?_set_self
      · exact hpassed.stored hnodup.2 q hq

variable {rows : List (ProjectionRow T)}

lemma passes (hbacked : ∀ p ∈ items, plan.Backed p)
    (hkeys : (items.map plan.projectionKeyOf).Nodup)
    (hunseen : ∀ p ∈ items, plan.projectionKeyOf p ∉ w.seen)
    (hrows : items.foldlM plan.projectionScheme.write w.projections = .ok rows) :
    ∃ w', items.foldlM (upsertProjection plan) w = .ok w' := by
  induction items generalizing w with
  | nil => exact ⟨w,rfl⟩
  | cons p items ih =>
    obtain ⟨rows₁,hwrite,hrest⟩ := bind_ok hrows
    rw [List.map_cons,List.nodup_cons] at hkeys
    have hfirst : upsertProjection plan w p = .ok (w.after plan p rows₁) :=
      upsertProjection_ok.mpr ⟨hbacked p (List.mem_cons_self ..),hunseen p (List.mem_cons_self ..),
        rows₁,hwrite,rfl⟩
    have hlater : ∀ q ∈ items, plan.projectionKeyOf q ∉ (w.after plan p rows₁).seen := by
      intro q hq hin
      rcases List.mem_cons.mp hin with hkey | hin
      · exact hkeys.1 (List.mem_map.mpr ⟨q,hq,hkey⟩)
      · exact hunseen q (List.mem_cons_of_mem _ hq) hin
    obtain ⟨w',hw'⟩ := ih (fun q hq => hbacked q (List.mem_cons_of_mem _ hq)) hkeys.2 hlater hrest
    exact ⟨w',by rw [List.foldlM_cons,hfirst]; exact hw'⟩

variable {parts : List (ProjectionView T × List (SourceMapping T))}
  {part : ProjectionView T × List (SourceMapping T)}

lemma primaries_count (hparts : ∀ part ∈ parts, Part sources part.1 part.2) (id : String) :
    (((parts.flatMap Prod.snd).filter fun s => s.projectionId = id).filter
      fun s => s.role = .primary).length = (parts.map fun part => part.1.projectionId).count id := by
  induction parts with
  | nil => rfl
  | cons part parts ih =>
    have hpart := hparts part (List.mem_cons_self ..)
    have hrest := ih fun q hq => hparts q (List.mem_cons_of_mem _ hq)
    rw [List.flatMap_cons,List.filter_append,List.filter_append,List.length_append,hrest,
      List.map_cons,List.count_cons]
    by_cases hid : part.1.projectionId = id
    · obtain ⟨m,hm⟩ := hpart.primary
      have hall : part.2.filter (fun s => s.projectionId = id) = part.2 :=
        List.filter_eq_self.mpr fun s hs => by simpa using (hpart.named s hs).trans hid
      rw [hall,hm,if_pos (by simpa using hid)]
      simp [Nat.add_comm]
    · have hnone : part.2.filter (fun s => s.projectionId = id) = [] :=
        List.filter_eq_nil_iff.mpr fun s hs => by simpa [hpart.named s hs] using hid
      rw [hnone,if_neg (by simpa using hid)]
      simp

lemma mappings_of_part (hparts : ∀ part ∈ parts, Part sources part.1 part.2)
    (hids : (parts.map fun part => part.1.projectionId).Nodup) (hpart : part ∈ parts) :
    (parts.flatMap Prod.snd).filter (fun s => s.projectionId = part.1.projectionId) = part.2 := by
  induction parts with
  | nil => cases hpart
  | cons first parts ih =>
    rw [List.map_cons,List.nodup_cons] at hids
    have hfirst := hparts first (List.mem_cons_self ..)
    rw [List.flatMap_cons,List.filter_append]
    rcases List.mem_cons.mp hpart with rfl | hpart
    · have hall : part.2.filter (fun s => s.projectionId = part.1.projectionId) = part.2 :=
        List.filter_eq_self.mpr fun s hs => by simpa using hfirst.named s hs
      have hnone : (parts.flatMap Prod.snd).filter (fun s => s.projectionId = part.1.projectionId) = [] := by
        apply List.filter_eq_nil_iff.mpr
        intro s hs
        obtain ⟨other,hother,hs⟩ := List.mem_flatMap.mp hs
        rw [decide_eq_true_eq,(hparts other (List.mem_cons_of_mem _ hother)).named s hs]
        exact fun heq => hids.1 (List.mem_map.mpr ⟨other,hother,heq⟩)
      rw [hall,hnone,List.append_nil]
    · have hnone : first.2.filter (fun s => s.projectionId = part.1.projectionId) = [] := by
        apply List.filter_eq_nil_iff.mpr
        intro s hs
        rw [decide_eq_true_eq,hfirst.named s hs]
        exact fun heq => hids.1 (List.mem_map.mpr ⟨part,hpart,heq.symm⟩)
      rw [hnone,List.nil_append]
      exact ih (fun q hq => hparts q (List.mem_cons_of_mem _ hq)) hids.2 hpart

/-- The projections of a plan pass the checks of the applier exactly when their ids are distinct. -/
theorem backed_iff (hover : plan.Over sources) : (∀ p ∈ plan.projections, plan.Backed p) ↔
    (plan.projections.map ProjectionView.projectionId).Nodup := by
  obtain ⟨parts,hparts,hprojections,hmappings⟩ := hover.parts
  have hmap : plan.projections.map ProjectionView.projectionId = parts.map fun part =>
    part.1.projectionId := by
    rw [hprojections,List.map_map]
    rfl
  constructor
  · intro hbacked
    rw [hmap,List.nodup_iff_count_le_one]
    intro id
    by_cases hid : id ∈ parts.map fun part => part.1.projectionId
    · obtain ⟨part,hpart,rfl⟩ := List.mem_map.mp hid
      obtain ⟨m,hm⟩ := (hbacked part.1 (hprojections ▸ List.mem_map_of_mem hpart)).primary
      rw [← primaries_count hparts,← hmappings]
      exact (congrArg List.length hm).le
    · rw [List.count_eq_zero_of_not_mem hid]
      omega
  · intro hids p hp
    rw [hprojections] at hp
    obtain ⟨part,hpart,rfl⟩ := List.mem_map.mp hp
    have hsources : plan.sourcesOf part.1 = part.2 := by
      rw [DerivedApplyPlan.sourcesOf,hmappings]
      exact mappings_of_part hparts (hmap ▸ hids) hpart
    refine ⟨?_,?_,?_⟩
    · rw [hsources]
      exact (hparts part hpart).primary
    · rw [hsources,(hparts part hpart).ids,Bool.and_eq_true]
      exact ⟨List.all_eq_true.mpr fun _ h => List.contains_iff_mem.mpr h,
        List.all_eq_true.mpr fun _ h => List.contains_iff_mem.mpr h⟩
    · rintro ⟨hconflict,hnone⟩
      rw [hsources,(hparts part hpart).sides hconflict] at hnone
      cases hnone

def SourceMapping.place (m : SourceMapping T) : String × ℤ := (m.projectionId,m.memoryId)

def SourceMapping.renamed (ids : Dict String String) (m : SourceMapping T) : SourceMapping T :=
  { m with projectionId := (ids.get? m.projectionId).getD m.projectionId }

lemma mappings_pass {ids : Dict String String} {items rows : List (SourceMapping T)}
    (hknown : ∀ m ∈ items, (ids.get? m.projectionId).isSome = true)
    (hplaces : (items.map fun m => (m.renamed ids).place).Nodup)
    (hfree : ∀ m ∈ items, ∀ r ∈ rows, r.place ≠ (m.renamed ids).place) :
    items.foldlM (insertMapping ids) rows = .ok (rows++items.map (SourceMapping.renamed ids)) := by
  induction items generalizing rows with
  | nil => simp [pure,Except.pure]
  | cons m items ih =>
    rw [List.map_cons,List.nodup_cons] at hplaces
    obtain ⟨stored,hstored⟩ := Option.isSome_iff_exists.mp (hknown m (List.mem_cons_self ..))
    have hrenamed : m.renamed ids = { m with projectionId := stored } := by
      rw [SourceMapping.renamed,hstored,Option.getD_some]
    have hnone : ¬(rows.any fun r => r.projectionId = stored && r.memoryId = m.memoryId) = true := by
      rw [List.any_eq_true]
      rintro ⟨r,hr,hsame⟩
      simp only [Bool.and_eq_true,decide_eq_true_eq] at hsame
      apply hfree m (List.mem_cons_self ..) r hr
      rw [hrenamed,SourceMapping.place,SourceMapping.place,hsame.1,hsame.2]
    have hinsert : insertMapping ids rows m = .ok (rows++[m.renamed ids]) := by
      rw [insertMapping,hstored]
      dsimp only
      rw [if_neg hnone,hrenamed]
    have hlater : ∀ x ∈ items, ∀ r ∈ rows++[m.renamed ids], r.place ≠ (x.renamed ids).place := by
      intro x hx r hr
      rcases List.mem_append.mp hr with hr | hr
      · exact hfree x (List.mem_cons_of_mem _ hx) r hr
      · rw [List.mem_singleton.mp hr]
        exact fun heq => hplaces.1 (List.mem_map.mpr ⟨x,hx,heq.symm⟩)
    have hrest := ih (fun x hx => hknown x (List.mem_cons_of_mem _ hx)) hplaces.2 hlater
    rw [List.append_assoc,List.singleton_append] at hrest
    rw [List.foldlM_cons,hinsert,List.map_cons]
    exact hrest

def DerivedApplyPlan.placed (plan : DerivedApplyPlan T) (rows : List (ProjectionRow T))
    (m : SourceMapping T) : SourceMapping T :=
  { m with
    projectionId := ((plan.projections.find? fun p => p.projectionId = m.projectionId).bind
      (plan.projectionScheme.storedId rows)).getD m.projectionId }

def DerivedApplyPlan.mappingsAfter (plan : DerivedApplyPlan T) (rows : List (ProjectionRow T))
    (mappings : List (SourceMapping T)) : List (SourceMapping T) :=
  (mappings.filter fun m =>
      plan.projections.all fun p => plan.projectionScheme.storedId rows p ≠ some m.projectionId) ++
    plan.projectionSources.map (plan.placed rows)

lemma placed_of_part (hparts : ∀ part ∈ parts, Part sources part.1 part.2)
    (hprojections : plan.projections = parts.map Prod.fst)
    (hids : (plan.projections.map ProjectionView.projectionId).Nodup) (hpart : part ∈ parts)
    {id : String}
    (hid : plan.projectionScheme.storedId rows part.1 = some id)
    (hm : m ∈ part.2) : plan.placed rows m = { m with projectionId := id } := by
  have hfind : (plan.projections.find? fun p => p.projectionId = m.projectionId) = some part.1 := by
    rw [(hparts part hpart).named m hm]
    exact RowTable.find?_key hids (hprojections ▸ List.mem_map_of_mem hpart)
  rw [DerivedApplyPlan.placed,hfind,Option.bind_some,hid,Option.getD_some]

/-- Placed mappings do not meet: a projection names a source once, and projections under
different keys have different rows. -/
theorem places_nodup (hover : plan.Over sources)
    (hids : (plan.projections.map ProjectionView.projectionId).Nodup)
    (hkeys : (plan.projections.map plan.projectionKeyOf).Nodup)
    (hrows : (rows.map ProjectionRow.projectionId).Nodup)
    (hstored : ∀ p ∈ plan.projections, plan.projectionKeyOf p ∈ rows.map ProjectionRow.projectionKey) :
    (plan.projectionSources.map fun m => (plan.placed rows m).place).Nodup := by
  obtain ⟨parts,hparts,hprojections,hmappings⟩ := hover.parts
  have hid : ∀ part ∈ parts, ∃ id, plan.projectionScheme.storedId rows part.1 = some id := by
    intro part hpart
    rw [← Option.isSome_iff_exists,Option.isSome_iff_ne_none,ne_eq,storedId_eq_none,not_not]
    exact hstored part.1 (hprojections ▸ List.mem_map_of_mem hpart)
  rw [hmappings,List.map_flatMap,List.nodup_flatMap]
  constructor
  · intro part hpart
    obtain ⟨id,hpartId⟩ := hid part hpart
    have hmap : (part.2.map fun m => (plan.placed rows m).place) =
        (part.2.map SourceMapping.memoryId).map fun n => (id,n) := by
      rw [List.map_map]
      apply List.map_congr_left
      intro m hm
      rw [placed_of_part hparts hprojections hids hpart hpartId hm]
      rfl
    rw [hmap]
    exact (hparts part hpart).nodup.map fun _ _ h => (Prod.mk.injEq .. ▸ h).2
  · have hdistinct : parts.Pairwise fun a b => plan.projectionKeyOf a.1 ≠ plan.projectionKeyOf b.1 := by
      have := hkeys
      rw [hprojections,List.map_map] at this
      exact List.pairwise_map.mp this
    refine hdistinct.imp_of_mem ?_
    intro a b ha hb hne
    obtain ⟨ida,hida⟩ := hid a ha
    obtain ⟨idb,hidb⟩ := hid b hb
    intro x hxa hxb
    obtain ⟨m,hm,rfl⟩ := List.mem_map.mp hxa
    obtain ⟨n,hn,heq⟩ := List.mem_map.mp hxb
    rw [placed_of_part hparts hprojections hids ha hida hm,
      placed_of_part hparts hprojections hids hb hidb hn] at heq
    have hsame : idb = ida := congrArg Prod.fst heq
    exact hne (storedId_injective hrows hida (hsame ▸ hidb))

lemma stored_of_writes (hkeys : (plan.projections.map plan.projectionKeyOf).Nodup)
    (hrows : plan.projections.foldlM plan.projectionScheme.write db.projections = .ok rows) :
    ∀ p ∈ plan.projections, plan.projectionKeyOf p ∈ rows.map ProjectionRow.projectionKey :=
  fun p hp => (writes_stand hkeys hrows p hp).1

lemma apply_shape (hover : plan.Over sources) (hcurrent : db.Current sources)
    (hdb : (db.projections.map ProjectionRow.projectionId).Nodup)
    (hids : (plan.projections.map ProjectionView.projectionId).Nodup)
    (hkeys : (plan.projections.map plan.projectionKeyOf).Nodup) {relations : List RelationRow}
    (hrelations : plan.relations.foldlM plan.relationScheme.write db.relations = .ok relations)
    (hrows : plan.projections.foldlM plan.projectionScheme.write db.projections = .ok rows) :
    db.applyDerivedPlan plan = .ok { db with
      relations
      projections := rows
      mappings := plan.mappingsAfter rows db.mappings } := by
  have hbacked := (backed_iff hover).mpr hids
  obtain ⟨w,hw⟩ := passes (w := { projections := db.projections, mappings := db.mappings })
    hbacked hkeys (by simp) hrows
  have hpassed := passed hw
  have hsame : w.projections = rows := Except.ok.inj (hpassed.rows.symm.trans hrows)
  have hnodup : (rows.map ProjectionRow.projectionId).Nodup := ExceptLaws.foldlM_invariant
      (P := fun rows : List (ProjectionRow T) => (rows.map ProjectionRow.projectionId).Nodup)
      (fun _ _ _ _ h hn => nodup_written h hn) hdb hrows
  have hstored := stored_of_writes hkeys hrows
  have hget : ∀ p ∈ plan.projections, w.ids.get? p.projectionId = plan.projectionScheme.storedId rows p := by
    intro p hp
    rw [← hsame]
    exact hpassed.stored hids p hp
  -- the table of ids and the rows place a mapping alike
  have hplaced : ∀ m ∈ plan.projectionSources, ∃ id, w.ids.get? m.projectionId = some id ∧
      (∃ p ∈ plan.projections, plan.projectionScheme.storedId rows p = some id) ∧
      m.renamed w.ids = plan.placed rows m := by
    intro m hm
    obtain ⟨p,hp,hfind,-⟩ := part_of_mapping hover hids hm
    have hname : p.projectionId = m.projectionId := by simpa using List.find?_some hfind
    have hsome : plan.projectionScheme.storedId rows p ≠ none := by
      rw [ne_eq,storedId_eq_none,not_not]
      exact hstored p hp
    obtain ⟨id,hid⟩ := Option.ne_none_iff_exists'.mp hsome
    have hgetm : w.ids.get? m.projectionId = some id := by rw [← hname,hget p hp,hid]
    refine ⟨id,hgetm,⟨p,hp,hid⟩,?_⟩
    rw [SourceMapping.renamed,DerivedApplyPlan.placed,hgetm,hfind,Option.bind_some,hid]
  have hmappings : plan.projectionSources.foldlM (insertMapping w.ids) w.mappings =
      .ok (plan.mappingsAfter rows db.mappings) := by
    have hmap : plan.projectionSources.map (SourceMapping.renamed w.ids) =
        plan.projectionSources.map (plan.placed rows) :=
      List.map_congr_left fun m hm => (hplaced m hm).choose_spec.2.2
    rw [mappings_pass,hmap,hpassed.mappings,hsame]
    · rfl
    · intro m hm
      obtain ⟨id,hid,-⟩ := hplaced m hm
      exact Option.isSome_of_eq_some hid
    · have hplaces := places_nodup hover hids hkeys hnodup hstored
      have hmap' : (plan.projectionSources.map fun m => (m.renamed w.ids).place) =
          plan.projectionSources.map fun m => (plan.placed rows m).place := by
        apply List.map_congr_left
        intro m hm
        obtain ⟨_,-,-,heq⟩ := hplaced m hm
        rw [heq]
      rw [hmap']
      exact hplaces
    · intro m hm r hr heq
      obtain ⟨id,hid,⟨p,hp,hp'⟩,-⟩ := hplaced m hm
      rw [hpassed.mappings,List.mem_filter] at hr
      have hfree := List.all_eq_true.mp hr.2 p hp
      rw [hsame,hp'] at hfree
      have hname : r.projectionId = id := by
        have := congrArg Prod.fst heq
        rw [SourceMapping.place,SourceMapping.place,SourceMapping.renamed,hid] at this
        exact this
      rw [hname] at hfree
      simp at hfree
  unfold MemoryEvolutionStore.applyDerivedPlan
  rw [validated_over hover hcurrent hids,upsertRelations_write hover hcurrent,hrelations]
  simp only [bind,Except.bind] at hw hmappings ⊢
  rw [hw]
  dsimp only
  rw [hmappings,← hsame]
  rfl

def RelationRow.content (r : RelationRow) : RelationRow := { r with revision := 0 }

def ProjectionRow.content (p : ProjectionRow T) : ProjectionRow T := { p with revision := 0 }

structure MemoryEvolutionStore.Repeated (db db' : MemoryEvolutionStore T) : Prop where
  relations : db'.relations.map RelationRow.content = db.relations.map RelationRow.content
  projections : db'.projections.map ProjectionRow.content = db.projections.map ProjectionRow.content
  mappings : db'.mappings = db.mappings
  documents : db'.documents = db.documents
  reviews : db'.reviews = db.reviews

lemma MemoryEvolutionStore.Repeated.active (h : db.Repeated db') :
    ∀ r ∈ db.relations, r.state = .active →
      ∃ r' ∈ db'.relations, r'.relationId = r.relationId ∧ r'.state = .active := by
  intro r hr hactive
  have hmem : r.content ∈ db'.relations.map RelationRow.content := by
    rw [h.relations]
    exact List.mem_map_of_mem hr
  obtain ⟨r',hr',heq⟩ := List.mem_map.mp hmem
  have hid : r'.content.relationId = r.content.relationId := by rw [heq]
  have hstate : r'.content.state = r.content.state := by rw [heq]
  exact ⟨r',hr',hid,hstate.trans hactive⟩

lemma relation_settled (rel : RelationView) {r : RelationRow}
    (h : (∃ x, r = plan.relationScheme.rewrite rel x) ∨ r = plan.relationScheme.fresh rel) :
    (plan.relationScheme.rewrite rel r).content = r.content := by
  rcases h with ⟨x,rfl⟩ | rfl
  · by_cases hx : x.state = .rejected
    · simp [DerivedApplyPlan.relationScheme,hx]
    · by_cases hactive : x.state = .active
      · simp [DerivedApplyPlan.relationScheme,RelationRow.reproposed,RelationRow.content,hactive]
      · cases hrel : rel.state <;>
          simp [DerivedApplyPlan.relationScheme,RelationRow.reproposed,RelationRow.content,hx, hactive,hrel]
  · cases hrel : rel.state <;>
      simp [DerivedApplyPlan.relationScheme,RelationRow.reproposed,RelationRow.content,hrel]

lemma projection_settled (p : ProjectionView T) {r : ProjectionRow T}
    (h : (∃ x, r = plan.projectionScheme.rewrite p x) ∨ r = plan.projectionScheme.fresh p) :
    (plan.projectionScheme.rewrite p r).content = r.content := by
  rcases h with ⟨x,rfl⟩ | rfl
  · rfl
  · rfl

/-- The ids a plan brings are free: what is not stored under its key has an id of its own, and
the projections differ in ids and keys. -/
structure MemoryEvolutionStore.Fits (db : MemoryEvolutionStore T) (plan : DerivedApplyPlan T) :
    Prop where
  relations : plan.relationScheme.Fits db.relations plan.relations
  projections : plan.projectionScheme.Fits db.projections plan.projections
  ids : (plan.projections.map ProjectionView.projectionId).Nodup
  keys : (plan.projections.map plan.projectionKeyOf).Nodup

lemma fits_of_applied (hover : plan.Over sources) (hcurrent : db.Current sources)
    (h : db.applyDerivedPlan plan = .ok db') : db.Fits plan := by
  obtain ⟨_,-,h⟩ := bind_ok h
  obtain ⟨relations,hrelations,h⟩ := bind_ok h
  obtain ⟨w,hw,-⟩ := bind_ok h
  have hpassed := passed hw
  rw [upsertRelations_write hover hcurrent] at hrelations
  refine ⟨?_,?_,?_,hpassed.keys⟩
  · exact (writes_ok_iff (relation_keys_nodup hover hcurrent)).mp ⟨relations,hrelations⟩
  · exact (writes_ok_iff hpassed.keys).mp ⟨w.projections,hpassed.rows⟩
  · exact (backed_iff hover).mp hpassed.backed

lemma mappingsAfter_again {rows rows' : List (ProjectionRow T)} {mappings : List (SourceMapping T)}
    (hsame : ∀ p, plan.projectionScheme.storedId rows' p = plan.projectionScheme.storedId rows p)
    (hplaced : ∀ m ∈ plan.projectionSources, ∃ p ∈ plan.projections,
      plan.projectionScheme.storedId rows p = some (plan.placed rows m).projectionId) :
    plan.mappingsAfter rows' (plan.mappingsAfter rows mappings) =
    plan.mappingsAfter rows mappings := by
  have hfun : plan.projectionScheme.storedId rows' = plan.projectionScheme.storedId rows :=
    funext hsame
  have hrows : plan.placed rows' = plan.placed rows := by
    funext m
    rw [DerivedApplyPlan.placed,hfun]
    rfl
  have hnone : (plan.projectionSources.map (plan.placed rows)).filter (fun m =>
      plan.projections.all fun p => plan.projectionScheme.storedId rows p ≠ some m.projectionId) = [] := by
    apply List.filter_eq_nil_iff.mpr
    intro x hx hall
    obtain ⟨m,hm,rfl⟩ := List.mem_map.mp hx
    obtain ⟨p,hp,heq⟩ := hplaced m hm
    have := List.all_eq_true.mp hall p hp
    rw [heq] at this
    simp at this
  unfold DerivedApplyPlan.mappingsAfter
  rw [hfun,hrows,List.filter_append,hnone,List.append_nil,List.filter_filter]
  simp only [Bool.and_self]

lemma applied_twice (hover : plan.Over sources) (hcurrent : db.Current sources)
    (hdb : (db.projections.map ProjectionRow.projectionId).Nodup) (hfits : db.Fits plan) :
    ∃ db₁, db.applyDerivedPlan plan = .ok db₁ ∧
      ∃ db₂, db₁.applyDerivedPlan plan = .ok db₂ ∧ db₁.Repeated db₂ := by
  have hkeys := relation_keys_nodup hover hcurrent
  obtain ⟨relations,hrelations⟩ := (writes_ok_iff hkeys).mpr hfits.relations
  obtain ⟨rows,hrows⟩ := (writes_ok_iff hfits.keys).mpr hfits.projections
  have hfirst := apply_shape hover hcurrent hdb hfits.ids hfits.keys hrelations hrows
  have hnodup : (rows.map ProjectionRow.projectionId).Nodup := ExceptLaws.foldlM_invariant
      (P := fun rows : List (ProjectionRow T) => (rows.map ProjectionRow.projectionId).Nodup)
      (fun _ _ _ _ h hn => nodup_written h hn) hdb hrows
  obtain ⟨relations',hrelations',hrelationsSee,-⟩ := writes_again RelationRow.content hkeys
    fun rel hrel => ⟨(writes_stand hkeys hrelations rel hrel).1,fun r hr hk =>
      relation_settled rel ((writes_stand hkeys hrelations rel hrel).2 r hr hk)⟩
  obtain ⟨rows',hrows',hrowsSee,hstored⟩ := writes_again ProjectionRow.content hfits.keys
    fun p hp => ⟨(writes_stand hfits.keys hrows p hp).1,fun r hr hk =>
      projection_settled p ((writes_stand hfits.keys hrows p hp).2 r hr hk)⟩
  -- the documents are the same
  have hstill : ({ db with
      relations
      projections := rows
      mappings := plan.mappingsAfter rows db.mappings } : MemoryEvolutionStore T).Current sources :=
    hcurrent
  have hsecond := apply_shape hover hstill hnodup hfits.ids hfits.keys hrelations' hrows'
  have hmappings : ∀ m ∈ plan.projectionSources, ∃ p ∈ plan.projections,
      plan.projectionScheme.storedId rows p = some (plan.placed rows m).projectionId := by
    intro m hm
    obtain ⟨p,hp,hfind,-⟩ := part_of_mapping hover hfits.ids hm
    have hsome : plan.projectionScheme.storedId rows p ≠ none := by
      rw [ne_eq,storedId_eq_none,not_not]
      exact stored_of_writes hfits.keys hrows p hp
    obtain ⟨id,hid⟩ := Option.ne_none_iff_exists'.mp hsome
    refine ⟨p,hp,?_⟩
    rw [DerivedApplyPlan.placed,hfind,Option.bind_some,hid,Option.getD_some]
  exact ⟨_,hfirst,_,hsecond,hrelationsSee,hrowsSee,mappingsAfter_again hstored hmappings, rfl,rfl⟩

/-- A plan made from sources that have not changed is accepted, and accepted again with nothing
changed but counters, exactly when the ids it brings are free. -/
theorem applied_again_iff {config : PlanConfig} {proposal : EvolutionProposal T}
    {made : DerivedApplyPlan T} (hmade : config.proposalToPlan proposal sources = .ok made)
    (originJobId : Option String) (hcurrent : db.Current sources)
    (hdb : (db.projections.map ProjectionRow.projectionId).Nodup) :
    (∃ db₁, db.applyDerivedPlan { made with originJobId } = .ok db₁ ∧
      ∃ db₂, db₁.applyDerivedPlan { made with originJobId } = .ok db₂ ∧ db₁.Repeated db₂ ∧
        ∀ r ∈ db₁.relations, r.state = .active →
          ∃ r' ∈ db₂.relations, r'.relationId = r.relationId ∧ r'.state = .active) ↔
      db.Fits { made with originJobId } := by
  have hover := made_over hmade originJobId
  constructor
  · rintro ⟨db₁,happlied,-⟩
    exact fits_of_applied hover hcurrent happlied
  · intro hfits
    obtain ⟨db₁,hfirst,db₂,hsecond,hrepeated⟩ := applied_twice hover hcurrent hdb hfits
    exact ⟨db₁,hfirst,db₂,hsecond,hrepeated,hrepeated.active⟩

def linkedProposal : EvolutionProposal ℕ where
  relations := [{
    sourceAlias := "M1"
    targetAlias := "M2"
    relationType := .sameEpisode
    confidence := 9 / 10 }]
  projections := [{
    projectionType := .episodeSummary
    sourceAliases := ["M1","M2"]
    summary := "tea, then coffee"
    confidence := 9 / 10 }]

def linkedPlan (documents : List (CanonicalRow ℕ)) (job : String) : DerivedApplyPlan ℕ :=
  { ((sampleConfig.proposalToPlan linkedProposal (documents.filterMap loadSource)).toOption.getD {})
    with originJobId := some job }

theorem applied_again_sample :
    ∃ db₁, ({ documents := [teaMemory,coffeeMemory] } :
        MemoryEvolutionStore ℕ).applyDerivedPlan (linkedPlan [teaMemory,coffeeMemory] "job-1") =
      .ok db₁ ∧ ∃ db₂, db₁.applyDerivedPlan (linkedPlan [teaMemory,coffeeMemory] "job-1") = .ok db₂ ∧
        db₁.Repeated db₂ := by
  have hsome : (sampleConfig.proposalToPlan linkedProposal
      ([teaMemory,coffeeMemory].filterMap loadSource)).toOption.isSome = true := by decide +kernel
  have hmade : ∃ made, sampleConfig.proposalToPlan linkedProposal
      ([teaMemory,coffeeMemory].filterMap loadSource) = .ok made ∧
        linkedPlan [teaMemory,coffeeMemory] "job-1" = { made with originJobId := some "job-1" } := by
    cases hplan : sampleConfig.proposalToPlan linkedProposal
        ([teaMemory,coffeeMemory].filterMap loadSource) with
    | error e =>
      rw [hplan] at hsome
      exact absurd hsome (by simp [Except.toOption])
    | ok made =>
      refine ⟨made,rfl,?_⟩
      rw [linkedPlan,hplan]
      rfl
  obtain ⟨made,hmade,heq⟩ := hmade
  have hcurrent : ({ documents := [teaMemory,coffeeMemory] } : MemoryEvolutionStore ℕ).Current
      ([teaMemory,coffeeMemory].filterMap loadSource) := by
    unfold MemoryEvolutionStore.Current
    decide +kernel
  have hfits : ({ documents := [teaMemory,coffeeMemory] } : MemoryEvolutionStore ℕ).Fits
      (linkedPlan [teaMemory,coffeeMemory] "job-1") :=
    ⟨⟨by simp,by decide +kernel⟩,⟨by simp,by decide +kernel⟩,by decide +kernel,by decide +kernel⟩
  obtain ⟨db₁,hfirst,db₂,hsecond,hrepeated,-⟩ :=
    (applied_again_iff hmade (some "job-1") hcurrent (by simp)).mpr (heq ▸ hfits)
  exact ⟨db₁,heq ▸ hfirst,db₂,heq ▸ hsecond,hrepeated⟩

/-- A memory of a session under its old name, and under the name it is given later: the
revision stays. -/
def inSession (sessionId : String) (row : CanonicalRow ℕ) : CanonicalRow ℕ :=
  { row with metadata := { sessionId := some sessionId, privacyLevel := some "shared" } }

def oldDocuments : List (CanonicalRow ℕ) :=
  [teaMemory,coffeeMemory].map (inSession "12345")

def renamedDocuments : List (CanonicalRow ℕ) :=
  [teaMemory,coffeeMemory].map (inSession "aiocqhttp:GroupMessage:12345")

def renamedStore : MemoryEvolutionStore ℕ :=
  ({} : MemoryEvolutionStore ℕ).run [{ call := .canonical oldDocuments, now := 1 },
     { call := .applyPlan (linkedPlan oldDocuments "job-1"), now := 2 },
     { call := .canonical renamedDocuments, now := 3 }]

/-- The new plan has the id of the episode that is stored, and another key. -/
theorem renamed_episode_refused : renamedStore.Current (renamedDocuments.filterMap loadSource) ∧
      (sampleConfig.proposalToPlan linkedProposal
        (renamedDocuments.filterMap loadSource)).toOption.isSome = true ∧
      (renamedStore.projections.map ProjectionRow.projectionId).Nodup ∧
      (renamedStore.applyDerivedPlan (linkedPlan renamedDocuments "job-2")).toOption.isNone = true := by
  unfold MemoryEvolutionStore.Current
  decide +kernel

end Memora.Evolution

import Memora.CatalogAggregates

/-! A topic read checks every mapping against the current row of its memory and returns nothing
where one is stale. Repairs refresh the mappings of the memories that an entry names. -/
namespace Memora.Catalog

variable {T : Type*} [LinearOrder T] [Zero T]

structure TopicRead where
  scopeKey : String
  privacyLevel : PrivacyLevel
  resolverRevision : String
  chatType : Option ChatType := none
  limit : ℕ := 100

namespace Database

variable (db : Database T)

def chatConflict (t : ScopeTopic T) : Bool :=
  db.topics.any fun c => c.generation = t.generation && c.scope.scopeKey = t.scope.scopeKey &&
    c.scope.privacyLevel = t.scope.privacyLevel && c.scope.chatType ≠ t.scope.chatType

/-- `ORDER BY active_source_count DESC, last_seen_at DESC, topic_key ASC`. -/
def byActivity (rows : List (ScopeTopic T)) : List (ScopeTopic T) :=
  rows.insertionSort fun a b => b.activeSourceCount < a.activeSourceCount ∨
    (a.activeSourceCount = b.activeSourceCount ∧ (b.lastSeenAt < a.lastSeenAt ∨
      (a.lastSeenAt = b.lastSeenAt ∧ a.topicKey ≤ b.topicKey)))

def selectedTopics (generation : ℤ) (read : TopicRead) : List (ScopeTopic T) :=
  (byActivity (db.topics.filter fun t =>
    decide (db.state.status = .ready) && decide (db.state.activeGeneration = some t.generation) &&
      t.generation = generation && t.scope.scopeKey = Canonical.pythonStrip read.scopeKey &&
      t.scope.privacyLevel = read.privacyLevel &&
      read.chatType.all (fun chatType => t.scope.chatType = chatType) &&
      !db.chatConflict t)).take (min read.limit 1000)

def topicMappings (generation : ℤ) (t : ScopeTopic T) : List (MappingRow T) :=
  db.sources.filter fun r => r.generation = generation && r.scope = t.scope && r.topicKey =
  t.topicKey

variable (env : CatalogEnv T)

def mappingValid (db : Database T) (read : TopicRead) (t : ScopeTopic T) (r : MappingRow T) :
    Bool :=
  (db.readCurrentSource env r.memoryId).any fun source =>
    source.scope = t.scope && source.resolverRevision =
    Canonical.pythonStrip read.resolverRevision &&
      source.sourceRevision = r.sourceRevision && source.topics.any fun topic => topic.1 = t.topicKey

def listScopeTopics (db : Database T) (generation : ℤ) (read : TopicRead) : List (ScopeTopic T) :=
  let resolver := Canonical.pythonStrip read.resolverRevision
  if generation ≤ 0 || decide (Canonical.pythonStrip read.scopeKey = "") ||
    decide (resolver = "") ||
      decide (256 < resolver.length) || read.limit = 0 then []
  else
    let selected := db.selectedTopics generation read
    if selected.all fun t =>
        let mappings := db.topicMappings generation t
        mappings.all (db.mappingValid env read t) && !mappings.isEmpty &&
          mappings.length = t.activeSourceCount then selected
    else []

def Carries (id : ℤ) (revision : String) : Prop :=
  ∀ generation, db.state.activeGeneration = some generation → ∀ r ∈ db.sources,
    r.generation = generation → r.memoryId = id → r.sourceRevision = revision

def Fresh (db : Database T) (id : ℤ) : Prop :=
  ∀ generation, db.state.activeGeneration = some generation → ∀ r ∈ db.sources,
    r.generation = generation → r.memoryId = id →
      (db.readCurrentSource env id).map CatalogSource.sourceRevision = some r.sourceRevision

end Database

variable {env : CatalogEnv T} {db db' : Database T} {id : ℤ} {generation : ℤ} {d : DirtyRow T}
  {document : Document} {old new : Document} {r : MappingRow T} {replaced : Bool}

lemma listScopeTopics_stale {read : TopicRead} {t : ScopeTopic T}
    (ht : t ∈ db.selectedTopics generation read)
    (hr : r ∈ db.topicMappings generation t)
    (hstale : (db.readCurrentSource env r.memoryId).map CatalogSource.sourceRevision ≠ some r.sourceRevision) :
    db.listScopeTopics env generation read = [] := by
  have hinvalid : db.mappingValid env read t r = false := by
    unfold Database.mappingValid
    cases hsource : db.readCurrentSource env r.memoryId with
    | none => rfl
    | some source =>
      rw [hsource] at hstale
      have hne : source.sourceRevision ≠ r.sourceRevision := fun heq => hstale (by simp [heq])
      simp [hne]
  have hall : (db.selectedTopics generation read).all (fun t =>
      let mappings := db.topicMappings generation t
      mappings.all (db.mappingValid env read t) && !mappings.isEmpty &&
        mappings.length = t.activeSourceCount) = false := by
    rw [List.all_eq_false]
    refine ⟨t,ht,?_⟩
    have hmappings : (db.topicMappings generation t).all (db.mappingValid env read t) = false := by
      rw [List.all_eq_false]
      exact ⟨r,hr,by simp [hinvalid]⟩
    simp [hmappings]
  unfold Database.listScopeTopics
  dsimp only at hall ⊢
  rw [hall]
  split <;> rfl

def Database.Numbered (db : Database T) : Prop :=
  (db.dirty.map DirtyRow.dirtyId).Nodup ∧ ∀ d ∈ db.dirty, d.dirtyId < db.nextDirtyId

omit [LinearOrder T] in
lemma Database.Numbered.congr (h : db.Numbered)
    (hids : db'.dirty.map DirtyRow.dirtyId = db.dirty.map DirtyRow.dirtyId)
    (hnext : db'.nextDirtyId = db.nextDirtyId) : db'.Numbered := by
  refine ⟨by rw [hids]; exact h.1,fun d hd => ?_⟩
  have hmem : d.dirtyId ∈ db.dirty.map DirtyRow.dirtyId := by
    rw [← hids]
    exact List.mem_map_of_mem hd
  obtain ⟨x,hx,heq⟩ := List.mem_map.mp hmem
  rw [hnext,← heq]
  exact h.2 x hx

omit [LinearOrder T] in
lemma numbered_upsert (h : db.Numbered) (operation : DirtyOperation) (code : Option String)
    (now : T) : (db.upsertDirty id operation code now).Numbered := by
  unfold Database.upsertDirty
  split
  · exact h.congr (RowTable.map_modify _ _ _ _ fun _ _ _ => rfl) rfl
  · refine ⟨?_,?_⟩
    · rw [List.map_append,List.nodup_append]
      refine ⟨h.1,List.nodup_singleton _,?_⟩
      intro x hx y hy
      obtain ⟨d,hd,rfl⟩ := List.mem_map.mp hx
      have hlt := h.2 d hd
      have hlast : y = db.nextDirtyId := by simpa using hy
      omega
    · intro d hd
      dsimp only
      rcases List.mem_append.mp hd with hd | hd
      · have hlt := h.2 d hd
        omega
      · rw [List.mem_singleton.mp hd]
        exact Nat.lt_succ_self _

omit [LinearOrder T] in
lemma Database.Numbered.of_entries (h : db.Numbered) (hentries : db'.entries = db.entries)
    (hnext : db'.nextDirtyId = db.nextDirtyId) : db'.Numbered := by
  have hids : ∀ db : Database T, db.dirty.map DirtyRow.dirtyId = db.entries.map Prod.fst := by
    intro db
    unfold Database.entries
    rw [List.map_map]
    rfl
  exact h.congr (by rw [hids,hids,hentries]) hnext

lemma effect_numbered (h : db.Numbered) (heffect : db.Effect db') : db'.Numbered := by
  cases heffect with
  | noted state documents id operation code now =>
    have hnoted : Database.Numbered { db with state := state, documents := documents } := h.congr rfl rfl
    exact numbered_upsert hnoted _ _ _
  | moved | dropped => exact h.congr rfl rfl
  | worked dirty hdirty => exact h.of_entries hdirty rfl
  | replaced generation id rows hrows =>
    obtain ⟨-,-,hdirty,hnext⟩ := replaceRows_kept db generation id rows
    exact h.congr (by rw [hdirty]) hnext

lemma run_numbered (hstart : db.Created) (steps : List (CatalogStep T)) :
    (db.run env steps).Numbered := by
  refine RunLaws.foldl_invariant (P := Database.Numbered) (fun db s h => ?_)
    (⟨by simp [hstart.dirty],by simp [hstart.dirty]⟩) steps
  unfold Database.step
  split
  · exact h
  · cases hcall : db.attempt env s.call s.now with
    | none => exact h
    | some db' => exact effect_numbered h (attempt_effect hcall)

structure Repair (T : Type*) where
  ownerToken : String
  limit : ℕ
  now : T
  leaseUntil : T
  clock : ℕ → T

def Database.repairs (env : CatalogEnv T) (db : Database T) (rounds : List (Repair T)) :
    Database T :=
  rounds.foldl (fun db round =>
    db.repairPending env round.ownerToken round.limit round.now round.leaseUntil round.clock) db

structure Steady (db db' : Database T) : Prop where
  state : db'.state = db.state
  documents : db'.documents = db.documents
  entries : db'.entries = db.entries

omit [LinearOrder T] in
lemma Steady.refl (db : Database T) : Steady db db := ⟨rfl,rfl,rfl⟩

omit [LinearOrder T] in
lemma Steady.trans {db db' db'' : Database T} (h : Steady db db') (h' : Steady db' db'') :
    Steady db db'' :=
  ⟨h'.state.trans h.state,h'.documents.trans h.documents,h'.entries.trans h.entries⟩

lemma Steady.source (h : Steady db db') (id : ℤ) :
    db'.readCurrentSource env id = db.readCurrentSource env id := by
  unfold Database.readCurrentSource Database.document?
  rw [h.documents]

lemma claimDirty_steady (db : Database T) (owner : String) (now leaseUntil : T) (limit : ℕ) :
    Steady db (db.claimDirty owner now leaseUntil limit).1 ∧
      (db.claimDirty owner now leaseUntil limit).1.sources = db.sources := by
  have heffect := effect_claim db owner now leaseUntil limit
  unfold Database.claimDirty at heffect ⊢
  split
  · exact ⟨.refl db,rfl⟩
  · refine ⟨⟨rfl,rfl,?_⟩,rfl⟩
    refine (RowTable.map_modify _ _ _ _ ?_).trans (RowTable.map_modify _ _ _ _ ?_)
    · exact fun _ _ _ => rfl
    · exact fun _ _ _ => rfl

theorem claimDirty_unresolved (db : Database T) (owner : String) (now leaseUntil : T) (limit : ℕ)
    (id : ℤ) : (db.claimDirty owner now leaseUntil limit).1.unresolved id = db.unresolved id := by
  unfold Database.claimDirty
  split
  · rfl
  · unfold Database.unresolved RowTable.modify
    simp only [List.any_map]
    congr 1
    funext d
    simp only [Function.comp_apply]
    by_cases hfree : d.state = .running ∧ d.leaseUntil.any (fun lease => lease ≤ max 0 now) = true
    · simp only [hfree.1,hfree.2,decide_true,Bool.and_true,if_true,DirtyRow.waiting]
      split <;> simp
    · have hkeep : (decide (d.state = .running) &&
          d.leaseUntil.any fun lease => lease ≤ max 0 now) = false := by
        simpa [not_and] using hfree
      simp only [hkeep,Bool.false_eq_true,if_false]
      split
      · rename_i hchosen
        obtain ⟨-,hwaiting⟩ := Bool.and_eq_true_iff.mp hchosen
        have hopen : d.state ≠ .completed := by
          intro hdone
          simp [DirtyRow.waiting,hdone] at hwaiting
        simp [hopen]
      · rfl

lemma claimDirty_open (db : Database T) (owner : String) (now leaseUntil : T) (limit : ℕ)
    (hd : d ∈ (db.claimDirty owner now leaseUntil limit).2) :
    d ∈ (db.claimDirty owner now leaseUntil limit).1.dirty ∧ d.state = .running := by
  unfold Database.claimDirty at hd ⊢
  split at hd
  · cases hd
  · rename_i hvalid
    rw [if_neg hvalid]
    have hmem := List.mem_of_mem_take hd
    unfold Database.bySequence at hmem
    rw [List.mem_insertionSort] at hmem
    obtain ⟨hin,hstate⟩ := List.mem_filter.mp hmem
    refine ⟨hin,?_⟩
    have hrunning := (Bool.and_eq_true_iff.mp hstate).1
    simpa using hrunning

lemma finishDirty_some {dirtyId sequence : ℕ} {owner : String} {success : Bool}
    {code : Option String} {now : T}
    (h : db.finishDirty dirtyId owner sequence success code now = some db') :
    Steady db db' ∧ db'.sources = db.sources ∧
    ∃ (p : DirtyRow T → Bool) (f : DirtyRow T → DirtyRow T),
      db'.dirty = RowTable.modify p f db.dirty ∧ (∀ d, p d = true → d.dirtyId = dirtyId ∧ d.state = .running) ∧
      ∀ d, (f d).memoryId = d.memoryId ∧ (f d).state = if success then .completed else .failed := by
  unfold Database.finishDirty at h
  dsimp only at h
  split at h
  · cases h
  split at h
  · cases h
  split at h
  · cases h
    refine ⟨⟨rfl,rfl,RowTable.map_modify _ _ _ _ fun _ _ _ => rfl⟩,rfl,_,_,rfl,?_,?_⟩
    · intro d hd
      simp only [Bool.and_eq_true,decide_eq_true_eq] at hd
      exact ⟨hd.1.1.1.1,hd.1.1.1.2⟩
    · exact fun d => ⟨rfl,rfl⟩
  · cases h

lemma sourceFromValues_memoryId {source : CatalogSource T}
    (h : sourceFromValues env document = some source) : source.memoryId = document.id := by
  unfold sourceFromValues at h
  split at h
  · cases h
  split at h
  · cases h
  split at h
  · cases h
  split at h
  · cases h
  split at h
  · split at h
    · cases h
    dsimp only at h
    split at h
    · cases h
    split at h
    · cases h
    · rw [← Option.some.inj h]
  · cases h

def Database.currentRows (env : CatalogEnv T) (db : Database T) (id generation : ℤ) :
    List (MappingRow T) :=
  (db.readCurrentSource env id).elim [] fun source => source.rows generation

lemma currentRows_memoryId (hr : r ∈ db.currentRows env id generation) : r.memoryId = id ∧
      (db.readCurrentSource env id).map CatalogSource.sourceRevision = some r.sourceRevision := by
  unfold Database.currentRows at hr
  cases hsource : db.readCurrentSource env id with
  | none =>
    rw [hsource] at hr
    cases hr
  | some source =>
    rw [hsource] at hr
    obtain ⟨topic,-,rfl⟩ := List.mem_map.mp hr
    refine ⟨?_,rfl⟩
    obtain ⟨document,hdocument,hvalues⟩ := Option.bind_eq_some_iff.mp hsource
    have hid : document.id = id := by simpa using List.find?_some hdocument
    exact (sourceFromValues_memoryId hvalues).trans hid

def Database.refreshed (env : CatalogEnv T) (db : Database T) (id generation : ℤ) :
    List (MappingRow T) :=
  (db.sources.filter fun r => !(r.generation = generation && r.memoryId = id)) ++
    db.currentRows env id generation

structure RepairOutcome (env : CatalogEnv T) (db : Database T) (d : DirtyRow T) (replaced : Bool)
    (db' : Database T) : Prop where
  steady : Steady db db'
  sources : if replaced then ∃ generation, db.state.activeGeneration = some generation ∧
      db'.sources = db.refreshed env d.memoryId generation
    else db'.sources = db.sources
  dirty : ∃ (p : DirtyRow T → Bool) (f : DirtyRow T → DirtyRow T),
    db'.dirty = RowTable.modify p f db.dirty ∧
    (∀ x, p x = true → x.dirtyId = d.dirtyId ∧ x.state = .running) ∧
    ∀ x, (f x).memoryId = x.memoryId ∧ (f x).state = if replaced then .completed else .failed

omit [LinearOrder T] [Zero T] in
lemma dirty_kept (rows : List (DirtyRow T)) (d : DirtyRow T) (state : DirtyState) :
    ∃ (p : DirtyRow T → Bool) (f : DirtyRow T → DirtyRow T), rows = RowTable.modify p f rows ∧
      (∀ x, p x = true → x.dirtyId = d.dirtyId ∧ x.state = .running) ∧
      ∀ x, (f x).memoryId = x.memoryId ∧ (f x).state = state :=
  ⟨fun _ => false,fun x => { x with state := state },
    (RowTable.modify_of_none fun _ _ => rfl).symm,fun _ h => absurd h (by simp),
    fun _ => ⟨rfl,rfl⟩⟩

lemma replaceRows_sources (db : Database T) (generation id : ℤ) (rows : List (MappingRow T)) :
    (db.replaceRows generation id rows).sources =
      (db.sources.filter fun r => !(r.generation = generation && r.memoryId = id))++rows := by
  exact (rebuildScopes_kept generation _ _).2.2.2.2

lemma repairEntry_outcome (db : Database T) (ownerToken : String) (now : T) (d : DirtyRow T) :
    ∃ replaced, RepairOutcome env db d replaced (db.repairEntry env ownerToken now d) := by
  unfold Database.repairEntry
  cases hreplaced : db.state.activeGeneration.bind fun generation =>
      db.replaceMemoryMappings env d.memoryId generation none now with
  | none =>
    refine ⟨false,?_⟩
    simp only [Option.getD_none,Option.isSome_none,Bool.false_eq_true,if_false]
    cases hfinish : db.finishDirty d.dirtyId ownerToken d.sequence false (some "catalog_repair_failed") now with
    | none => exact ⟨.refl db,rfl,dirty_kept _ d _⟩
    | some db' =>
      obtain ⟨hsteady,hsources,hdirty⟩ := finishDirty_some hfinish
      exact ⟨hsteady,hsources,hdirty⟩
  | some db₁ =>
    refine ⟨true,?_⟩
    obtain ⟨generation,hactive,hreplace⟩ := Option.bind_eq_some_iff.mp hreplaced
    obtain ⟨-,-,rows,hrows,-,rfl⟩ := replaceMemoryMappings_some hreplace
    obtain ⟨hstate,hdocuments,hdirty,-⟩ := replaceRows_kept db generation d.memoryId rows
    have hsources : (db.replaceRows generation d.memoryId rows).sources =
        db.refreshed env d.memoryId generation := by
      rw [replaceRows_sources,hrows]
      rfl
    have hsteady : Steady db (db.replaceRows generation d.memoryId rows) :=
      ⟨hstate,hdocuments,by unfold Database.entries; rw [hdirty]⟩
    simp only [Option.getD_some,Option.isSome_some,if_true]
    cases hfinish : (db.replaceRows generation d.memoryId rows).finishDirty d.dirtyId ownerToken
        d.sequence true none now with
    | none =>
      refine ⟨hsteady,⟨generation,hactive,hsources⟩,?_⟩
      rw [Option.getD_none,hdirty]
      exact dirty_kept _ d _
    | some db' =>
      obtain ⟨hsteady',hsources',hdirty'⟩ := finishDirty_some hfinish
      rw [hdirty] at hdirty'
      exact ⟨hsteady.trans hsteady',⟨generation,hactive,hsources'.trans hsources⟩,hdirty'⟩

lemma fresh_of_refreshed (h : Steady db db') (hactive : db.state.activeGeneration = some generation)
    (hsources : db'.sources = db.refreshed env id generation) : db'.Fresh env id := by
  intro g hg r hr hrg hrid
  rw [h.state,hactive] at hg
  cases hg
  rw [h.source]
  rw [hsources] at hr
  rcases List.mem_append.mp hr with hr | hr
  · have hdropped := (List.mem_filter.mp hr).2
    simp [hrg,hrid] at hdropped
  · exact (currentRows_memoryId hr).2

lemma fresh_of_other {other generation : ℤ} (h : Steady db db') (hne : other ≠ id)
    (hsources : db'.sources = db.refreshed env other generation) : db'.Fresh env id ↔
    db.Fresh env id := by
  have hsame : ∀ r, r.memoryId = id → (r ∈ db'.sources ↔ r ∈ db.sources) := by
    intro r hrid
    rw [hsources]
    constructor
    · intro hr
      rcases List.mem_append.mp hr with hr | hr
      · exact (List.mem_filter.mp hr).1
      · exact absurd ((currentRows_memoryId hr).1.symm.trans hrid) hne
    · intro hr
      refine List.mem_append_left _ (List.mem_filter.mpr ⟨hr,?_⟩)
      have hother : ¬r.memoryId = other := fun heq => hne (heq.symm.trans hrid)
      simp [hother]
  unfold Database.Fresh
  rw [h.state,h.source]
  constructor
  · exact fun hfresh g hg r hr hrg hrid => hfresh g hg r ((hsame r hrid).mpr hr) hrg hrid
  · exact fun hfresh g hg r hr hrg hrid => hfresh g hg r ((hsame r hrid).mp hr) hrg hrid

lemma fresh_of_same (h : Steady db db') (hsources : db'.sources = db.sources) :
    db'.Fresh env id ↔ db.Fresh env id := by
  unfold Database.Fresh
  rw [h.state,h.source,hsources]

omit [LinearOrder T] in
lemma memory_of_number (h : (db.entries.map Prod.fst).Nodup) {d x : DirtyRow T}
    (hd : (d.dirtyId,d.memoryId) ∈ db.entries) (hx : x ∈ db.dirty) (heq : x.dirtyId = d.dirtyId) :
    x.memoryId = d.memoryId := by
  have hmem : (x.dirtyId,x.memoryId) ∈ db.entries := List.mem_map.mpr ⟨x,hx,rfl⟩
  have hsame := RowTable.eq_of_key_eq h hmem hd heq
  exact (Prod.ext_iff.mp hsame).2

lemma repair_settles (h : RepairOutcome env db d replaced db')
    (hn : (db.entries.map Prod.fst).Nodup) (hd : (d.dirtyId,d.memoryId) ∈ db.entries)
    (hbefore : db.Fresh env id ∨ db.unresolved id = true) :
    db'.Fresh env id ∨ db'.unresolved id = true := by
  obtain ⟨p,f,hdirty,hp,hf⟩ := h.dirty
  have hsources := h.sources
  by_cases hmemory : d.memoryId = id
  · subst hmemory
    cases replaced with
    | true =>
      obtain ⟨generation,hactive,hsources⟩ := hsources
      exact .inl (fresh_of_refreshed h.steady hactive hsources)
    | false =>
      rcases hbefore with hfresh | hopen
      · exact .inl ((fresh_of_same h.steady hsources).mpr hfresh)
      · right
        obtain ⟨x,hx,hxopen⟩ := List.any_eq_true.mp hopen
        refine List.any_eq_true.mpr ⟨if p x then f x else x,?_,?_⟩
        · rw [hdirty]
          exact RowTable.mem_modify.mpr ⟨x,hx,rfl⟩
        · split
          · simp only [Bool.and_eq_true,decide_eq_true_eq] at hxopen
            simp [(hf x).1,(hf x).2,hxopen.1]
          · exact hxopen
  · rcases hbefore with hfresh | hopen
    · left
      cases replaced with
      | true =>
        obtain ⟨generation,-,hsources⟩ := hsources
        exact (fresh_of_other h.steady hmemory hsources).mpr hfresh
      | false => exact (fresh_of_same h.steady hsources).mpr hfresh
    · right
      obtain ⟨x,hx,hxopen⟩ := List.any_eq_true.mp hopen
      refine List.any_eq_true.mpr ⟨x,?_,hxopen⟩
      rw [hdirty]
      refine RowTable.mem_modify.mpr ⟨x,hx,?_⟩
      have hkeep : p x = false := by
        by_contra hsel
        have hnumber := (hp x (by simpa using hsel)).1
        simp only [Bool.and_eq_true,decide_eq_true_eq] at hxopen
        exact hmemory ((memory_of_number hn hd hx hnumber).symm.trans hxopen.1)
      simp [hkeep]

lemma repair_ignores (h : RepairOutcome env db d replaced db')
    (hmemory : d.memoryId ≠ id) (hclosed : db.unresolved id = false) :
    (db'.Fresh env id ↔ db.Fresh env id) ∧ db'.unresolved id = false := by
  obtain ⟨p,f,hdirty,hp,hf⟩ := h.dirty
  have hsources := h.sources
  refine ⟨?_,?_⟩
  · cases replaced with
    | true =>
      obtain ⟨generation,-,hsources⟩ := hsources
      exact fresh_of_other h.steady hmemory hsources
    | false => exact fresh_of_same h.steady hsources
  · unfold Database.unresolved at hclosed ⊢
    rw [List.any_eq_false] at hclosed ⊢
    intro x hx
    rw [hdirty] at hx
    obtain ⟨y,hy,rfl⟩ := RowTable.mem_modify.mp hx
    have hyclosed := hclosed y hy
    cases hpy : p y with
    | false => simpa [hpy] using hyclosed
    | true =>
      have hrunning := (hp y hpy).2
      have hother : ¬y.memoryId = id := by
        intro heq
        simp [heq,hrunning] at hyclosed
      simp [(hf y).1,hother]

theorem round_settles (round : Repair T) (hn : (db.entries.map Prod.fst).Nodup)
    (h : db.Fresh env id ∨ db.unresolved id = true) :
    let db' := db.repairPending env round.ownerToken round.limit round.now round.leaseUntil round.clock
    (db'.entries.map Prod.fst).Nodup ∧ (db'.Fresh env id ∨ db'.unresolved id = true) := by
  unfold Database.repairPending
  split
  · exact ⟨hn,h⟩
  obtain ⟨hsteady,hsources⟩ := claimDirty_steady db round.ownerToken round.now round.leaseUntil
    round.limit
  have hopen := claimDirty_unresolved db round.ownerToken round.now round.leaseUntil round.limit id
  have hgiven := fun d => claimDirty_open (d := d) db round.ownerToken round.now round.leaseUntil
    round.limit
  generalize db.claimDirty round.ownerToken round.now round.leaseUntil round.limit = claimed at *
  obtain ⟨db₁,given⟩ := claimed
  dsimp only at *
  have hnumbers : ∀ d ∈ given, (d.dirtyId,d.memoryId) ∈ db₁.entries :=
    fun d hd => List.mem_map.mpr ⟨d,(hgiven d hd).1,rfl⟩
  have hn₁ : (db₁.entries.map Prod.fst).Nodup := by
    rw [hsteady.entries]
    exact hn
  have h₁ : db₁.Fresh env id ∨ db₁.unresolved id = true := by
    rw [fresh_of_same hsteady hsources,hopen]
    exact h
  clear hgiven hopen hsources hsteady
  induction given generalizing db₁ with
  | nil => exact ⟨hn₁,h₁⟩
  | cons d given ih =>
    obtain ⟨replaced,houtcome⟩ := @repairEntry_outcome T _ _ env db₁ round.ownerToken (round.clock d.dirtyId) d
    refine ih _ ?_ ?_ (repair_settles houtcome hn₁ (hnumbers d (by simp)) h₁)
    · intro x hx
      rw [houtcome.steady.entries]
      exact hnumbers x (List.mem_cons_of_mem _ hx)
    · rw [houtcome.steady.entries]
      exact hn₁

theorem round_ignores (round : Repair T) (hclosed : db.unresolved id = false) :
    let db' := db.repairPending env round.ownerToken round.limit round.now round.leaseUntil round.clock
    (db'.Fresh env id ↔ db.Fresh env id) ∧ db'.unresolved id = false := by
  unfold Database.repairPending
  split
  · exact ⟨Iff.rfl,hclosed⟩
  obtain ⟨hsteady,hsources⟩ := claimDirty_steady db round.ownerToken round.now round.leaseUntil
    round.limit
  have hopen := claimDirty_unresolved db round.ownerToken round.now round.leaseUntil round.limit id
  have hgiven := fun d => claimDirty_open (d := d) db round.ownerToken round.now round.leaseUntil
    round.limit
  generalize db.claimDirty round.ownerToken round.now round.leaseUntil round.limit = claimed at *
  obtain ⟨db₁,given⟩ := claimed
  dsimp only at *
  rw [hclosed] at hopen
  have hother : ∀ d ∈ given, d.memoryId ≠ id := by
    intro d hd heq
    obtain ⟨hin,hrunning⟩ := hgiven d hd
    have hnot := List.any_eq_false.mp hopen d hin
    simp [heq,hrunning] at hnot
  have hfold : ∀ db₂ : Database T, db₂.unresolved id = false →
      ((given.foldl (fun db d => db.repairEntry env round.ownerToken (round.clock d.dirtyId) d)
        db₂).Fresh env id ↔ db₂.Fresh env id) ∧
      (given.foldl (fun db d => db.repairEntry env round.ownerToken (round.clock d.dirtyId) d)
        db₂).unresolved id = false := by
    clear hgiven
    induction given with
    | nil => exact fun db₂ h₂ => ⟨Iff.rfl,h₂⟩
    | cons d given ih =>
      intro db₂ h₂
      obtain ⟨replaced,houtcome⟩ :=
        @repairEntry_outcome T _ _ env db₂ round.ownerToken (round.clock d.dirtyId) d
      obtain ⟨hfresh,hstill⟩ := repair_ignores houtcome (hother d (by simp)) h₂
      obtain ⟨hrest,hend⟩ := ih (fun x hx => hother x (List.mem_cons_of_mem _ hx)) _ hstill
      exact ⟨hrest.trans hfresh,hend⟩
  obtain ⟨hfresh,hend⟩ := hfold db₁ hopen
  exact ⟨hfresh.trans (fresh_of_same hsteady hsources),hend⟩

lemma repairs_settle (rounds : List (Repair T)) (hn : (db.entries.map Prod.fst).Nodup)
    (h : db.Fresh env id ∨ db.unresolved id = true) :
    (db.repairs env rounds).Fresh env id ∨ (db.repairs env rounds).unresolved id = true := by
  induction rounds generalizing db with
  | nil => exact h
  | cons round rounds ih =>
    obtain ⟨hn',h'⟩ := round_settles round hn h
    exact ih hn' h'

lemma repairs_ignore (rounds : List (Repair T)) (hclosed : db.unresolved id = false) :
    (db.repairs env rounds).Fresh env id ↔ db.Fresh env id := by
  induction rounds generalizing db with
  | nil => exact Iff.rfl
  | cons round rounds ih =>
    obtain ⟨hfresh,hstill⟩ := @round_ignores T _ _ env db id round hclosed
    exact (ih hstill).trans hfresh

structure RevisionAdvances (env : CatalogEnv T) (old new : Document)
    (before after : CatalogSource T) : Prop where
  sourceBefore : sourceFromValues env old = some before
  sourceAfter : sourceFromValues env new = some after
  topics : after.topics = before.topics
  scope : after.scope = before.scope
  revision : before.sourceRevision ≠ after.sourceRevision

lemma document_updated {documents : List Document}
    (h : documents.find? (fun d => d.id = new.id) = some old) :
    (RowTable.modify (fun d => d.id = new.id) (fun _ => new) documents).find?
      (fun d => d.id = new.id) = some new := by
  induction documents with
  | nil => cases h
  | cons d documents ih =>
    unfold RowTable.modify at ih ⊢
    by_cases hd : d.id = new.id
    · simp [hd]
    · have hrest : documents.find? (fun d => d.id = new.id) = some old := by
        simpa [hd] using h
      simpa [hd] using ih hrest

omit [LinearOrder T] in
lemma unresolved_upsert (db : Database T) (id : ℤ) (operation : DirtyOperation)
    (code : Option String) (now : T) : (db.upsertDirty id operation code now).unresolved id =
    true := by
  unfold Database.upsertDirty
  split
  · rename_i hany
    obtain ⟨d,hd,hid⟩ := List.any_eq_true.mp hany
    refine List.any_eq_true.mpr ⟨d.renoted operation db.state.nextDirtySequence code now,?_,?_⟩
    · exact RowTable.mem_modify.mpr ⟨d,hd,by rw [if_pos hid]⟩
    · have hmemory : d.memoryId = id := by simpa using hid
      unfold DirtyRow.renoted
      by_cases hrunning : d.state = .running <;> simp [hmemory,hrunning]
  · unfold Database.unresolved
    simp

structure Updated (env : CatalogEnv T) (db : Database T) (old new : Document) (db' : Database T) :
    Prop where
  document : db'.document? new.id = some new
  sources : db'.sources = db.sources
  active : db'.state.activeGeneration = db.state.activeGeneration
  fired : updateFires env old new = true → db'.unresolved new.id = true
  unnoticed : updateFires env old new = false → db'.dirty = db.dirty
  opened : db.unresolved new.id = true → db'.unresolved new.id = true

omit [LinearOrder T] in
lemma updateDocument_updated {old new : Document} {now : T} (hold : db.document? new.id = some old)
    (h : db.updateDocument env new now = some db') : Updated env db old new db' := by
  unfold Database.updateDocument at h
  rw [hold] at h
  cases h
  have hdocument := document_updated hold
  by_cases hfires : updateFires env old new = true
  · rw [if_pos hfires]
    unfold Database.noteChange
    refine ⟨?_,?_,?_,fun _ => unresolved_upsert _ _ _ _ _,?_,fun _ => unresolved_upsert _ _ _ _ _⟩
    · unfold Database.upsertDirty Database.document?
      split <;> exact hdocument
    · exact (upsertDirty_tables _ _ _ _ _).1
    · rw [upsertDirty_state]
    · exact fun hnot => absurd hfires (by simp [hnot])
  · rw [if_neg hfires]
    exact ⟨hdocument,rfl,rfl,fun hyes => absurd hyes hfires,fun _ => rfl,fun hopen => hopen⟩

lemma Updated.fresh {before after : CatalogSource T}
    (h : Updated env db old new db') (hadvance : RevisionAdvances env old new before after) :
    db'.Fresh env new.id ↔ db.Carries new.id after.sourceRevision := by
  have hsource : db'.readCurrentSource env new.id = some after := by
    unfold Database.readCurrentSource
    rw [h.document]
    exact hadvance.sourceAfter
  unfold Database.Fresh Database.Carries
  rw [hsource,h.sources,h.active]
  constructor
  · intro hfresh g hg r hr hrg hrid
    exact (Option.some.inj (hfresh g hg r hr hrg hrid)).symm
  · intro hcarries g hg r hr hrg hrid
    rw [hcarries g hg r hr hrg hrid]
    rfl

def rewordedTea : Document :=
  { teaDocument with text := "likes green tea", updatedAt := some "2024-01-02" }

def touchedTea : Document := { teaDocument with updatedAt := some "2024-01-02" }

def teaSource : CatalogSource ℕ where
  memoryId := 1
  sourceRevision := "2024-01-01"
  scope := { scopeKey := "chat-1", chatType := .privateChat, privacyLevel := .publicLevel }
  resolverRevision := "1"
  topics := [("tea","tea")]
  observedAt := 0

def teaRead : TopicRead where
  scopeKey := "chat-1"
  privacyLevel := .publicLevel
  resolverRevision := "1"

def teaRepair : Repair ℕ where
  ownerToken := "reconciler"
  limit := 25
  now := 8
  leaseUntil := 60
  clock := fun _ => 9

def teaUpdated (document : Document) : Database ℕ :=
  ((({} : Database ℕ).run teaEnv backfill).updateDocument teaEnv document 7).getD {}

lemma teaUpdated_some
    (h : ((({} : Database ℕ).run teaEnv backfill).updateDocument teaEnv document 7).isSome = true) :
    (({} : Database ℕ).run teaEnv backfill).updateDocument teaEnv document 7 =
    some (teaUpdated document) := by
  obtain ⟨db,hdb⟩ := Option.isSome_iff_exists.mp h
  unfold teaUpdated
  rw [hdb]
  rfl

end Memora.Catalog

import Memora.CatalogSystem

/-! Who holds the lease, what is staged and what is active move together; an owner that lost its
lease writes nothing any more. -/
namespace Memora.Catalog

variable {T : Type*}

structure Tenure where
  active : Option ℤ
  staging : Option ℤ
  owner : Option String

/-- How calls move the lease: most keep it, some release it. -/
inductive Tenure.Moves (t : Tenure) : CatalogCall T → Tenure → Prop
  | keep (call : CatalogCall T) : t.Moves call t
  | release (call : CatalogCall T) : t.Moves call ⟨t.active,none,none⟩
  | begin {generation : ℤ} {ownerToken : String} {leaseUntil : T} {total : Option ℤ}
      (larger : ∀ a, t.active = some a → a < generation) :
      t.Moves (.begin generation ownerToken leaseUntil total)
        ⟨t.active,some generation,some ownerToken⟩
  | publish {generation : ℤ} {ownerToken revision : String} {start published : ℤ}
      {sources mappings : Option ℤ} (staged : t.staging = some generation) :
      t.Moves (.publish generation ownerToken start published revision sources mappings)
        ⟨some generation,none,none⟩
  | restore {failed watermark : ℤ} {previous : Option ℤ} {revision : Option String}
      {reasonCode : String} :
      t.Moves (.restore failed previous watermark revision reasonCode) ⟨previous,none,none⟩

variable {call : CatalogCall T} {ownerToken : String} {t t' : Tenure}

lemma Tenure.Moves.not_owner (h : t.Moves call t')
    (howner : t.owner ≠ some ownerToken) (hbegins : call.begins ≠ some ownerToken) :
    t'.owner ≠ some ownerToken := by
  cases h with
  | keep => exact howner
  | release | publish | restore => simp
  | begin larger => exact hbegins

def Tenure.Ahead (t : Tenure) : Prop := ∀ g a, t.staging = some g → t.active = some a → a < g

lemma Tenure.Moves.ahead (h : t.Moves call t') (ht : t.Ahead) : t'.Ahead := by
  cases h with
  | keep => exact ht
  | release | publish | restore => exact fun g a hg => absurd hg (by simp)
  | begin larger =>
    intro g a hg ha
    cases hg
    exact larger a ha

def Tenure.ActiveMove (t : Tenure) (call : CatalogCall T) (t' : Tenure) : Prop :=
  t'.active = t.active ∨
    match call with
    | .publish generation .. => t'.active = some generation ∧ ∀ a, t.active = some a → a < generation
    | .restore _ previous .. => t'.active = previous
    | _ => False

lemma Tenure.Moves.active (h : t.Moves call t') (ht : t.Ahead) :
    t.ActiveMove call t' := by
  cases h with
  | keep | release | begin => exact .inl rfl
  | publish staged => exact .inr ⟨rfl,fun a ha => ht _ a staged ha⟩
  | restore => exact .inr rfl

variable [LinearOrder T] [Zero T] {env : CatalogEnv T} {db db' : Database T}

def Database.tenure (db : Database T) : Tenure :=
  ⟨db.state.activeGeneration,db.state.stagingGeneration,db.state.rebuildOwnerToken⟩

omit [LinearOrder T] in
@[simp] lemma upsertDirty_state (db : Database T) (id : ℤ) (operation : DirtyOperation)
    (code : Option String) (now : T) : (db.upsertDirty id operation code now).state = db.state := by
  unfold Database.upsertDirty
  split <;> rfl

omit [LinearOrder T] in
@[simp] lemma noteChange_tenure (db : Database T) (id : ℤ) (operation : DirtyOperation) (now : T) :
    (db.noteChange id operation now).tenure = db.tenure := by
  simp [Database.noteChange,Database.tenure]

lemma rebuildScopes_kept (generation : ℤ) (scopes : List Scope) (db : Database T) :
    let db' := scopes.foldl (fun db scope => db.rebuildScopeAggregate generation scope) db
    db'.state = db.state ∧ db'.documents = db.documents ∧ db'.dirty = db.dirty ∧
      db'.nextDirtyId = db.nextDirtyId ∧ db'.sources = db.sources := by
  induction scopes generalizing db with
  | nil => exact ⟨rfl,rfl,rfl,rfl,rfl⟩
  | cons scope scopes ih => exact ih (db.rebuildScopeAggregate generation scope)

lemma replaceRows_kept (db : Database T) (generation id : ℤ) (rows : List (MappingRow T)) :
    (db.replaceRows generation id rows).state = db.state ∧
      (db.replaceRows generation id rows).documents = db.documents ∧
      (db.replaceRows generation id rows).dirty = db.dirty ∧
      (db.replaceRows generation id rows).nextDirtyId = db.nextDirtyId := by
  obtain ⟨hstate,hdocuments,hdirty,hnext,-⟩ := rebuildScopes_kept generation
    (((db.sources.filter fun r => r.generation = generation && r.memoryId = id)++rows).map
      MappingRow.scope).dedup { db with
        sources := (db.sources.filter fun r => !(r.generation = generation && r.memoryId = id))++rows }
  exact ⟨hstate,hdocuments,hdirty,hnext⟩

structure Replaced (env : CatalogEnv T) (db : Database T) (id generation : ℤ)
    (owner : Option String) (now : T) (db' : Database T) : Prop where
  positive : 0 < id ∧ 0 < generation
  allowed : db.mayReplace generation owner (max 0 now) = true
  rows : ∃ rows, rows = (db.readCurrentSource env id).elim [] (fun s => s.rows generation) ∧
    rows.all MappingRow.checked = true ∧ db' = db.replaceRows generation id rows

variable {now : T} {owner : Option String}

lemma replaceMemoryMappings_some {id generation : ℤ}
    (h : db.replaceMemoryMappings env id generation owner now = some db') :
    Replaced env db id generation owner now db' := by
  unfold Database.replaceMemoryMappings at h
  split at h
  · cases h
  rename_i hpositive
  split at h
  · cases h
  rename_i hallowed
  dsimp only at h
  split at h
  · rename_i hchecked
    cases h
    simp only [Bool.or_eq_true,decide_eq_true_eq,not_or,not_le] at hpositive
    exact ⟨hpositive,by simpa using hallowed,_,rfl,hchecked,rfl⟩
  · cases h

lemma replace_tenure {id generation : ℤ}
    (h : db.replaceMemoryMappings env id generation owner now = some db') :
    db'.tenure = db.tenure := by
  obtain ⟨-,-,rows,-,-,rfl⟩ := replaceMemoryMappings_some h
  simp only [Database.tenure,(replaceRows_kept db generation id rows).1]

variable {generation : ℤ}

lemma moves_begin {leaseUntil now : T} {total : Option ℤ}
    (h : db.beginGeneration generation ownerToken leaseUntil total now = some db') :
    db.tenure.Moves (.begin generation ownerToken leaseUntil total : CatalogCall T) db'.tenure := by
  unfold Database.beginGeneration at h
  dsimp only at h
  split at h
  · cases h
  split at h
  · cases h
  split at h
  · cases h
  rename_i hlarger
  cases h
  refine .begin fun a ha => ?_
  have hactive : db.state.activeGeneration = some a := ha
  simpa [hactive] using hlarger

lemma moves_publish {ownerToken revision : String} {start published : ℤ}
    {sources mappings : Option ℤ}
    (h : db.publishGeneration generation ownerToken start published revision sources mappings now = some db') :
    db.fenced generation ownerToken (max 0 now) = true ∧
    db.tenure.Moves (.publish generation ownerToken start published revision sources mappings :
      CatalogCall T) db'.tenure ∧ db'.sources = db.sources ∧ db'.topics = db.topics := by
  unfold Database.publishGeneration at h
  dsimp only at h
  split at h
  · cases h
  split at h
  · split at h
    · cases h
    split at h
    · cases h
    rename_i hfence
    simp only [Bool.or_eq_true,Bool.not_eq_true',not_or,Bool.not_eq_false] at hfence
    have hfenced : db.fenced generation ownerToken (max 0 now) = true := hfence.1.1.1.1
    split at h
    · cases h
    split at h
    · cases h
    split at h
    · cases h
    split at h
    · cases h
    cases h
    refine ⟨hfenced,.publish ?_,rfl,rfl⟩
    simp only [Database.fenced,Bool.and_eq_true,decide_eq_true_eq] at hfenced
    exact hfenced.1.1
  · cases h

lemma moves_restore {failed watermark : ℤ} {previous : Option ℤ} {revision : Option String}
    {reasonCode : String}
    (h : db.restoreGeneration failed previous watermark revision reasonCode now = some db') :
    db.tenure.Moves (.restore failed previous watermark revision reasonCode : CatalogCall T)
      db'.tenure := by
  unfold Database.restoreGeneration at h
  split at h
  · cases h
  split at h
  · cases h
  split at h
  · rename_i hstate
    cases h
    have hto : Tenure.mk previous db.state.stagingGeneration none = ⟨previous,none,none⟩ := by
      rw [hstate.2]
    change db.tenure.Moves _ (Tenure.mk previous db.state.stagingGeneration none)
    rw [hto]
    exact .restore
  · cases h

lemma attempt_moves (h : db.attempt env call now = some db') : db.tenure.Moves call db'.tenure := by
  have hkeep : db'.tenure = db.tenure → db.tenure.Moves call db'.tenure := by
    intro heq
    rw [heq]
    exact .keep call
  cases call with
  | insert document =>
    simp only [Database.attempt,Database.insertDocument] at h
    split at h
    · cases h
    · cases h
      exact hkeep (noteChange_tenure _ _ _ _)
  | update document =>
    simp only [Database.attempt,Database.updateDocument] at h
    split at h
    · cases h
    · cases h
      refine hkeep ?_
      split
      · exact noteChange_tenure _ _ _ _
      · rfl
  | delete id =>
    simp only [Database.attempt,Database.deleteDocument] at h
    split at h
    · cases h
    · cases h
      exact hkeep (noteChange_tenure _ _ _ _)
  | registerDirty id operation reasonCode =>
    simp only [Database.attempt,Database.registerDirty] at h
    split at h
    · cases h
    split at h
    · cases h
    · cases h
      refine hkeep ?_
      simp [Database.tenure]
  | claim ownerToken leaseUntil limit =>
    cases h
    refine hkeep ?_
    unfold Database.claimDirty
    split <;> rfl
  | finish dirtyId ownerToken sequence success reasonCode =>
    simp only [Database.attempt,Database.finishDirty] at h
    split at h
    · cases h
    split at h
    · cases h
    split at h
    · cases h
      exact hkeep rfl
    · cases h
  | reconcile ownerToken upToSequence covered =>
    simp only [Database.attempt,Database.markDirtyReconciled] at h
    split at h
    · cases h
    split at h
    · cases h
    split at h
    · cases h
    split at h
    · cases h
    · cases h
      exact hkeep rfl
  | begin generation ownerToken leaseUntil total => exact moves_begin h
  | renew generation ownerToken leaseUntil =>
    simp only [Database.attempt,Database.renewGenerationLease] at h
    split at h
    · cases h
    split at h
    · cases h
      exact hkeep rfl
    · cases h
  | advance generation ownerToken cursor =>
    simp only [Database.attempt,Database.advanceBackfillCursor] at h
    split at h
    · cases h
    split at h
    · cases h
      exact hkeep rfl
    · cases h
  | replace id generation owner => exact hkeep (replace_tenure h)
  | abandon generation ownerToken reasonCode =>
    simp only [Database.attempt,Database.abandonGeneration] at h
    split at h
    · cases h
    split at h
    · cases h
      exact .release _
    · cases h
  | publish generation ownerToken start published revision sources mappings =>
    exact (moves_publish h).2.1
  | retire generation =>
    simp only [Database.attempt,Database.retireGeneration] at h
    split at h
    · cases h
    split at h
    · cases h
    · cases h
      exact hkeep rfl
  | cleanup =>
    cases h
    exact hkeep rfl
  | markDegraded reasonCode =>
    simp only [Database.attempt,Database.markDegraded] at h
    split at h
    · cases h
    · cases h
      exact .release _
  | restore failed previous watermark revision reasonCode => exact moves_restore h
  | upgrade =>
    cases h
    exact .release _

lemma fenced_of_writes (hcall : call.writes = some (generation,ownerToken))
    (h : db.attempt env call now = some db') :
    db.fenced generation ownerToken (max 0 now) = true := by
  cases call with
  | advance g o cursor =>
    cases hcall
    simp only [Database.attempt,Database.advanceBackfillCursor] at h
    split at h
    · cases h
    split at h
    · rename_i hfence
      exact (Bool.and_eq_true_iff.mp hfence).1
    · cases h
  | replace id g owner =>
    cases owner with
    | none => exact absurd hcall (by simp [CatalogCall.writes])
    | some o =>
      cases hcall
      exact (replaceMemoryMappings_some h).allowed
  | publish g o start published revision sources mappings =>
    cases hcall
    exact (moves_publish h).1
  | _ => exact absurd hcall (by simp [CatalogCall.writes])

lemma fenced_tenure (h : db.fenced generation ownerToken now = true) :
    db.state.stagingGeneration = some generation ∧
    db.state.rebuildOwnerToken = some ownerToken := by
  simp only [Database.fenced,Bool.and_eq_true,decide_eq_true_eq] at h
  exact h.1

lemma step_cases (env : CatalogEnv T) (db : Database T) (s : CatalogStep T) :
    db.step env s = db ∨ ∃ db', db.attempt env s.call s.now = some db' ∧ db.step env s = db' := by
  unfold Database.step
  split
  · exact .inl rfl
  · cases h : db.attempt env s.call s.now with
    | none => exact .inl rfl
    | some db' => exact .inr ⟨db',rfl,rfl⟩

lemma step_moves (env : CatalogEnv T) (db : Database T) (s : CatalogStep T) :
    db.tenure.Moves s.call (db.step env s).tenure := by
  rcases step_cases env db s with heq | ⟨db',h,heq⟩
  · rw [heq]
    exact .keep _
  · rw [heq]
    exact attempt_moves h

/-- No accepted write of this owner; a raised transaction leaves nothing either. -/
def Refused (env : CatalogEnv T) (ownerToken : String) (db : Database T)
    (s : CatalogStep T) : Prop :=
  ∀ generation, s.call.writes = some (generation,ownerToken) →
    db.attempt env s.call s.now = none ∧ db.step env s = db

lemma refused_of_not_owner {s : CatalogStep T} (h : db.state.rebuildOwnerToken ≠ some ownerToken) :
    Refused env ownerToken db s := by
  intro generation hwrites
  have hnone : db.attempt env s.call s.now = none := by
    cases hattempt : db.attempt env s.call s.now with
    | none => rfl
    | some db' => exact absurd (fenced_tenure (fenced_of_writes hwrites hattempt)).2 h
  refine ⟨hnone,?_⟩
  unfold Database.step
  rw [hnone]
  split <;> rfl

omit [LinearOrder T] in
lemma created_ahead (h : db.Created) : db.tenure.Ahead := by
  intro g a hg
  simp only [Database.tenure,h.state] at hg
  cases hg

/-- Owners, each with a token of its own, take leases over, abandon and publish in any order,
between repairs, document writes and restores: once a token has begun and no longer holds the
lease, its writes are refused for good; the active generation moves up by a publish or is
restored; and whoever's writes are accepted, it is one owner on one generation. -/
theorem catalog_owners_fenced (env : CatalogEnv T) (hstart : db.Created)
    (steps : List (CatalogStep T))
    (hdrawn : (steps.filterMap fun s => s.call.begins).Nodup) :
    (∀ before after, steps = before++after → ∀ ownerToken,
      ownerToken ∈ before.filterMap (fun s => s.call.begins) →
      (db.run env before).state.rebuildOwnerToken ≠ some ownerToken →
      RunLaws.Along (Database.step env) (Refused env ownerToken) (db.run env before) after) ∧
    RunLaws.Along (Database.step env)
      (fun db s => db.tenure.ActiveMove s.call (db.step env s).tenure) db steps ∧
    ∀ before after, steps = before++after → ∀ (c c' : CatalogCall T) (now now' : T) g g' o o',
      c.writes = some (g,o) → c'.writes = some (g',o') → ((db.run env before).attempt env c now).isSome = true →
      ((db.run env before).attempt env c' now').isSome = true → g = g' ∧ o = o' := by
  refine ⟨?_,?_,?_⟩
  · intro before after hsteps ownerToken hbegun hlost
    have hfresh : ∀ s ∈ after, s.call.begins ≠ some ownerToken := by
      intro s hs heq
      rw [hsteps,List.filterMap_append] at hdrawn
      have hdisjoint := (List.nodup_append.mp hdrawn).2.2
      exact hdisjoint ownerToken hbegun ownerToken (List.mem_filterMap.mpr ⟨s,hs,heq⟩) rfl
    have hgood : RunLaws.Along (Database.step env)
        (fun _ s => s.call.begins ≠ some ownerToken) (db.run env before) after :=
      RunLaws.along_of_mem (fun _ s hs => hfresh s hs) _
    exact RunLaws.along_imp (P := fun db : Database T => db.state.rebuildOwnerToken ≠ some ownerToken)
      (fun db s hbegins h => (step_moves env db s).not_owner h hbegins)
      (fun _ _ _ h => refused_of_not_owner h) hlost hgood
  · have hall : RunLaws.Along (Database.step env) (fun _ _ => True) db steps :=
      RunLaws.along_of_mem (fun _ _ _ => trivial) db
    exact RunLaws.along_imp (P := fun db : Database T => db.tenure.Ahead)
      (fun db s _ h => (step_moves env db s).ahead h) (fun db s _ h => (step_moves env db s).active h)
      (created_ahead hstart) hall
  · intro before after _ c c' now now' g g' o o' hc hc' hok hok'
    obtain ⟨db₁,h₁⟩ := Option.isSome_iff_exists.mp hok
    obtain ⟨db₂,h₂⟩ := Option.isSome_iff_exists.mp hok'
    obtain ⟨hg,ho⟩ := fenced_tenure (fenced_of_writes hc h₁)
    obtain ⟨hg',ho'⟩ := fenced_tenure (fenced_of_writes hc' h₂)
    exact ⟨Option.some.inj (hg.symm.trans hg'),Option.some.inj (ho.symm.trans ho')⟩

/-- An environment whose texts are read as they stand. -/
def sampleEnv (loads : String → Option (SourceMetadata ℕ)) : CatalogEnv ℕ where
  loads
  parseSeconds _ := none
  nfkc s := s
  isControl _ := false
  labelRejected _ := false
  casefold s := s
  jsonValid raw := (loads raw).isSome
  extractDiffers _ _ _ := false

def takeover : List (CatalogStep ℕ) :=
  [{ call := .begin 1 "first-owner" 10 (some 0), now := 1 },
   { call := .begin 1 "second-owner" 40 (some 0), now := 20 },
   { call := .replace 1 1 (some "first-owner"), now := 21 },
   { call := .advance 1 "first-owner" 5, now := 22 },
   { call := .publish 1 "second-owner" 0 0 "0" (some 0) (some 0), now := 23 },
   { call := .publish 1 "first-owner" 0 0 "0" (some 0) (some 0), now := 24 }]

lemma created_empty : Database.Created ({} : Database ℕ) :=
  ⟨rfl,⟨by simp,by simp⟩,rfl,rfl,rfl⟩

theorem catalog_owners_fenced_sample : RunLaws.Along (Database.step (sampleEnv fun _ => none))
      (Refused (sampleEnv fun _ => none) "first-owner")
      (({} : Database ℕ).run (sampleEnv fun _ => none) (takeover.take 2)) (takeover.drop 2) ∧
      (({} : Database ℕ).run (sampleEnv fun _ => none) takeover).state.activeGeneration = some 1 :=
  ⟨(catalog_owners_fenced (sampleEnv fun _ => none) created_empty takeover (by decide)).1
      (takeover.take 2) (takeover.drop 2) rfl "first-owner" (by decide) (by decide),
    by decide +kernel⟩

end Memora.Catalog

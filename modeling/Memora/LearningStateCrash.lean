import Memora.LearningStateStore
import Memora.RunLaws

/-! A save replaces only a missing or a verified primary, and copies a verified one to the
backup first: so each moment of a save or a migration is one the next load tells apart. -/
namespace Memora.Learning

variable {α β : Type*} {env : StoreEnv α} {f : Files α β}

lemma stoppedAt_moments (f : Files α β) (base new : Content α β) (reached : ℕ) :
    f.stoppedAt (f.replaceMoments base new) reached =
      if reached = 0 then f
      else if reached = 1 then { f with backup := some base }
      else { primary := some new, backup := some base } := by
  match reached with
  | 0 => rfl
  | 1 => rfl
  | n+2 => simp [Files.stoppedAt,Files.replaceMoments]

structure SaveAccepted (env : StoreEnv α) (f : Files α β) (expected : Expected) (payload : α)
    (revision : String) (moments : List (Files α β)) : Prop where
  expected_ok : expected.wellFormed = true
  base : ∃ new : OpaqueId, new.val = revision ∧ env.refusal new payload = none ∧
    ∃ base, f.saveBase expected (.envelope new payload) = .ok base ∧
      moments = f.replaceMoments base (.envelope new payload)

variable {moments : List (Files α β)} {revision : String} {payload : α} {expected : Expected}

lemma save_accepted (h : f.save env expected payload revision = .ok moments) :
    SaveAccepted env f expected payload revision moments := by
  unfold Files.save at h
  split at h
  case isFalse => cases h
  rename_i hrev
  split at h
  · cases h
  rename_i hexpected
  split at h
  · cases h
  rename_i hnone
  cases hb : f.saveBase expected (.envelope ⟨revision,hrev⟩ payload) with
  | error e =>
    rw [hb] at h
    exact absurd h (by simp [Except.map])
  | ok base =>
    rw [hb] at h
    have hm : f.replaceMoments base (.envelope ⟨revision,hrev⟩ payload) = moments := by
      simpa [Except.map] using h
    exact ⟨by simpa using hexpected,⟨revision,hrev⟩,rfl,hnone,base,hb,hm.symm⟩

theorem saveBase_cases {new base : Content α β} (h : f.saveBase expected new = .ok base) :
    (f.primary = none ∧ f.backup = none ∧ base = new ∧ ∀ r, expected ≠ .revision r) ∨
      ∃ revision payload, f.primary = some (.envelope revision payload) ∧ base = .envelope revision payload ∧
        (∀ r, expected = .revision r → revision.val = r) ∧ expected ≠ .missing := by
  unfold Files.saveBase at h
  split at h
  · cases h
  rename_i hguard
  have hbackup : f.primary = none → f.backup = none := by
    intro hp
    simpa [hp] using hguard
  split at h
  · rename_i hp
    exact .inl ⟨hp,hbackup hp,(Except.ok.inj h).symm,by simp⟩
  · rename_i revision payload hp
    exact .inr ⟨revision,payload,hp,(Except.ok.inj h).symm,by simp,by simp⟩
  · cases h
  · rename_i hp
    exact .inl ⟨hp,hbackup hp,(Except.ok.inj h).symm,by simp⟩
  · cases h
  · cases h
  · rename_i r revision payload hp
    split at h
    · rename_i hr
      refine .inr ⟨revision,payload,hp,(Except.ok.inj h).symm,?_,by simp⟩
      intro r' hr'
      exact hr.trans (Expected.revision.inj hr')
    · cases h
  · cases h

structure MigrateAccepted (f : Files α β) (legacyRevision : String) (payload : α)
    (revision : String) (moments : List (Files α β)) : Prop where
  legacy : ∃ old, f.primary = some (.legacy legacyRevision old)
  moments : ∃ new : OpaqueId, new.val = revision ∧
    moments = f.replaceMoments (.envelope new payload) (.envelope new payload)

variable {legacyRevision : String} {base new : Content α β} {w : Shared α β}

lemma migrate_accepted (h : f.migrateLegacy env legacyRevision payload revision = .ok moments) :
    MigrateAccepted f legacyRevision payload revision moments := by
  unfold Files.migrateLegacy at h
  split at h
  · cases h
  split at h
  case isFalse => cases h
  rename_i hrev
  split at h
  · cases h
  · rename_i current old hnone hp
    split at h
    · rename_i hc
      subst hc
      exact ⟨⟨old,hp⟩,⟨revision,hrev⟩,rfl,(Except.ok.inj h).symm⟩
    · cases h
  · cases h

structure LoadResult.Sound (r : LoadResult α β) : Prop where
  corrupt : r.stateCorrupt = false
  recovery : r.recoveryRequired = false

lemma loadSync_none (hp : f.primary = none) (hb : f.backup = none) (moved : Bool) :
    f.loadSync env moved = (f,{ reasonCode := "learning_state_missing" }) := by
  unfold Files.loadSync
  rw [hp,hb]

lemma loadSync_envelope {revision : OpaqueId} (hp : f.primary = some (.envelope revision payload))
    (moved : Bool) : f.loadSync env moved = (f,{
      payload := some (.inl payload)
      stateRevision := some revision
      reasonCode := "learning_state_loaded" }) := by
  unfold Files.loadSync
  rw [hp]

lemma loadSync_legacy {payload : β} (hp : f.primary = some (.legacy revision payload))
    (moved : Bool) :
    f.loadSync env moved = (f,{
      payload := some (.inr payload)
      recoveryRequired := true
      reasonCode := "learning_state_migration_required"
      migrationRequired := true
      migrationRevision := some revision }) := by
  unfold Files.loadSync
  rw [hp]

def SavesAccepted (env : StoreEnv α) (f : Files α β) (moved : Bool) : Prop :=
  ∀ payload (revision : OpaqueId), env.refusal revision payload = none →
    ∃ moments, f.save env (f.loadSync env moved).2.seen payload revision = .ok moments

lemma saves_after_envelope {revision : OpaqueId}
    (hp : f.primary = some (.envelope revision payload)) (moved : Bool) :
    SavesAccepted env f moved := by
  intro payload' revision' hallow
  have hseen : (f.loadSync env moved).2.seen = .revision revision := by
    rw [loadSync_envelope hp]
    rfl
  have hbase : f.saveBase (.revision revision) (.envelope revision' payload') =
      .ok (.envelope revision payload) := by
    simp [Files.saveBase,hp]
  refine ⟨f.replaceMoments (.envelope revision payload) (.envelope revision' payload'),?_⟩
  simp [hseen,Files.save,Expected.wellFormed,revision.2,revision'.2,hallow,hbase, Except.map]

lemma saves_when_missing (hp : f.primary = none) (hb : f.backup = none) (moved : Bool) :
    SavesAccepted env f moved := by
  intro payload' revision' hallow
  have hseen : (f.loadSync env moved).2.seen = .missing := by
    rw [loadSync_none hp hb]
    rfl
  have hbase : f.saveBase .missing (.envelope revision' payload') = .ok (.envelope revision' payload') := by
    simp [Files.saveBase,hp,hb]
  refine ⟨f.replaceMoments (.envelope revision' payload') (.envelope revision' payload'),?_⟩
  simp [hseen,Files.save,Expected.wellFormed,revision'.2,hallow,hbase,Except.map]

/-- What a save of `payload` stopped after `reached` steps leaves in `f'`: the next load
returns what it returned before or the new payload; and unless this was a first save
stopped between its two replacements, it is clean and saves are accepted after it. -/
structure SaveSurvives (env : StoreEnv α) (f f' : Files α β) (payload : α)
    (revision : String) (reached : ℕ) : Prop where
  previous_or_new : ∀ moved, (f'.loadSync env moved).2 = (f.loadSync env moved).2 ∨
    ((f'.loadSync env moved).2.payload = some (.inl payload) ∧
      (f'.loadSync env moved).2.stateRevision.map Subtype.val = some revision)
  sound : (f.primary = none → reached ≠ 1) → ∀ moved, (f'.loadSync env moved).2.Sound
  later : (f.primary = none → reached ≠ 1) → ∀ moved, SavesAccepted env f' moved
  between : f.primary = none → reached = 1 → ∀ moved,
    (f'.loadSync env moved).2.recoveredFromBackup = true

lemma save_survives (h : f.save env expected payload revision = .ok moments) (reached : ℕ) :
    SaveSurvives env f (f.stoppedAt moments reached) payload revision reached := by
  obtain ⟨-,new,rfl,-,base,hbase,rfl⟩ := save_accepted h
  rw [stoppedAt_moments]
  -- the three moments of the files, each over a missing or over a verified primary
  split
  · rename_i hzero
    have hone : reached ≠ 1 := by omega
    rcases saveBase_cases hbase with ⟨hp,hb,-⟩ | ⟨old,payload',hp,-⟩
    · refine ⟨fun _ => .inl rfl,fun _ moved => ?_,fun _ => saves_when_missing hp hb,
        fun _ h1 => absurd h1 hone⟩
      rw [loadSync_none hp hb]
      exact ⟨rfl,rfl⟩
    · refine ⟨fun _ => .inl rfl,fun _ moved => ?_,fun _ => saves_after_envelope hp,
        fun _ h1 => absurd h1 hone⟩
      rw [loadSync_envelope hp]
      exact ⟨rfl,rfl⟩
  split
  · rename_i hone
    rcases saveBase_cases hbase with ⟨hp,hb,hnew,-⟩ | ⟨old,payload',hp,-⟩
    · subst hnew
      obtain ⟨primary,backup⟩ := f
      obtain rfl : primary = none := hp
      exact ⟨fun moved => .inr ⟨rfl,rfl⟩,fun hgap => absurd hone (hgap rfl),
        fun hgap => absurd hone (hgap rfl),fun _ _ moved => rfl⟩
    · have hkept : ({ f with backup := some base } : Files α β).primary = some (.envelope old payload') := hp
      refine ⟨fun moved => .inl ?_,fun _ moved => ?_,fun _ => saves_after_envelope hkept,
        fun hnone => absurd (hp.symm.trans hnone) (by simp)⟩
      · rw [loadSync_envelope hkept,loadSync_envelope hp]
      · rw [loadSync_envelope hkept]
        exact ⟨rfl,rfl⟩
  · rename_i hone
    exact ⟨fun moved => .inr ⟨rfl,rfl⟩,fun _ moved => ⟨rfl,rfl⟩,
      fun _ => saves_after_envelope rfl,fun _ h1 => absurd h1 hone⟩

/-- What a migration stopped after any number of steps leaves: the legacy file, which the
next load offers again and the same migration still replaces, or the new envelope. -/
structure MigrationSurvives (env : StoreEnv α) (f f' : Files α β) (legacyRevision : String)
    (payload : α) (revision : String) : Prop where
  previous_or_new : ∀ moved,
    ((f'.loadSync env moved).2 = (f.loadSync env moved).2 ∧
      (f'.migrateLegacy env legacyRevision payload revision).isOk = true) ∨
    ((f'.loadSync env moved).2.payload = some (.inl payload) ∧
      (f'.loadSync env moved).2.stateRevision.map Subtype.val = some revision ∧
      (f'.loadSync env moved).2.Sound ∧ SavesAccepted env f' moved)
  uncorrupted : ∀ moved, (f'.loadSync env moved).2.stateCorrupt = false

lemma migrateLegacy_congr {f' : Files α β} (h : f'.primary = f.primary)
    (legacyRevision : String) (payload : α) (revision : String) :
    (f'.migrateLegacy env legacyRevision payload revision).isOk =
      (f.migrateLegacy env legacyRevision payload revision).isOk := by
  unfold Files.migrateLegacy
  rw [h]
  split
  · rfl
  split
  · split
    · rfl
    · split <;> rfl
    · rfl
  · rfl

lemma migration_survives (h : f.migrateLegacy env legacyRevision payload revision = .ok moments)
    (reached : ℕ) :
    MigrationSurvives env f (f.stoppedAt moments reached) legacyRevision payload revision := by
  have hagain : (f.migrateLegacy env legacyRevision payload revision).isOk = true := by
    rw [h]
    rfl
  obtain ⟨⟨old,hp⟩,new,rfl,rfl⟩ := migrate_accepted h
  have hlegacy : ∀ f' : Files α β, f'.primary = f.primary →
      MigrationSurvives env f f' legacyRevision payload new.val := by
    intro f' hsame
    have hp' : f'.primary = some (.legacy legacyRevision old) := hsame.trans hp
    refine ⟨fun moved => .inl ⟨?_,?_⟩,fun moved => ?_⟩
    · rw [loadSync_legacy hp',loadSync_legacy hp]
    · rw [migrateLegacy_congr hsame,hagain]
    · rw [loadSync_legacy hp']
  rw [stoppedAt_moments]
  split
  · exact hlegacy f rfl
  split
  · exact hlegacy _ rfl
  · exact ⟨fun moved => .inr ⟨rfl,rfl,⟨rfl,rfl⟩,saves_after_envelope rfl moved⟩,
      fun moved => rfl⟩

/-- Files that no first save cut short: a backup never stands alone, and the primary is a
legacy file or a verified one. -/
structure Files.Whole (f : Files α β) : Prop where
  alone : f.primary = none → f.backup = none
  primary : f.primary = none ∨ (∃ revision payload, f.primary = some (.legacy revision payload)) ∨
    ∃ revision payload, f.primary = some (.envelope revision payload)

structure Files.Initial (f : Files α β) : Prop where
  backup : f.backup = none
  primary : f.primary = none ∨ ∃ revision payload, f.primary = some (.legacy revision payload)

lemma Files.Initial.whole (h : f.Initial) : f.Whole :=
  ⟨fun _ => h.backup,h.primary.imp_right Or.inl⟩

def Shared.CutsFirstSave (w : Shared α β) : StoreCall α → Prop
  | .save _ _ _ _ reached => w.files.primary = none ∧ reached = 1
  | _ => False

lemma whole_replaced (hf : f.Whole) {reached : ℕ}
    (hcut : f.primary = none → reached ≠ 1) (hnew : ∃ revision payload, new = .envelope revision payload) :
    (f.stoppedAt (f.replaceMoments base new) reached).Whole := by
  rw [stoppedAt_moments]
  split
  · exact hf
  split
  · rename_i hone
    exact ⟨fun hp => absurd hone (hcut hp),hf.primary⟩
  · obtain ⟨revision,payload,rfl⟩ := hnew
    exact ⟨by simp,.inr (.inr ⟨revision,payload,rfl⟩)⟩

theorem whole_load (hf : f.Whole) (moved : Bool) :
    (f.loadSync env moved).1 = f ∧ (f.loadSync env moved).2.stateCorrupt = false := by
  rcases hf.primary with hp | ⟨_,_,hp⟩ | ⟨_,_,hp⟩
  · rw [loadSync_none hp (hf.alone hp)]
    exact ⟨rfl,rfl⟩
  · rw [loadSync_legacy hp]
    exact ⟨rfl,rfl⟩
  · rw [loadSync_envelope hp]
    exact ⟨rfl,rfl⟩

lemma Shared.whole_step {call : StoreCall α} (hcut : ¬ w.CutsFirstSave call)
    (hw : w.files.Whole) : (w.step env call).files.Whole := by
  cases call with
  | start i => exact hw
  | load i moved =>
    have hfiles : (w.files.loadSync env moved).1 = w.files := (whole_load hw moved).1
    simp only [Shared.step,Shared.note,hfiles]
    exact hw
  | save i payload revision expected reached =>
    simp only [Shared.step]
    cases hs : w.files.save env (w.expects i expected) payload revision with
    | error e => exact hw
    | ok moments =>
      obtain ⟨-,new,-,-,base,-,rfl⟩ := save_accepted hs
      have hwhole : (w.files.stoppedAt (w.files.replaceMoments base (.envelope new payload)) reached).Whole :=
        whole_replaced hw (fun hp h1 => hcut ⟨hp,h1⟩) ⟨new,payload,rfl⟩
      simp only [Shared.replaced]
      split <;> exact hwhole
  | migrate i legacyRevision payload revision reached =>
    simp only [Shared.step]
    cases hs : w.files.migrateLegacy env legacyRevision payload revision with
    | error e => exact hw
    | ok moments =>
      obtain ⟨⟨old,hold⟩,new,-,rfl⟩ := migrate_accepted hs
      have hwhole : (w.files.stoppedAt (w.files.replaceMoments (.envelope new payload)
          (.envelope new payload)) reached).Whole :=
        whole_replaced hw (fun hp => absurd (hold.symm.trans hp) (by simp)) ⟨new,payload,rfl⟩
      simp only [Shared.replaced]
      split <;> exact hwhole

lemma Shared.whole_run (hw : w.files.Whole) {calls : List (StoreCall α)}
    (hcut : RunLaws.Along (step env) (fun w call => ¬ w.CutsFirstSave call) w calls) :
    (w.run env calls).files.Whole :=
  RunLaws.along_invariant (P := fun w : Shared α β => w.files.Whole)
    (fun _ _ hc h => Shared.whole_step hc h) hw hcut

lemma save_expects {r : String} (h : f.save env (.revision r) payload revision = .ok moments) :
    ∃ old previous, f.primary = some (.envelope old previous) ∧ old.val = r ∧
      ∀ m ∈ moments, m.backup = some (.envelope old previous) := by
  obtain ⟨-,new,-,-,base,hbase,rfl⟩ := save_accepted h
  rcases saveBase_cases hbase with ⟨-,-,-,hno⟩ | ⟨old,previous,hp,rfl,hr,-⟩
  · exact absurd rfl (hno r)
  · refine ⟨old,previous,hp,hr r rfl,?_⟩
    intro m hm
    rcases List.mem_pair.mp hm with rfl | rfl <;> rfl

def Files.Holds (P : α → Prop) (f : Files α β) : Prop :=
  ∀ revision payload, f.primary = some (.envelope revision payload) ∨
    f.backup = some (.envelope revision payload) → P payload

variable {P : α → Prop}

lemma holds_replaced (hf : f.Holds P)
    (hbase : ∀ revision payload, base = .envelope revision payload → P payload)
    (hnew : ∀ revision payload, new = .envelope revision payload → P payload) (reached : ℕ) :
    (f.stoppedAt (f.replaceMoments base new) reached).Holds P := by
  rw [stoppedAt_moments]
  split
  · exact hf
  split
  · rintro revision payload (hp | hb)
    · exact hf revision payload (.inl hp)
    · exact hbase revision payload (Option.some.inj hb)
  · rintro revision payload (hp | hb)
    · exact hnew revision payload (Option.some.inj hp)
    · exact hbase revision payload (Option.some.inj hb)

lemma holds_saved (hf : f.Holds P) (hpayload : P payload)
    (h : f.save env expected payload revision = .ok moments) (reached : ℕ) :
    (f.stoppedAt moments reached).Holds P := by
  obtain ⟨-,new,-,-,base,hbase,rfl⟩ := save_accepted h
  have hnew : ∀ revision payload', (Content.envelope new payload : Content α β) =
      .envelope revision payload' → P payload' := by
    rintro _ _ ⟨⟩
    exact hpayload
  refine holds_replaced hf ?_ hnew reached
  rcases saveBase_cases hbase with ⟨-,-,rfl,-⟩ | ⟨old,previous,hp,rfl,-⟩
  · exact hnew
  · rintro _ _ ⟨⟩
    exact hf old previous (.inl hp)

lemma holds_migrated (hf : f.Holds P) (hpayload : P payload)
    (h : f.migrateLegacy env legacyRevision payload revision = .ok moments) (reached : ℕ) :
    (f.stoppedAt moments reached).Holds P := by
  obtain ⟨-,new,-,rfl⟩ := migrate_accepted h
  have hnew : ∀ revision payload', (Content.envelope new payload : Content α β) =
      .envelope revision payload' → P payload' := by
    rintro _ _ ⟨⟩
    exact hpayload
  exact holds_replaced hf hnew hnew reached

lemma holds_recovered (hf : f.Holds P) (corruption : String)
    (h : (f.recoverFromBackup env corruption).payload = some (.inl payload)) : P payload := by
  unfold Files.recoverFromBackup at h
  split at h
  · rename_i revision payload' hb
    obtain rfl : payload' = payload := by simpa using h
    exact hf revision payload' (.inr hb)
  · cases h

lemma holds_quarantined (hf : f.Holds P) (moved : Bool) : (f.quarantinePrimary moved).Holds P := by
  unfold Files.quarantinePrimary
  split
  · rintro revision payload (hp | hb)
    · cases hp
    · exact hf revision payload (.inr hb)
  · exact hf

theorem holds_loaded (hf : f.Holds P) (moved : Bool) : (f.loadSync env moved).1.Holds P ∧
      ∀ payload, (f.loadSync env moved).2.payload = some (.inl payload) → P payload := by
  unfold Files.loadSync
  split
  · split
    · exact ⟨hf,fun _ h => absurd h (by simp)⟩
    · exact ⟨hf,fun _ h => holds_recovered hf _ h⟩
  · rename_i revision payload' hp
    refine ⟨hf,fun payload h => ?_⟩
    obtain rfl : payload' = payload := by simpa using h
    exact hf revision payload' (.inl hp)
  · exact ⟨hf,fun _ h => absurd h (by simp)⟩
  · exact ⟨holds_quarantined hf moved,fun _ h => holds_recovered (holds_quarantined hf moved) _ h⟩
  · exact ⟨holds_quarantined hf moved,fun _ h => holds_recovered (holds_quarantined hf moved) _ h⟩

def sampleStoreEnv : StoreEnv String where
  refusal := fun _ _ => none
  recoveryRevision := fun revision => revision

def revisionA : String := "aaaaaaaaaaaaaaaaaaaaaa"
def revisionB : String := "bbbbbbbbbbbbbbbbbbbbbb"

end Memora.Learning

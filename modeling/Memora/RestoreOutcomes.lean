import Memora.ExceptLaws
import Memora.RestoreRuns

/-! At every moment of every run after a staging, wherever the runs are cut off. And what a
published backup is worth when it is needed. -/
namespace Memora.Backup
open ExceptLaws Restore RunLaws

variable {C : Type} {t : Target C}

structure Target.Preserved (t : Target C) (d : Disk C) (plan : RestorePlan) : Prop where
  kept : plan.status ≠ .succeeded → ∀ n ∈ t.names, ∀ entry, t.original n = some entry →
    d.live n = some entry ∨ t.previous d n = some entry
  undone : plan.status = .rolledBack ∨ plan.status = .failedBeforeApply →
    ∀ n ∈ t.names, d.live n = t.original n
  done : plan.status = .validating ∨ plan.status = .succeeded →
    ∀ n ∈ t.names, d.live n = t.staged n

variable {d : Disk C} {f : RestoreFileProgress} {entry : Entry C}

lemma Target.Kept.found {n : String} (h : t.Kept d n)
    (hentry : t.original n = some entry) : d.live n = some entry ∨ t.previous d n = some entry := by
  rcases h with ⟨hlive,-⟩ | ⟨hprevious,-⟩
  · exact .inl (hlive.trans hentry)
  · exact .inr (hprevious.trans hentry)

lemma Target.Replaced.kept (h : t.Replaced d f) : t.Kept d f.name := .inr ⟨h.2.1,h.2.2,.inr h.1⟩

lemma Target.Phase.found {status : RestoreStatus} (h : t.Phase d f status)
    (hstatus : status ≠ .succeeded)
    (hentry : t.original f.name = some entry) :
    d.live f.name = some entry ∨ t.previous d f.name = some entry := by
  have huntouched : t.Untouched d f → d.live f.name = some entry := fun hfile =>
    hfile.1.trans hentry
  cases status with
  | staged | reloadScheduled | failedBeforeApply => exact .inl (huntouched h)
  | applying =>
    rcases h with hfile | hfile | ⟨hfile,-⟩
    · exact .inl (huntouched hfile)
    · exact .inr (hfile.2.1.trans hentry)
    · exact hfile.kept.found hentry
  | validating => exact h.1.kept.found hentry
  | rollingBack | rollbackPending => exact h.1.found hentry
  | rolledBack => exact .inl (h.trans hentry)
  | succeeded => exact absurd rfl hstatus
  | cancelled => exact h.elim

lemma Target.Inv.preserved (h : t.Inv d) :
    ∃ plan, d.planOf t.operationId = some plan ∧ t.Preserved d plan := by
  obtain ⟨plan,hdisk,hphase⟩ := h
  have hfile : ∀ n ∈ t.names, ∃ f ∈ plan.files, f.name = n := by
    intro n hn
    rw [← hdisk.names] at hn
    obtain ⟨f,hf,hname⟩ := List.mem_map.mp hn
    exact ⟨f,hf,hname⟩
  refine ⟨plan,hdisk.planOf,?_,?_,?_⟩
  · intro hstatus n hn entry hentry
    obtain ⟨f,hf,rfl⟩ := hfile n hn
    exact Target.Phase.found (hphase f hf) hstatus hentry
  · intro hstatus n hn
    obtain ⟨f,hf,rfl⟩ := hfile n hn
    have hphase := hphase f hf
    rcases hstatus with hstatus | hstatus <;> rw [hstatus] at hphase
    · exact hphase
    · exact hphase.1
  · intro hstatus n hn
    obtain ⟨f,hf,rfl⟩ := hfile n hn
    have hphase := hphase f hf
    rcases hstatus with hstatus | hstatus <;> rw [hstatus] at hphase
    · exact hphase.1.1
    · exact hphase

lemma staged_runs (hlive : d.live = t.original) (hids : (d.operations.map (·.operationId)).Nodup)
    (hclean : t.Clean d.live) {evidence : Option ConversationEvidence} {faults : Faults (Process C)}
    (hok : (stageRestore t.operationId (t.names.map fun n => (n,t.content n)) evidence
      { disk := d } faults).1 = .ok ())
    {events : List (RestoreEvent C)}
    (hfenced : Along (restoreStep t.sqlite) t.FencedCall (restoreStep t.sqlite d
      (.stage t.operationId (t.names.map fun n => (n,t.content n)) evidence faults)) events) :
    t.Inv (events.foldl (restoreStep t.sqlite) (restoreStep t.sqlite d
      (.stage t.operationId (t.names.map fun n => (n,t.content n)) evidence faults))) := by
  have hstage : Triple (fun _ _ => True) (fun s => s.disk = d)
      (stageRestore t.operationId (t.names.map fun n => (n,t.content n)) evidence)
      (stagePost fun s => t.Staged s.disk) := stageRestore_staged hlive hids hclean
  have hstaged := (hstage { disk := d } faults rfl fun _ _ _ => trivial).1
  rw [hok] at hstaged
  have hstep : ∀ d event, t.FencedCall d event → t.Inv d → t.Inv (restoreStep t.sqlite d event) :=
    fun _ _ hcall h => restoreStep_inv hcall h
  exact along_invariant hstep hstaged.inv hfenced

theorem restore_keeps_files (t : Target C) (d : Disk C) (hlive : d.live = t.original)
    (hids : (d.operations.map (·.operationId)).Nodup) (hclean : t.Clean d.live)
    (evidence : Option ConversationEvidence) (faults : Faults (Process C))
    (hok : (stageRestore t.operationId (t.names.map fun n => (n,t.content n)) evidence
      { disk := d } faults).1 = .ok ())
    (events : List (RestoreEvent C))
    (hfenced : Along (restoreStep t.sqlite) t.FencedCall (restoreStep t.sqlite d
      (.stage t.operationId (t.names.map fun n => (n,t.content n)) evidence faults)) events) :
    let last := events.foldl (restoreStep t.sqlite) (restoreStep t.sqlite d
      (.stage t.operationId (t.names.map fun n => (n,t.content n)) evidence faults))
    ∃ plan, last.planOf t.operationId = some plan ∧ t.Preserved last plan :=
  (staged_runs hlive hids hclean hok hfenced).preserved

/-- Contents are texts; opening a database beside a log yields the log. -/
def sampleSqlite : Sqlite String where
  settle := fun content log => log.getD content
  quickCheck := fun _ => .ok ()
  inspect := fun _ => absentEvidence
  approvedReferences := fun _ => none
  documentIds := fun _ => none
  feedbackLegacy := fun _ => false
  pairError := fun _ _ => none
  size := String.length
  sha256 := id

def sampleLive : Directory String :=
  Directory.put (fun _ => none) canonicalDbName (some (.file "old"))

def sampleTarget : Target String where
  sqlite := sampleSqlite
  operationId := "op-00001"
  names := [canonicalDbName,"decay_state.json"]
  original := sampleLive
  content := fun _ => "new"
  nodup := by decide
  notLog := by
    intro n hn m hwal
    have hlast : (walName m).toList.getLast? = some 'l' := by
      simp [walName,String.toList_append]
    rw [← hwal] at hlast
    fin_cases hn <;> revert hlast <;> decide
  settles := fun _ => rfl

instance (t : Target C) (d : Disk C) : Decidable (t.Fenced d) :=
  inferInstanceAs (Decidable (∀ plan ∈ d.planOf t.operationId, ∀ f ∈ plan.files,
    (plan.status = .applying → t.original f.name = none → d.live f.name ≠ none → f.installed = true) ∧
    (plan.status = .rollbackPending → t.original f.name ≠ none → t.previous d f.name = none →
      f.installed = false)))

instance (t : Target C) (d : Disk C) : (event : RestoreEvent C) → Decidable (t.FencedCall d event)
  | .apply .. => inferInstanceAs (Decidable (t.Fenced d))
  | .confirm _ | .startupFailed _ => isTrue rfl
  | .stage .. | .schedule .. | .cancel .. => isFalse Bool.false_ne_true

def fates (list : List Fate) : Faults (Process String) := list.map fun fate _ => fate

def sampleStage : RestoreEvent String :=
  .stage "op-00001" [(canonicalDbName,"new"),("decay_state.json","new")] none []

/-- The first start is cut off between moving the live file and installing; the runtime then
fails once, and the plan is rolled back. -/
def rolledBackRun : List (RestoreEvent String) := [
  .apply "x" (fates [.ok,.ok,.ok,.ok,.ok,.ok,.ok,.crashes]),.apply "x" [],
  .startupFailed [],.apply "x" []]

theorem restore_keeps_files_sample :
    let last := rolledBackRun.foldl (restoreStep sampleSqlite)
      (restoreStep sampleSqlite { live := sampleLive } sampleStage)
    (last.planOf "op-00001").map (·.status) = some .rolledBack ∧
      ∃ plan, last.planOf "op-00001" = some plan ∧ sampleTarget.Preserved last plan := by
  have hclean : sampleTarget.Clean sampleLive := by
    intro n hn hdb c
    fin_cases hn
    · rfl
    · exact absurd hdb (by decide)
  exact ⟨by decide +kernel,restore_keeps_files sampleTarget { live := sampleLive } rfl
    List.nodup_nil hclean none [] (by decide +kernel) rolledBackRun (by decide +kernel)⟩

/-- A rollback has put the file back when the write of its plan fails; the next start rolls back
once more. -/
def twiceRolledBackRun : List (RestoreEvent String) := [
  .apply "x" [],.startupFailed [],.apply "x" (fates [.ok,.ok,.ok,.ok,.ok,.fails]), .apply "x" []]

theorem original_lost :
    let last := twiceRolledBackRun.foldl (restoreStep sampleSqlite)
      (restoreStep sampleSqlite { live := sampleLive } sampleStage)
    ¬∃ plan, last.planOf "op-00001" = some plan ∧ sampleTarget.Preserved last plan := by
  rintro last ⟨plan,hplan,hpreserved⟩
  have hstatus : (last.planOf "op-00001").map (·.status) = some .rolledBack := by decide +kernel
  rw [hplan] at hstatus
  have hlive := hpreserved.undone (.inl (Option.some.inj hstatus)) canonicalDbName (by decide)
  revert hlive
  decide +kernel

structure Target.Opens (t : Target C) (d : Disk C) (plan : RestorePlan) : Prop where
  restored : plan.status = .validating → ∀ n ∈ t.names, isDatabaseName n = true →
    t.sqlite.opened d.live n = some (t.sqlite.settle (t.content n) none)
  rolledBack : plan.status = .rolledBack → ∀ n ∈ t.names, isDatabaseName n = true →
    t.sqlite.opened d.live n = t.sqlite.opened t.original n

/-- A database whose log replays nothing opens as the file alone. -/
theorem opened_of_inert (sqlite : Sqlite C) {dir : Directory C} {n : String}
    (hinert : ∀ c, sqlite.settle c (dir.content? (walName n)) = c) :
    sqlite.opened dir n = dir.content? n := by
  unfold Sqlite.opened Directory.content?
  cases dir n with
  | none => rfl
  | some entry =>
    cases entry with
    | symlink target => rfl
    | file content => exact congrArg some (hinert content)

theorem restored_databases_open (t : Target C) (d : Disk C) (hlive : d.live = t.original)
    (hids : (d.operations.map (·.operationId)).Nodup) (hclean : t.Clean d.live)
    (evidence : Option ConversationEvidence) (faults : Faults (Process C))
    (hok : (stageRestore t.operationId (t.names.map fun n => (n,t.content n)) evidence
      { disk := d } faults).1 = .ok ())
    (events : List (RestoreEvent C))
    (hfenced : Along (restoreStep t.sqlite) t.FencedCall (restoreStep t.sqlite d
      (.stage t.operationId (t.names.map fun n => (n,t.content n)) evidence faults)) events) :
    let last := events.foldl (restoreStep t.sqlite) (restoreStep t.sqlite d
      (.stage t.operationId (t.names.map fun n => (n,t.content n)) evidence faults))
    ∃ plan, last.planOf t.operationId = some plan ∧ t.Opens last plan := by
  intro last
  have hinv : t.Inv last := staged_runs hlive hids hclean hok hfenced
  obtain ⟨plan,hplan,hpreserved⟩ := hinv.preserved
  obtain ⟨own,hdisk,-⟩ := hinv
  refine ⟨plan,hplan,?_,?_⟩
  · intro hstatus n hn hdb
    rw [opened_of_inert t.sqlite (hdisk.clean n hn hdb),Directory.content?,
      hpreserved.done (.inl hstatus) n hn,t.settles]
    rfl
  · intro hstatus n hn hdb
    rw [opened_of_inert t.sqlite (hdisk.clean n hn hdb),
      opened_of_inert t.sqlite (hlive ▸ hclean n hn hdb),Directory.content?,
      hpreserved.undone (.inl hstatus) n hn]
    rfl

theorem restored_databases_open_sample :
    let last := [RestoreEvent.apply "x" []].foldl (restoreStep sampleSqlite)
      (restoreStep sampleSqlite { live := sampleLive } sampleStage)
    (last.planOf "op-00001").map (·.status) = some .validating ∧
      ∃ plan, last.planOf "op-00001" = some plan ∧ sampleTarget.Opens last plan := by
  have hclean : sampleTarget.Clean sampleLive := by
    intro n hn hdb c
    fin_cases hn
    · rfl
    · exact absurd hdb (by decide)
  exact ⟨by decide +kernel,restored_databases_open sampleTarget { live := sampleLive } rfl
    List.nodup_nil hclean none [] (by decide +kernel) [.apply "x" []] (by decide +kernel)⟩

/-- The data directory of a crash: the log of the old database lies beside it. -/
def crashedLive : Directory String :=
  sampleLive.put (walName canonicalDbName) (some (.file "logged"))

def crashedTarget : Target String := { sampleTarget with original := crashedLive }

theorem stale_log_replayed :
    let last := [RestoreEvent.apply "x" []].foldl (restoreStep sampleSqlite)
      (restoreStep sampleSqlite { live := crashedLive } sampleStage)
    ¬∃ plan, last.planOf "op-00001" = some plan ∧ crashedTarget.Opens last plan := by
  rintro last ⟨plan,hplan,hopens⟩
  have hstatus : (last.planOf "op-00001").map (·.status) = some .validating := by decide +kernel
  rw [hplan] at hstatus
  have hopened := hopens.restored (Option.some.inj hstatus) canonicalDbName (by decide) (by decide)
  revert hopened
  decide +kernel

structure Snapshotted (sqlite : Sqlite C) (specs : List FileSpec)
    (snapshots : List (FileSpec × C)) : Prop where
  ordered : (snapshots.map Prod.fst).Sublist specs
  checked : ∀ s ∈ snapshots, s.1.kind = .sqlite → sqlite.quickCheck s.2 = .ok ()

variable {sqlite : Sqlite C} {specs : List FileSpec} {snapshots : List (FileSpec × C)}

lemma snapshotFile_ok {dir : Directory C} {spec : FileSpec} {content? : Option C}
    (hkind : spec.kind = .sqlite)
    (h : snapshotFile sqlite dir spec = .ok content?) : (content? = none → spec.required = false) ∧
      ∀ content ∈ content?, sqlite.quickCheck content = .ok () := by
  unfold snapshotFile at h
  split at h
  · split at h
    · cases h
    · rename_i hoptional
      cases h
      exact ⟨fun _ => eq_false_of_ne_true hoptional,nofun⟩
  split at h
  · cases h
  split at h
  · cases h
  · obtain ⟨_,hquick,h⟩ := bind_ok h
    cases h
    exact ⟨nofun,fun _ hc => Option.some.inj hc ▸ hquick⟩

lemma snapshotFiles_ok {moment : String → Directory C}
    (h : snapshotFiles sqlite moment specs = .ok snapshots) :
    Snapshotted sqlite specs snapshots := by
  induction specs generalizing snapshots with
  | nil =>
    cases h
    exact ⟨.slnil,nofun⟩
  | cons spec specs ih =>
    obtain ⟨content?,hfile,h⟩ := bind_ok h
    obtain ⟨rest,hrest,h⟩ := bind_ok h
    cases h
    obtain ⟨hordered,hchecked⟩ := ih hrest
    cases content? with
    | none => exact ⟨hordered.cons _,hchecked⟩
    | some content =>
      refine ⟨hordered.cons_cons _,List.forall_mem_cons.mpr ⟨?_,hchecked⟩⟩
      exact fun hkind => (snapshotFile_ok hkind hfile).2 content rfl

lemma feedback_accepted {dir : Directory C} {names : List String} {state : FeedbackPairState}
    (hstate : inspectFeedbackPair sqlite dir "backup" = .ok state)
    (hdb : plansDb names = dir.present feedbackSignalDbName)
    (hkey : plansKey names = dir.present feedbackHmacKeyName) :
    validateFeedbackBackupFiles sqlite dir names = .ok () := by
  unfold validateFeedbackBackupFiles
  rw [hdb,hkey,hstate]
  unfold inspectFeedbackPair at hstate
  cases hd : dir.present feedbackSignalDbName <;> cases hk : dir.present feedbackHmacKeyName <;>
    simp only [hd,hk,Bool.not_true,Bool.not_false,Bool.false_eq_true,if_true,if_false] at hstate
  · rfl
  · cases hstate
  · split at hstate <;> cases hstate
    rfl
  · obtain ⟨_,_,h⟩ := bind_ok hstate
    cases h
    rfl

lemma specs_nodup : (backupFileSpecs.map (·.name)).Nodup := by decide

lemma specs_unlogged : ∀ spec ∈ backupFileSpecs, ∀ other ∈ backupFileSpecs,
    other.name ≠ walName spec.name := by
  decide

namespace Snapshotted
variable (h : Snapshotted sqlite backupFileSpecs snapshots) {s : FileSpec × C}
include h

lemma spec_mem (hs : s ∈ snapshots) : s.1 ∈ backupFileSpecs :=
  h.ordered.subset (List.mem_map_of_mem hs)

lemma file (hs : s ∈ snapshots) : snapshotDirectory snapshots s.1.name = some (.file s.2) := by
  have hnodup := specs_nodup.sublist (h.ordered.map (·.name))
  rw [List.map_map] at hnodup
  exact congrArg (Option.map _) (RowTable.find?_key hnodup hs)

lemma preflight (hs : s ∈ snapshots) (hsettle : ∀ content, sqlite.settle content none = content) :
    preflightFile sqlite (snapshotDirectory snapshots) (snapshotEntry sqlite s.1 s.2) = .ok () := by
  have hlog : snapshotDirectory snapshots (walName s.1.name) = none := by
    refine Option.map_eq_none_iff.mpr (List.find?_eq_none.mpr ?_)
    intro other hother heq
    exact specs_unlogged s.1 (h.spec_mem hs) other.1 (h.spec_mem hother) (of_decide_eq_true heq)
  unfold preflightFile
  rw [snapshotEntry,RowTable.find?_key specs_nodup (h.spec_mem hs)]
  simpa [Directory.isPlainFile,Directory.isFile,Directory.isSymlink,Directory.content?,h.file
    hs,Entry.isFile,
    Entry.isSymlink,Entry.content?,Sqlite.opened,hlog,hsettle] using h.checked s hs

/-- A restore takes what is present, but for the derived files. -/
lemma planned {name : String} : name ∈ (snapshots.filter fun s => s.1.role ≠ .derived).map
    (·.1.name) ↔
    ∃ spec ∈ backupFileSpecs, spec.name = name ∧ spec.role ≠ .derived ∧
      (snapshotDirectory snapshots).present name = true := by
  rw [List.mem_map]
  constructor
  · rintro ⟨s,hs,rfl⟩
    obtain ⟨hmem,hrole⟩ := List.mem_filter.mp hs
    exact ⟨s.1,h.spec_mem hmem,rfl,of_decide_eq_true hrole,congrArg Option.isSome (h.file hmem)⟩
  · rintro ⟨spec,hspec,rfl,hrole,hpresent⟩
    obtain ⟨s,hs⟩ := Option.isSome_iff_exists.mp (Option.isSome_map.symm.trans hpresent)
    have hmem := List.mem_of_find?_eq_some hs
    obtain rfl := RowTable.eq_of_key_eq specs_nodup (h.spec_mem hmem) hspec (by simpa using List.find?_some hs)
    exact ⟨s,List.mem_filter.mpr ⟨hmem,decide_eq_true hrole⟩,rfl⟩

lemma contains_eq (spec : FileSpec) (hspec : spec ∈ backupFileSpecs) (hrole : spec.role ≠ .derived) :
    ((snapshots.filter fun s => s.1.role ≠ .derived).map (·.1.name)).contains spec.name =
      (snapshotDirectory snapshots).present spec.name := by
  rw [Bool.eq_iff_iff,List.contains_iff_mem,h.planned]
  exact ⟨fun ⟨_,_,_,_,hpresent⟩ => hpresent,fun hpresent => ⟨spec,hspec,rfl,hrole,hpresent⟩⟩

end Snapshotted

/-- A backup that was published passes the check before its restore with all its files but the
derived ones, unless its conversation database was invalid already. -/
theorem published_backup_preflight (hsettle : ∀ content, sqlite.settle content none = content)
    {start : Directory C} {moment : String → Directory C} {backup : BackupDirectory C}
    (h : createBackup sqlite start moment = .ok backup) : ∃ names, canonicalDbName ∈ names ∧
      (∀ name, name ∈ names ↔ ∃ spec ∈ backupFileSpecs, spec.name = name ∧ spec.role ≠ .derived ∧
        backup.files.present name = true) ∧
      preflightRestore sqlite backup =
        let evidence := inspectConversationDatabase sqlite backup.files
        if names.contains conversationDbName && evidence.integrity = .invalid then
          .error (.operation ("restore_conversation_"++reasonText evidence))
        else .ok ⟨names,true,if names.contains conversationDbName then some evidence else none⟩ := by
  unfold createBackup at h
  dsimp only at h
  split at h <;> try cases h
  rename_i hcreated
  obtain ⟨initialState,-,h⟩ := bind_ok hcreated
  obtain ⟨snapshots,hsnapshots,h⟩ := bind_ok h
  obtain ⟨_,hvalidated,h⟩ := bind_ok h
  obtain ⟨state,hstate,-⟩ := bind_ok hvalidated
  have hs := snapshotFiles_ok hsnapshots
  cases h
  have hcanonical : canonicalDbName ∈ (snapshots.filter fun s => s.1.role ≠ .derived).map (·.1.name) := by
    obtain ⟨content?,hfile,hrest⟩ := bind_ok hsnapshots
    obtain ⟨rest,-,hrest⟩ := bind_ok hrest
    cases hrest
    cases content? with
    | none => cases (snapshotFile_ok rfl hfile).1 rfl
    | some content => exact List.mem_cons_self
  have hconversations := hs.contains_eq ⟨conversationDbName,.operational,.sqlite,false⟩
    (by simp [backupFileSpecs]) (by simp)
  have hfeedback := feedback_accepted hstate
    (hs.contains_eq ⟨feedbackSignalDbName,.operational,.sqlite,false⟩ (by simp [backupFileSpecs]) (by simp))
    (hs.contains_eq ⟨feedbackHmacKeyName,.operational,.secret,false⟩ (by simp [backupFileSpecs]) (by simp))
  have hchecked : (snapshots.map fun s => snapshotEntry sqlite s.1 s.2).forM
      (preflightFile sqlite (snapshotDirectory snapshots)) = .ok () := by
    refine forM_of_ok ?_
    intro file hfile
    obtain ⟨s,hmem,rfl⟩ := List.mem_map.mp hfile
    exact hs.preflight hmem hsettle
  refine ⟨_,hcanonical,fun name => hs.planned,?_⟩
  have hnames : ((snapshots.map fun s => snapshotEntry sqlite s.1 s.2).filter fun file => file.role ≠ .derived).map
      (·.name) = (snapshots.filter fun s => s.1.role ≠ .derived).map (·.1.name) := by
    rw [List.filter_map,List.map_map]
    rfl
  unfold preflightRestore preflightNames
  simp only [hchecked,hnames,bind,Except.bind,List.contains_iff_mem.mpr
    hcanonical,hfeedback,hconversations,
    Bool.not_true,Bool.false_eq_true,if_false]
  cases hconv : (snapshotDirectory snapshots).present conversationDbName with
  | true => simp
  | false =>
    have hnone : snapshotDirectory snapshots conversationDbName = none := by simpa [Directory.present] using hconv
    simp [inspectConversationDatabase,Directory.isPlainFile,Directory.isFile,hnone,absentEvidence]

def verifiedSqlite : Sqlite String :=
  { sampleSqlite with inspect := fun _ => ⟨true,1,none,[2,0,0,0,0],.verified,none⟩ }

def fullLive : Directory String :=
  (((sampleLive.put conversationDbName (some (.file "messages"))).put feedbackSignalDbName
    (some (.file "signals"))).put feedbackHmacKeyName (some (.file "key"))).put "memora.index" (some
    (.file "vectors"))

/-- The conversations and the feedback pair are planned with the memories, the index is not. -/
theorem published_backup_preflight_sample : ∃ backup names,
    createBackup verifiedSqlite fullLive (fun _ => fullLive) = .ok backup ∧
      (∀ name ∈ [canonicalDbName,conversationDbName,feedbackSignalDbName,feedbackHmacKeyName], name ∈ names) ∧
      "memora.index" ∉ names ∧
      (preflightRestore verifiedSqlite backup).map (·.fileNames) = .ok names := by
  have hcreated : createBackup verifiedSqlite fullLive (fun _ => fullLive) = .ok _ := rfl
  obtain ⟨names,-,hnames,hpreflight⟩ := published_backup_preflight (fun _ => rfl) hcreated
  refine ⟨_,names,hcreated,?_,?_,?_⟩
  · have hspecs : ∀ name ∈ [canonicalDbName,conversationDbName,feedbackSignalDbName,feedbackHmacKeyName],
        ∃ spec ∈ backupFileSpecs, spec.name = name ∧ spec.role ≠ .derived := by decide
    intro name hname
    obtain ⟨spec,hspec,rfl,hrole⟩ := hspecs name hname
    refine (hnames _).mpr ⟨spec,hspec,rfl,hrole,?_⟩
    revert spec
    decide +kernel
  · have hderived : ∀ spec ∈ backupFileSpecs, spec.name = "memora.index" → spec.role = .derived := by decide
    intro hmem
    obtain ⟨spec,hspec,hname,hrole,-⟩ := (hnames _).mp hmem
    exact hrole (hderived spec hspec hname)
  · rw [hpreflight]
    cases names.contains conversationDbName <;> rfl

end Memora.Backup

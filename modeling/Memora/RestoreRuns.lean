import Memora.RestoreApply
import Memora.RunLaws

/-! Any number of starts, confirmations and startup failures, each cut off anywhere. -/
namespace Memora.Backup
open Restore RunLaws

variable {C : Type} {t : Target C} {good : Process C → Fate → Prop}

structure Target.Before (t : Target C) (s : Process C) : Prop where
  onDisk : t.OnDisk s.disk s.plan
  status : s.plan.status = .staged ∨ s.plan.status = .reloadScheduled
  untouched : ∀ f ∈ s.plan.files, t.Untouched s.disk f
  started : s.startedApply = false

namespace Target.Before
variable {s : Process C}

lemma inv (h : t.Before s) : t.Inv s.disk := by
  refine ⟨s.plan,h.onDisk,fun f hf => ?_⟩
  rcases h.status with hstatus | hstatus <;> rw [hstatus] <;> exact h.untouched f hf

lemma failing (h : t.Before s) : t.Failing s where
  inv := h.inv
  holds := h.onDisk.holds
  started := fun hstarted => by rw [h.started] at hstarted; cases hstarted
  before := fun _ => h.untouched

end Target.Before

/-- A start finds the plan staged, or in the middle of an apply with its progress recorded. -/
def Target.Found (t : Target C) (s : Process C) : Prop := t.Before s ∨ t.Working s

lemma createPreRestoreBackup_before : Triple good t.Before
    (createPreRestoreBackup t.sqlite t.operationId)
      (t.applyPost fun _ => t.Before) := by
  refine Triple.get_bind fun s hs => ?_
  rw [hs.onDisk.planOf]
  refine Triple.ite (fun _ => Triple.pure fun _ heq => heq ▸ hs) fun _ => ?_
  have hsame : ∀ s' : Process C, s' = s → t.Before s' := fun _ heq => heq ▸ hs
  refine Triple.bind (fun _ s' => t.Before s' ∧ s'.plan = s.plan) (Triple.operation ?_ ?_ ?_)
    fun _ => ?_
  · rintro _ rfl
    have hdb : isDatabaseName feedbackSignalDbName = true := by decide
    refine ⟨⟨hs.onDisk.live (hs.onDisk.clean.settled hdb),hs.status,fun f hf => ?_, hs.started⟩,rfl⟩
    have hfile := sameFile_settled hs.onDisk hdb (hs.onDisk.holds.name_mem hf)
    exact hfile.untouched (hs.untouched f hf)
  · exact fun s' heq _ => (hsame s' heq).failing
  · exact fun s' heq _ => (hsame s' heq).inv
  refine Triple.bind (fun _ s' => t.Before s' ∧ s'.plan = s.plan)
    (Triple.operation (fun _ hs' => hs') (fun _ hs' _ => hs'.1.failing)
      fun _ hs' _ => hs'.1.inv) fun _ => Triple.get_bind fun s' hs' => ?_
  refine Triple.bind (fun _ s'' => s'' = s') ?_ fun _ => Triple.operation ?_ ?_ ?_
  · cases (createBackup t.sqlite s'.disk.live fun _ => s'.disk.live).map fun _ => () with
    | ok _ => exact Triple.pure fun _ heq => heq
    | error fault => exact Triple.raise fun _ heq => heq ▸ hs'.1.failing
  · rintro _ rfl
    obtain ⟨hbefore,hplan⟩ := hs'
    rw [← hplan]
    refine ⟨hbefore.onDisk.write hbefore.onDisk.holds,hbefore.status,fun f hf => ?_, hbefore.started⟩
    exact (sameFile_writePlan t _ _ f.name).untouched (hbefore.untouched f hf)
  · exact fun _ heq _ => heq ▸ hs'.1.failing
  · exact fun _ heq _ => heq ▸ hs'.1.inv

lemma beginApply_working : Triple good t.Found (beginApply t.sqlite)
    (t.applyPost fun _ => t.Working) := by
  refine Triple.get_bind fun s hs => Triple.ite (fun hstaged => ?_) fun hstaged => ?_
  · have hbefore : t.Before s := by
      rcases hs with hbefore | hworking
      · exact hbefore
      · rcases hworking.status with hstatus | hstatus <;> rw [hstatus] at hstaged <;> simp at hstaged
    have hid : s.plan.operationId = t.operationId := hbefore.onDisk.id
    rw [hid]
    refine Triple.bind (fun _ => t.Before) ((createPreRestoreBackup_before).weaken
      fun _ heq => heq ▸ hbefore) fun _ => ?_
    refine Triple.bind (fun _ => t.Before) (Triple.modify fun s' hs' => ?_) fun _ => ?_
    · have hplan : (s'.disk.planOf s'.plan.operationId).getD s'.plan = s'.plan := by
        rw [hs'.onDisk.id,hs'.onDisk.planOf]
        rfl
      rw [hplan]
      exact hs'
    refine Triple.bind (fun _ s' => s'.plan.status = .applying ∧ t.Holds s'.plan ∧
        ∃ old, old.files = s'.plan.files ∧ t.Before { s' with plan := old })
      (Triple.modify fun s' hs' => ⟨rfl,⟨hs'.onDisk.id,hs'.onDisk.names⟩,s'.plan,rfl,hs'⟩)
      fun _ => ?_
    refine Triple.bind (fun _ s' => t.OnDisk s'.disk s'.plan ∧ s'.plan.status = .applying ∧
        ∀ f ∈ s'.plan.files, t.Untouched s'.disk f) (Triple.operation ?_ ?_ ?_) fun _ =>
      Triple.modify fun s' hs' => ?_
    · rintro s' ⟨hstatus,hholds,old,hfiles,hold⟩
      refine ⟨hold.onDisk.write hholds,hstatus,fun f hf => ?_⟩
      exact (sameFile_writePlan t _ _ f.name).untouched (hold.untouched f (hfiles ▸ hf))
    · rintro s' ⟨-,hholds,old,hfiles,hold⟩ _
      refine ⟨hold.inv,hholds,fun hstarted => ?_,fun _ f hf => hold.untouched f (hfiles ▸ hf)⟩
      exact absurd (hold.started.symm.trans hstarted) (by decide)
    · rintro s' ⟨-,-,old,-,hold⟩ _
      exact hold.inv
    · obtain ⟨hdisk,hstatus,huntouched⟩ := hs'
      refine ⟨rfl,hdisk,.inl hstatus,fun f hf => ?_,fun f hf => (huntouched f hf).recorded⟩
      rw [hstatus]
      exact .inl (huntouched f hf)
  · refine Triple.pure ?_
    rintro _ rfl
    rcases hs with hbefore | hworking
    · exact absurd hbefore.status hstaged
    · exact hworking

lemma applyPlan_inv : Triple good t.Found (applyPlan t.sqlite)
    (t.applyPost fun _ s => t.Inv s.disk) :=
  Triple.bind (fun _ => t.Working) (beginApply_working) fun _ =>
    Triple.bind (fun _ => t.Whole) installFiles_installs fun _ =>
      Triple.bind (fun _ => t.Whole) (validate_whole) fun _ => finishApply_inv

lemma applyFailed_inv (fault : Fault) : Triple good t.Failing (applyFailed fault) t.anyPost := by
  refine Triple.bind (fun _ => t.Failing) (Triple.modify fun s hs => ?_) fun _ =>
    Triple.get_bind fun s hs => Triple.ite (fun hstarted => ?_) fun hstarted => ?_
  · exact ⟨hs.inv,⟨hs.holds.id,hs.holds.names⟩,hs.started,hs.before⟩
  · have hbefore := hs.before (by simpa using hstarted)
    refine Triple.bind (fun _ s' => t.Inv s'.disk ∧ t.Holds s'.plan ∧
        s'.plan.status = .failedBeforeApply ∧ ∀ f ∈ s'.plan.files, t.Untouched s'.disk f)
      (Triple.modify ?_) fun _ => Triple.operation ?_ (fun _ hs' _ => hs'.1) fun _ hs' _ => hs'.1
    · rintro _ rfl
      exact ⟨hs.inv,⟨hs.holds.id,hs.holds.names⟩,rfl,hbefore⟩
    · rintro s' ⟨⟨old,hdisk,-⟩,hholds,hstatus,huntouched⟩
      refine ⟨s'.plan,hdisk.write hholds,fun f hf => ?_⟩
      refine (sameFile_writePlan t _ _ f.name).phase ?_
      rw [hstatus]
      exact huntouched f hf
  · have hstarted : s.startedApply = true := by simpa using hstarted
    refine Triple.handle (fun _ s' => t.Inv s'.disk) (rollback_inv.weaken ?_) fun raised => ?_
    · rintro _ rfl
      exact ⟨hs.inv,hs.holds,hs.started hstarted⟩
    · cases raised with
      | operation code => exact Triple.pure fun _ hs' => hs'
      | os | database => exact Triple.raise fun _ hs' => hs'

/-- The conditions on a start: a file that was absent and has its payload live is marked as
installed, and no file that is back already is marked so in a pending rollback. -/
def Target.Fenced (t : Target C) (d : Disk C) : Prop :=
  ∀ plan ∈ d.planOf t.operationId, ∀ f ∈ plan.files,
    (plan.status = .applying → t.original f.name = none → d.live f.name ≠ none → f.installed = true) ∧
    (plan.status = .rollbackPending → t.original f.name ≠ none → t.previous d f.name = none →
      f.installed = false)

variable {plan : RestorePlan}

lemma applyFound_inv :
    Triple good (fun s => t.OnDisk s.disk plan ∧ (∀ f ∈ plan.files, t.Phase s.disk f plan.status) ∧
      t.Fenced s.disk) (applyFound t.sqlite plan) t.anyPost := by
  refine Triple.bind (fun _ s => s.plan = plan ∧
      s.startedApply = (plan.status = .applying || plan.status = .validating) ∧
        t.OnDisk s.disk plan ∧ (∀ f ∈ plan.files, t.Phase s.disk f plan.status) ∧
          t.Fenced s.disk) (Triple.modify fun s hs => ⟨rfl,rfl,hs⟩) fun _ => ?_
  refine Triple.ite (fun hstatus => ?_) fun hpending => Triple.ite (fun hstatus => ?_) fun _ => ?_
  · refine rollback_inv.weaken ?_
    rintro s ⟨rfl,-,hdisk,hphase,hfenced⟩
    refine ⟨⟨s.plan,hdisk,hphase⟩,hdisk.holds,fun f hf => ?_⟩
    have hkept := hphase f hf
    rw [hstatus] at hkept
    exact ⟨hkept.1,hkept.2,fun hnone hpresent =>
      (hfenced s.plan hdisk.planOf f hf).2 hstatus hpresent hnone⟩
  · refine Triple.handle (fun _ => t.Failing) ((applyPlan_inv).weaken ?_) applyFailed_inv
    rintro s ⟨rfl,hstarted,hdisk,hphase,hfenced⟩
    have hworking : s.plan.status = .applying ∨ s.plan.status = .validating → t.Found s := by
      intro hbusy
      refine .inr ⟨?_,hdisk,hbusy,hphase,fun f hf => ?_⟩
      · rcases hbusy with hbusy | hbusy <;> rw [hstarted,hbusy] <;> rfl
      · have hfile := hphase f hf
        rcases hbusy with hbusy | hbusy <;> rw [hbusy] at hfile
        · intro habsent hlive
          refine (hfenced s.plan hdisk.planOf f hf).1 hbusy habsent ?_
          rw [hlive]
          simp [Target.staged]
        · exact fun _ _ => hfile.2.2
    have hbefore : s.plan.status = .staged ∨ s.plan.status = .reloadScheduled → t.Found s := by
      intro hidle
      refine .inl ⟨hdisk,hidle,fun f hf => ?_,?_⟩
      · have hfile := hphase f hf
        rcases hidle with hidle | hidle <;> rw [hidle] at hfile <;> exact hfile
      · rcases hidle with hidle | hidle <;> rw [hstarted,hidle] <;> rfl
    rcases hstatus with hstaged | hscheduled | happlying | hvalidating
    · exact hbefore (.inl hstaged)
    · exact hbefore (.inr hscheduled)
    · exact hworking (.inl happlying)
    · exact hworking (.inr hvalidating)
  · exact Triple.pure fun s hs => ⟨plan,hs.2.2.1,hs.2.2.2.1⟩

variable {d : Disk C} {s : Process C} {q : RestorePlan}

lemma Target.OnDisk.blocking_eq (h : t.OnDisk d plan)
    (hq : q ∈ d.operations.filterMap (·.plan)) (hblocking : q.blocking = true) : q = plan := by
  obtain ⟨o,ho,hoq⟩ := List.mem_filterMap.mp hq
  obtain ⟨own,hown,hplan⟩ := h.operation
  by_cases hid : o.operationId = t.operationId
  · have hkey : own.operationId = t.operationId := by simpa using List.find?_some hown
    obtain rfl := RowTable.eq_of_key_eq h.ids ho (List.mem_of_find?_eq_some hown) (hid.trans hkey.symm)
    rw [hplan] at hoq
    exact (Option.some.inj hoq).symm
  · rw [h.others o ho hid q hoq] at hblocking
    cases hblocking

lemma Target.OnDisk.readPlan (h : t.OnDisk d plan) :
    ∃ q, d.readPlan = some q ∧ (q = plan ∨ q.blocking = false) := by
  obtain ⟨own,hown,hplan⟩ := h.operation
  have hmem : plan ∈ d.operations.filterMap (·.plan) :=
    List.mem_filterMap.mpr ⟨own,List.mem_of_find?_eq_some hown,hplan⟩
  unfold Disk.readPlan
  cases hfound : (d.operations.filterMap (·.plan)).find? RestorePlan.blocking with
  | some q =>
    refine ⟨q,by simp [hfound],.inl ?_⟩
    exact h.blocking_eq (List.mem_of_find?_eq_some hfound) (List.find?_some hfound)
  | none =>
    have hne : d.operations.filterMap (·.plan) ≠ [] := List.ne_nil_of_mem hmem
    refine ⟨(d.operations.filterMap (·.plan)).getLast hne,?_,.inr ?_⟩
    · simp [hfound]
    · simpa using List.find?_eq_none.mp hfound _ (List.getLast_mem hne)

lemma applyPendingRestores_inv (drawn : String) :
    Triple good (fun s => t.Inv s.disk ∧ t.Fenced s.disk) (applyPendingRestores t.sqlite drawn)
      t.anyPost := by
  refine Triple.bind (fun _ s => t.Inv s.disk ∧ t.Fenced s.disk)
    (Triple.operation (fun _ hs => hs) (fun _ hs _ => hs.1) fun _ hs _ => hs.1) fun _ =>
      Triple.get_bind fun s hs => ?_
  obtain ⟨⟨plan,hdisk,hphase⟩,hfenced⟩ := hs
  obtain ⟨q,hq,hcase⟩ := hdisk.readPlan
  rw [hq]
  rcases hcase with rfl | hidle
  · exact (applyFound_inv).weaken fun _ heq => heq ▸ ⟨hdisk,hphase,hfenced⟩
  · -- a plan that does not block is left alone
    refine Triple.bind (fun _ s => t.Inv s.disk) (Triple.modify ?_) fun _ => ?_
    · rintro _ rfl
      exact ⟨plan,hdisk,hphase⟩
    refine Triple.ite (fun hstatus => ?_) fun _ => Triple.ite (fun hstatus => ?_) fun _ => ?_
    · rw [RestorePlan.blocking,hstatus] at hidle
      cases hidle
    · rcases hstatus with hstatus | hstatus | hstatus | hstatus <;>
        rw [RestorePlan.blocking,hstatus] at hidle <;> cases hidle
    · exact Triple.pure fun _ hs => hs

lemma Target.Inv.validating (h : t.Inv d) (hq : d.readPlan = some q)
    (hstatus : q.status = .validating) : t.OnDisk d q ∧ ∀ f ∈ q.files, t.Phase d f .validating := by
  obtain ⟨plan,hdisk,hphase⟩ := h
  obtain ⟨found,hfound,hcase⟩ := hdisk.readPlan
  rw [hq] at hfound
  cases hfound
  rcases hcase with rfl | hidle
  · rw [hstatus] at hphase
    exact ⟨hdisk,hphase⟩
  · rw [RestorePlan.blocking,hstatus] at hidle
    cases hidle

lemma removeTree_succeeded (hplan : plan.status = .succeeded) {id : String}
    (hown : id = t.operationId) {f : Operation C → Operation C}
    (hid : ∀ o, (f o).operationId = o.operationId) (hkeep : ∀ o, (f o).plan = o.plan) :
    Triple good (fun s => t.OnDisk s.disk plan ∧ ∀ g ∈ plan.files, t.Phase s.disk g plan.status)
      (removeTree fun d => d.modifyOperation id f)
      ⟨fun _ s => t.OnDisk s.disk plan ∧ ∀ g ∈ plan.files, t.Phase s.disk g plan.status,
        fun _ s => t.Inv s.disk,fun s => t.Inv s.disk⟩ := by
  subst hown
  refine Triple.handle (fun _ s => t.OnDisk s.disk plan ∧ ∀ g ∈ plan.files,
    t.Phase s.disk g plan.status) (Triple.operation ?_ (fun _ hs _ => hs) ?_) fun _ =>
      Triple.pure fun _ hs => hs
  · rintro s ⟨hdisk,hphase⟩
    refine ⟨hdisk.modify hid hkeep hdisk.clean,fun g hg => ?_⟩
    have hlive := hphase g hg
    rw [hplan] at hlive ⊢
    exact hlive
  · exact fun s hs _ => ⟨plan,hs.1,hs.2⟩

lemma clearOperation_succeeded (hplan : plan.status = .succeeded) {id : String}
    (hown : id = t.operationId) :
    Triple good (fun s => t.OnDisk s.disk plan ∧ ∀ g ∈ plan.files, t.Phase s.disk g plan.status)
      (clearOperation id) t.anyPost := by
  refine Triple.bind (fun _ s => t.OnDisk s.disk plan ∧ ∀ g ∈ plan.files,
    t.Phase s.disk g plan.status) (removeTree_succeeded hplan hown (fun _ => rfl) fun _ => rfl)
      fun _ => ?_
  refine Triple.consequence (removeTree_succeeded hplan hown (fun _ => rfl) fun _ => rfl)
    (fun _ hs => hs) ?_ (fun _ _ hs => hs) fun _ hs => hs
  exact fun _ s hs => ⟨plan,hs.1,hs.2⟩

def AtHand (s : Process C) (next : RestorePlan) (s' : Process C) : Prop :=
  s'.disk = s.disk ∧ s'.plan = next

lemma setPlan_atHand (f : RestorePlan → RestorePlan) (next : RestorePlan)
    (hnext : f s.plan = next) {raised : Fault → Process C → Prop} {crashed : Process C → Prop} :
    Triple good (fun s' => s' = s) (setPlan f) ⟨fun _ => AtHand s next,raised,crashed⟩ := by
  refine Triple.modify ?_
  rintro _ rfl
  exact ⟨rfl,hnext⟩

lemma writePlan_atHand {next : RestorePlan} {Q : Process C → Prop} (hs : t.Inv s.disk)
    (hnext : ∀ s' : Process C, s'.disk = s.disk.writePlan next → Q s') :
    Triple good (AtHand s next) writePlan
      ⟨fun _ => Q,fun _ s' => t.Inv s'.disk,fun s' => t.Inv s'.disk⟩ := by
  refine Triple.operation ?_ ?_ ?_
  · rintro s' ⟨hsame,hplan⟩
    refine hnext _ ?_
    rw [← hsame,← hplan]
  · rintro s' ⟨hsame,-⟩ _
    change t.Inv s'.disk
    rw [hsame]
    exact hs
  · rintro s' ⟨hsame,-⟩ _
    change t.Inv s'.disk
    rw [hsame]
    exact hs

lemma confirmRestore_inv : Triple good (fun s => t.Inv s.disk) confirmRestore t.anyPost := by
  refine Triple.get_bind fun s hs => ?_
  cases hread : s.disk.readPlan with
  | none => exact Triple.pure fun _ heq => heq ▸ hs
  | some q =>
    refine Triple.ite (fun hstatus => ?_) fun _ => Triple.pure fun _ heq => heq ▸ hs
    obtain ⟨hdisk,hphase⟩ := hs.validating hread hstatus
    obtain ⟨next,hnext⟩ : ∃ next : RestorePlan,
        next = { q with status := .succeeded, reasonCode := none } := ⟨_,rfl⟩
    have hsucceeded : next.status = .succeeded := by rw [hnext]
    refine Triple.bind (fun _ => AtHand s next) (setPlan_atHand _ next hnext.symm) fun _ => ?_
    refine Triple.bind (fun _ s' => t.OnDisk s'.disk next ∧
        ∀ g ∈ next.files, t.Phase s'.disk g next.status) (writePlan_atHand hs ?_)
      fun _ => clearOperation_succeeded hsucceeded hdisk.id
    intro s' hwritten
    rw [hwritten,hsucceeded]
    refine ⟨hdisk.write ?_,fun g hg => ?_⟩
    · rw [hnext]
      exact ⟨hdisk.id,hdisk.names⟩
    · rw [hnext] at hg
      exact (hphase g hg).1.1

lemma markStartupFailure_inv : Triple good (fun s => t.Inv s.disk) markStartupFailure t.anyPost := by
  refine Triple.get_bind fun s hs => ?_
  cases hread : s.disk.readPlan with
  | none => exact Triple.pure fun _ heq => heq ▸ hs
  | some q =>
    refine Triple.ite (fun hstatus => ?_) fun _ => Triple.pure fun _ heq => heq ▸ hs
    obtain ⟨hdisk,hphase⟩ := hs.validating hread hstatus
    obtain ⟨next,hnext⟩ : ∃ next : RestorePlan, next =
      { q with status := .rollbackPending, reasonCode := some "restore_startup_failed" } := ⟨_,rfl⟩
    have hpending : next.status = .rollbackPending := by rw [hnext]
    refine Triple.bind (fun _ => AtHand s next) (setPlan_atHand _ next hnext.symm) fun _ =>
      writePlan_atHand hs ?_
    intro s' hwritten
    refine ⟨next,?_,fun f hf => ?_⟩
    · rw [hwritten]
      refine hdisk.write ?_
      rw [hnext]
      exact ⟨hdisk.id,hdisk.names⟩
    · rw [hnext] at hf
      obtain ⟨hreplaced,-,hinstalled⟩ := hphase f hf
      rw [hwritten]
      refine (sameFile_writePlan t s.disk next f.name).phase ?_
      rw [hpending]
      exact ⟨(hreplaced.ready fun _ _ => hinstalled).1,fun _ _ => hinstalled⟩

def Target.Staged (t : Target C) (d : Disk C) : Prop :=
  ∃ plan, t.OnDisk d plan ∧ plan.status = .staged ∧ ∀ f ∈ plan.files, t.Untouched d f

lemma Target.Staged.inv (h : t.Staged d) : t.Inv d := by
  obtain ⟨plan,hdisk,hstatus,huntouched⟩ := h
  refine ⟨plan,hdisk,fun f hf => ?_⟩
  rw [hstatus]
  exact huntouched f hf

structure Target.Copying (t : Target C) (left : List (String × C)) (s : Process C) : Prop where
  live : s.disk.live = t.original
  contents : ∀ f ∈ left, f.2 = t.content f.1
  ids : (s.disk.operations.map (·.operationId)).Nodup
  others : ∀ o ∈ s.disk.operations, o.operationId ≠ t.operationId → ∀ q, o.plan = some q →
    q.blocking = false
  operation : ∃ o, s.disk.operation? t.operationId = some o ∧ o.previous = (fun _ => none) ∧
    ∀ n ∈ t.names, (n,t.content n) ∉ left → o.payload n = t.staged n

/-- The posts of staging: only a success matters. -/
def stagePost (Q : Process C → Prop) : Post (Process C) Fault Unit :=
  ⟨fun _ => Q,fun _ _ => True,fun _ => True⟩

lemma copyPayload_copies {f : String × C} {left : List (String × C)} :
    Triple good (t.Copying (f::left)) (fileOperation (copyPayload t.operationId f))
      (stagePost (t.Copying left)) := by
  refine Triple.operation ?_ (fun _ _ _ => trivial) fun _ _ _ => trivial
  intro s hs
  obtain ⟨o,ho,hprevious,hpayload⟩ := hs.operation
  have hcontent := hs.contents f List.mem_cons_self
  refine ⟨hs.live,fun g hg => hs.contents g (List.mem_cons_of_mem _ hg),?_,?_,?_⟩
  · have hkeys := RowTable.map_modify (fun o : Operation C => o.operationId)
      (fun o => o.operationId = t.operationId)
      (fun o => { o with payload := o.payload.put f.1 (some (.file f.2)) }) s.disk.operations fun _ _ _ => rfl
    exact hkeys ▸ hs.ids
  · intro o' ho' hne q hq
    obtain ⟨before,hbefore,rfl⟩ := RowTable.mem_modify.mp ho'
    by_cases hid : before.operationId = t.operationId
    · rw [if_pos (by simpa using hid)] at hne
      exact absurd hid hne
    · rw [if_neg (by simpa using hid)] at hne hq
      exact hs.others before hbefore hne q hq
  · refine ⟨{ o with payload := o.payload.put f.1 (some (.file f.2)) },?_,hprevious,?_⟩
    · change (s.disk.modifyOperation t.operationId _).operation? t.operationId = _
      rw [operation?_modify _ ?_ rfl,ho]
      · rfl
      · exact fun _ => rfl
    · intro m hm hleft
      change o.payload.put f.1 _ m = _
      by_cases hname : m = f.1
      · rw [hname,Directory.put_same,hcontent]
        rfl
      · rw [Directory.put_of_ne _ _ hname]
        refine hpayload m hm fun hmem => ?_
        rcases List.mem_cons.mp hmem with heq | hmem
        · exact hname (congrArg Prod.fst heq)
        · exact hleft hmem

lemma readPlan_idle (h : d.readPlan.any RestorePlan.blocking = false) :
    ∀ o ∈ d.operations, ∀ q, o.plan = some q → q.blocking = false := by
  intro o ho q hq
  have hmem : q ∈ d.operations.filterMap (·.plan) := List.mem_filterMap.mpr ⟨o,ho,hq⟩
  unfold Disk.readPlan at h
  cases hfound : (d.operations.filterMap (·.plan)).find? RestorePlan.blocking with
  | none => simpa using List.find?_eq_none.mp hfound q hmem
  | some found =>
    have hblocking := List.find?_some hfound
    simp [hfound,hblocking] at h

lemma newOperation_copying (hlive : s.disk.live = t.original)
    (hids : (s.disk.operations.map (·.operationId)).Nodup)
    (hidle : ∀ o ∈ s.disk.operations, ∀ q, o.plan = some q → q.blocking = false)
    (hfresh : s.disk.operation? t.operationId = none) :
    t.Copying (t.names.map fun n => (n,t.content n))
      { s with disk := newOperation t.operationId s.disk } := by
  have hperm := List.perm_orderedInsert (fun a b : Operation C => a.operationId ≤ b.operationId)
    { operationId := t.operationId } s.disk.operations
  have hnew : ((newOperation t.operationId s.disk).operations.map (·.operationId)).Nodup := by
    refine (hperm.map _).nodup_iff.mpr (List.nodup_cons.mpr ⟨?_,hids⟩)
    intro hmem
    obtain ⟨o,ho,hid⟩ := List.mem_map.mp hmem
    exact List.find?_eq_none.mp hfresh o ho (by simpa using hid)
  refine ⟨hlive,?_,hnew,?_,⟨{ operationId := t.operationId },?_,rfl,?_⟩⟩
  · intro f hf
    obtain ⟨n,-,rfl⟩ := List.mem_map.mp hf
    rfl
  · intro o ho hne q hq
    rcases List.mem_cons.mp (hperm.mem_iff.mp ho) with rfl | ho
    · exact absurd rfl hne
    · exact hidle o ho q hq
  · exact RowTable.find?_key hnew (hperm.mem_iff.mpr List.mem_cons_self)
  · intro n hn hleft
    exact absurd (List.mem_map_of_mem hn) hleft

lemma Target.Copying.staged (h : t.Copying [] s) (hclean : t.Clean d.live)
    (hlive : d.live = t.original) (hholds : t.Holds s.plan) (hstatus : s.plan.status = .staged)
    (hflags : ∀ f ∈ s.plan.files, f.installed = false) : t.Staged (s.disk.writePlan s.plan) := by
  obtain ⟨o,ho,hprevious,hpayload⟩ := h.operation
  refine ⟨s.plan,⟨?_,hholds.id,hholds.names,?_,?_,?_⟩,hstatus,fun f hf => ?_⟩
  · unfold Disk.planOf Disk.writePlan
    rw [hholds.id,operation?_modify _ ?_ rfl,ho]
    · rfl
    · exact fun _ => rfl
  · have hkeys := RowTable.map_modify (fun o : Operation C => o.operationId)
      (fun o => o.operationId = s.plan.operationId) (fun o => { o with plan := some s.plan })
      s.disk.operations fun _ _ _ => rfl
    exact hkeys ▸ h.ids
  · intro o' ho' hne q hq
    obtain ⟨before,hbefore,rfl⟩ := RowTable.mem_modify.mp ho'
    by_cases hid : before.operationId = s.plan.operationId
    · rw [if_pos (by simpa using hid)] at hne
      exact absurd (hid.trans hholds.id) hne
    · rw [if_neg (by simpa using hid)] at hne hq
      exact h.others before hbefore hne q hq
  · rw [live_writePlan,h.live,← hlive]
    exact hclean
  · refine (sameFile_writePlan t s.disk s.plan f.name).untouched ?_
    refine ⟨by rw [h.live],?_,?_,hflags f hf⟩
    · rw [previous_of ho,hprevious]
    · rw [payload_of ho]
      exact hpayload f.name (hholds.name_mem hf) List.not_mem_nil

theorem stageRestore_staged {evidence : Option ConversationEvidence} (hlive : d.live = t.original)
    (hids : (d.operations.map (·.operationId)).Nodup) (hclean : t.Clean d.live) :
    Triple good (fun s => s.disk = d)
      (stageRestore t.operationId (t.names.map fun n => (n,t.content n)) evidence)
      (stagePost fun s => t.Staged s.disk) := by
  refine Triple.get_bind fun s hs => Triple.ite (fun _ => Triple.raise fun _ _ => trivial)
    fun hidle => ?_
  have hidle : ∀ o ∈ d.operations, ∀ q, o.plan = some q → q.blocking = false :=
    readPlan_idle (by rw [← hs]; simpa using hidle)
  refine Triple.bind (fun _ => t.Copying (t.names.map fun n => (n,t.content n))) ?_ fun _ => ?_
  · refine Triple.get_bind fun s' hs' => Triple.ite (fun _ => Triple.raise fun _ _ => trivial)
      fun hfresh => Triple.operation ?_ (fun _ _ _ => trivial) fun _ _ _ => trivial
    intro s'' heq
    rw [heq]
    have hdisk : s'.disk = d := hs' ▸ hs
    exact newOperation_copying (hdisk ▸ hlive) (hdisk ▸ hids) (hdisk ▸ hidle) (by simpa using hfresh)
  refine Triple.handle (fun _ _ => True) ?_ fun fault => ?_
  · refine Triple.bind (fun _ => t.Copying (t.names.map fun n => (n,t.content n)))
      (Triple.operation (fun _ hs => hs) (fun _ _ _ => trivial) fun _ _ _ => trivial) fun _ => ?_
    refine Triple.bind (fun _ => t.Copying []) (Triple.forEach t.Copying
      (fun _ _ => copyPayload_copies) (fun _ hs => hs) _) fun _ => ?_
    refine Triple.bind (fun _ s => t.Copying [] s ∧ t.Holds s.plan ∧ s.plan.status = .staged ∧
      ∀ f ∈ s.plan.files, f.installed = false) (Triple.modify fun s hs => ?_) fun _ =>
        Triple.operation ?_ (fun _ _ _ => trivial) fun _ _ _ => trivial
    · refine ⟨⟨hs.live,hs.contents,hs.ids,hs.others,hs.operation⟩,⟨rfl,?_⟩,rfl,
        fun f hf => ?_⟩
      · simp [Function.comp_def]
      · obtain ⟨file,-,rfl⟩ := List.mem_map.mp hf
        rfl
    · rintro s ⟨hs,hholds,hstatus,hflags⟩
      exact hs.staged hclean hlive hholds hstatus hflags
  · refine Triple.bind (fun _ _ => True) ?_ fun _ => Triple.raise fun _ _ => trivial
    exact Triple.handle (fun _ _ => True) (Triple.operation (fun _ _ => trivial)
      (fun _ _ _ => trivial) fun _ _ _ => trivial) fun _ => Triple.pure fun _ _ => trivial

namespace RestoreEvent

def startup : RestoreEvent C → Bool
  | .apply .. | .confirm _ | .startupFailed _ => true
  | _ => false

end RestoreEvent

def Target.FencedCall (t : Target C) (d : Disk C) : RestoreEvent C → Prop
  | .apply .. => t.Fenced d
  | event => event.startup = true

lemma restoreStep_inv {event : RestoreEvent C} (hfenced : t.FencedCall d event) (h : t.Inv d) :
    t.Inv (restoreStep t.sqlite d event) := by
  have hall : ∀ faults : Faults (Process C), Allowed (fun _ _ => True) faults :=
    fun _ _ _ _ => trivial
  cases event with
  | stage | schedule | cancel => cases hfenced
  | apply drawn faults =>
    exact (applyPendingRestores_inv drawn).after ⟨h,hfenced⟩ (hall faults)
  | confirm faults => exact confirmRestore_inv.after h (hall faults)
  | startupFailed faults => exact markStartupFailure_inv.after h (hall faults)

end Memora.Backup

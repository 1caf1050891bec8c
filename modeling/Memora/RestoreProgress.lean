import Memora.RestoreLedger

/-! What a start keeps of the plan that it applies, wherever it is cut off. The property of plans is
a parameter: a status that is excluded, or the names of the files. -/
namespace Memora.Backup
open Restore

variable {C : Type} {plan : RestorePlan}

structure Steady (A : RestorePlan → Prop) : Prop where
  reason : ∀ q reasonCode, A q → A { q with reasonCode }
  applying : ∀ q, A q → A { q with status := .applying }
  install : ∀ q index progress installed, A q → q.files[index]? = some progress →
    installed.name = progress.name → A { q with files := q.files.set index installed }
  validating : ∀ q, A q → A
    { q with
      status := .validating
      files := q.files.map fun progress => { progress with validated := true } }

namespace Ledger

variable (L : Ledger) (id : String) (A : RestorePlan → Prop) (quiet : Prop)

/-- What a call on the plan under `id` leaves; without a fault the plan is through. -/
def Stopped (s : Process C) : Prop :=
  ∃ q, s.disk.plans = L.set q ∧ q.operationId = id ∧ A q ∧
  (quiet → q.status = .validating ∨ q.blocking = false)

structure Working (L : Ledger) (id : String) (A : RestorePlan → Prop) (s : Process C) :
    Prop where
  plans : ∃ q, s.disk.plans = L.set q ∧ q.operationId = id ∧ A q
  id : s.plan.operationId = id
  plan : A s.plan

def stopPost : Post (Process C) Fault Unit :=
  ⟨fun _ => L.Stopped id A quiet,fun _ => L.Stopped id A quiet,L.Stopped id A quiet⟩

def workPost {α : Type} (Q : α → Process C → Prop) : Post (Process C) Fault α :=
  ⟨Q,fun _ => L.Working id A,L.Stopped id A quiet⟩

def keepPost : Post (Process C) Fault Unit := L.workPost id A quiet fun _ => L.Working id A

variable {L : Ledger} {id : String} {A : RestorePlan → Prop} {quiet : Prop} {s : Process C}
    {p : RestorePlan}

lemma Working.stopped (h : L.Working id A s) (hfault : ¬quiet) : L.Stopped id A quiet s := by
  obtain ⟨q,hplans,hid,hstatus⟩ := h.plans
  exact ⟨q,hplans,hid,hstatus,fun hquiet => absurd hquiet hfault⟩

lemma Working.of_disk {s' : Process C} (h : L.Working id A s)
    (hplans : s'.disk.plans = s.disk.plans) (hplan : s'.plan = s.plan) : L.Working id A s' :=
  ⟨hplans ▸ h.plans,hplan ▸ h.id,hplan ▸ h.plan⟩

lemma Working.write (h : L.Working id A s) : (s.disk.writePlan s.plan).plans = L.set s.plan := by
  obtain ⟨q,hplans,hid,-⟩ := h.plans
  rw [plans_writePlan,hplans,set_set (hid.trans h.id.symm)]

lemma Working.planOf (h : L.Working id A s) (hp : s.disk.planOf id = some p) :
    p.operationId = id ∧ A p := by
  obtain ⟨q,hplans,hid,hstatus⟩ := h.plans
  have hmem := planOf_mem hp
  rw [hplans,mem_set] at hmem
  rcases hmem with ⟨-,heq⟩ | ⟨-,hne⟩
  · obtain rfl := Option.some.inj (Prod.mk.inj heq).2
    exact ⟨hid,hstatus⟩
  · exact absurd hid.symm hne

lemma Working.write_other (h : L.Working id A s) (hid : p.operationId = id) (hp : A p) :
    L.Working id A { s with disk := s.disk.writePlan p } := by
  obtain ⟨q,hplans,hq,-⟩ := h.plans
  refine ⟨⟨p,?_,hid,hp⟩,h.id,h.plan⟩
  rw [plans_writePlan,hplans,set_set (hq.trans hid.symm)]

lemma planOf_set {d : Disk C} {q : RestorePlan} (hids : (L.map Prod.fst).Nodup)
    (hmem : id ∈ L.map Prod.fst) (hplans : d.plans = L.set q) (hid : q.operationId = id) :
    d.planOf id = some q := by
  refine planOf_eq ?_ ?_
  · rw [hplans,ids_set]
    exact hids
  · rw [hplans]
    exact mem_set.mpr (.inl ⟨hmem,by rw [hid]⟩)

end Ledger

open Ledger

section Programs
variable {L : Ledger} {id : String} {A : RestorePlan → Prop} {quiet : Prop}
  {good : Process C → Fate → Prop}
  (hquiet : quiet → ∀ s fate, good s fate → fate = .ok)

include hquiet in
lemma not_quiet {s : Process C} {fate : Fate} (h : good s fate) (hfate : fate ≠ .ok) : ¬quiet :=
  fun hq => hfate (hquiet hq s fate h)

include hquiet in
lemma operation_same (e : Fault) {f : Disk C → Disk C} (hf : ∀ d, (f d).plans = d.plans)
    (plan : RestorePlan) : Triple good (fun s => L.Working id A s ∧ s.plan = plan)
      (Faulty.operation e fun s => { s with disk := f s.disk })
      (L.workPost id A quiet fun _ s => L.Working id A s ∧ s.plan = plan) := by
  refine Triple.operation ?_ ?_ ?_
  · exact fun s hs => ⟨hs.1.of_disk (hf s.disk) rfl,hs.2⟩
  · exact fun s hs _ => hs.1
  · exact fun s hs hcrash => hs.1.stopped (not_quiet hquiet hcrash (by decide))

include hquiet in
lemma operation_works (e : Fault) {f : Disk C → Disk C} (hf : ∀ d, (f d).plans = d.plans) :
    Triple good (L.Working id A) (Faulty.operation e fun s => { s with disk := f s.disk })
      (L.keepPost id A quiet) := by
  refine Triple.operation ?_ ?_ ?_
  · exact fun s hs => hs.of_disk (hf s.disk) rfl
  · exact fun s hs _ => hs
  · exact fun s hs hcrash => hs.stopped (not_quiet hquiet hcrash (by decide))

include hquiet in
lemma writePlan_works : Triple good (L.Working id A) writePlan (L.keepPost id A quiet) := by
  refine Triple.operation ?_ ?_ ?_
  · exact fun s hs => ⟨⟨s.plan,hs.write,hs.id,hs.plan⟩,hs.id,hs.plan⟩
  · exact fun s hs _ => hs
  · exact fun s hs hcrash => hs.stopped (not_quiet hquiet hcrash (by decide))

lemma check_works (result : Except Fault Unit) :
    Triple good (L.Working id A) (check result) (L.keepPost id A quiet) := by
  cases result with
  | ok _ => exact Triple.pure fun _ hs => hs
  | error fault => exact Triple.raise fun _ hs => hs

theorem get_works {α : Type} {f : Process C → Restore C α} {Q : Post (Process C) Fault α}
    (h : ∀ s, L.Working id A s → Triple good (L.Working id A) (f s) Q) :
    Triple good (L.Working id A) (Faulty.get >>= f) Q := by
  refine Triple.get_bind fun s hs => (h s hs).weaken ?_
  rintro _ rfl
  exact hs

include hquiet

lemma putPayload_works (operationId : String) (progress : RestoreFileProgress) (plan : RestorePlan) :
    Triple good (fun s => L.Working id A s ∧ s.plan = plan) (putPayload operationId progress)
      (L.workPost id A quiet fun installed s =>
        (L.Working id A s ∧ s.plan = plan) ∧ installed.name = progress.name) :=
  Triple.bind (fun _ s => L.Working id A s ∧ s.plan = plan)
    (operation_same hquiet .os (fun _ => plans_installPayload) plan) fun _ =>
      Triple.pure fun _ hs => ⟨hs,rfl⟩

lemma installRestoreFile_works (operationId : String) (progress : RestoreFileProgress)
    (plan : RestorePlan) : Triple good (fun s => L.Working id A s ∧ s.plan = plan)
      (installRestoreFile operationId progress) (L.workPost id A quiet fun installed s =>
        (L.Working id A s ∧ s.plan = plan) ∧ installed.name = progress.name) := by
  refine Triple.bind (fun _ s => L.Working id A s ∧ s.plan = plan)
    (operation_same hquiet .os (fun _ => rfl) plan) fun _ => Triple.get_bind fun s hs => ?_
  have hsame : ∀ t : Process C, t = s → L.Working id A t ∧ t.plan = plan := fun _ heq => heq ▸ hs
  refine Triple.ite (fun _ => Triple.raise fun t ht => (hsame t ht).1) fun _ => ?_
  refine Triple.ite (fun _ => Triple.raise fun t ht => (hsame t ht).1) fun _ => ?_
  refine Triple.ite (fun _ => ?_) fun _ => ?_
  · refine Triple.bind (fun _ s => L.Working id A s ∧ s.plan = plan) ?_ fun _ =>
      putPayload_works hquiet _ { progress with movedToPrevious := true } plan
    exact (operation_same hquiet .os (fun _ => plans_moveToPrevious) plan).weaken hsame
  · exact (putPayload_works hquiet _ progress plan).weaken hsame

variable (hA : Steady A)

include hA in
lemma installAt_works (index : ℕ) : Triple good (L.Working id A) (installAt index)
    (L.keepPost id A quiet) := by
  refine Triple.get_bind fun s hs => ?_
  have hsame : ∀ t : Process C, t = s → L.Working id A t := fun _ heq => heq ▸ hs
  cases hfile : s.plan.files[index]? with
  | none => exact Triple.pure fun t ht => hsame t ht
  | some progress =>
    refine Triple.ite (fun _ => Triple.pure fun t ht => hsame t ht) fun _ => ?_
    refine Triple.bind _ ((installRestoreFile_works hquiet _ progress s.plan).weaken ?_)
      fun installed => ?_
    · rintro _ rfl
      exact ⟨hs,rfl⟩
    refine Triple.bind (fun _ => L.Working id A) (Triple.modify ?_) fun _ =>
      writePlan_works hquiet
    rintro s' ⟨⟨hs',hplan⟩,hname⟩
    exact ⟨hs'.plans,hs'.id,hA.install s'.plan index progress installed hs'.plan (by rw [hplan,hfile]) hname⟩

include hA in
lemma installFiles_works : Triple good (L.Working id A) installFiles (L.keepPost id A quiet) :=
  get_works fun _ _ => Triple.forEach (fun _ => L.Working id A)
    (fun index _ => installAt_works hquiet hA index) (fun _ hs => hs) _

variable (sqlite : Sqlite C)

lemma openDatabase_works (name : String) :
    Triple good (L.Working id A) (openDatabase sqlite name) (L.keepPost id A quiet) :=
  operation_works hquiet .database (f := fun d => { d with live := sqlite.settled d.live name })
  fun _ => rfl

lemma validateFile_works (name : String) :
    Triple good (L.Working id A) (validateFile sqlite name) (L.keepPost id A quiet) := by
  refine get_works fun s _ => Triple.ite (fun _ => Triple.raise fun _ hs => hs) fun _ => ?_
  refine Triple.ite (fun _ => ?_) fun _ => Triple.pure fun _ hs => hs
  refine Triple.bind (fun _ => L.Working id A) (openDatabase_works hquiet sqlite name) fun _ => ?_
  refine get_works fun s _ => ?_
  cases s.disk.live.content? name with
  | none => exact Triple.raise fun _ hs => hs
  | some content => exact check_works _

lemma openReferenced_works : Triple good (L.Working id A) (openReferenced sqlite)
    (L.keepPost id A quiet) := by
  refine get_works fun s _ => Triple.ite (fun _ => Triple.pure fun _ hs => hs) fun _ => ?_
  refine Triple.bind (fun _ => L.Working id A) (openDatabase_works hquiet sqlite _) fun _ => ?_
  exact get_works fun s _ => check_works _

lemma openFeedback_works : Triple good (L.Working id A) (openFeedback sqlite)
    (L.keepPost id A quiet) := by
  refine get_works fun s _ => Triple.ite (fun _ => Triple.pure fun _ hs => hs) fun _ => ?_
  refine Triple.bind (fun _ => L.Working id A) (openDatabase_works hquiet sqlite _) fun _ => ?_
  exact get_works fun s _ => check_works _

lemma validateRestoredFiles_works :
    Triple good (L.Working id A) (validateRestoredFiles sqlite) (L.keepPost id A quiet) := by
  refine get_works fun s _ => Triple.bind (fun _ => L.Working id A) ?_ fun _ => ?_
  · exact Triple.forEach (fun _ => L.Working id A)
      (fun name _ => validateFile_works hquiet sqlite name) (fun _ hs => hs) _
  refine get_works fun s _ => Triple.bind (fun _ => L.Working id A) (check_works _) fun _ => ?_
  refine Triple.bind (fun _ => L.Working id A) (openDatabase_works hquiet sqlite _) fun _ => ?_
  refine Triple.bind (fun _ => L.Working id A) (openReferenced_works hquiet sqlite) fun _ => ?_
  exact openFeedback_works hquiet sqlite

lemma createPreRestoreBackup_works :
    Triple good (L.Working id A) (createPreRestoreBackup sqlite id) (L.keepPost id A quiet) := by
  refine get_works fun s hs => ?_
  cases hplan : s.disk.planOf id with
  | none => exact Triple.raise fun _ hs => hs
  | some plan =>
    obtain ⟨hid,hstatus⟩ := hs.planOf hplan
    refine Triple.ite (fun _ => Triple.pure fun _ hs => hs) fun _ => ?_
    refine Triple.bind (fun _ => L.Working id A) (openDatabase_works hquiet sqlite _) fun _ => ?_
    refine Triple.bind (fun _ => L.Working id A) (operation_works hquiet _ fun _ => rfl) fun _ => ?_
    refine get_works fun s _ => Triple.bind (fun _ => L.Working id A) (check_works _) fun _ => ?_
    refine Triple.operation ?_ ?_ ?_
    · exact fun s hs => hs.write_other hid hstatus
    · exact fun s hs _ => hs
    · exact fun s hs hcrash => hs.stopped (not_quiet hquiet hcrash (by decide))

include hA in
lemma beginApply_works : Triple good (L.Working id A) (beginApply sqlite)
    (L.keepPost id A quiet) := by
  refine get_works fun s hs => Triple.ite (fun _ => ?_) fun _ => Triple.pure fun _ hs => hs
  rw [hs.id]
  refine Triple.bind (fun _ => L.Working id A) (createPreRestoreBackup_works hquiet sqlite)
    fun _ => ?_
  refine Triple.bind (fun _ => L.Working id A) (Triple.modify fun s hs => ?_) fun _ => ?_
  · cases hplan : s.disk.planOf s.plan.operationId with
    | none => exact hs
    | some plan =>
      obtain ⟨hid,hp⟩ := hs.planOf (hs.id ▸ hplan)
      exact ⟨hs.plans,hid,hp⟩
  refine Triple.bind (fun _ => L.Working id A) (Triple.modify fun s hs => ?_) fun _ => ?_
  · exact ⟨hs.plans,hs.id,hA.applying s.plan hs.plan⟩
  refine Triple.bind (fun _ => L.Working id A) (writePlan_works hquiet) fun _ => ?_
  exact Triple.modify fun _ hs => ⟨hs.plans,hs.id,hs.plan⟩

include hA in
lemma finishApply_stopped : Triple good (L.Working id A) finishApply
      (L.workPost id A quiet fun _ => L.Stopped id A quiet) := by
  refine Triple.bind (fun _ s => L.Working id A s ∧ s.plan.status = .validating)
    (Triple.modify fun s hs => ?_) fun _ => Triple.operation ?_ ?_ ?_
  · exact ⟨⟨hs.plans,hs.id,hA.validating s.plan hs.plan⟩,rfl⟩
  · rintro s ⟨hs,hstatus⟩
    exact ⟨s.plan,hs.write,hs.id,hs.plan,fun _ => .inl hstatus⟩
  · exact fun s hs _ => hs.1
  · exact fun s hs hcrash => hs.1.stopped (not_quiet hquiet hcrash (by decide))

include hA in
lemma applyPlan_stopped : Triple good (L.Working id A) (applyPlan sqlite)
      (L.workPost id A quiet fun _ => L.Stopped id A quiet) :=
  Triple.bind (fun _ => L.Working id A) (beginApply_works hquiet hA sqlite) fun _ =>
    Triple.bind (fun _ => L.Working id A) (installFiles_works hquiet hA) fun _ =>
      Triple.bind (fun _ => L.Working id A) (validateRestoredFiles_works hquiet sqlite) fun _ =>
        finishApply_stopped hquiet hA

section
variable (hrollback : Triple good (L.Working id A) rollbackRestoreFiles (L.stopPost id A quiet))
  (hfailed : ∀ q, A q → A { q with status := .failedBeforeApply })
include hA hrollback hfailed

lemma applyFailed_stopped (fault : Fault) :
    Triple good (L.Working id A) (applyFailed fault) (L.stopPost id A quiet) := by
  refine Triple.bind (fun _ => L.Working id A) (Triple.modify fun s hs => ?_) fun _ => ?_
  · exact ⟨hs.plans,hs.id,hA.reason s.plan _ hs.plan⟩
  refine get_works fun s _ => Triple.ite (fun _ => ?_) fun _ => ?_
  · refine Triple.bind (fun _ s => L.Working id A s ∧ s.plan.status = .failedBeforeApply)
      (Triple.modify fun s hs => ⟨⟨hs.plans,hs.id,hfailed s.plan hs.plan⟩,rfl⟩) fun _ =>
        Triple.operation ?_ ?_ ?_
    · rintro s ⟨hs,hstatus⟩
      refine ⟨s.plan,hs.write,hs.id,hs.plan,fun _ => .inr ?_⟩
      rw [RestorePlan.blocking,hstatus]
      rfl
    · exact fun s hs hfails => hs.1.stopped (not_quiet hquiet hfails (by decide))
    · exact fun s hs hcrash => hs.1.stopped (not_quiet hquiet hcrash (by decide))
  · refine Triple.handle (fun _ => L.Stopped id A quiet) hrollback fun raised => ?_
    cases raised with
    | operation code => exact Triple.pure fun _ hs => hs
    | os | database => exact Triple.raise fun _ hs => hs

theorem applyFound_stopped (hid : plan.operationId = id) (hplan : A plan)
    (hhandled : quiet → plan.status ≠ .rollingBack) :
    Triple good (fun s => s.disk.plans = L.set plan) (applyFound sqlite plan)
    (L.stopPost id A quiet) := by
  refine Triple.bind (fun _ s => L.Working id A s ∧ s.disk.plans = L.set plan)
    (Triple.modify fun s hs => ⟨⟨⟨plan,hs,hid,hplan⟩,hid,hplan⟩,hs⟩) fun _ => ?_
  refine Triple.ite (fun _ => ?_) fun hpending => Triple.ite (fun _ => ?_) fun hother => ?_
  · exact hrollback.weaken fun _ hs => hs.1
  · refine Triple.handle (fun _ => L.Working id A) ?_ (applyFailed_stopped hquiet hA hrollback hfailed)
    exact (applyPlan_stopped hquiet hA sqlite).weaken fun _ hs => hs.1
  · refine Triple.pure fun s hs => ⟨plan,hs.2,hid,hplan,fun hq => .inr ?_⟩
    have hhandled := hhandled hq
    -- what is left are the finished statuses
    unfold RestorePlan.blocking
    cases hcase : plan.status <;> simp [hcase] at hpending hother hhandled <;> rfl

end

end Programs

lemma applyFound_idle {good : Process C → Fate → Prop} (sqlite : Sqlite C)
    (hidle : plan.blocking = false) (P : Disk C → Prop) :
    Triple good (fun s => P s.disk) (applyFound sqlite plan)
      ⟨fun _ s => P s.disk,fun _ s => P s.disk,fun s => P s.disk⟩ := by
  refine Triple.bind (fun _ s => P s.disk) (Triple.modify fun _ hs => hs) fun _ => ?_
  refine Triple.ite (fun hstatus => ?_) fun _ => Triple.ite (fun hstatus => ?_) fun _ => ?_
  · rw [RestorePlan.blocking,hstatus] at hidle
    cases hidle
  · rcases hstatus with hstatus | hstatus | hstatus | hstatus <;>
      rw [RestorePlan.blocking,hstatus] at hidle <;> cases hidle
  · exact Triple.pure fun _ hs => hs

end Memora.Backup

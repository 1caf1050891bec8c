import Memora.RestoreProgress

/-! Which statuses a call may leave on disk, wherever it is cut off. A rollback that begins says so
on disk first, and no start handles that status. -/
namespace Memora.Backup
open Restore Ledger

variable {C : Type}

def Calm (s : Process C) (fate : Fate) : Prop :=
  ∀ q, s.disk.planOf s.plan.operationId = some q → q.status = .rollingBack →
    fate ≠ .crashes ∧ (s.plan.status = .rollbackPending → fate = .ok)

def Handled (plan : RestorePlan) : Prop := plan.status ≠ .rollingBack

lemma steady_handled : Steady Handled where
  reason := fun _ _ h => h
  applying := fun _ _ => by simp [Handled]
  install := fun _ _ _ _ h _ _ => h
  validating := fun _ _ => by simp [Handled]

namespace Ledger

structure Rolling (L : Ledger) (id : String) (s : Process C) : Prop where
  plans : ∃ q, s.disk.plans = L.set q ∧ q.operationId = id ∧ q.status = .rollingBack
  id : s.plan.operationId = id

variable {L : Ledger} {id : String} {s : Process C}

lemma Rolling.write (h : L.Rolling id s) : (s.disk.writePlan s.plan).plans = L.set s.plan := by
  obtain ⟨q,hplans,hid,-⟩ := h.plans
  rw [plans_writePlan,hplans,set_set (hid.trans h.id.symm)]

lemma Rolling.calm (h : L.Rolling id s) (hids : (L.map Prod.fst).Nodup)
    (hmem : id ∈ L.map Prod.fst) {fate : Fate} (hcalm : Calm s fate) :
    fate ≠ .crashes ∧ (s.plan.status = .rollbackPending → fate = .ok) := by
  obtain ⟨q,hplans,hid,hstatus⟩ := h.plans
  exact hcalm q (h.id ▸ planOf_set hids hmem hplans hid) hstatus

lemma Rolling.of_disk {s' : Process C} (h : L.Rolling id s)
    (hplans : s'.disk.plans = s.disk.plans) (hplan : s'.plan = s.plan) : L.Rolling id s' :=
  ⟨hplans ▸ h.plans,hplan ▸ h.id⟩

end Ledger

section Rollback
variable {L : Ledger} {id : String} {quiet : Prop} {good : Process C → Fate → Prop}
  (hquiet : quiet → ∀ s fate, good s fate → fate = .ok)
  (hcalm : ∀ s fate, good s fate → Calm s fate)
  (hids : (L.map Prod.fst).Nodup) (hmem : id ∈ L.map Prod.fst)

/-- What a rollback raises before its handler. -/
def Ledger.rollPost (L : Ledger) (id : String) (quiet : Prop) (Q : Process C → Prop) :
    Post (Process C) Fault Unit :=
  ⟨fun _ => Q,fun e s => e = .os ∧ L.Rolling id s ∧ ¬quiet,L.Stopped id Handled quiet⟩

include hquiet hcalm hids hmem

lemma fileOperation_rolling {f : Disk C → Disk C} (hf : ∀ d, (f d).plans = d.plans) :
    Triple good (L.Rolling id) (fileOperation f) (L.rollPost id quiet (L.Rolling id)) := by
  refine Triple.operation ?_ ?_ ?_
  · exact fun s hs => hs.of_disk (hf s.disk) rfl
  · exact fun s hs hfails => ⟨rfl,hs,not_quiet hquiet hfails (by decide)⟩
  · exact fun s hs hcrash => absurd rfl (hs.calm hids hmem (hcalm s _ hcrash)).1

lemma rollbackFile_rolling (operationId : String) (progress : RestoreFileProgress) :
    Triple good (L.Rolling id) (rollbackFile operationId progress)
    (L.rollPost id quiet (L.Rolling id)) := by
  have hkeep : ∀ {f : Disk C → Disk C}, (∀ d, (f d).plans = d.plans) →
      Triple good (L.Rolling id) (fileOperation f) (L.rollPost id quiet (L.Rolling id)) :=
    fileOperation_rolling hquiet hcalm hids hmem
  refine Triple.get_bind fun s hs => ?_
  suffices hrolling : Triple good (L.Rolling id) _ (L.rollPost id quiet (L.Rolling id)) from
    hrolling.weaken fun _ heq => heq ▸ hs
  refine Triple.ite (fun _ => Triple.ite (fun _ => ?_) fun _ => ?_) fun _ =>
    Triple.ite (fun _ => ?_) fun _ => ?_
  · exact Triple.bind (fun _ => L.Rolling id) (hkeep fun _ => plans_unlinkLive) fun _ =>
      hkeep fun _ => plans_moveBack
  · exact hkeep fun _ => plans_moveBack
  · exact hkeep fun _ => plans_unlinkLive
  · exact Triple.pure fun _ hs => hs

omit hquiet in
lemma rollbackFailed_stopped (fault : Fault) :
    Triple good (fun s => fault = .os ∧ L.Rolling id s ∧ ¬quiet) (rollbackFailed fault)
      (L.stopPost id Handled quiet) := by
  cases fault with
  | os =>
    refine Triple.bind (fun _ s => (L.Rolling id s ∧ ¬quiet) ∧ s.plan.status = .rollbackPending)
      (Triple.modify fun s hs => ⟨⟨⟨hs.2.1.plans,hs.2.1.id⟩,hs.2.2⟩,rfl⟩) fun _ => ?_
    refine Triple.bind (fun _ => L.Stopped id Handled quiet) (Triple.operation ?_ ?_ ?_) fun _ =>
      Triple.raise fun _ hs => hs
    · rintro s ⟨⟨hs,hfault⟩,hstatus⟩
      refine ⟨s.plan,hs.write,hs.id,?_,fun hq => absurd hq hfault⟩
      simp [Handled,hstatus]
    · rintro s ⟨⟨hs,-⟩,hstatus⟩ hfails
      exact absurd ((hs.calm hids hmem (hcalm s _ hfails)).2 hstatus) (by decide)
    · rintro s ⟨⟨hs,-⟩,-⟩ hcrash
      exact absurd rfl (hs.calm hids hmem (hcalm s _ hcrash)).1
  | database | operation => exact Triple.vacuous fun s hs => by cases hs.1

lemma rollbackRestoreFiles_stopped :
    Triple good (L.Working id Handled) rollbackRestoreFiles (L.stopPost id Handled quiet) := by
  refine Triple.bind (fun _ s => s.plan.status = .rollingBack ∧ s.plan.operationId = id ∧
    ∃ q, s.disk.plans = L.set q ∧ q.operationId = id ∧ Handled q)
    (Triple.modify fun s hs => ⟨rfl,hs.id,hs.plans⟩) fun _ => ?_
  refine Triple.bind (fun _ => L.Rolling id) (Triple.operation ?_ ?_ ?_) fun _ => ?_
  · rintro s ⟨hstatus,hid,q,hplans,hq,-⟩
    refine ⟨⟨s.plan,?_,hid,hstatus⟩,hid⟩
    rw [plans_writePlan,hplans,set_set (hq.trans hid.symm)]
  · rintro s ⟨-,-,q,hplans,hq,hstatus⟩ hfails
    exact ⟨q,hplans,hq,hstatus,fun h => absurd h (not_quiet hquiet hfails (by decide))⟩
  · rintro s ⟨-,-,q,hplans,hq,hstatus⟩ hcrash
    exact ⟨q,hplans,hq,hstatus,fun h => absurd h (not_quiet hquiet hcrash (by decide))⟩
  · refine Triple.get_bind fun s hs => Triple.handle (fun e s => e = .os ∧ L.Rolling id s ∧ ¬quiet) ?_
      (rollbackFailed_stopped hcalm hids hmem)
    refine Triple.bind (fun _ => L.Rolling id) ?_ fun _ => ?_
    · refine (Triple.forEach (fun _ => L.Rolling id)
        (fun f _ => rollbackFile_rolling hquiet hcalm hids hmem _ f) (fun _ h => h) _).weaken ?_
      rintro _ rfl
      exact hs
    · refine Triple.bind (fun _ s => L.Rolling id s ∧ s.plan.status = .rolledBack)
        (Triple.modify fun s hs => ⟨⟨hs.plans,hs.id⟩,rfl⟩) fun _ => Triple.operation ?_ ?_ ?_
      · rintro s ⟨hs,hstatus⟩
        refine ⟨s.plan,hs.write,hs.id,?_,fun _ => .inr ?_⟩
        · simp [Handled,hstatus]
        · rw [RestorePlan.blocking,hstatus]
          rfl
      · rintro s ⟨hs,-⟩ hfails
        exact ⟨rfl,hs,not_quiet hquiet hfails (by decide)⟩
      · rintro s ⟨hs,-⟩ hcrash
        exact absurd rfl (hs.calm hids hmem (hcalm s _ hcrash)).1

lemma applyFound_handled (sqlite : Sqlite C) {plan : RestorePlan} (hid : plan.operationId = id)
    (hplan : Handled plan) : Triple good (fun s => s.disk.plans = L.set plan)
    (applyFound sqlite plan)
      (L.stopPost id Handled quiet) :=
  applyFound_stopped hquiet steady_handled sqlite
    (rollbackRestoreFiles_stopped hquiet hcalm hids hmem) (fun _ _ => by simp [Handled]) hid hplan
    fun _ => hplan

end Rollback

end Memora.Backup

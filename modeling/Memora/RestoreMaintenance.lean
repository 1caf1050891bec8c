import Memora.RestoreStatuses
import Memora.RestoreOutcomes

/-! Whatever calls have been made and wherever they were cut off, one start and one confirmation
end a block, and a finished plan stays finished. -/
namespace Memora.Backup
open Restore RunLaws Ledger

variable {C : Type} {drawn : String} {d : Disk C} {sqlite : Sqlite C}

namespace Ledger

structure Ended (L : Ledger) (quiet : Prop) (s : Process C) : Prop where
  orderly : s.disk.plans.Orderly
  kept : L.Kept s.disk.plans
  settled : quiet → s.disk.plans.Settled

def endPost (L : Ledger) (quiet : Prop) : Post (Process C) Fault Unit :=
  ⟨fun _ => L.Ended quiet,fun _ => L.Ended quiet,L.Ended quiet⟩

variable {L L' : Ledger} {id : String} {quiet : Prop} {s : Process C}

lemma Opened.ended (h : L.Opened L' id) (hs : L'.Stopped id Handled quiet s) :
    L.Ended quiet s := by
  obtain ⟨q,hplans,hid,hstatus,hthrough⟩ := hs
  refine ⟨?_,?_,fun hq => ?_⟩ <;> rw [hplans]
  · exact h.orderly_set hid hstatus
  · exact h.kept_set hid
  · exact h.settled_set hid (hthrough hq)

lemma Orderly.ended (h : L.Orderly) (hs : s.disk.plans = L) (hthrough : quiet → L.Settled) :
    L.Ended quiet s := by
  subst hs
  exact ⟨h,Kept.refl _,hthrough⟩

lemma SamePlans.ended (h : L.SamePlans s.disk.plans) (hL : L.Orderly) (hidle : L.Idle) :
    L.Ended quiet s :=
  ⟨h.orderly hL,h.kept,fun _ => (h.idle hidle).settled⟩

structure Fresh (L : Ledger) (id : String) (s : Process C) : Prop where
  same : L.SamePlans s.disk.plans
  mem : id ∈ s.disk.plans.map Prod.fst
  free : ∀ q, (id,some q) ∉ L

lemma Fresh.of_disk {s' : Process C} (h : L.Fresh id s) (hplans : s'.disk.plans = s.disk.plans) :
    L.Fresh id s' :=
  ⟨hplans ▸ h.same,hplans ▸ h.mem,h.free⟩

lemma Fresh.opened (h : L.Fresh id s) (hL : L.Orderly) (hidle : L.Idle) : L.Opened s.disk.plans id :=
  h.same.opened hL hidle h.mem h.free

lemma Fresh.stopped (h : L.Fresh id s) (hL : L.Orderly) (hidle : L.Idle)
    (hid : s.plan.operationId = id) (hstatus : s.plan.status ≠ .rollingBack) :
    L.Ended False { s with disk := s.disk.writePlan s.plan } := by
  refine (h.opened hL hidle).ended ⟨s.plan,plans_writePlan,hid,hstatus,?_⟩
  exact fun hfalse => hfalse.elim

end Ledger

section Calls
variable {d : Disk C} {good : Process C → Fate → Prop}

lemma makeOperation_fresh (hL : d.plans.Orderly) (drawn : String) :
    Triple good (fun s => s.disk = d) (makeOperation drawn)
      ⟨fun _ => d.plans.Fresh drawn,fun _ s => s.disk = d,fun s => s.disk = d⟩ := by
  refine Triple.get_bind fun s hs => Triple.ite (fun _ => ?_) fun hfree => ?_
  · refine Triple.raise ?_
    rintro _ rfl
    exact hs
  · subst hs
    have hfree : s.disk.operation? drawn = none := by simpa using hfree
    obtain ⟨hsame,hmem,hfresh⟩ := samePlans_newOperation hL.ids hfree
    refine Triple.operation ?_ ?_ ?_
    · rintro _ rfl
      exact ⟨hsame,hmem,hfresh⟩
    · rintro _ rfl _
      rfl
    · rintro _ rfl _
      rfl

lemma fileOperation_fresh {f : Disk C → Disk C} (hf : ∀ d, (f d).plans = d.plans) :
    Triple good (d.plans.Fresh drawn) (fileOperation f)
      ⟨fun _ => d.plans.Fresh drawn,fun _ => d.plans.Fresh drawn,d.plans.Fresh drawn⟩ := by
  refine Triple.operation ?_ ?_ ?_
  · exact fun s hs => hs.of_disk (hf s.disk)
  · exact fun s hs _ => hs
  · exact fun s hs _ => hs

lemma removeTree_same : Triple good (d.plans.Fresh drawn) (removeTree (removeOperation drawn))
      ⟨fun _ s => d.plans.SamePlans s.disk.plans,fun _ s => d.plans.SamePlans s.disk.plans,
        fun s => d.plans.SamePlans s.disk.plans⟩ := by
  refine Triple.handle (fun _ s => d.plans.SamePlans s.disk.plans) (Triple.operation ?_ ?_ ?_)
    fun _ => Triple.pure fun _ hs => hs
  · intro s hs
    have hfree : ∀ q, (drawn,some q) ∉ s.disk.plans :=
      fun q hq => hs.free q ((hs.same.mem drawn q).mp hq)
    have hremoved := samePlans_removeOperation hs.same.ids hfree
    exact ⟨hremoved.ids,fun id q => (hremoved.mem id q).trans (hs.same.mem id q)⟩
  · exact fun s hs _ => hs.same
  · exact fun s hs _ => hs.same

lemma stageRestore_ended (hL : d.plans.Orderly) (drawn : String) (files : List (String × C))
    (evidence : Option ConversationEvidence) :
    Triple good (fun s => s.disk = d) (stageRestore drawn files evidence)
    (d.plans.endPost False) := by
  refine Triple.get_bind fun s hs => Triple.ite (fun _ => ?_) fun hblocked => ?_
  · refine Triple.raise ?_
    rintro _ rfl
    exact hL.ended (by rw [hs]) fun hfalse => hfalse.elim
  have hidle : d.plans.Idle := by
    rw [← blocked_eq_false,← hs]
    simpa [Disk.blocked] using hblocked
  have hsame : ∀ s : Process C, s.disk = d → d.plans.Ended False s := by
    rintro _ rfl
    exact hL.ended rfl fun hfalse => hfalse.elim
  refine Triple.bind (fun _ => d.plans.Fresh drawn) ?_ fun _ => ?_
  · refine (makeOperation_fresh hL drawn).consequence ?_ (fun _ _ h => h) (fun _ => hsame) hsame
    rintro _ rfl
    exact hs
  refine Triple.handle (fun _ => d.plans.Fresh drawn) ?_ fun fault => ?_
  · have hended : ∀ s : Process C, d.plans.Fresh drawn s → d.plans.Ended False s :=
      fun _ hs => hs.same.ended hL hidle
    refine Triple.bind (fun _ => d.plans.Fresh drawn) ?_ fun _ => ?_
    · exact (fileOperation_fresh fun _ => rfl).consequence (fun _ h => h) (fun _ _ h => h)
        (fun _ _ h => h) hended
    refine Triple.bind (fun _ => d.plans.Fresh drawn) ?_ fun _ => ?_
    · refine Triple.forEach (fun _ => d.plans.Fresh drawn) (fun file _ => ?_) (fun _ h => h) files
      exact (fileOperation_fresh fun _ => plans_copyPayload file).consequence (fun _ h => h)
        (fun _ _ h => h) (fun _ _ h => h) hended
    refine Triple.bind (fun _ s => d.plans.Fresh drawn s ∧ s.plan.operationId = drawn ∧
      s.plan.status = .staged) (Triple.modify fun s hs => ⟨hs.of_disk rfl,rfl,rfl⟩) fun _ =>
        Triple.operation ?_ ?_ ?_
    · rintro s ⟨hs,hid,hstatus⟩
      exact hs.stopped hL hidle hid (by rw [hstatus]; decide)
    · exact fun s hs _ => hs.1
    · exact fun s hs _ => hended s hs.1
  · have hended : ∀ s : Process C, d.plans.SamePlans s.disk.plans → d.plans.Ended False s :=
      fun _ hs => hs.ended hL hidle
    refine Triple.bind (fun _ s => d.plans.SamePlans s.disk.plans) ?_ fun _ =>
      Triple.raise hended
    exact removeTree_same.consequence (fun _ h => h) (fun _ _ h => h) (fun _ => hended) hended

def Ledger.migratePost (L : Ledger) (drawn : String) : Post (Process C) Fault (Option RestorePlan) :=
  ⟨fun migrated s => migrated.elim (L.SamePlans s.disk.plans) fun plan =>
      plan.operationId = drawn ∧ plan.status = .staged ∧
        ∃ L', L.Opened L' drawn ∧ s.disk.plans = L'.set plan,
    fun _ s => L.SamePlans s.disk.plans,fun s => L.SamePlans s.disk.plans⟩

lemma firstPlan_opens (hL : d.plans.Orderly) (hidle : d.plans.Idle)
    {plan : RestorePlan} (hid : plan.operationId = drawn) (hstatus : plan.status = .staged) :
    Triple good (d.plans.Fresh drawn)
      (setPlan (fun _ => plan) >>= fun _ => writePlan >>= fun _ => pure (some plan))
      (d.plans.migratePost drawn) := by
  refine Triple.bind (fun _ s => d.plans.Fresh drawn s ∧ s.plan = plan)
    (Triple.modify fun s hs => ⟨hs.of_disk rfl,rfl⟩) fun _ => ?_
  refine Triple.bind (fun _ s => ∃ L, d.plans.Opened L drawn ∧ s.disk.plans = L.set plan)
    (Triple.operation ?_ ?_ ?_) fun _ => Triple.pure fun _ hs => ⟨hid,hstatus,hs⟩
  · rintro s ⟨hs,rfl⟩
    exact ⟨s.disk.plans,hs.opened hL hidle,plans_writePlan⟩
  · exact fun s hs _ => hs.1.same
  · exact fun s hs _ => hs.1.same

lemma migrateLegacyRestoreFiles_opens (hL : d.plans.Orderly) (hidle : d.plans.Idle)
    (drawn : String) :
    Triple good (fun s => s.disk = d) (migrateLegacyRestoreFiles drawn)
    (d.plans.migratePost drawn) := by
  have hsame : ∀ s : Process C, s.disk = d → d.plans.SamePlans s.disk.plans := by
    rintro _ rfl
    exact ⟨hL.ids,fun _ _ => Iff.rfl⟩
  refine Triple.get_bind fun s hs => Triple.ite (fun _ => ?_) fun _ => ?_
  · refine Triple.pure ?_
    rintro _ rfl
    exact hsame _ hs
  refine Triple.bind (fun _ => d.plans.Fresh drawn) ?_ fun _ => ?_
  · refine (makeOperation_fresh hL drawn).consequence ?_ (fun _ _ h => h) (fun _ => hsame) hsame
    rintro _ rfl
    exact hs
  refine Triple.bind (fun _ => d.plans.Fresh drawn) ?_ fun _ => Triple.ite (fun _ => ?_) fun _ => ?_
  · refine Triple.forEach (fun _ => d.plans.Fresh drawn) (fun name _ => ?_) (fun _ h => h) _
    exact (fileOperation_fresh fun _ => plans_moveLegacy).consequence (fun _ h => h)
      (fun _ _ h => h) (fun _ _ h => h.same) fun _ h => h.same
  · exact Triple.bind (fun _ s => d.plans.SamePlans s.disk.plans) removeTree_same fun _ =>
      Triple.pure fun _ hs => hs
  · exact firstPlan_opens hL hidle rfl rfl

section Apply
variable {quiet : Prop} (hquiet : quiet → ∀ s fate, good s fate → fate = .ok)
  (hcalm : ∀ s fate, good s fate → Calm s fate) (sqlite : Sqlite C)
include hquiet hcalm

lemma applyPendingRestores_ended (hL : d.plans.Orderly) (drawn : String) :
    Triple good (fun s => s.disk = d) (applyPendingRestores sqlite drawn)
    (d.plans.endPost quiet) := by
  refine Triple.bind (fun _ s => s.disk = d) (Triple.operation ?_ ?_ ?_) fun _ =>
    Triple.get_bind fun s hs => ?_
  · exact fun s hs => hs
  · exact fun s hs hfails => hL.ended (by rw [hs]) fun h =>
      absurd h (not_quiet hquiet hfails (by decide))
  · exact fun s hs hcrash => hL.ended (by rw [hs]) fun h =>
      absurd h (not_quiet hquiet hcrash (by decide))
  subst hs
  rcases readPlan_cases s.disk with ⟨hnone,hempty⟩ | ⟨id,plan,hread,hmem,hcase⟩
  · rw [hnone]
    have hidle : s.disk.plans.Idle := fun id q hq => absurd hq (hempty id q)
    have hended : ∀ s' : Process C, s.disk.plans.SamePlans s'.disk.plans →
        s.disk.plans.Ended quiet s' := fun _ hs' => hs'.ended hL hidle
    refine Triple.bind _ ((migrateLegacyRestoreFiles_opens hL hidle drawn).consequence ?_
      (fun _ _ h => h) (fun _ => hended) hended) fun migrated => ?_
    · rintro _ rfl
      rfl
    · cases migrated with
      | none => exact Triple.pure hended
      | some plan =>
        intro s' faults hs' hgood
        obtain ⟨hid,hstatus,L,hopened,hplans⟩ := hs'
        refine ((applyFound_handled hquiet hcalm hopened.ids hopened.mem sqlite hid ?_).consequence
          (fun _ h => h) (fun _ _ h => hopened.ended h) (fun _ _ h => hopened.ended h)
            fun _ h => hopened.ended h) s' faults hplans hgood
        simp [Handled,hstatus]
  · rw [hread]
    rcases hcase with hblocking | hidle
    · have hopened := hL.opened hmem hblocking
      refine (applyFound_handled hquiet hcalm hL.ids hopened.mem sqlite (hL.own id plan hmem)
        (hL.handled id plan hmem)).consequence ?_ (fun _ _ h => hopened.ended h)
          (fun _ _ h => hopened.ended h) fun _ h => hopened.ended h
      rintro _ rfl
      exact (hL.set_eq hmem).symm
    · by_cases hblocking : plan.blocking = true
      · exact absurd (hidle id plan hmem) (by simp [hblocking])
      have hsame : ∀ s' : Process C, s'.disk.plans = s.disk.plans → s.disk.plans.Ended quiet s' :=
        fun _ hs' => hL.ended hs' fun _ => hidle.settled
      refine (applyFound_idle sqlite (by simpa using hblocking)
        (fun d' => d'.plans = s.disk.plans)).consequence ?_ (fun _ => hsame) (fun _ => hsame) hsame
      rintro _ rfl
      rfl

end Apply

lemma rewrite_plans (plan : RestorePlan) :
    Triple good (fun s => s.disk = d) (setPlan (fun _ => plan) >>= fun _ => writePlan)
      ⟨fun _ s => s.disk.plans = d.plans.set plan,fun _ s => s.disk = d,fun s => s.disk = d⟩ := by
  refine Triple.bind (fun _ s => s.disk = d ∧ s.plan = plan)
    (Triple.modify fun s hs => ⟨hs,rfl⟩) fun _ => Triple.operation ?_ ?_ ?_
  · rintro s ⟨rfl,rfl⟩
    exact plans_writePlan
  · exact fun s hs _ => hs.1
  · exact fun s hs _ => hs.1

lemma clearOperation_plans (id : String) (L : Ledger) :
    Triple good (fun s => s.disk.plans = L) (clearOperation id)
      ⟨fun _ s => s.disk.plans = L,fun _ s => s.disk.plans = L,fun s => s.disk.plans = L⟩ := by
  have hremove : ∀ f : Disk C → Disk C, (∀ d, (f d).plans = d.plans) →
      Triple good (fun s => s.disk.plans = L) (removeTree f)
        ⟨fun _ s => s.disk.plans = L,fun _ s => s.disk.plans = L,fun s => s.disk.plans = L⟩ := by
    intro f hf
    refine Triple.handle (fun _ s => s.disk.plans = L) (Triple.operation ?_ ?_ ?_) fun _ =>
      Triple.pure fun _ hs => hs
    · exact fun s hs => (hf s.disk).trans hs
    · exact fun s hs _ => hs
    · exact fun s hs _ => hs
  refine Triple.bind (fun _ s => s.disk.plans = L) (hremove _ fun d => ?_) fun _ =>
    hremove _ fun d => ?_
  · exact plans_modifyOperation (fun _ => rfl) fun _ => rfl
  · exact plans_modifyOperation (fun _ => rfl) fun _ => rfl

def FinishedPlan (d : Disk C) (plan : RestorePlan) (quiet : Prop) (s : Process C) : Prop :=
  (s.disk.plans = d.plans ∧ ¬quiet) ∨ s.disk.plans = d.plans.set plan

lemma finishPlan {quiet : Prop} (hquiet : quiet → ∀ s fate, good s fate → fate = .ok)
    (plan : RestorePlan) (id : String) : Triple good (fun s => s.disk = d)
      (setPlan (fun _ => plan) >>= fun _ => writePlan >>= fun _ => clearOperation id)
      ⟨fun _ => FinishedPlan d plan quiet,fun _ => FinishedPlan d plan quiet,
        FinishedPlan d plan quiet⟩ := by
  refine Triple.bind (fun _ s => s.disk = d ∧ s.plan = plan) (Triple.modify fun s hs => ⟨hs,rfl⟩)
    fun _ => ?_
  refine Triple.bind (fun _ s => s.disk.plans = d.plans.set plan) (Triple.operation ?_ ?_ ?_)
    fun _ => ?_
  · rintro s ⟨rfl,rfl⟩
    exact plans_writePlan
  · exact fun s hs hfails => .inl ⟨by rw [hs.1],not_quiet hquiet hfails (by decide)⟩
  · exact fun s hs hcrash => .inl ⟨by rw [hs.1],not_quiet hquiet hcrash (by decide)⟩
  · exact (clearOperation_plans id _).consequence (fun _ h => h) (fun _ _ => .inr)
      (fun _ _ => .inr) fun _ => .inr

lemma rewrite_ended (hL : d.plans.Orderly) {id : String} {old plan : RestorePlan}
    (hmem : (id,some old) ∈ d.plans) (hblocking : old.blocking = true)
    (hid : plan.operationId = id) (hstatus : plan.status ≠ .rollingBack) :
    Triple good (fun s => s.disk = d) (setPlan (fun _ => plan) >>= fun _ => writePlan)
      (d.plans.endPost False) := by
  have hsame : ∀ s : Process C, s.disk = d → d.plans.Ended False s := by
    rintro _ rfl
    exact hL.ended rfl fun hfalse => hfalse.elim
  refine (rewrite_plans plan).consequence (fun _ h => h) (fun _ s hs => ?_) (fun _ => hsame) hsame
  exact (hL.opened hmem hblocking).ended ⟨plan,hs,hid,hstatus,fun hfalse => hfalse.elim⟩

lemma markReloadScheduled_ended (hL : d.plans.Orderly) {id : String} (scheduled : Bool)
    (hblocking : ∀ plan, d.planOf id = some plan → plan.blocking = true) :
    Triple good (fun s => s.disk = d) (markReloadScheduled id scheduled)
    (d.plans.endPost False) := by
  refine Triple.get_bind fun s hs => ?_
  subst hs
  cases hplan : s.disk.planOf id with
  | none =>
    refine Triple.raise ?_
    rintro _ rfl
    exact hL.ended rfl fun hfalse => hfalse.elim
  | some plan =>
    have hmem := planOf_mem hplan
    refine (rewrite_ended hL hmem (hblocking plan hplan) ?_ ?_).weaken ?_
    · cases scheduled <;> exact hL.own id plan hmem
    · cases scheduled <;> simp
    · rintro _ rfl
      rfl

lemma cancelRestore_ended (hL : d.plans.Orderly) (id : String) :
    Triple good (fun s => s.disk = d) (cancelRestore id) (d.plans.endPost False) := by
  have hsame : ∀ s : Process C, s.disk = d → d.plans.Ended False s := by
    rintro _ rfl
    exact hL.ended rfl fun hfalse => hfalse.elim
  refine Triple.get_bind fun s hs => ?_
  subst hs
  cases hplan : s.disk.planOf id with
  | none =>
    refine Triple.raise ?_
    rintro _ rfl
    exact hsame _ rfl
  | some plan =>
    refine Triple.ite (fun _ => Triple.raise ?_) fun hstaged => ?_
    · rintro _ rfl
      exact hsame _ rfl
    have hmem := planOf_mem hplan
    have hblocking : plan.blocking = true := by
      rw [RestorePlan.blocking,not_not.mp hstaged]
      rfl
    have hended : ∀ s' : Process C, FinishedPlan s.disk
        { plan with status := .cancelled, reasonCode := none } False s' →
          s.disk.plans.Ended False s' := by
      rintro s' (⟨hplans,-⟩ | hplans)
      · exact hL.ended hplans fun hfalse => hfalse.elim
      · exact (hL.opened hmem hblocking).ended
          ⟨_,hplans,hL.own id plan hmem,by simp [Handled],fun hfalse => hfalse.elim⟩
    refine (finishPlan (fun hfalse => hfalse.elim) _ id).consequence ?_ (fun _ => hended)
      (fun _ => hended) hended
    rintro _ rfl
    rfl

lemma markStartupFailure_ended (hL : d.plans.Orderly) :
    Triple good (fun s => s.disk = d) markStartupFailure (d.plans.endPost False) := by
  refine Triple.get_bind fun s hs => ?_
  subst hs
  have hsame : Triple good (fun t => t = s) (pure ()) (s.disk.plans.endPost False) := by
    refine Triple.pure ?_
    rintro _ rfl
    exact hL.ended rfl fun hfalse => hfalse.elim
  rcases readPlan_cases s.disk with ⟨hnone,-⟩ | ⟨id,plan,hread,hmem,-⟩
  · rw [hnone]
    exact hsame
  · rw [hread]
    refine Triple.ite (fun hvalidating => ?_) fun _ => hsame
    have hblocking : plan.blocking = true := by
      rw [RestorePlan.blocking,hvalidating]
      rfl
    refine (rewrite_ended hL hmem hblocking ?_ ?_).weaken ?_
    · exact hL.own id plan hmem
    · simp
    · rintro _ rfl
      rfl

def Ledger.confirmPost (L : Ledger) (quiet : Prop) : Post (Process C) Fault Unit :=
  ⟨fun _ s => L.Ended False s ∧ (quiet → s.disk.plans.Idle),
    fun _ s => L.Ended False s ∧ (quiet → s.disk.plans.Idle),
    fun s => L.Ended False s ∧ (quiet → s.disk.plans.Idle)⟩

lemma confirmRestore_ended {quiet : Prop}
    (hquiet : quiet → ∀ s fate, good s fate → fate = .ok) (hL : d.plans.Orderly)
    (hsettled : quiet → d.plans.Settled) : Triple good (fun s => s.disk = d) confirmRestore
      (d.plans.confirmPost quiet) := by
  refine Triple.get_bind fun s hs => ?_
  subst hs
  have hsame : (quiet → s.disk.plans.Idle) → Triple good (fun t => t = s) (pure ())
      (s.disk.plans.confirmPost quiet) := by
    intro hidle
    refine Triple.pure ?_
    rintro _ rfl
    exact ⟨hL.ended rfl fun hfalse => hfalse.elim,hidle⟩
  rcases readPlan_cases s.disk with ⟨hnone,hempty⟩ | ⟨id,plan,hread,hmem,hcase⟩
  · rw [hnone]
    exact hsame fun _ id q hq => absurd hq (hempty id q)
  · rw [hread]
    refine Triple.ite (fun hvalidating => ?_) fun hother => hsame fun hq => ?_
    · have hblocking : plan.blocking = true := by
        rw [RestorePlan.blocking,hvalidating]
        rfl
      have hopened := hL.opened hmem hblocking
      have hended : ∀ s' : Process C, FinishedPlan s.disk
          { plan with status := .succeeded, reasonCode := none } quiet s' →
            s.disk.plans.Ended False s' ∧ (quiet → s'.disk.plans.Idle) := by
        rintro s' (⟨hplans,hfault⟩ | hplans)
        · exact ⟨hL.ended hplans fun hfalse => hfalse.elim,fun hq => absurd hq hfault⟩
        · refine ⟨hopened.ended ⟨_,hplans,hL.own id plan hmem,by simp [Handled],?_⟩,
            fun _ => ?_⟩
          · exact fun hfalse => hfalse.elim
          rw [hplans]
          exact hopened.idle_set (hL.own id plan hmem) rfl
      refine (finishPlan hquiet _ plan.operationId).consequence ?_ (fun _ => hended) (fun _ => hended) hended
      rintro _ rfl
      rfl
    · rcases hcase with hblocking | hidle
      · rcases hsettled hq id plan hmem with hvalidating | hidle
        · exact absurd hvalidating hother
        · rw [hblocking] at hidle
          cases hidle
      · exact hidle

end Calls

/-- The conditions on a call: its faults are calm, and only a plan that blocks is scheduled. -/
def CalmCall (d : Disk C) (event : RestoreEvent C) : Prop :=
  Allowed Calm event.faults ∧
    match event with
    | .schedule operationId _ _ => ∀ plan, d.planOf operationId = some plan → plan.blocking = true
    | _ => True

lemma restoreStep_ended {event : RestoreEvent C}
    (hcall : CalmCall d event) (hL : d.plans.Orderly) : (restoreStep sqlite d event).plans.Orderly ∧
      d.plans.Kept (restoreStep sqlite d event).plans := by
  have hnone : False → ∀ (s : Process C) fate, Calm s fate → fate = .ok := fun h => h.elim
  obtain ⟨hcalm,hschedule⟩ := hcall
  have hafter : ∀ {m : Restore C Unit}, Triple Calm (fun s => s.disk = d) m
      (d.plans.endPost False) → ∀ {faults : Faults (Process C)}, Allowed Calm faults →
        (m.after { disk := d } faults).disk.plans.Orderly ∧
          d.plans.Kept (m.after { disk := d } faults).disk.plans := by
    intro m hm faults hfaults
    have hended : d.plans.Ended False (m.after { disk := d } faults) := hm.after rfl hfaults
    exact ⟨hended.orderly,hended.kept⟩
  cases event with
  | stage drawn files evidence faults =>
    exact hafter (stageRestore_ended hL drawn files evidence) hcalm
  | schedule operationId scheduled faults =>
    exact hafter (markReloadScheduled_ended hL scheduled hschedule) hcalm
  | cancel operationId faults => exact hafter (cancelRestore_ended hL operationId) hcalm
  | apply drawn faults =>
    exact hafter (applyPendingRestores_ended hnone (fun _ _ h => h) sqlite hL drawn) hcalm
  | confirm faults =>
    refine hafter ((confirmRestore_ended hnone hL fun h => h.elim).consequence (fun _ h => h) ?_ ?_ ?_) hcalm
    · exact fun _ _ h => h.1
    · exact fun _ _ h => h.1
    · exact fun _ h => h.1
  | startupFailed faults => exact hafter (markStartupFailure_ended hL) hcalm

/-- One start without a fault and a confirmation end every block. -/
theorem restoreStep_idle (sqlite : Sqlite C) (hL : d.plans.Orderly) (drawn : String) :
    (restoreStep sqlite (restoreStep sqlite d (.apply drawn [])) (.confirm [])).blocked = false := by
  let good : Process C → Fate → Prop := fun _ fate => fate = .ok
  have hquiet : True → ∀ (s : Process C) fate, good s fate → fate = .ok := fun _ _ _ h => h
  have hcalm : ∀ (s : Process C) fate, good s fate → Calm s fate := by
    rintro s _ rfl
    exact fun _ _ _ => ⟨by decide,fun _ => rfl⟩
  have hnil : Allowed good [] := fun _ hmem => absurd hmem List.not_mem_nil
  have happlied : d.plans.Ended True ((applyPendingRestores sqlite drawn).after { disk := d } []) :=
    (applyPendingRestores_ended hquiet hcalm sqlite hL drawn).after rfl hnil
  have hconfirm : Triple good (fun s => s.disk = restoreStep sqlite d (.apply drawn []))
      confirmRestore _ := confirmRestore_ended hquiet happlied.orderly happlied.settled
  have hlast := hconfirm.after (s := { disk := restoreStep sqlite d (.apply drawn []) }) rfl hnil
  exact blocked_eq_false.mpr (hlast.2 trivial)

lemma orderly_runs (hstart : d.operations = [])
    {events : List (RestoreEvent C)} (hcalm : Along (restoreStep sqlite) CalmCall d events) :
    (events.foldl (restoreStep sqlite) d).plans.Orderly := by
  have hempty : d.plans = [] := by rw [Disk.plans,hstart,List.map_nil]
  have hL : d.plans.Orderly := by
    refine ⟨?_,?_,?_,?_⟩ <;> rw [hempty]
    · exact List.nodup_nil
    · exact fun _ _ h => absurd h List.not_mem_nil
    · exact fun _ _ h => absurd h List.not_mem_nil
    · exact fun _ _ _ _ h => absurd h List.not_mem_nil
  have hstep : ∀ d event, CalmCall d event → d.plans.Orderly →
      (restoreStep sqlite d event).plans.Orderly := fun _ _ hcall h => (restoreStep_ended hcall h).1
  exact along_invariant hstep hL hcalm

theorem maintenance_ends (sqlite : Sqlite C) (d : Disk C) (hstart : d.operations = [])
    (events : List (RestoreEvent C)) (hcalm : Along (restoreStep sqlite) CalmCall d events) :
    let last := events.foldl (restoreStep sqlite) d
    (∀ drawn, (restoreStep sqlite (restoreStep sqlite last (.apply drawn [])) (.confirm [])).blocked = false) ∧
      ∀ event, CalmCall last event → ∀ id q, last.planOf id = some q → q.blocking = false →
        (restoreStep sqlite last event).planOf id = some q := by
  intro last
  have hL : last.plans.Orderly := orderly_runs hstart hcalm
  refine ⟨fun drawn => restoreStep_idle sqlite hL drawn,fun event hcall id q hplan hidle => ?_⟩
  have hnext : (restoreStep sqlite last event).plans.Orderly ∧
      last.plans.Kept (restoreStep sqlite last event).plans := restoreStep_ended hcall hL
  exact planOf_eq hnext.1.ids (hnext.2 id q (planOf_mem hplan) hidle)

/-- A fate that never strikes in the middle of a rollback. -/
def calmly (fate : Fate) (s : Process C) : Fate :=
  if (s.disk.planOf s.plan.operationId).any (·.status = .rollingBack) then .ok else fate

lemma allowed_calmly (fates : List Fate) : Allowed Calm (fates.map (calmly (C := C))) := by
  intro decision hmem s q hplan hstatus
  obtain ⟨fate,-,rfl⟩ := List.mem_map.mp hmem
  have hok : calmly fate s = .ok := by
    rw [calmly,hplan,Option.any_some,hstatus]
    rfl
  exact ⟨by rw [hok]; decide,fun _ => hok⟩

/-- One restore is cancelled; the next is cut off between moving a live file and installing. -/
def calmRun : List (RestoreEvent String) := [sampleStage,.cancel "op-00001" [],
  .stage "op-00002" [(canonicalDbName,"new")] none [],
  .apply "x" ([.ok,.ok,.ok,.ok,.ok,.ok,.ok,.crashes].map calmly)]

theorem maintenance_ends_sample :
    let last := calmRun.foldl (restoreStep sampleSqlite) { live := sampleLive }
    let started := restoreStep sampleSqlite last (.apply "x" [])
    (last.planOf "op-00002").map (·.status) = some .applying ∧
      (restoreStep sampleSqlite started (.confirm [])).blocked = false ∧
        started.planOf "op-00001" = last.planOf "op-00001" := by
  intro last started
  have hnil : Allowed Calm ([] : Faults (Process String)) :=
    fun _ hmem => absurd hmem List.not_mem_nil
  have hcalm : Along (restoreStep sampleSqlite) CalmCall { live := sampleLive } calmRun :=
    ⟨⟨hnil,trivial⟩,⟨hnil,trivial⟩,⟨hnil,trivial⟩,⟨allowed_calmly _,trivial⟩,trivial⟩
  obtain ⟨hends,hkept⟩ := maintenance_ends sampleSqlite { live := sampleLive } rfl calmRun hcalm
  refine ⟨by decide +kernel,hends "x",?_⟩
  have hcancelled : (last.planOf "op-00001").map (·.status) = some .cancelled := by decide +kernel
  cases hplan : last.planOf "op-00001" with
  | none =>
    rw [hplan] at hcancelled
    cases hcancelled
  | some q =>
    rw [hplan] at hcancelled
    have hstatus : q.status = .cancelled := Option.some.inj hcancelled
    exact hkept (.apply "x" []) ⟨hnil,trivial⟩ "op-00001" q hplan (by
      rw [RestorePlan.blocking,hstatus]
      rfl)

/-- The runtime has failed; the rollback is cut off after the plan says that it has begun. -/
def stuckRun : List (RestoreEvent String) := [
  sampleStage,.apply "x" [],.startupFailed [],.apply "x" (fates [.ok,.ok,.crashes])]

theorem block_permanent :
    let last := stuckRun.foldl (restoreStep sampleSqlite) { live := sampleLive }
    let twice := restoreStep sampleSqlite (restoreStep sampleSqlite last (.apply "x" [])) (.apply "x" [])
    last.blocked = true ∧ (restoreStep sampleSqlite twice (.confirm [])).blocked = true := by
  decide +kernel

end Memora.Backup

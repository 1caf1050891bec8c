import Memora.RestoreMaintenance

/-! The `*.restore` files of older versions are moved into one plan. What a start leaves of them,
wherever it is cut off, and what every later start finds. -/
namespace Memora.Backup
open Restore RunLaws Ledger

variable {C : Type}

def Disk.restorable (d : Disk C) : List (String × Entry C) :=
  d.legacy.filter fun e => e.2.isFile && isRestorableFileName e.1

/-- While a file has been taken and no plan speaks of it, nothing fails and no crash strikes. -/
def Undisturbed (s : Process C) (fate : Fate) : Prop :=
  (∃ o ∈ s.disk.operations, o.plan = none ∧ ∃ name, o.payload name ≠ none) → fate = .ok

/-- A plan of these files that is past `staged`. -/
def Past (names : List String) (plan : RestorePlan) : Prop :=
  plan.files.map (·.name) = names ∧ plan.status ≠ .staged

section
variable {names : List String}

lemma steady_past : Steady (Past names) where
  reason := fun _ _ h => h
  applying := fun _ h => ⟨h.1,by simp⟩
  install := by
    intro q index progress installed h hfile hname
    refine ⟨?_,h.2⟩
    have hat : names[index]? = some installed.name := by
      rw [← h.1,List.getElem?_map,hfile,hname]
      rfl
    rw [List.map_set,h.1]
    obtain ⟨hlt,hsame⟩ := List.getElem?_eq_some_iff.mp hat
    rw [← hsame]
    exact List.set_getElem_self hlt
  validating := by
    intro q h
    refine ⟨?_,by simp⟩
    rw [← h.1,List.map_map]
    rfl

variable {L : Ledger} {id : String} {good : Process C → Fate → Prop}

lemma past_setStatus {status : RestoreStatus} (hstatus : status ≠ .staged) :
    Triple good (L.Working id (Past names)) (setStatus status) (L.keepPost id (Past names) False) :=
  Triple.modify fun _ hs => ⟨hs.plans,hs.id,hs.plan.1,hstatus⟩

lemma rollbackFile_past (operationId : String) (progress : RestoreFileProgress) :
    Triple good (L.Working id (Past names)) (rollbackFile operationId progress)
      (L.keepPost id (Past names) False) := by
  have hkeep : ∀ {f : Disk C → Disk C}, (∀ d, (f d).plans = d.plans) →
      Triple good (L.Working id (Past names)) (fileOperation f)
        (L.keepPost id (Past names) False) := fun hf => operation_works (fun h => h.elim) .os hf
  refine get_works fun s _ => Triple.ite (fun _ => Triple.ite (fun _ => ?_) fun _ => ?_) fun _ =>
    Triple.ite (fun _ => ?_) fun _ => ?_
  · exact Triple.bind (fun _ => L.Working id (Past names)) (hkeep fun _ => plans_unlinkLive)
      fun _ => hkeep fun _ => plans_moveBack
  · exact hkeep fun _ => plans_moveBack
  · exact hkeep fun _ => plans_unlinkLive
  · exact Triple.pure fun _ hs => hs

lemma rollbackRestoreFiles_past : Triple good (L.Working id (Past names)) rollbackRestoreFiles
      (L.stopPost id (Past names) False) := by
  have hnone : False → ∀ (s : Process C) fate, good s fate → fate = .ok := fun h => h.elim
  have hstopped : ∀ s : Process C, L.Working id (Past names) s →
      L.Stopped id (Past names) False s := fun _ hs => hs.stopped fun h => h
  have hwrite : Triple good (L.Working id (Past names)) writePlan
      (L.keepPost id (Past names) False) := writePlan_works hnone
  suffices hkeep : Triple good (L.Working id (Past names)) rollbackRestoreFiles
      (L.keepPost id (Past names) False) from
    hkeep.consequence (fun _ h => h) (fun _ => hstopped) (fun _ => hstopped) fun _ h => h
  refine Triple.bind (fun _ => L.Working id (Past names)) (past_setStatus (by decide)) fun _ => ?_
  refine Triple.bind (fun _ => L.Working id (Past names)) hwrite fun _ => get_works fun s _ => ?_
  refine Triple.handle (fun _ => L.Working id (Past names)) ?_ fun fault => ?_
  · refine Triple.bind (fun _ => L.Working id (Past names)) ?_ fun _ => ?_
    · exact Triple.forEach (fun _ => L.Working id (Past names))
        (fun f _ => rollbackFile_past _ f) (fun _ h => h) _
    · exact Triple.bind (fun _ => L.Working id (Past names)) (past_setStatus (by decide))
        fun _ => hwrite
  · cases fault with
    | os =>
      refine Triple.bind (fun _ => L.Working id (Past names)) ?_ fun _ =>
        Triple.bind (fun _ => L.Working id (Past names)) hwrite fun _ => Triple.raise fun _ h => h
      exact Triple.modify fun _ hs => ⟨hs.plans,hs.id,hs.plan.1,by simp⟩
    | database | operation => exact Triple.raise fun _ h => h

end

variable (files : List (String × Entry C)) {start d : Disk C}

def Holding (d : Disk C) (id : String) : Prop :=
  ∀ e ∈ files, payloadOf d id e.1 = some e.2

structure Ledger.Sole (L : Ledger) (id : String) : Prop where
  ids : (L.map Prod.fst).Nodup
  mem : id ∈ L.map Prod.fst
  others : ∀ id' q, (id',some q) ∈ L → id' = id

/-- One plan speaks of all the files; as long as it is staged, its payload holds them. -/
def Gathered (d : Disk C) : Prop :=
  ∃ L q, Ledger.Sole L q.operationId ∧ d.plans = L.set q ∧
  q.files.map (·.name) = files.map Prod.fst ∧
      (q.status = .staged → Holding files d q.operationId)

structure AtStage (files : List (String × Entry C)) (L : Ledger) (plan : RestorePlan)
    (s : Process C) : Prop where
  plans : s.disk.plans = L.set plan
  holding : Holding files s.disk plan.operationId
  id : s.plan.operationId = plan.operationId
  names : s.plan.files.map (·.name) = files.map Prod.fst
  fresh : s.startedApply = false

def gatheredPost : Post (Process C) Fault Unit :=
  ⟨fun _ s => Gathered files s.disk,fun _ s => Gathered files s.disk,
    fun s => Gathered files s.disk⟩

section
variable {files : List (String × Entry C)} {L : Ledger} {plan : RestorePlan} {s : Process C}
  {good : Process C → Fate → Prop}

lemma payloadOf_congr {d d' : Disk C} (h : d'.operations = d.operations) (id : String) :
    payloadOf d' id = payloadOf d id := by
  unfold payloadOf Disk.operation?
  rw [h]

lemma AtStage.of_disk {s' : Process C} (h : AtStage files L plan s)
    (hdisk : s'.disk.operations = s.disk.operations) (hplan : s'.plan = s.plan)
    (hfresh : s'.startedApply = s.startedApply) : AtStage files L plan s' where
  plans := by
    have hplans : s'.disk.plans = s.disk.plans := by rw [Disk.plans,hdisk,Disk.plans]
    exact hplans.trans h.plans
  holding := fun e he => (congrFun (payloadOf_congr hdisk _) e.1).trans (h.holding e he)
  id := hplan ▸ h.id
  names := hplan ▸ h.names
  fresh := hfresh.trans h.fresh

lemma Stopped.gathered (hL : L.Sole plan.operationId)
    (h : L.Stopped plan.operationId (Past (files.map Prod.fst)) False s) :
    Gathered files s.disk := by
  obtain ⟨q,hplans,hid,⟨hnames,hstatus⟩,-⟩ := h
  exact ⟨L,q,hid ▸ hL,hplans,hnames,fun hstaged => absurd hstaged hstatus⟩

lemma AtStage.write (h : AtStage files L plan s) :
    (s.disk.writePlan s.plan).plans = L.set s.plan := by
  rw [plans_writePlan,h.plans,set_set h.id.symm]

lemma AtStage.planOf (hL : L.Sole plan.operationId) (h : AtStage files L plan s) :
    s.disk.planOf plan.operationId = some plan := planOf_set hL.ids hL.mem h.plans rfl

variable (hL : L.Sole plan.operationId) (hnames : plan.files.map (·.name) = files.map Prod.fst)
include hL hnames

lemma AtStage.gathered (h : AtStage files L plan s) : Gathered files s.disk :=
  ⟨L,plan,hL,h.plans,hnames,fun _ => h.holding⟩

variable (sqlite : Sqlite C)

lemma createPreRestoreBackup_staged :
    Triple good (AtStage files L plan) (createPreRestoreBackup sqlite plan.operationId)
      ⟨fun _ => AtStage files L plan,fun _ => AtStage files L plan,
        fun s => Gathered files s.disk⟩ := by
  refine Triple.get_bind fun s hs => ?_
  have hsame : ∀ t : Process C, t = s → AtStage files L plan t := fun _ heq => heq ▸ hs
  rw [hs.planOf hL]
  refine Triple.ite (fun _ => Triple.pure hsame) fun _ => ?_
  refine Triple.bind (fun _ => AtStage files L plan) (Triple.operation ?_ ?_ ?_) fun _ => ?_
  · rintro _ rfl
    exact hs.of_disk rfl rfl rfl
  · exact fun t ht _ => hsame t ht
  · exact fun t ht _ => (hsame t ht).gathered hL hnames
  refine Triple.bind (fun _ => AtStage files L plan) (Triple.operation ?_ ?_ ?_) fun _ => ?_
  · exact fun t ht => ht.of_disk rfl rfl rfl
  · exact fun t ht _ => ht
  · exact fun t ht _ => ht.gathered hL hnames
  refine Triple.get_bind fun t ht => Triple.bind (fun _ => AtStage files L plan) ?_ fun _ =>
    Triple.operation ?_ ?_ ?_
  · cases (createBackup sqlite t.disk.live fun _ => t.disk.live).map fun _ => () with
    | ok _ => exact Triple.pure fun _ heq => heq ▸ ht
    | error fault => exact Triple.raise fun _ heq => heq ▸ ht
  · intro t ht
    refine ⟨?_,fun e he => ?_,ht.id,ht.names,ht.fresh⟩
    · rw [plans_writePlan,ht.plans,set_set rfl]
    · exact (congrFun (payloadOf_writePlan plan) e.1).trans (ht.holding e he)
  · exact fun t ht _ => ht
  · exact fun t ht _ => ht.gathered hL hnames

lemma beginApply_staged : Triple good (fun s => AtStage files L plan s ∧ s.plan = plan ∧
    plan.status = .staged)
      (beginApply sqlite) ⟨fun _ => L.Working plan.operationId (Past (files.map Prod.fst)),
        fun _ => AtStage files L plan,fun s => Gathered files s.disk⟩ := by
  refine Triple.get_bind fun s hs => ?_
  obtain ⟨hs,hplan,hstaged⟩ := hs
  rw [hplan]
  refine Triple.ite (fun _ => ?_) fun hother => absurd (.inl hstaged) hother
  refine Triple.bind (fun _ => AtStage files L plan)
    ((createPreRestoreBackup_staged hL hnames sqlite).weaken fun _ heq => heq ▸ hs) fun _ => ?_
  refine Triple.bind (fun _ => AtStage files L plan) (Triple.modify fun t ht => ?_) fun _ => ?_
  · have hread : (t.disk.planOf t.plan.operationId).getD t.plan = plan := by
      rw [ht.id,ht.planOf hL]
      rfl
    rw [hread]
    exact ⟨ht.plans,ht.holding,rfl,hnames,ht.fresh⟩
  refine Triple.bind (fun _ t => AtStage files L plan t ∧ t.plan.status = .applying)
    (Triple.modify fun t ht => ⟨⟨ht.plans,ht.holding,ht.id,ht.names,ht.fresh⟩,rfl⟩) fun _ => ?_
  refine Triple.bind (fun _ => L.Working plan.operationId (Past (files.map Prod.fst)))
    (Triple.operation ?_ ?_ ?_) fun _ => Triple.modify fun t ht => ⟨ht.plans,ht.id,ht.plan⟩
  · rintro t ⟨ht,hstatus⟩
    have hpast : Past (files.map Prod.fst) t.plan := ⟨ht.names,by rw [hstatus]; decide⟩
    exact ⟨⟨t.plan,ht.write,ht.id,hpast⟩,ht.id,hpast⟩
  · exact fun t ht _ => ht.1
  · exact fun t ht _ => ht.1.gathered hL hnames

lemma applyFailed_staged (fault : Fault) :
    Triple good (AtStage files L plan) (applyFailed fault) (gatheredPost files) := by
  refine Triple.bind (fun _ => AtStage files L plan) (Triple.modify fun t ht => ?_) fun _ =>
    Triple.get_bind fun s hs => Triple.ite (fun _ => ?_) fun hstarted => ?_
  · exact ⟨ht.plans,ht.holding,ht.id,ht.names,ht.fresh⟩
  · refine Triple.bind (fun _ t => AtStage files L plan t ∧ t.plan.status = .failedBeforeApply)
      (Triple.modify ?_) fun _ => Triple.operation ?_ ?_ ?_
    · rintro _ rfl
      exact ⟨⟨hs.plans,hs.holding,hs.id,hs.names,hs.fresh⟩,rfl⟩
    · rintro t ⟨ht,hstatus⟩
      refine ⟨L,t.plan,ht.id ▸ hL,ht.write,ht.names,fun hstaged => ?_⟩
      rw [hstatus] at hstaged
      cases hstaged
    · exact fun t ht _ => ht.1.gathered hL hnames
    · exact fun t ht _ => ht.1.gathered hL hnames
  · rw [hs.fresh] at hstarted
    exact absurd rfl hstarted

lemma applyFound_gathered : Triple good (fun s => s.disk.plans = L.set plan ∧
        (plan.status = .staged → Holding files s.disk plan.operationId))
      (applyFound sqlite plan) (gatheredPost files) := by
  have hnone : False → ∀ (s : Process C) fate, good s fate → fate = .ok := fun h => h.elim
  have hstopped : ∀ s : Process C,
      L.Stopped plan.operationId (Past (files.map Prod.fst)) False s → Gathered files s.disk :=
    fun _ hs => Stopped.gathered hL hs
  have hsteady : Steady (Past (files.map Prod.fst)) := steady_past
  by_cases hstaged : plan.status = .staged
  · refine Triple.bind (fun _ s => AtStage files L plan s ∧ s.plan = plan ∧ plan.status = .staged)
      (Triple.modify fun s hs => ?_) fun _ => ?_
    · refine ⟨⟨hs.1,hs.2 hstaged,rfl,hnames,?_⟩,rfl,hstaged⟩
      rw [hstaged]
      rfl
    rw [hstaged]
    refine Triple.ite (fun hpending => by cases hpending) fun _ => Triple.ite (fun _ => ?_)
      fun hother => absurd (.inl rfl) hother
    refine Triple.handle (fun _ s => AtStage files L plan s ∨
      L.Working plan.operationId (Past (files.map Prod.fst)) s) ?_ fun fault => ?_
    · refine Triple.bind (fun _ => L.Working plan.operationId (Past (files.map Prod.fst))) ?_
        fun _ => ?_
      · exact (beginApply_staged hL hnames sqlite).consequence
          (fun _ h => ⟨h.1,h.2.1,hstaged⟩) (fun _ _ h => h) (fun _ _ => .inl) fun _ h => h
      · refine (Triple.bind _ (installFiles_works hnone hsteady) fun _ =>
          Triple.bind _ (validateRestoredFiles_works hnone sqlite) fun _ =>
            finishApply_stopped hnone hsteady).consequence (fun _ h => h) (fun _ => hstopped)
              (fun _ _ => .inr) hstopped
    · refine Triple.or (applyFailed_staged hL hnames fault) ?_
      exact (applyFailed_stopped hnone hsteady rollbackRestoreFiles_past
        (fun q hq => ⟨hq.1,by simp⟩) fault).consequence (fun _ h => h) (fun _ => hstopped)
          (fun _ => hstopped) hstopped
  · exact (applyFound_stopped hnone hsteady sqlite rollbackRestoreFiles_past
      (fun q hq => ⟨hq.1,by simp⟩) rfl ⟨hnames,hstaged⟩ fun h => h.elim).consequence
        (fun _ hs => hs.1) (fun _ => hstopped) (fun _ => hstopped) hstopped

end

structure Disk.Unmoved (start d : Disk C) : Prop where
  legacy : d.legacy = start.legacy
  ids : (d.plans.map Prod.fst).Nodup
  empty : ∀ id q, (id,some q) ∉ d.plans

structure Disk.Moving (start : Disk C) (drawn : String) (moved rest : List (String × Entry C))
    (d : Disk C) : Prop where
  split : start.restorable = moved++rest
  ids : (d.plans.map Prod.fst).Nodup
  empty : ∀ id q, (id,some q) ∉ d.plans
  operation : ∃ o, d.operation? drawn = some o ∧ ∀ e ∈ moved, o.payload e.1 = some e.2
  legacy : d.legacy = start.legacy.filter fun e => decide (e.1 ∉ moved.map Prod.fst)

section
variable {start d : Disk C} {drawn : String} {moved rest : List (String × Entry C)}
  {e : String × Entry C}

lemma operation_planless {o : Operation C} (hempty : ∀ id q, (id,some q) ∉ d.plans)
    (ho : o ∈ d.operations) : o.plan = none := by
  cases hplan : o.plan with
  | none => rfl
  | some q =>
    exact absurd (List.mem_map.mpr ⟨o,ho,by rw [hplan]⟩) (hempty o.operationId q)

lemma Disk.Moving.fault {s : Process C} (h : start.Moving drawn moved rest s.disk) {fate : Fate}
    (hgood : Undisturbed s fate) (hfate : fate ≠ .ok) : moved = [] ∧ start.Unmoved s.disk := by
  obtain ⟨o,ho,hpayload⟩ := h.operation
  have hmoved : moved = [] := by
    by_contra hne
    obtain ⟨e,he⟩ := List.exists_mem_of_ne_nil moved hne
    have hmem := List.mem_of_find?_eq_some ho
    refine hfate (hgood ⟨o,hmem,operation_planless h.empty hmem,e.1,?_⟩)
    rw [hpayload e he]
    simp
  refine ⟨hmoved,?_,h.ids,h.empty⟩
  rw [h.legacy,hmoved]
  simp

theorem Disk.Moving.found (hnodup : (start.legacy.map Prod.fst).Nodup)
    (h : start.Moving drawn moved (e::rest) d) :
    e.1 ∉ moved.map Prod.fst ∧ d.legacy.find? (fun x => x.1 = e.1) = some e := by
  have hfiles : ((moved++e::rest).map Prod.fst).Nodup := by
    rw [← h.split]
    exact hnodup.sublist (List.filter_sublist.map Prod.fst)
  have hnot : e.1 ∉ moved.map Prod.fst := by
    rw [List.map_append,List.map_cons] at hfiles
    intro hmem
    exact (List.nodup_append.mp hfiles).2.2 _ hmem _ List.mem_cons_self rfl
  refine ⟨hnot,?_⟩
  have hstart : e ∈ start.legacy := by
    have hmem : e ∈ start.restorable := by
      rw [h.split]
      exact List.mem_append_right moved List.mem_cons_self
    exact List.mem_of_mem_filter hmem
  have hmem : e ∈ d.legacy := by
    rw [h.legacy]
    exact List.mem_filter.mpr ⟨hstart,by simpa using hnot⟩
  have hkeys : (d.legacy.map Prod.fst).Nodup := by
    rw [h.legacy]
    exact hnodup.sublist (List.filter_sublist.map Prod.fst)
  exact RowTable.find?_key hkeys hmem

lemma Disk.Moving.next (hnodup : (start.legacy.map Prod.fst).Nodup)
    (h : start.Moving drawn moved (e::rest) d) :
    start.Moving drawn (moved++[e]) rest (moveLegacy drawn e.1 d) := by
  obtain ⟨hnot,hfound⟩ := h.found hnodup
  obtain ⟨o,ho,hpayload⟩ := h.operation
  refine ⟨?_,?_,?_,?_,?_⟩
  · rw [h.split,List.append_assoc,List.singleton_append]
  · rw [plans_moveLegacy]
    exact h.ids
  · rw [plans_moveLegacy]
    exact h.empty
  · refine ⟨{ o with payload := o.payload.put e.1 (some e.2) },?_,fun x hx => ?_⟩
    · change (d.modifyOperation drawn _).operation? drawn = _
      rw [operation?_modify _ ?_ rfl,ho,hfound]
      · rfl
      · exact fun _ => rfl
    · rcases List.mem_append.mp hx with hx | hx
      · have hne : x.1 ≠ e.1 := by
          intro heq
          exact hnot (heq ▸ List.mem_map_of_mem hx)
        exact (Directory.put_of_ne _ _ hne).trans (hpayload x hx)
      · rw [List.mem_singleton.mp hx]
        exact Directory.put_same ..
  · change d.legacy.filter _ = _
    rw [h.legacy,List.filter_filter]
    apply List.filter_congr
    intro x _
    by_cases hx : x.1 = e.1 <;> simp [hx]

lemma restorable_names (d : Disk C) :
    ((d.legacy.filter fun e => e.2.isFile).map Prod.fst).filter isRestorableFileName =
      d.restorable.map Prod.fst := by
  rw [List.filter_map,List.filter_filter]
  congr 1
  apply List.filter_congr
  intro e _
  exact Bool.and_comm _ _

end

section
variable {start d : Disk C} {drawn : String}

/-- What a migration leaves: everything in place, or one staged plan of all the files. -/
def Disk.migratedPost (start : Disk C) : Post (Process C) Fault (Option RestorePlan) :=
  ⟨fun migrated s => migrated.elim (start.Unmoved s.disk) fun plan =>
      ∃ L, Ledger.Sole L plan.operationId ∧ s.disk.plans = L.set plan ∧
        plan.files.map (·.name) = start.restorable.map Prod.fst ∧
          Holding start.restorable s.disk plan.operationId,
    fun _ s => start.Unmoved s.disk,fun s => start.Unmoved s.disk⟩

lemma moveLegacy_moves (hnodup : (start.legacy.map Prod.fst).Nodup) (name : String)
    (left : List String) :
    Triple Undisturbed (fun s => ∃ moved rest, name::left = rest.map Prod.fst ∧
        start.Moving drawn moved rest s.disk)
      (fileOperation (moveLegacy drawn name))
      ⟨fun _ s => ∃ moved rest, left = rest.map Prod.fst ∧ start.Moving drawn moved rest s.disk,
        fun _ s => start.Unmoved s.disk,fun s => start.Unmoved s.disk⟩ := by
  refine Triple.operation ?_ ?_ ?_
  · rintro s ⟨moved,rest,hleft,hs⟩
    cases rest with
    | nil => cases hleft
    | cons e rest =>
      obtain ⟨hname,hrest⟩ := List.cons.inj hleft
      rw [hname]
      exact ⟨moved++[e],rest,hrest,hs.next hnodup⟩
  · rintro s ⟨moved,rest,-,hs⟩ hfails
    exact (hs.fault hfails (by decide)).2
  · rintro s ⟨moved,rest,-,hs⟩ hcrash
    exact (hs.fault hcrash (by decide)).2

lemma makeOperation_moving (h : start.Unmoved d) :
    Triple Undisturbed (fun s => s.disk = d) (makeOperation drawn)
      ⟨fun _ s => start.Moving drawn [] start.restorable s.disk,
        fun _ s => start.Unmoved s.disk,fun s => start.Unmoved s.disk⟩ := by
  have hsame : ∀ s : Process C, s.disk = d → start.Unmoved s.disk := by
    rintro _ rfl
    exact h
  refine Triple.get_bind fun s hs => Triple.ite (fun _ => ?_) fun hfree => ?_
  · refine Triple.raise ?_
    rintro _ rfl
    exact hsame _ hs
  subst hs
  obtain ⟨hplans,-,-⟩ := samePlans_newOperation h.ids (by simpa using hfree)
  refine Triple.operation ?_ ?_ ?_
  · rintro t rfl
    refine ⟨rfl,hplans.ids,fun id q hq => h.empty id q ((hplans.mem id q).mp hq),?_,?_⟩
    · have hmem : ({ operationId := drawn } : Operation C) ∈ (newOperation drawn t.disk).operations :=
        (List.perm_orderedInsert _ _ _).mem_iff.mpr List.mem_cons_self
      have hnodup : ((newOperation drawn t.disk).operations.map (·.operationId)).Nodup := by
        have hids := hplans.ids
        rw [Disk.plans,List.map_map] at hids
        exact hids
      exact ⟨_,RowTable.find?_key hnodup hmem,fun e he => absurd he List.not_mem_nil⟩
    · refine h.legacy.trans ?_
      simp
  · rintro _ rfl _
    exact h
  · rintro _ rfl _
    exact h

lemma writePlan_gathers {plan : RestorePlan} (hid : plan.operationId = drawn)
    (hnames : plan.files.map (·.name) = start.restorable.map Prod.fst)
    (hsome : start.restorable ≠ []) :
    Triple Undisturbed (fun s => ∃ moved rest, [] = rest.map Prod.fst ∧ start.Moving drawn moved rest s.disk)
      (setPlan (fun _ => plan) >>= fun _ => writePlan >>= fun _ => pure (some plan))
      start.migratedPost := by
  refine Triple.bind (fun _ s => start.Moving drawn start.restorable [] s.disk ∧ s.plan = plan)
    (Triple.modify ?_) fun _ => ?_
  · rintro s ⟨moved,rest,hleft,hs⟩
    have hrest : rest = [] := List.map_eq_nil_iff.mp hleft.symm
    have hmoved : start.restorable = moved := by rw [hs.split,hrest,List.append_nil]
    rw [hmoved,← hrest]
    exact ⟨⟨hs.split,hs.ids,hs.empty,hs.operation,hs.legacy⟩,rfl⟩
  refine Triple.bind (fun _ s => ∃ L, Ledger.Sole L plan.operationId ∧ s.disk.plans = L.set plan ∧
    plan.files.map (·.name) = start.restorable.map Prod.fst ∧
      Holding start.restorable s.disk plan.operationId) (Triple.operation ?_ ?_ ?_) fun _ =>
        Triple.pure fun _ hs => hs
  · rintro s ⟨hs,rfl⟩
    obtain ⟨o,ho,hpayload⟩ := hs.operation
    have hkey : o.operationId = drawn := by simpa using List.find?_some ho
    refine ⟨s.disk.plans,⟨hs.ids,?_,fun id q hq => absurd hq (hs.empty id q)⟩,plans_writePlan,
      hnames,fun e he => ?_⟩
    · rw [hid,← hkey]
      exact List.mem_map.mpr ⟨_,List.mem_map_of_mem (List.mem_of_find?_eq_some ho),rfl⟩
    · rw [payloadOf_writePlan,hid,payloadOf_eq ho]
      exact hpayload e he
  · exact fun s hs hfails => absurd (hs.1.fault hfails (by decide)).1 hsome
  · exact fun s hs hcrash => absurd (hs.1.fault hcrash (by decide)).1 hsome

lemma migrateLegacyRestoreFiles_gathers (hnodup : (start.legacy.map Prod.fst).Nodup)
    (h : start.Unmoved d) : Triple Undisturbed (fun s => s.disk = d)
    (migrateLegacyRestoreFiles drawn)
      start.migratedPost := by
  refine Triple.get_bind fun s hs => ?_
  subst hs
  refine Triple.ite (fun _ => Triple.pure ?_) fun _ => ?_
  · rintro _ rfl
    exact h
  refine Triple.bind _ ((makeOperation_moving h).weaken fun _ heq => by rw [heq]) fun _ => ?_
  rw [h.legacy,restorable_names]
  refine Triple.bind (fun _ s => ∃ moved rest, [] = rest.map Prod.fst ∧
    start.Moving drawn moved rest s.disk) ?_ fun _ => Triple.ite (fun hnone => ?_) fun hsome => ?_
  · refine (Triple.forEach (fun left s => ∃ moved rest, left = rest.map Prod.fst ∧
      start.Moving drawn moved rest s.disk) (moveLegacy_moves hnodup) (fun _ hs => hs) _).weaken ?_
    exact fun s hs => ⟨[],start.restorable,rfl,hs⟩
  · have hunmoved : ∀ s : Process C, (∃ moved rest, [] = rest.map Prod.fst ∧
        start.Moving drawn moved rest s.disk) → start.Unmoved s.disk := by
      rintro s ⟨moved,rest,-,hs⟩
      have hfiles := hs.split
      rw [List.map_eq_nil_iff.mp hnone] at hfiles
      have hmoved := (List.append_eq_nil_iff.mp hfiles.symm).1
      refine ⟨?_,hs.ids,hs.empty⟩
      rw [hs.legacy,hmoved]
      simp
    refine Triple.bind (fun _ s => start.Unmoved s.disk) ?_ fun _ => Triple.pure fun _ hs => hs
    refine Triple.handle (fun _ s => start.Unmoved s.disk) (Triple.operation ?_ ?_ ?_) fun _ =>
      Triple.pure fun _ hs => hs
    · intro s hs
      have hs := hunmoved s hs
      have hremoved := samePlans_removeOperation hs.ids (hs.empty drawn)
      exact ⟨hs.legacy,hremoved.ids,fun id q hq => hs.empty id q ((hremoved.mem id q).mp hq)⟩
    · exact fun s hs _ => hunmoved s hs
    · exact fun s hs _ => hunmoved s hs
  · refine writePlan_gathers rfl ?_ fun hnone => hsome (by rw [hnone,List.map_nil])
    rw [List.map_map]
    exact List.map_id _

def Disk.Consistent (start d : Disk C) : Prop := start.Unmoved d ∨ Gathered start.restorable d

def Disk.consistentPost (start : Disk C) : Post (Process C) Fault Unit :=
  ⟨fun _ s => start.Consistent s.disk,fun _ s => start.Consistent s.disk,
    fun s => start.Consistent s.disk⟩

lemma Disk.Consistent.readPlan (h : start.Consistent d) : (d.readPlan = none ∧ start.Unmoved d) ∨
      ∃ L q, d.readPlan = some q ∧ Ledger.Sole L q.operationId ∧ d.plans = L.set q ∧
        q.files.map (·.name) = start.restorable.map Prod.fst ∧
          (q.status = .staged → Holding start.restorable d q.operationId) := by
  rcases readPlan_cases d with ⟨hnone,hempty⟩ | ⟨id,q,hread,hmem,-⟩
  · rcases h with hunmoved | ⟨L,q,hL,hplans,-⟩
    · exact .inl ⟨hnone,hunmoved⟩
    · refine absurd ?_ (hempty q.operationId q)
      rw [hplans]
      exact mem_set.mpr (.inl ⟨hL.mem,rfl⟩)
  · rcases h with hunmoved | ⟨L,own,hL,hplans,hrest⟩
    · exact absurd hmem (hunmoved.empty id q)
    · have hown := hplans ▸ hmem
      rcases mem_set.mp hown with ⟨-,heq⟩ | ⟨hother,hne⟩
      · obtain rfl := Option.some.inj (Prod.mk.inj heq).2
        exact .inr ⟨L,q,hread,hL,hplans,hrest⟩
      · exact absurd (hL.others id q hother) hne

lemma applyPendingRestores_consistent (sqlite : Sqlite C)
    (hnodup : (start.legacy.map Prod.fst).Nodup) (h : start.Consistent d) :
    Triple Undisturbed (fun s => s.disk = d) (applyPendingRestores sqlite drawn)
      start.consistentPost := by
  refine Triple.bind (fun _ s => s.disk = d) (Triple.operation (fun _ hs => hs) ?_ ?_) fun _ =>
    Triple.get_bind fun s hs => ?_
  · exact fun s hs _ => hs ▸ h
  · exact fun s hs _ => hs ▸ h
  subst hs
  rcases h.readPlan with ⟨hnone,hunmoved⟩ | ⟨L,plan,hread,hL,hplans,hnames,hholding⟩
  · rw [hnone]
    refine Triple.bind _ ((migrateLegacyRestoreFiles_gathers hnodup hunmoved).consequence
      (fun _ heq => by rw [heq]) (fun _ _ h => h) (fun _ _ => .inl) fun _ => .inl)
        fun migrated => ?_
    cases migrated with
    | none => exact Triple.pure fun _ hs => .inl hs
    | some plan =>
      intro s' faults hs' hgood
      obtain ⟨L,hL,hplans,hnames,hholding⟩ := hs'
      exact ((applyFound_gathered hL hnames sqlite).consequence (fun _ h => h)
        (fun _ _ => Or.inr) (fun _ _ => Or.inr) fun _ => Or.inr) s' faults ⟨hplans,fun _ => hholding⟩ hgood
  · rw [hread]
    refine (applyFound_gathered hL hnames sqlite).consequence ?_ (fun _ _ => .inr)
      (fun _ _ => .inr) fun _ => .inr
    rintro _ rfl
    exact ⟨hplans,hholding⟩

lemma consistent_of_set {d' : Disk C} {L : Ledger} {plan q : RestorePlan}
    (hL : L.Sole plan.operationId) (hplans : d.plans = L.set plan)
    (hnames : plan.files.map (·.name) = start.restorable.map Prod.fst)
    (hwritten : d'.plans = d.plans.set q) (hid : q.operationId = plan.operationId)
    (hfiles : q.files = plan.files) (hstatus : q.status ≠ .staged) : start.Consistent d' := by
  refine .inr ⟨L,q,hid ▸ hL,?_,hfiles ▸ hnames,fun hstaged => absurd hstaged hstatus⟩
  rw [hwritten,hplans,set_set hid.symm]

lemma confirmRestore_consistent (h : start.Consistent d) :
    Triple Undisturbed (fun s => s.disk = d) confirmRestore start.consistentPost := by
  refine Triple.get_bind fun s hs => ?_
  subst hs
  have hsame : Triple Undisturbed (fun t => t = s) (pure ()) start.consistentPost :=
    Triple.pure fun _ heq => heq ▸ h
  rcases h.readPlan with ⟨hnone,-⟩ | ⟨L,plan,hread,hL,hplans,hnames,-⟩
  · rw [hnone]
    exact hsame
  · rw [hread]
    refine Triple.ite (fun hvalidating => ?_) fun _ => hsame
    have hended : ∀ s' : Process C, FinishedPlan s.disk
        { plan with status := .succeeded, reasonCode := none } False s' → start.Consistent s'.disk := by
      rintro s' (⟨hkept,-⟩ | hwritten)
      · refine .inr ⟨L,plan,hL,hkept.trans hplans,hnames,fun hstaged => ?_⟩
        rw [hvalidating] at hstaged
        cases hstaged
      · exact consistent_of_set hL hplans hnames hwritten rfl rfl (by simp)
    refine (finishPlan (fun hfalse => hfalse.elim) _ plan.operationId).consequence ?_
      (fun _ => hended) (fun _ => hended) hended
    rintro _ rfl
    rfl

lemma markStartupFailure_consistent (h : start.Consistent d) :
    Triple Undisturbed (fun s => s.disk = d) markStartupFailure start.consistentPost := by
  refine Triple.get_bind fun s hs => ?_
  subst hs
  have hsame : Triple Undisturbed (fun t => t = s) (pure ()) start.consistentPost :=
    Triple.pure fun _ heq => heq ▸ h
  rcases h.readPlan with ⟨hnone,-⟩ | ⟨L,plan,hread,hL,hplans,hnames,-⟩
  · rw [hnone]
    exact hsame
  · rw [hread]
    refine Triple.ite (fun _ => ?_) fun _ => hsame
    have hkept : ∀ s' : Process C, s'.disk = s.disk → start.Consistent s'.disk :=
      fun _ hs' => hs' ▸ h
    refine (rewrite_plans _).consequence (fun _ heq => by rw [heq]) ?_ (fun _ => hkept) hkept
    intro _ s' hwritten
    exact consistent_of_set hL hplans hnames hwritten rfl rfl (by simp)

end

/-- None of the files has been taken, or one plan speaks of all of them and is the only one; its
payload holds them as long as it is staged. -/
def Disk.Together (start d : Disk C) : Prop :=
  (d.legacy = start.legacy ∧ ∀ id, d.planOf id = none) ∨
    ∃ id plan, d.planOf id = some plan ∧ plan.files.map (·.name) = start.restorable.map Prod.fst ∧
      (plan.status = .staged → ∀ e ∈ start.restorable, payloadOf d id e.1 = some e.2) ∧
      ∀ other, other ≠ id → d.planOf other = none

lemma Disk.Consistent.together (h : start.Consistent d) :
    start.Together d := by
  rcases h with hunmoved | ⟨L,plan,hL,hplans,hnames,hholding⟩
  · refine .inl ⟨hunmoved.legacy,fun id => ?_⟩
    cases hplan : d.planOf id with
    | none => rfl
    | some q => exact absurd (planOf_mem hplan) (hunmoved.empty id q)
  · refine .inr ⟨plan.operationId,plan,planOf_set hL.ids hL.mem hplans rfl,hnames,hholding,
      fun other hother => ?_⟩
    cases hplan : d.planOf other with
    | none => rfl
    | some q =>
      have hmem := planOf_mem hplan
      rw [hplans] at hmem
      rcases mem_set.mp hmem with ⟨-,heq⟩ | ⟨hmem,-⟩
      · exact absurd (Prod.mk.inj heq).1 hother
      · exact absurd (hL.others other q hmem) hother

def UndisturbedCall (event : RestoreEvent C) : Prop :=
  event.startup = true ∧ Allowed Undisturbed event.faults

lemma restoreStep_consistent {sqlite : Sqlite C} {event : RestoreEvent C}
    (hnodup : (start.legacy.map Prod.fst).Nodup) (hcall : UndisturbedCall event)
    (h : start.Consistent d) : start.Consistent (restoreStep sqlite d event) := by
  obtain ⟨hstartup,hfaults⟩ := hcall
  have hafter : ∀ {m : Restore C Unit}, Triple Undisturbed (fun s => s.disk = d) m
      start.consistentPost → start.Consistent (m.after { disk := d } event.faults).disk := by
    intro m hm
    exact hm.after rfl hfaults
  cases event with
  | stage | schedule | cancel => cases hstartup
  | apply drawn faults => exact hafter (applyPendingRestores_consistent sqlite hnodup h)
  | confirm faults => exact hafter (confirmRestore_consistent h)
  | startupFailed faults => exact hafter (markStartupFailure_consistent h)

theorem legacy_together (sqlite : Sqlite C) (start : Disk C) (hstart : start.operations = [])
    (hnodup : (start.legacy.map Prod.fst).Nodup) (events : List (RestoreEvent C))
    (hcalls : ∀ event ∈ events, UndisturbedCall event) :
    start.Together (events.foldl (restoreStep sqlite) start) := by
  have hempty : start.plans = [] := by rw [Disk.plans,hstart,List.map_nil]
  have hbegin : start.Consistent start := by
    refine .inl ⟨rfl,?_,?_⟩ <;> rw [hempty]
    · exact List.nodup_nil
    · exact fun _ _ h => absurd h List.not_mem_nil
  have hstep : ∀ d event, UndisturbedCall event → start.Consistent d →
      start.Consistent (restoreStep sqlite d event) :=
    fun _ _ hcall h => restoreStep_consistent hnodup hcall h
  have halong : Along (restoreStep sqlite) (fun _ event => UndisturbedCall event) start events :=
    along_of_mem (fun _ => hcalls) start
  exact (along_invariant hstep hbegin halong).together

/-- Two databases that belong together. -/
def sampleLegacy : Disk String where
  live := fun _ => none
  legacy := [(canonicalDbName,.file "a"),(conversationDbName,.file "b")]

/-- A crash that strikes only where there is no operation yet. -/
def early (s : Process String) : Fate := if s.disk.operations = [] then .crashes else .ok

theorem legacy_together_sample :
    let last := [RestoreEvent.apply "op-00001" [fun _ => .ok,early],.apply "op-00002" []].foldl
      (restoreStep sampleSqlite) sampleLegacy
    (last.planOf "op-00002").map (·.status) = some .validating ∧ sampleLegacy.Together last := by
  have hcalls : ∀ event ∈ [RestoreEvent.apply "op-00001" [fun _ => .ok,early],
      .apply "op-00002" []], UndisturbedCall event := by
    intro event hmem
    rcases List.mem_cons.mp hmem with rfl | hmem
    · refine ⟨rfl,fun decision hdecision s hmoved => ?_⟩
      rcases List.mem_cons.mp hdecision with rfl | hdecision
      · rfl
      · obtain ⟨o,ho,-⟩ := hmoved
        rw [List.mem_singleton.mp hdecision,early,if_neg (List.ne_nil_of_mem ho)]
    · rw [List.mem_singleton.mp hmem]
      exact ⟨rfl,fun _ hdecision => absurd hdecision List.not_mem_nil⟩
  exact ⟨by decide +kernel, legacy_together sampleSqlite sampleLegacy rfl (by decide) _ hcalls⟩

/-- The first start dies between the two moves; the second one migrates what is left. -/
def splitRun : List (RestoreEvent String) :=
  [.apply "op-00001" (fates [.ok,.ok,.ok,.crashes]),.apply "op-00002" []]

theorem legacy_split : ¬sampleLegacy.Together
    (splitRun.foldl (restoreStep sampleSqlite) sampleLegacy) := by
  have hleft : (splitRun.foldl (restoreStep sampleSqlite) sampleLegacy).legacy = [] := by
    decide +kernel
  have hplans : (splitRun.foldl (restoreStep sampleSqlite) sampleLegacy).plans.map
      (fun e => e.2.map fun plan => plan.files.map (·.name)) = [none,some [conversationDbName]] := by
    decide +kernel
  rintro (⟨hlegacy,-⟩ | ⟨id,plan,hplan,hnames,-⟩)
  · rw [hleft] at hlegacy
    cases hlegacy
  · have hmem := List.mem_map_of_mem
      (f := fun e => e.2.map fun plan => plan.files.map (·.name)) (planOf_mem hplan)
    rw [hplans,Option.map_some,hnames] at hmem
    revert hmem
    decide

end Memora.Backup

import Memora.RestoreFiles

/-! A rollback returns every file that is ready for it, wherever it is cut off in between. -/
namespace Memora.Backup
open Restore

variable {C : Type} {t : Target C} {d : Disk C} {plan : RestorePlan}

/-- The plan of the target is on disk, and it is the only one that may block. -/
structure Target.OnDisk (t : Target C) (d : Disk C) (plan : RestorePlan) : Prop where
  planOf : d.planOf t.operationId = some plan
  id : plan.operationId = t.operationId
  names : plan.files.map (·.name) = t.names
  ids : (d.operations.map (·.operationId)).Nodup
  others : ∀ o ∈ d.operations, o.operationId ≠ t.operationId → ∀ q, o.plan = some q →
    q.blocking = false
  clean : t.Clean d.live

def Target.Inv (t : Target C) (d : Disk C) : Prop :=
  ∃ plan, t.OnDisk d plan ∧ ∀ f ∈ plan.files, t.Phase d f plan.status

structure Target.Holds (t : Target C) (plan : RestorePlan) : Prop where
  id : plan.operationId = t.operationId
  names : plan.files.map (·.name) = t.names

namespace Target.OnDisk

lemma operation (h : t.OnDisk d plan) :
    ∃ o, d.operation? t.operationId = some o ∧ o.plan = some plan := planOf_some h.planOf

lemma holds (h : t.OnDisk d plan) : t.Holds plan := ⟨h.id,h.names⟩

lemma write (h : t.OnDisk d plan) {next : RestorePlan} (hnext : t.Holds next) :
    t.OnDisk (d.writePlan next) next where
  planOf := by
    rw [← hnext.id]
    have hplan : d.planOf next.operationId = some plan := hnext.id ▸ h.planOf
    exact planOf_writePlan hplan
  id := hnext.id
  names := hnext.names
  ids := by
    have hkeys := RowTable.map_modify (fun o : Operation C => o.operationId)
      (fun o => o.operationId = next.operationId) (fun o => { o with plan := some next })
      d.operations fun _ _ _ => rfl
    exact hkeys ▸ h.ids
  others := by
    intro o ho hne q hq
    obtain ⟨before,hbefore,rfl⟩ := RowTable.mem_modify.mp ho
    by_cases hid : before.operationId = next.operationId
    · rw [if_pos (by simpa using hid)] at hne
      exact absurd (hid.trans hnext.id) hne
    · rw [if_neg (by simpa using hid)] at hne hq
      exact h.others before hbefore hne q hq
  clean := h.clean

lemma modify (h : t.OnDisk d plan) {f : Operation C → Operation C}
    (hid : ∀ o, (f o).operationId = o.operationId) (hplan : ∀ o, (f o).plan = o.plan)
    {live : Directory C} (hclean : t.Clean live) :
    t.OnDisk { d.modifyOperation t.operationId f with live } plan where
  planOf := by
    obtain ⟨o,ho,hop⟩ := h.operation
    have hfound : (d.modifyOperation t.operationId f).operation? t.operationId = some (f o) := by
      rw [operation?_modify f hid rfl,ho]
      rfl
    change ((d.modifyOperation t.operationId f).operation? t.operationId).bind (·.plan) = some plan
    rw [hfound,Option.bind_some,hplan,hop]
  id := h.id
  names := h.names
  ids := by
    have hkeys := RowTable.map_modify (fun o : Operation C => o.operationId)
      (fun o => o.operationId = t.operationId) f d.operations fun o _ _ => hid o
    exact hkeys ▸ h.ids
  others := by
    intro o ho hne q hq
    obtain ⟨before,hbefore,rfl⟩ := RowTable.mem_modify.mp ho
    by_cases hsame : before.operationId = t.operationId
    · rw [if_pos (by simpa using hsame)] at hne
      exact absurd ((hid before).trans hsame) hne
    · rw [if_neg (by simpa using hsame)] at hne hq
      exact h.others before hbefore hne q hq
  clean := hclean

lemma live (h : t.OnDisk d plan) {live : Directory C} (hclean : t.Clean live) :
    t.OnDisk { d with live } plan :=
  ⟨h.planOf,h.id,h.names,h.ids,h.others,hclean⟩

end Target.OnDisk

lemma Target.Clean.put {live : Directory C} (h : t.Clean live) {name : String}
    (hname : name ∈ t.names) (entry : Option (Entry C)) : t.Clean (live.put name entry) := by
  intro n hn hdb
  rw [Directory.content?,Directory.put_of_ne _ _ (t.notLog name hname n).symm]
  exact h n hn hdb

namespace Target.OnDisk
variable {name : String}

lemma moveToPrevious (h : t.OnDisk d plan) (hname : name ∈ t.names) :
    t.OnDisk (Restore.moveToPrevious t.operationId name d) plan := by
  refine h.modify ?_ ?_ (h.clean.put hname none) <;> exact fun _ => rfl

lemma installPayload (h : t.OnDisk d plan) (hname : name ∈ t.names) :
    t.OnDisk (Restore.installPayload t.operationId name d) plan := by
  obtain ⟨o,ho,-⟩ := h.operation
  unfold Restore.installPayload
  rw [ho]
  refine h.modify ?_ ?_ (h.clean.put hname _) <;> exact fun _ => rfl

lemma moveBack (h : t.OnDisk d plan) (hname : name ∈ t.names) :
    t.OnDisk (Restore.moveBack t.operationId name d) plan := by
  obtain ⟨o,ho,-⟩ := h.operation
  unfold Restore.moveBack
  rw [ho]
  refine h.modify ?_ ?_ (h.clean.put hname _) <;> exact fun _ => rfl

lemma unlinkLive (h : t.OnDisk d plan) (hname : name ∈ t.names) :
    t.OnDisk (Restore.unlinkLive name d) plan := h.live (h.clean.put hname none)

end Target.OnDisk

lemma Target.Holds.eq_of_name (h : t.Holds plan) {f g : RestoreFileProgress}
    (hf : f ∈ plan.files) (hg : g ∈ plan.files) (hname : f.name = g.name) : f = g :=
  have hnodup : (plan.files.map (·.name)).Nodup := h.names ▸ t.nodup
  RowTable.eq_of_key_eq hnodup hf hg hname

lemma Target.Holds.name_mem (h : t.Holds plan) {f : RestoreFileProgress} (hf : f ∈ plan.files) :
    f.name ∈ t.names := h.names ▸ List.mem_map_of_mem hf

/-- A rollback that has begun: the files that are left are ready, the others are back. -/
structure Target.Returning (t : Target C) (plan : RestorePlan) (left : List RestoreFileProgress)
    (s : Process C) : Prop where
  plan_eq : s.plan = plan
  onDisk : t.OnDisk s.disk plan
  rolling : plan.status = .rollingBack
  sub : ∀ f ∈ left, f ∈ plan.files
  nodup : (left.map (·.name)).Nodup
  ready : ∀ f ∈ left, t.Ready s.disk f
  back : ∀ f ∈ plan.files, f ∉ left → t.Returned s.disk f.name

/-- A rollback that is cut off: every file is kept. -/
structure Target.CutOff (t : Target C) (s : Process C) : Prop where
  holds : t.Holds s.plan
  onDisk : ∃ plan, t.OnDisk s.disk plan ∧ plan.status = .rollingBack ∧ plan.files = s.plan.files
  kept : ∀ f ∈ s.plan.files, t.Kept s.disk f.name ∧ t.Recorded s.disk f

lemma Target.CutOff.inv {s : Process C} (h : t.CutOff s) : t.Inv s.disk := by
  obtain ⟨plan,hdisk,hstatus,hfiles⟩ := h.onDisk
  refine ⟨plan,hdisk,fun f hf => ?_⟩
  rw [hstatus]
  exact h.kept f (hfiles ▸ hf)

namespace Target.Returning
variable {s : Process C} {f : RestoreFileProgress} {left : List RestoreFileProgress}

lemma kept (h : t.Returning plan left s) {g : RestoreFileProgress} (hg : g ∈ plan.files) :
    t.Kept s.disk g.name ∧ t.Recorded s.disk g := by
  by_cases hleft : g ∈ left
  · exact ⟨(h.ready g hleft).1,(h.ready g hleft).2.1⟩
  · exact ⟨(h.back g hg hleft).kept,(h.back g hg hleft).recorded⟩

lemma cutOff (h : t.Returning plan left s) : t.CutOff s where
  holds := h.plan_eq ▸ h.onDisk.holds
  onDisk := ⟨plan,h.onDisk,h.rolling,by rw [h.plan_eq]⟩
  kept := fun g hg => h.kept (h.plan_eq ▸ hg)

lemma next (h : t.Returning plan (f::left) s) {disk : Disk C} (hdisk : t.OnDisk disk plan)
    (hsame : ∀ n, n ≠ f.name → t.SameFile s.disk disk n) (hback : t.Returned disk f.name) :
    t.Returning plan left { s with disk } where
  plan_eq := h.plan_eq
  onDisk := hdisk
  rolling := h.rolling
  sub := fun g hg => h.sub g (List.mem_cons_of_mem _ hg)
  nodup := (List.nodup_cons.mp h.nodup).2
  ready := by
    intro g hg
    have hne : g.name ≠ f.name := by
      intro hname
      exact (List.nodup_cons.mp h.nodup).1 (List.mem_map.mpr ⟨g,hg,hname⟩)
    exact (hsame _ hne).ready (h.ready g (List.mem_cons_of_mem _ hg))
  back := by
    intro g hg hleft
    by_cases hname : g.name = f.name
    · rw [hname]
      exact hback
    · refine (hsame _ hname).returned (h.back g hg ?_)
      intro hmem
      rcases List.mem_cons.mp hmem with rfl | hmem
      · exact hname rfl
      · exact hleft hmem

end Target.Returning

section Triples
variable {good : Process C → Fate → Prop} {f : RestoreFileProgress}
  {left : List RestoreFileProgress}

def Target.rollbackPost (t : Target C) (Q : Process C → Prop) : Post (Process C) Fault Unit :=
  ⟨fun _ => Q,fun _ => t.CutOff,fun s => t.Inv s.disk⟩

theorem moveBack_returning {s₀ s : Process C} (h : t.Returning plan (f::left) s₀)
    (hs : t.OnDisk s.disk plan) (hplan : s.plan = plan)
    (hsame : ∀ n, n ≠ f.name → t.SameFile s₀.disk s.disk n)
    (hprevious : t.previous s.disk f.name = t.original f.name) : t.Returning plan left
      { s with disk := moveBack t.operationId f.name s.disk } := by
  obtain ⟨o,ho,-⟩ := hs.operation
  have hname := hs.holds.name_mem (h.sub f List.mem_cons_self)
  have hnext := h.next (hs.moveBack hname) (fun n hn => ?_) (returned_of_moveBack ho hprevious)
  · exact ⟨hplan,hnext.onDisk,hnext.rolling,hnext.sub,hnext.nodup,hnext.ready,hnext.back⟩
  · obtain ⟨hlive,hprev,hpay⟩ := hsame n hn
    obtain ⟨hlive',hprev',hpay'⟩ := sameFile_moveBack ho hn
    exact ⟨hlive'.trans hlive,hprev'.trans hprev,hpay'.trans hpay⟩

theorem unlinked_cutOff {s : Process C} (h : t.Returning plan (f::left) s)
    (hprevious : t.previous s.disk f.name = t.original f.name) (hroom : t.Replaceable f.name) :
    t.CutOff { s with disk := unlinkLive f.name s.disk } where
  holds := h.cutOff.holds
  onDisk := by
    have hname := h.onDisk.holds.name_mem (h.sub f List.mem_cons_self)
    exact ⟨plan,h.onDisk.unlinkLive hname,h.rolling,by rw [h.plan_eq]⟩
  kept := by
    intro g hg
    have hmem : g ∈ plan.files := h.plan_eq ▸ hg
    have hold := h.kept hmem
    by_cases hname : g.name = f.name
    · have hlive : (unlinkLive f.name s.disk).live g.name = none := by
        rw [hname]
        exact Directory.put_same ..
      refine ⟨.inr ⟨hname ▸ hprevious,hname ▸ hroom,.inl hlive⟩,?_⟩
      intro _ hstaged
      exact absurd (hlive.symm.trans hstaged) (by simp [Target.staged])
    · have hsame := sameFile_unlinkLive t s.disk hname
      exact ⟨hsame.kept hold.1,hsame.recorded hold.2⟩

lemma Target.Kept.replaced {d : Disk C} {n : String} (h : t.Kept d n)
    (hfile : (t.previous d).isFile n = true) : t.previous d n = t.original n ∧ t.Replaceable n := by
  rcases h with ⟨-,hnone⟩ | ⟨hprevious,hroom,-⟩
  · rw [Directory.isFile,hnone] at hfile
    cases hfile
  · exact ⟨hprevious,hroom⟩

lemma Target.Ready.without_previous {d : Disk C} (h : t.Ready d f)
    (hfile : (t.previous d).isFile f.name = false) :
    t.previous d f.name = none ∧ ((d.live f.name = t.original f.name ∧
        (t.original f.name ≠ none → f.installed = false)) ∨
      (t.original f.name = none ∧ d.live f.name = t.staged f.name ∧ f.installed = true)) := by
  obtain ⟨hkept,hrecorded,hflag⟩ := h
  rcases hkept with ⟨hlive,hnone⟩ | ⟨hprevious,hroom,hlive⟩
  · exact ⟨hnone,.inl ⟨hlive,hflag hnone⟩⟩
  · rcases hroom with habsent | ⟨c,hc⟩
    · refine ⟨hprevious.trans habsent,?_⟩
      rcases hlive with hlive | hlive
      · exact .inl ⟨hlive.trans habsent.symm,fun hpresent => absurd habsent hpresent⟩
      · exact .inr ⟨habsent,hlive,hrecorded habsent hlive⟩
    · rw [Directory.isFile,hprevious,hc] at hfile
      cases hfile

lemma rollbackFile_returns : Triple good (t.Returning plan (f::left)) (rollbackFile t.operationId f)
      (t.rollbackPost (t.Returning plan left)) := by
  refine Triple.get_bind fun s hs => ?_
  have hready := hs.ready f List.mem_cons_self
  have hname := hs.onDisk.holds.name_mem (hs.sub f List.mem_cons_self)
  refine Triple.ite (fun hfile => ?_) fun hfile => ?_
  · obtain ⟨hprevious,hroom⟩ := hready.1.replaced hfile
    refine Triple.ite (fun hlive => ?_) fun hlive => ?_
    · refine Triple.bind (fun _ s' => s' = { s with disk := unlinkLive f.name s.disk })
        (Triple.operation ?_ ?_ ?_) fun _ => Triple.operation ?_ ?_ ?_
      · rintro _ rfl
        rfl
      · rintro _ rfl _
        exact hs.cutOff
      · rintro _ rfl _
        exact hs.cutOff.inv
      · rintro _ rfl
        exact moveBack_returning hs (hs.onDisk.unlinkLive hname) hs.plan_eq
          (fun n hn => sameFile_unlinkLive t s.disk hn) hprevious
      · rintro _ rfl _
        exact unlinked_cutOff hs hprevious hroom
      · rintro _ rfl _
        exact (unlinked_cutOff hs hprevious hroom).inv
    · refine Triple.operation ?_ ?_ ?_
      · rintro _ rfl
        exact moveBack_returning hs hs.onDisk hs.plan_eq (fun n _ => .refl t _ n) hprevious
      · rintro _ rfl _
        exact hs.cutOff
      · rintro _ rfl _
        exact hs.cutOff.inv
  · obtain ⟨hnone,hcase⟩ := hready.without_previous (by simpa [Target.previous] using hfile)
    refine Triple.ite (fun hunlink => ?_) fun hunlink => ?_
    · obtain ⟨hflag,hlive⟩ := Bool.and_eq_true_iff.mp hunlink
      have habsent : t.original f.name = none := by
        rcases hcase with ⟨horiginal,hpresent⟩ | ⟨habsent,-⟩
        · by_contra hne
          rw [hpresent hne] at hflag
          cases hflag
        · exact habsent
      refine Triple.operation ?_ ?_ ?_
      · rintro _ rfl
        refine hs.next (hs.onDisk.unlinkLive hname) (fun n hn => sameFile_unlinkLive t _ hn) ?_
        exact ⟨(Directory.put_same ..).trans habsent.symm,hnone⟩
      · rintro _ rfl _
        exact hs.cutOff
      · rintro _ rfl _
        exact hs.cutOff.inv
    · refine Triple.pure ?_
      rintro _ rfl
      refine hs.next hs.onDisk (fun n _ => .refl t _ n) ⟨?_,hnone⟩
      rcases hcase with ⟨horiginal,-⟩ | ⟨-,hstaged,hflag⟩
      · exact horiginal
      · refine absurd ?_ hunlink
        rw [hflag,Directory.isFile,hstaged]
        rfl

end Triples

structure Target.Rollable (t : Target C) (s : Process C) : Prop where
  inv : t.Inv s.disk
  holds : t.Holds s.plan
  ready : ∀ f ∈ s.plan.files, t.Ready s.disk f

def Target.anyPost (t : Target C) : Post (Process C) Fault Unit :=
  ⟨fun _ s => t.Inv s.disk,fun _ s => t.Inv s.disk,fun s => t.Inv s.disk⟩

section
variable {good : Process C → Fate → Prop}

lemma rollbackFailed_inv (fault : Fault) : Triple good t.CutOff (rollbackFailed fault)
    t.anyPost := by
  cases fault with
  | os =>
    refine Triple.bind (fun _ s => t.CutOff s ∧ s.plan.status = .rollbackPending)
      (Triple.modify fun s hs => ?_) fun _ => ?_
    · exact ⟨⟨⟨hs.holds.id,hs.holds.names⟩,hs.onDisk,hs.kept⟩,rfl⟩
    · refine Triple.bind (fun _ s => t.Inv s.disk) (Triple.operation ?_ ?_ ?_) fun _ =>
        Triple.raise fun s hs => hs
      · rintro s ⟨hs,hstatus⟩
        obtain ⟨plan,hdisk,-,-⟩ := hs.onDisk
        refine ⟨s.plan,hdisk.write hs.holds,fun f hf => ?_⟩
        rw [hstatus]
        have hsame := sameFile_writePlan t s.disk s.plan f.name
        exact ⟨hsame.kept (hs.kept f hf).1,hsame.recorded (hs.kept f hf).2⟩
      · exact fun s hs _ => hs.1.inv
      · exact fun s hs _ => hs.1.inv
  | database | operation => exact Triple.raise fun s hs => hs.inv

lemma rollback_inv : Triple good t.Rollable rollbackRestoreFiles t.anyPost := by
  refine Triple.bind (fun _ s => t.Rollable s ∧ s.plan.status = .rollingBack)
    (Triple.modify fun s hs => ?_) fun _ => ?_
  · exact ⟨⟨hs.inv,⟨hs.holds.id,hs.holds.names⟩,hs.ready⟩,rfl⟩
  refine Triple.bind (fun _ s => t.Returning s.plan s.plan.files.reverse s)
    (Triple.operation ?_ ?_ ?_) fun _ => Triple.get_bind fun s hs => ?_
  · rintro s ⟨hs,hstatus⟩
    obtain ⟨plan,hdisk,-⟩ := hs.inv
    refine ⟨rfl,hdisk.write hs.holds,hstatus,fun f hf => List.mem_reverse.mp hf,?_,?_,?_⟩
    · rw [List.map_reverse]
      exact List.nodup_reverse.mpr (hs.holds.names ▸ t.nodup)
    · exact fun f hf => (sameFile_writePlan t s.disk s.plan f.name).ready (hs.ready f (List.mem_reverse.mp hf))
    · exact fun f hf hleft => absurd (List.mem_reverse.mpr hf) hleft
  · exact fun s hs _ => hs.1.inv
  · exact fun s hs _ => hs.1.inv
  · refine Triple.handle (fun _ => t.CutOff) ?_ rollbackFailed_inv
    have hid : s.plan.operationId = t.operationId := hs.onDisk.id
    rw [hid]
    refine Triple.bind (fun _ => t.Returning s.plan [])
      ((Triple.forEach (t.Returning s.plan) (fun f left => rollbackFile_returns)
        (fun _ hdone => hdone) s.plan.files.reverse).weaken ?_) fun _ => ?_
    · rintro _ rfl
      exact hs
    · refine Triple.bind (fun _ s' => t.CutOff s' ∧ s'.plan.status = .rolledBack ∧
          ∀ f ∈ s'.plan.files, t.Returned s'.disk f.name) (Triple.modify fun s' hs' => ?_) fun _ =>
        Triple.operation ?_ ?_ ?_
      · have hcut := hs'.cutOff
        refine ⟨⟨⟨hcut.holds.id,hcut.holds.names⟩,hcut.onDisk,hcut.kept⟩,rfl,fun f hf => ?_⟩
        exact hs'.back f (hs'.plan_eq ▸ hf) List.not_mem_nil
      · rintro s' ⟨hcut,hstatus,hback⟩
        obtain ⟨plan,hdisk,-,-⟩ := hcut.onDisk
        refine ⟨s'.plan,hdisk.write hcut.holds,fun f hf => ?_⟩
        rw [hstatus]
        exact (hback f hf).1
      · exact fun s' hs' _ => hs'.1
      · exact fun s' hs' _ => hs'.1.inv

end

end Memora.Backup

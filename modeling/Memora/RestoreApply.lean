import Memora.RestoreRollback

/-! From the plan of a start to all payloads installed and validated, with what is left behind by a
failure or a crash on the way. -/
namespace Memora.Backup
open Restore

variable {C : Type} {t : Target C} {good : Process C → Fate → Prop} {s : Process C} {m : String}
  {f : RestoreFileProgress} {g : RestoreFileProgress} {d : Disk C}

structure Target.Working (t : Target C) (s : Process C) : Prop where
  started : s.startedApply = true
  onDisk : t.OnDisk s.disk s.plan
  status : s.plan.status = .applying ∨ s.plan.status = .validating
  phase : ∀ f ∈ s.plan.files, t.Phase s.disk f s.plan.status
  recorded : ∀ f ∈ s.plan.files, t.Recorded s.disk f

structure Target.Failing (t : Target C) (s : Process C) : Prop where
  inv : t.Inv s.disk
  holds : t.Holds s.plan
  started : s.startedApply = true → ∀ f ∈ s.plan.files, t.Ready s.disk f
  before : s.startedApply = false → ∀ f ∈ s.plan.files, t.Untouched s.disk f

def Target.applyPost {α : Type} (t : Target C) (Q : α → Process C → Prop) :
    Post (Process C) Fault α :=
  ⟨Q,fun _ => t.Failing,fun s => t.Inv s.disk⟩

namespace Target.Working
variable {s : Process C}

lemma inv (h : t.Working s) : t.Inv s.disk := ⟨s.plan,h.onDisk,h.phase⟩

lemma ready (h : t.Working s) (hf : f ∈ s.plan.files) : t.Ready s.disk f := by
  have hphase := h.phase f hf
  have hrecorded := h.recorded f hf
  rcases h.status with hstatus | hstatus <;> rw [hstatus] at hphase
  · exact hphase.ready hrecorded
  · exact hphase.1.ready hrecorded

lemma failing (h : t.Working s) : t.Failing s where
  inv := h.inv
  holds := h.onDisk.holds
  started := fun _ f hf => h.ready hf
  before := fun hstarted => by rw [h.started] at hstarted; cases hstarted

lemma frame (h : t.Working s) {disk : Disk C} (hdisk : t.OnDisk disk s.plan)
    (hsame : ∀ n ∈ t.names, t.SameFile s.disk disk n) : t.Working { s with disk } where
  started := h.started
  onDisk := hdisk
  status := h.status
  phase := fun f hf => (hsame _ (h.onDisk.holds.name_mem hf)).phase (h.phase f hf)
  recorded := fun f hf => (hsame _ (h.onDisk.holds.name_mem hf)).recorded (h.recorded f hf)

end Target.Working

section Install
variable {plan : RestorePlan} {f : RestoreFileProgress}

structure Target.Room (t : Target C) (f : RestoreFileProgress) (s : Process C) : Prop where
  working : t.Working s
  applying : s.plan.status = .applying
  mem : f ∈ s.plan.files
  previous : t.previous s.disk f.name = t.original f.name
  replaceable : t.Replaceable f.name
  payload : t.payload s.disk f.name = t.staged f.name

/-- The payload of the file is live; the plan on disk does not say so yet. -/
structure Target.Placed (t : Target C) (plan : RestorePlan) (f : RestoreFileProgress)
    (s : Process C) : Prop where
  plan_eq : s.plan = plan
  started : s.startedApply = true
  onDisk : t.OnDisk s.disk plan
  applying : plan.status = .applying
  applies : ∀ g ∈ plan.files, t.Applies s.disk g
  recorded : ∀ g ∈ plan.files, g.name ≠ f.name → t.Recorded s.disk g
  replaced : t.Replaced s.disk f
  payload : t.payload s.disk f.name = none

lemma Target.Working.applies (h : t.Working s) (hstatus : s.plan.status = .applying)
    (hg : g ∈ s.plan.files) :
    t.Applies s.disk g := by
  have hphase := h.phase g hg
  rw [hstatus] at hphase
  exact hphase

lemma Target.Room.placed (h : t.Room f s) :
    t.Placed s.plan f { s with disk := installPayload t.operationId f.name s.disk } := by
  obtain ⟨o,ho,-⟩ := h.working.onDisk.operation
  obtain ⟨hreplaced,hpayload⟩ := replaced_of_room ho h.previous h.replaceable h.payload
  have hholds := h.working.onDisk.holds
  refine ⟨rfl,h.working.started,h.working.onDisk.installPayload (hholds.name_mem h.mem),
    h.applying,?_,?_,hreplaced,hpayload⟩
  · intro g hg
    by_cases hname : g.name = f.name
    · obtain rfl := hholds.eq_of_name hg h.mem hname
      exact .inr (.inr ⟨hreplaced,hpayload⟩)
    · exact (sameFile_installPayload ho hname).applies (h.working.applies h.applying hg)
  · intro g hg hname
    exact (sameFile_installPayload ho hname).recorded (h.working.recorded g hg)

lemma putPayload_places (hg : g.name = f.name) :
    Triple good (fun s => t.Room f s ∧ s.plan = plan) (putPayload t.operationId g)
      (t.applyPost fun result s => result.name = f.name ∧ result.installed = true ∧ t.Placed plan f s) := by
  refine Triple.bind (fun _ s => t.Placed plan f s) (Triple.operation ?_ ?_ ?_) fun _ =>
    Triple.pure fun s hs => ⟨hg,rfl,hs⟩
  · rintro s ⟨hs,rfl⟩
    rw [hg]
    exact hs.placed
  · exact fun s hs _ => hs.1.working.failing
  · exact fun s hs _ => hs.1.working.inv

lemma Target.Working.moved (h : t.Working s) (hstatus : s.plan.status = .applying)
    (hf : f ∈ s.plan.files) (huntouched : t.Untouched s.disk f)
    (hlive : s.disk.live.isFile f.name = true) (hlink : s.disk.live.isSymlink f.name = false) :
    t.Room f { s with disk := moveToPrevious t.operationId f.name s.disk } := by
  obtain ⟨o,ho,-⟩ := h.onDisk.operation
  have hholds := h.onDisk.holds
  have hmoved := movedAway_of_untouched ho huntouched hlive hlink
  have hphase : ∀ g ∈ s.plan.files, t.Applies (moveToPrevious t.operationId f.name s.disk) g ∧
        t.Recorded (moveToPrevious t.operationId f.name s.disk) g := by
    intro g hg
    by_cases hname : g.name = f.name
    · obtain rfl := hholds.eq_of_name hg hf hname
      exact ⟨.inr (.inl hmoved),hmoved.recorded⟩
    · have hsame := sameFile_moveToPrevious ho hname
      exact ⟨hsame.applies (h.applies hstatus hg),hsame.recorded (h.recorded g hg)⟩
  refine ⟨⟨h.started,h.onDisk.moveToPrevious (hholds.name_mem hf),h.status,fun g hg => ?_,
    fun g hg => (hphase g hg).2⟩,hstatus,hf,hmoved.2.1,.inr hmoved.2.2.1,hmoved.2.2.2.1⟩
  rw [hstatus]
  exact (hphase g hg).1

theorem Target.Applies.room (h : t.Applies d f) (hlive : d.live.isFile f.name = false)
    (hlink : d.live.isSymlink f.name = false) (hpayload : (t.payload d).isFile f.name = true) :
    t.previous d f.name = t.original f.name ∧ t.Replaceable f.name ∧
    t.payload d f.name = t.staged f.name := by
  rcases h with ⟨horiginal,hprevious,hstaged,-⟩ | ⟨-,hprevious,hfile,hstaged,-⟩ | ⟨-,hnone⟩
  · have habsent := Directory.eq_none hlive hlink
    rw [horiginal] at habsent
    exact ⟨hprevious.trans habsent.symm,.inl habsent,hstaged⟩
  · exact ⟨hprevious,.inr hfile,hstaged⟩
  · rw [Directory.isFile,hnone] at hpayload
    cases hpayload

lemma Target.Applies.untouched (h : t.Applies d f)
    (hlive : d.live.isFile f.name = true) (hpayload : (t.payload d).isFile f.name = true) :
    t.Untouched d f := by
  rcases h with huntouched | ⟨hnone,-⟩ | ⟨-,hnone⟩
  · exact huntouched
  · rw [Directory.isFile,hnone] at hlive
    cases hlive
  · rw [Directory.isFile,hnone] at hpayload
    cases hpayload

lemma installRestoreFile_places : Triple good
      (fun s => t.Working s ∧ s.plan.status = .applying ∧ f ∈ s.plan.files ∧ s.plan = plan)
      (installRestoreFile t.operationId f)
      (t.applyPost fun result s => result.name = f.name ∧ result.installed = true ∧ t.Placed plan f s) := by
  refine Triple.bind (fun _ s => t.Working s ∧ s.plan.status = .applying ∧ f ∈ s.plan.files ∧
    s.plan = plan) (Triple.operation (fun s hs => hs) ?_ ?_) fun _ => Triple.get_bind ?_
  · exact fun s hs _ => hs.1.failing
  · exact fun s hs _ => hs.1.inv
  rintro s ⟨hs,hstatus,hf,rfl⟩
  have happlies := hs.applies hstatus hf
  refine Triple.ite (fun _ => Triple.raise ?_) fun hpayload => ?_
  · rintro _ rfl
    exact hs.failing
  have hfile : (t.payload s.disk).isFile f.name = true := by
    simp only [Directory.isPlainFile,Bool.not_and,Bool.or_eq_true,not_or,Bool.not_eq_true,
      Bool.not_eq_false'] at hpayload
    exact hpayload.1
  refine Triple.ite (fun _ => Triple.raise ?_) fun hlink => ?_
  · rintro _ rfl
    exact hs.failing
  have hlink : s.disk.live.isSymlink f.name = false := by simpa using hlink
  refine Triple.ite (fun hlive => ?_) fun hlive => ?_
  · refine Triple.bind (fun _ s' => t.Room f s' ∧ s'.plan = s.plan) (Triple.operation ?_ ?_ ?_)
      fun _ => putPayload_places rfl
    · rintro _ rfl
      exact ⟨hs.moved hstatus hf (happlies.untouched hlive hfile) hlive hlink,rfl⟩
    · rintro _ rfl _
      exact hs.failing
    · rintro _ rfl _
      exact hs.inv
  · refine (putPayload_places rfl).weaken ?_
    rintro _ rfl
    obtain ⟨hprevious,hroom,hstaged⟩ := happlies.room (by simpa using hlive) hlink hfile
    exact ⟨⟨hs,hstatus,hf,hprevious,hroom,hstaged⟩,rfl⟩

end Install

lemma mem_set_file {files : List RestoreFileProgress} {i : ℕ} {f g h : RestoreFileProgress}
    (hnodup : (files.map (·.name)).Nodup) (hf : files[i]? = some f) (hh : h ∈ files.set i g) :
    h = g ∨ (h ∈ files ∧ h.name ≠ f.name) := by
  obtain ⟨j,hj⟩ := List.mem_iff_getElem?.mp hh
  rw [List.getElem?_set] at hj
  by_cases hij : i = j
  · rw [if_pos hij] at hj
    left
    split at hj
    · exact (Option.some.inj hj).symm
    · cases hj
  · rw [if_neg hij] at hj
    refine .inr ⟨List.mem_of_getElem? hj,fun hname => hij ?_⟩
    have hi : (files.map (·.name))[i]? = some f.name := by rw [List.getElem?_map,hf]; rfl
    have hj' : (files.map (·.name))[j]? = some f.name := by
      rw [List.getElem?_map,hj]
      exact congrArg some hname
    exact hnodup.getElem_inj_iff.mp (by
      rw [(List.getElem?_eq_some_iff.mp hi).2,(List.getElem?_eq_some_iff.mp hj').2])

structure Target.Installing (t : Target C) (left : List ℕ) (s : Process C) : Prop where
  working : t.Working s
  installed : ∀ j f, s.plan.files[j]? = some f → j ∉ left → f.installed = true

lemma installAt_installs {i : ℕ} {left : List ℕ} : Triple good (t.Installing (i::left)) (installAt i)
      (t.applyPost fun _ => t.Installing left) := by
  refine Triple.get_bind fun s hs => ?_
  have hskip : (∀ f, s.plan.files[i]? = some f → f.installed = true) → t.Installing left s := by
    intro hdone
    refine ⟨hs.working,fun j f hf hj => ?_⟩
    by_cases hij : j = i
    · exact hdone f (hij ▸ hf)
    · exact hs.installed j f hf fun hmem => (List.mem_cons.mp hmem).elim hij hj
  cases hfile : s.plan.files[i]? with
  | none =>
    refine Triple.pure ?_
    rintro _ rfl
    exact hskip fun f hf => by rw [hfile] at hf; cases hf
  | some f =>
    have hmem : f ∈ s.plan.files := List.mem_of_getElem? hfile
    have hholds := hs.working.onDisk.holds
    refine Triple.ite (fun hdone => Triple.pure ?_) fun hdone => ?_
    · rintro _ rfl
      refine hskip fun g hg => ?_
      rw [hfile] at hg
      exact Option.some.inj hg ▸ hdone
    -- a plan that is validated has all its files installed
    have hstatus : s.plan.status = .applying := by
      rcases hs.working.status with hstatus | hstatus
      · exact hstatus
      · have hphase := hs.working.phase f hmem
        rw [hstatus] at hphase
        exact absurd hphase.2.2 hdone
    have hid : s.plan.operationId = t.operationId := hholds.id
    rw [hid]
    refine Triple.bind (fun g s' => g.name = f.name ∧ g.installed = true ∧
        t.Placed s.plan f s') (installRestoreFile_places.weaken ?_) fun g => ?_
    · rintro _ rfl
      exact ⟨hs.working,hstatus,hmem,rfl⟩
    refine Triple.bind (fun _ s' => g.name = f.name ∧ g.installed = true ∧
        t.Placed s.plan f { s' with plan := s.plan } ∧
          s'.plan = { s.plan with files := s.plan.files.set i g }) (Triple.modify ?_) fun _ => ?_
    · rintro s' ⟨hname,hinstalled,hplaced⟩
      refine ⟨hname,hinstalled,?_,?_⟩
      · exact ⟨rfl,hplaced.started,hplaced.onDisk,hplaced.applying,hplaced.applies,
          hplaced.recorded,hplaced.replaced,hplaced.payload⟩
      · rw [hplaced.plan_eq]
    -- what is known of the new plan before it is written
    have hnext : ∀ s' : Process C, (g.name = f.name ∧ g.installed = true ∧
        t.Placed s.plan f { s' with plan := s.plan } ∧
          s'.plan = { s.plan with files := s.plan.files.set i g }) →
        t.Holds s'.plan ∧ ∀ h ∈ s'.plan.files, t.Applies s'.disk h ∧ t.Recorded s'.disk h := by
      rintro s' ⟨hname,hinstalled,hplaced,hplan⟩
      have hnames : (s.plan.files.set i g).map (·.name) = t.names := by
        have hold : (s.plan.files.map (·.name))[i]? = some f.name := by
          rw [List.getElem?_map,hfile]
          rfl
        obtain ⟨hi,hold⟩ := List.getElem?_eq_some_iff.mp hold
        rw [List.map_set,hname,← hold,List.set_getElem_self hi]
        exact hholds.names
      rw [hplan]
      refine ⟨⟨hid,hnames⟩,fun h hh => ?_⟩
      rcases mem_set_file (hholds.names ▸ t.nodup) hfile hh with rfl | ⟨hold,hne⟩
      · refine ⟨.inr (.inr ⟨?_,?_⟩),fun _ _ => hinstalled⟩
        · unfold Target.Replaced
          rw [hname]
          exact hplaced.replaced
        · rw [hname]
          exact hplaced.payload
      · exact ⟨hplaced.applies h hold,hplaced.recorded h hold hne⟩
    refine Triple.operation ?_ ?_ ?_
    · intro s' hs'
      obtain ⟨hnextHolds,hfiles⟩ := hnext s' hs'
      obtain ⟨hname,hinstalled,hplaced,hplan⟩ := hs'
      have happlying : s'.plan.status = .applying := by rw [hplan]; exact hstatus
      refine ⟨⟨hplaced.started,hplaced.onDisk.write hnextHolds,.inl happlying,?_,?_⟩,?_⟩
      · intro h hh
        rw [happlying]
        exact (sameFile_writePlan t s'.disk s'.plan h.name).applies (hfiles h hh).1
      · exact fun h hh =>
          (sameFile_writePlan t s'.disk s'.plan h.name).recorded (hfiles h hh).2
      · intro j h hh hj
        rw [hplan] at hh
        rw [List.getElem?_set] at hh
        by_cases hij : i = j
        · rw [if_pos hij] at hh
          split at hh
          · exact Option.some.inj hh ▸ hinstalled
          · cases hh
        · rw [if_neg hij] at hh
          exact hs.installed j h hh fun hmem =>
            (List.mem_cons.mp hmem).elim (fun heq => hij heq.symm) hj
    · intro s' hs' _
      obtain ⟨hnextHolds,hfiles⟩ := hnext s' hs'
      obtain ⟨hname,hinstalled,hplaced,hplan⟩ := hs'
      refine ⟨⟨s.plan,hplaced.onDisk,fun h hh => ?_⟩,hnextHolds,fun _ h hh => ?_,fun hfalse => ?_⟩
      · rw [hstatus]
        exact hplaced.applies h hh
      · exact (hfiles h hh).1.ready (hfiles h hh).2
      · exact absurd (hplaced.started.symm.trans hfalse) (by decide)
    · rintro s' ⟨-,-,hplaced,-⟩ _
      refine ⟨s.plan,hplaced.onDisk,fun h hh => ?_⟩
      rw [hstatus]
      exact hplaced.applies h hh

structure Target.Whole (t : Target C) (s : Process C) : Prop where
  working : t.Working s
  installed : ∀ f ∈ s.plan.files, f.installed = true

lemma installFiles_installs : Triple good t.Working installFiles (t.applyPost fun _ => t.Whole) := by
  refine Triple.get_bind fun s hs => ?_
  refine (Triple.forEach (fun left s => t.Installing left s) (fun _ _ => installAt_installs)
    (fun s hs => ?_) (List.range s.plan.files.length)).weaken ?_
  · refine ⟨hs.working,fun f hf => ?_⟩
    obtain ⟨j,hj⟩ := List.mem_iff_getElem?.mp hf
    exact hs.installed j f hj List.not_mem_nil
  · rintro _ rfl
    refine ⟨hs,fun j f hf hj => absurd ?_ hj⟩
    exact List.mem_range.mpr (List.getElem?_eq_some_iff.mp hf).1

lemma sameFile_settled {plan : RestorePlan} (hdisk : t.OnDisk d plan) {m n : String}
    (hm : isDatabaseName m = true) (hn : n ∈ t.names) :
    t.SameFile d { d with live := t.sqlite.settled d.live m } n := by
  refine ⟨?_,rfl,rfl⟩
  by_cases hname : n = m
  · subst hname
    exact settled_same (hdisk.clean n hn hm)
  · exact settled_other hname (t.notLog n hn m)

lemma Target.Clean.settled {live : Directory C} (h : t.Clean live)
    (hm : isDatabaseName m = true) : t.Clean (t.sqlite.settled live m) := by
  intro n hn hdb c
  rcases @settled_log _ _ _ t.sqlite live (isDatabaseName_ne_walName hm n).symm with
    hgone | hsame
  · rw [hgone]
    exact t.settles c
  · rw [hsame]
    exact h n hn hdb c

lemma Target.Whole.opened (h : t.Whole s) (hm : isDatabaseName m = true) :
    t.Whole { s with disk := { s.disk with live := t.sqlite.settled s.disk.live m } } where
  working := h.working.frame (h.working.onDisk.live (h.working.onDisk.clean.settled hm))
    fun _ hn => sameFile_settled h.working.onDisk hm hn
  installed := h.installed

lemma openDatabase_whole (hm : isDatabaseName m = true) :
    Triple good t.Whole (openDatabase t.sqlite m) (t.applyPost fun _ => t.Whole) :=
  Triple.operation (fun _ hs => hs.opened hm) (fun _ hs _ => hs.working.failing)
    fun _ hs _ => hs.working.inv

lemma check_whole (result : Except Fault Unit) :
    Triple good t.Whole (check result) (t.applyPost fun _ => t.Whole) := by
  cases result with
  | ok _ => exact Triple.pure fun s hs => hs
  | error fault => exact Triple.raise fun s hs => hs.working.failing

lemma check_whole_at (hs : t.Whole s) (result : Except Fault Unit) :
    Triple good (fun s' => s' = s) (check result) (t.applyPost fun _ => t.Whole) :=
  (check_whole result).weaken fun _ heq => heq ▸ hs

lemma quickCheck_whole (hm : isDatabaseName m = true) :
    Triple good t.Whole (quickCheck t.sqlite m) (t.applyPost fun _ => t.Whole) := by
  refine Triple.bind (fun _ => t.Whole) (openDatabase_whole hm) fun _ =>
    Triple.get_bind fun s hs => ?_
  cases s.disk.live.content? m with
  | none => exact Triple.raise fun _ heq => heq ▸ hs.working.failing
  | some content => exact check_whole_at hs _

lemma validateFile_whole (name : String) :
    Triple good t.Whole (validateFile t.sqlite name) (t.applyPost fun _ => t.Whole) := by
  refine Triple.get_bind fun s hs => Triple.ite (fun _ => Triple.raise ?_) fun _ =>
    Triple.ite (fun hm => ?_) fun _ => Triple.pure ?_
  · exact fun _ heq => heq ▸ hs.working.failing
  · exact (quickCheck_whole hm).weaken fun _ heq => heq ▸ hs
  · exact fun _ heq => heq ▸ hs

lemma openReferenced_whole : Triple good t.Whole (openReferenced t.sqlite)
    (t.applyPost fun _ => t.Whole) := by
  refine Triple.get_bind fun s hs => Triple.ite (fun _ => Triple.pure ?_) fun _ => ?_
  · exact fun _ heq => heq ▸ hs
  · refine Triple.bind (fun _ => t.Whole) ((openDatabase_whole (by decide)).weaken ?_)
      fun _ => Triple.get_bind fun s hs => check_whole_at hs _
    exact fun _ heq => heq ▸ hs

lemma openFeedback_whole : Triple good t.Whole (openFeedback t.sqlite)
    (t.applyPost fun _ => t.Whole) := by
  refine Triple.get_bind fun s hs => Triple.ite (fun _ => Triple.pure ?_) fun _ => ?_
  · exact fun _ heq => heq ▸ hs
  · refine Triple.bind (fun _ => t.Whole) ((openDatabase_whole (by decide)).weaken ?_)
      fun _ => Triple.get_bind fun s hs => check_whole_at hs _
    exact fun _ heq => heq ▸ hs

lemma validate_whole : Triple good t.Whole (validateRestoredFiles t.sqlite)
    (t.applyPost fun _ => t.Whole) := by
  refine Triple.get_bind fun s hs => ?_
  refine Triple.bind (fun _ => t.Whole) ((Triple.forEach (fun _ => t.Whole)
    (fun name _ => validateFile_whole name) (fun _ hs => hs) _).weaken
      fun _ heq => heq ▸ hs) fun _ => ?_
  refine Triple.get_bind fun s hs => ?_
  refine Triple.bind (fun _ => t.Whole) (check_whole_at hs _) fun _ => ?_
  refine Triple.bind (fun _ => t.Whole) (openDatabase_whole (by decide)) fun _ => ?_
  exact Triple.bind (fun _ => t.Whole) (openReferenced_whole) fun _ =>
    openFeedback_whole

lemma Target.Whole.replaced (h : t.Whole s)
    (hf : f ∈ s.plan.files) : t.Replaced s.disk f ∧ t.payload s.disk f.name = none := by
  have hphase := h.working.phase f hf
  have hinstalled := h.installed f hf
  rcases h.working.status with hstatus | hstatus <;> rw [hstatus] at hphase
  · rcases hphase with huntouched | hmoved | hreplaced
    · rw [huntouched.2.2.2] at hinstalled
      cases hinstalled
    · rw [hmoved.2.2.2.2] at hinstalled
      cases hinstalled
    · exact hreplaced
  · exact ⟨hphase.1,hphase.2.1⟩

structure Target.Finished (t : Target C) (s : Process C) : Prop where
  inv : t.Inv s.disk
  started : s.startedApply = true
  holds : t.Holds s.plan
  status : s.plan.status = .validating
  replaced : ∀ f ∈ s.plan.files,
    t.Replaced s.disk f ∧ t.payload s.disk f.name = none ∧ f.installed = true

lemma finishApply_inv : Triple good t.Whole finishApply (t.applyPost fun _ s => t.Inv s.disk) := by
  refine Triple.bind (fun _ => t.Finished) (Triple.modify fun s hs => ?_) fun _ =>
    Triple.operation ?_ ?_ ?_
  · refine ⟨hs.working.inv,hs.working.started,⟨hs.working.onDisk.id,?_⟩,rfl,fun f hf => ?_⟩
    · change (s.plan.files.map _).map _ = t.names
      rw [List.map_map]
      exact hs.working.onDisk.names
    · obtain ⟨g,hg,rfl⟩ := List.mem_map.mp hf
      obtain ⟨hreplaced,hpayload⟩ := hs.replaced hg
      exact ⟨hreplaced,hpayload,hs.installed g hg⟩
  · intro s hs
    obtain ⟨old,hdisk,-⟩ := hs.inv
    refine ⟨s.plan,hdisk.write hs.holds,fun f hf => ?_⟩
    refine (sameFile_writePlan t s.disk s.plan f.name).phase ?_
    rw [hs.status]
    exact hs.replaced f hf
  · intro s hs _
    refine ⟨hs.inv,hs.holds,fun _ f hf => ?_,fun hfalse => ?_⟩
    · obtain ⟨hreplaced,-,hflag⟩ := hs.replaced f hf
      exact hreplaced.ready fun _ _ => hflag
    · exact absurd (hs.started.symm.trans hfalse) (by decide)
  · exact fun s hs _ => hs.inv

end Memora.Backup

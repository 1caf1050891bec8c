import Memora.LearningStateCrash
import Memora.LearningSystem

/-! Saves, loads and finishes start no task and draw no id. What holds of every payload, in memory
and on disk, they keep, as long as restoring a payload keeps it. -/
namespace Memora.Learning

variable {F γ : Type*} {env : SystemEnv F γ} {w w' : World F γ}

structure World.Quiet (w w' : World F γ) : Prop where
  tasks : ∀ t ∈ w'.tasks, t ∈ w.tasks
  writes : w'.writes = w.writes
  origin : w'.origin = w.origin

lemma World.Quiet.refl (w : World F γ) : w.Quiet w := ⟨fun _ h => h,rfl,rfl⟩

lemma World.Quiet.trans {w₁ w₂ w₃ : World F γ} (h : w₁.Quiet w₂) (h' : w₂.Quiet w₃) :
    w₁.Quiet w₃ :=
  ⟨fun t ht => h.tasks t (h'.tasks t ht),h'.writes.trans h.writes,h'.origin.trans h.origin⟩

lemma quiet_setManager (w : World F γ) (i : ℕ) (m : Manager F) : w.Quiet (w.setManager i m) :=
  ⟨fun _ h => h,rfl,rfl⟩

lemma quiet_dropTask (w : World F γ) (operationId : String) : w.Quiet (w.dropTask operationId) :=
  ⟨fun _ h => (List.mem_filter.mp h).1,rfl,rfl⟩

lemma quiet_writeFiles (w : World F γ) (i : ℕ) (revision : String) (fault : Option SaveFault)
    (moments : Except String (List (Files (Payload F) (Legacy F)))) :
    w.Quiet (w.writeFiles i revision fault moments).1 := by
  unfold World.writeFiles
  split
  · exact World.Quiet.refl w
  · split
    · exact ⟨fun _ h => h,rfl,rfl⟩
    · exact ⟨fun _ h => h,rfl,rfl⟩

lemma quiet_saveState (w : World F γ) (i : ℕ) (d : Draw) (fault : Option SaveFault) :
    w.Quiet (w.saveState env i d fault).1 := by
  unfold World.saveState
  dsimp only
  split
  · exact World.Quiet.refl w
  · exact quiet_writeFiles w i _ fault _

lemma quiet_commit (w : World F γ) (i : ℕ) (d : Draw) (fault : Option SaveFault)
    (m : Manager F) (undo : Manager F → Manager F) : w.Quiet (w.commit env i d fault m undo).1 := by
  have hsave : (w.setManager i m).Quiet ((w.setManager i m).saveState env i d fault).1 :=
    quiet_saveState (w.setManager i m) i d fault
  have hboth := (quiet_setManager w i m).trans hsave
  unfold World.commit
  dsimp only
  split
  · exact hboth.trans (quiet_setManager _ i _)
  · exact hboth

lemma quiet_load (w : World F γ) (i : ℕ) (moved : Bool) (judge : Judge F)
    (recoveryRevision : String → String) (ids : LegacyIds) (d : Draw) (fault : Option SaveFault) :
    w.Quiet (w.load env i moved judge recoveryRevision ids d fault) := by
  have hset : ∀ m, w.Quiet ((w.noteLoad i (w.shared.files.loadSync env.store moved)).setManager
      i m) := fun _ => ⟨fun _ h => h,rfl,rfl⟩
  unfold World.load
  dsimp only
  split
  · exact hset _
  · split
    · exact hset _
    · split
      · exact ((hset _).trans (quiet_writeFiles _ i _ fault _)).trans (quiet_setManager _ i _)
      · exact ((hset _).trans (quiet_writeFiles _ i _ fault _)).trans (quiet_setManager _ i _)
  · split
    · exact hset _
    · exact hset _

lemma quiet_storeReload (w : World F γ) (i : ℕ) (moved : Bool) (judge : Judge F) (d : Draw)
    (fault : Option SaveFault) (next : Manager F → Option (ReloadOperation F)) :
    w.Quiet (w.storeReload env i moved judge d fault next) := by
  have hrefresh : w.Quiet (w.refresh env i moved judge).1 := by
    have hset : ∀ m, w.Quiet ((w.noteLoad i (w.shared.files.loadSync env.store moved)).setManager
        i m) := fun _ => ⟨fun _ h => h,rfl,rfl⟩
    unfold World.refresh
    dsimp only
    split
    · exact ⟨fun _ h => h,rfl,rfl⟩
    · split
      · split
        · exact hset _
        · exact hset _
      · exact hset _
  unfold World.storeReload
  dsimp only
  split
  · split
    · exact hrefresh
    · exact hrefresh.trans (quiet_commit _ i d fault _ _)
  · exact hrefresh

lemma quiet_finishTask (w : World F γ) (t : Task F) (result : ApplyResult) (d : Draw)
    (fault : Option SaveFault) : w.Quiet (w.finishTask env t result d fault) := by
  unfold World.finishTask
  split
  · exact World.Quiet.refl w
  · exact quiet_commit w t.owner d fault _ _
  · exact quiet_commit w t.owner d fault _ _
  · exact quiet_commit w t.owner d fault _ _

lemma task?_some {operationId : String} {t : Task F} (h : w.task? operationId = some t) :
    t ∈ w.tasks ∧ t.intent.operationId = operationId :=
  ⟨List.mem_of_find?_eq_some h,by simpa using List.find?_some h⟩

structure World.All (P : Payload F → Prop) (w : World F γ) : Prop where
  managers : ∀ i, P (w.managers i).toPayload
  files : w.shared.files.Holds P

structure Payload.Steady (env : LearningEnv F γ) (P : Payload F → Prop) : Prop where
  restore : ∀ p p' judge, P p → p.restore env judge = some p' → P p'
  interrupt : ∀ (m : Manager F) recoveryRevision now, P m.toPayload →
    P (m.interruptClaims recoveryRevision now).toPayload
  legacy : ∀ (l : Legacy F) ids now p judge, l.migrate env ids now = some p →
    (p.restore env judge).isSome = true → P p
  reload : ∀ (m : Manager F) r, P m.toPayload → P { m.toPayload with reloadOperation := r }

variable {P : Payload F → Prop}

lemma World.All.setManager (h : w.All P) (i : ℕ) {m : Manager F} (hm : P m.toPayload) :
    (w.setManager i m).All P where
  managers := by
    intro j
    change P (Function.update w.managers i m j).toPayload
    by_cases hj : j = i
    · subst hj
      rwa [Function.update_self]
    · rw [Function.update_of_ne hj]
      exact h.managers j
  files := h.files

lemma all_writeFiles (h : w.All P) (i : ℕ) (revision : String) (fault : Option SaveFault)
    {moments : Except String (List (Files (Payload F) (Legacy F)))}
    (hfiles : ∀ ms, moments = .ok ms → ∀ reached, (w.shared.files.stoppedAt ms reached).Holds P) :
    (w.writeFiles i revision fault moments).1.All P := by
  unfold World.writeFiles
  split
  · exact h
  rename_i ms
  have hreached : ∀ reached, ({ w with shared := w.shared.replaced i ms revision reached } :
      World F γ).All P := by
    intro reached
    refine ⟨h.managers,?_⟩
    have hkept := hfiles ms rfl reached
    simp only [Shared.replaced]
    split <;> exact hkept
  split
  · refine (hreached 3).setManager i ?_
    exact h.managers i
  · exact hreached _

lemma all_saveState (h : w.All P) (i : ℕ) (d : Draw) (fault : Option SaveFault) :
    (w.saveState env i d fault).1.All P := by
  unfold World.saveState
  dsimp only
  split
  · exact h
  · exact all_writeFiles h i _ fault fun ms hms reached =>
      holds_saved h.files (h.managers i) hms reached

lemma saveState_payload (env : SystemEnv F γ) (w : World F γ) (i j : ℕ) (d : Draw)
    (fault : Option SaveFault) :
    ((w.saveState env i d fault).1.managers j).toPayload = (w.managers j).toPayload ∧
      ((w.saveState env i d fault).2 = .refused → (w.saveState env i d fault).1.managers j = w.managers j) := by
  unfold World.saveState World.writeFiles
  dsimp only
  split
  · exact ⟨rfl,fun _ => rfl⟩
  split
  · exact ⟨rfl,fun _ => rfl⟩
  split
  · refine ⟨?_,fun h => (nomatch h)⟩
    simp only [World.updateManager,World.setManager]
    by_cases hj : j = i
    · subst hj
      rw [Function.update_self]
    · rw [Function.update_of_ne hj]
  · exact ⟨rfl,fun _ => rfl⟩

lemma commit_payload (env : SystemEnv F γ) (w : World F γ) (i : ℕ) (d : Draw)
    (fault : Option SaveFault) (m : Manager F) (undo : Manager F → Manager F) :
    ((w.commit env i d fault m undo).1.managers i).toPayload = m.toPayload ∨
      ((w.commit env i d fault m undo).1.managers i).toPayload = (undo m).toPayload := by
  have hself : (w.setManager i m).managers i = m := Function.update_self ..
  have hsave := saveState_payload env (w.setManager i m) i i d fault
  rw [hself] at hsave
  unfold World.commit
  dsimp only
  split
  · rename_i hr
    right
    simp only [World.updateManager,World.setManager,Function.update_self] at hsave ⊢
    rw [hsave.2 hr]
  · exact .inl hsave.1

lemma all_commit (h : w.All P) (i : ℕ) (d : Draw) (fault : Option SaveFault) {m : Manager F}
    {undo : Manager F → Manager F} (hm : P m.toPayload) (hundo : P (undo m).toPayload) :
    (w.commit env i d fault m undo).1.All P := by
  have hset : (w.setManager i m).All P := h.setManager i hm
  have hsave : ((w.setManager i m).saveState env i d fault).1.All P := all_saveState hset i d fault
  have hself : (w.setManager i m).managers i = m := Function.update_self ..
  unfold World.commit
  dsimp only
  split
  · rename_i hr
    refine hsave.setManager i ?_
    rw [(saveState_payload env (w.setManager i m) i i d fault).2 hr,hself]
    exact hundo
  · exact hsave

lemma all_noteLoad (env : SystemEnv F γ) (h : w.All P) (i : ℕ) (moved : Bool) :
    (w.noteLoad i (w.shared.files.loadSync env.store moved)).All P :=
  ⟨h.managers,(holds_loaded h.files moved).1⟩

lemma all_load (hP : Payload.Steady env.toLearningEnv P) (h : w.All P) (i : ℕ) (moved : Bool)
    (judge : Judge F) (recoveryRevision : String → String) (ids : LegacyIds) (d : Draw)
    (fault : Option SaveFault) : (w.load env i moved judge recoveryRevision ids d fault).All P := by
  have hpayload : ∀ p, (w.shared.files.loadSync env.store moved).2.payload = some (.inl p) → P p :=
    (holds_loaded h.files moved).2
  have hw := all_noteLoad env h i moved
  unfold World.load
  dsimp only
  split
  · exact hw.setManager i (h.managers i)
  · rename_i legacy _
    split
    · exact hw.setManager i (h.managers i)
    · rename_i p restored hmigrate
      obtain ⟨p',hp',hrestored⟩ := Option.bind_eq_some_iff.mp hmigrate
      obtain ⟨q,hq,hpq⟩ := Option.map_eq_some_iff.mp hrestored
      obtain ⟨rfl,rfl⟩ := Prod.mk.inj hpq
      have hlegacy : P p' := hP.legacy _ _ _ _ judge hp' (by simp [hq])
      have hset := hw.setManager i (m := { World.adopt (w.managers i)
        (w.shared.files.loadSync env.store moved).2 with toPayload := q }) (hP.restore _ _ _ hlegacy hq)
      have hfiles := all_writeFiles hset i d.stateRevision fault fun ms
        (hms : Files.migrateLegacy env.store (World.setManager _ i _).shared.files
          ((w.shared.files.loadSync env.store moved).2.migrationRevision.getD "") p'
          d.stateRevision = .ok ms) reached => holds_migrated hset.files hlegacy hms reached
      split
      · exact hfiles.setManager i (hfiles.managers i)
      · exact hfiles.setManager i (hfiles.managers i)
  · rename_i p hp
    split
    · exact hw.setManager i (h.managers i)
    · rename_i restored hrestored
      refine hw.setManager i (hP.interrupt _ recoveryRevision d.now ?_)
      exact hP.restore _ _ _ (hpayload p hp) hrestored

lemma all_refresh (hP : Payload.Steady env.toLearningEnv P) (h : w.All P) (i : ℕ) (moved : Bool)
    (judge : Judge F) : (w.refresh env i moved judge).1.All P := by
  have hpayload : ∀ p, (w.shared.files.loadSync env.store moved).2.payload = some (.inl p) → P p :=
    (holds_loaded h.files moved).2
  have hw := all_noteLoad env h i moved
  unfold World.refresh
  dsimp only
  split
  · exact hw
  split
  · rename_i p hp
    split
    · exact hw.setManager i (h.managers i)
    · rename_i restored hrestored
      exact hw.setManager i (hP.restore _ _ _ (hpayload p hp) hrestored)
  · exact hw.setManager i (h.managers i)

lemma all_storeReload (hP : Payload.Steady env.toLearningEnv P) (h : w.All P) (i : ℕ)
    (moved : Bool) (judge : Judge F) (d : Draw) (fault : Option SaveFault)
    (next : Manager F → Option (ReloadOperation F)) :
    (w.storeReload env i moved judge d fault next).All P := by
  have hfresh := all_refresh hP h i moved judge
  unfold World.storeReload
  dsimp only
  split
  · split
    · exact hfresh
    · refine all_commit hfresh i d fault ?_ ?_
      · exact hP.reload _ _ (hfresh.managers i)
      · exact hfresh.managers i
  · exact hfresh

/-- The calls that change candidates and history only. -/
inductive Manager.Reviewed (env : SystemEnv F γ) (m m' : Manager F) : Prop
  | rebuilt {record id differs} (h : m.rebuildCandidates record id differs = some m')
  | replaced (h : m.replaceWithReferenced = some m')
  | reset {now} (h : m.reset env.toLearningEnv now = some m')

variable [DecidableEq F] [DecidableEq γ] (env w) (d : Draw) (fault : Option SaveFault)

/-- What a call can come to, with what it found. -/
inductive World.Steps : LearningCall F γ → World F γ → Prop
  | ignored {call} : Steps call w
  | configure {call} (c) : Steps call { w with config := c }
  | start {call} (i enabled) : Steps call { w with
      managers := Function.update w.managers i { enabled }
      shared := w.shared.note i .unset
      tasks := w.tasks.filter fun t => t.owner ≠ i }
  | load {call} (i moved judge recoveryRevision ids) :
      Steps call (w.load env i moved judge recoveryRevision ids d fault)
  | publish {i key expected seen current valid intent m}
      (h : (w.managers i).preparePublish env.toLearningEnv key expected (env.read seen) current valid
        d.operationId d.publicationRevision d.now = .ok (intent,m)) :
      Steps (.publish i key expected seen current valid)
        ({ w with origin := w.origin.draw intent }.startTask env i d fault intent m)
  | clear {call i key expected seen r m}
      (h : (w.managers i).prepareRollback env.toLearningEnv key expected (env.read seen) d.operationId
        d.now = .clear r m) : Steps call (w.commit env i d fault m id).1
  | rollback {i key expected seen intent m}
      (h : (w.managers i).prepareRollback env.toLearningEnv key expected (env.read seen) d.operationId
        d.now = .prepared intent m) : Steps (.rollback i key expected seen)
        ({ w with origin := w.origin.draw intent }.startTask env i d fault intent m)
  | write {call t} (ht : t ∈ w.tasks) (outcome after readable) :
      Steps call (w.writeTask env t outcome after readable)
  | finish {call t} (ht : t ∈ w.tasks) (result) :
      Steps call ((w.dropTask t.intent.operationId).finishTask env t result d fault)
  | unknown {call} (t operationId after) :
      Steps call ({ w.dropTask operationId with config := after }.unknownTask env t d fault)
  | cancel {call m} {t : Task F} (operationId after)
      (h : (w.managers t.owner).markCancelled t.intent.operationId d.recoveryRevision d.now = some m) :
      Steps call ({ w.dropTask operationId with config := after }.commit env t.owner d fault m id).1
  | drop {call} (operationId config) : Steps call { w.dropTask operationId with config }
  | review {call i m} (h : (w.managers i).Reviewed env m) :
      Steps call (w.commit env i d fault m (World.keepRecords (w.managers i))).1
  | reload {call} (i moved judge next) : Steps call (w.storeReload env i moved judge d fault next)
  | save {call} (i) : Steps call (w.saveState env i d fault).1

lemma step_steps (call : LearningCall F γ) : w.Steps env d fault call
    (w.step env ⟨call,d,fault⟩) := by
  have htask : ∀ {operationId} {f : Task F → World F γ},
      (∀ t ∈ w.tasks, t.intent.operationId = operationId → w.Steps env d fault call (f t)) →
        w.Steps env d fault call ((w.task? operationId).elim w f) := by
    intro operationId f h
    cases ht : w.task? operationId with
    | none => exact .ignored
    | some t => exact h t (task?_some ht).1 (task?_some ht).2
  have hreview : ∀ i (found : Option (Manager F)), (∀ m, found = some m → (w.managers i).Reviewed env m) →
      w.Steps env d fault call (found.elim w fun m =>
        (w.commit env i d fault m (World.keepRecords (w.managers i))).1) := by
    intro i found h
    cases found with
    | none => exact .ignored
    | some m => exact .review (h m rfl)
  have hreload : ∀ (refused : Bool) i moved judge next, w.Steps env d fault call
      (if refused then w else w.storeReload env i moved judge d fault next) := by
    intro refused i moved judge next
    cases refused with
    | true => exact .ignored
    | false => exact .reload i moved judge next
  cases call with
  | configure c => exact .configure c
  | start i enabled => exact .start i enabled
  | load i moved judge recoveryRevision ids => exact .load i moved judge recoveryRevision ids
  | publish =>
    simp only [World.step,World.publish]
    split
    · exact .ignored
    · exact .publish ‹_›
  | rollback =>
    simp only [World.step,World.rollback]
    split
    · exact .ignored
    · exact .ignored
    · exact .clear ‹_›
    · exact .rollback ‹_›
  | write operationId outcome after readable =>
    exact htask fun t ht _ => .write ht outcome after readable
  | finish operationId =>
    refine htask fun t ht hid => ?_
    cases t.result with
    | none => exact .ignored
    | some result => exact hid ▸ .finish ht result
  | unknown operationId after => exact htask fun t _ _ => .unknown t operationId after
  | cancel operationId after =>
    refine htask fun t _ _ => ?_
    unfold World.cancelTask
    split
    · exact .drop operationId after
    · exact .cancel operationId after ‹_›
  | abandon operationId => exact .drop operationId w.config
  | rebuild i record differs => exact hreview _ _ fun m hm => .rebuilt hm
  | replaceWithReferenced i => exact hreview _ _ fun m hm => .replaced hm
  | reset i now => exact hreview _ _ fun m hm => .reset hm
  | recordReload | updateReload | reconcileReload => exact hreload _ _ _ _ _
  | save i => exact .save i

end Memora.Learning

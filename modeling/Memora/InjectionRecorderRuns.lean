import Memora.InjectionRecorderSteps
import Memora.InjectionRecorderCommits

/-! Any number of recorders over one store, under any order of calls, failures, cancellations and
restarts. -/
namespace Memora.Injection
open RunLaws

variable {traceSnapshotValues : RecallTraceSnapshot → Except String RecallTraceSnapshot}
variable {committed batch : List Admission} {w : RecorderWorld} {number : ℕ}

/-- What the claim of a run is about: the records of every recorder, and the rows of the store. -/
structure RecorderWorld.Accounted (w : RecorderWorld) : Prop where
  exactlyOne : ∀ r ∈ w.recorders, ∀ a ∈ r.admitted,
    r.persisted.count a+r.pending.count a+r.dropped.count a = 1
  onlyAdmitted : ∀ r ∈ w.recorders, ∀ a ∈ r.persisted++r.pending++r.dropped, a ∈ r.admitted
  persisted : ∀ r ∈ w.recorders, ∀ a ∈ r.persisted, a ∈ w.committed
  decisions : (w.store.decisions.map (·.decisionId)).Nodup
  lifecycle : (w.committed.filter (·.item.isLifecycle)).Nodup
  counts : CountedOnce w.committed w.store.lifecycleCounts
  capacity : ∀ r ∈ w.recorders, r.retained.length+r.queue.length ≤ r.config.queueCapacity
  idle : ∀ r ∈ w.recorders, r.idle = true → r.pending = []

structure RecorderWorld.Sound (w : RecorderWorld) : Prop where
  recorders : ∀ number (r : Recorder), w.recorders[number]? = some r → r.Sound number w.committed
  owners : ∀ a ∈ w.committed, a.owner < w.recorders.length
  keyed : w.store.Keyed
  once : (w.committed.filter (·.item.isLifecycle)).Nodup
  counted : CountedOnce w.committed w.store.lifecycleCounts

lemma RecorderWorld.Sound.accounted (h : w.Sound) : w.Accounted where
  exactlyOne := by
    intro r hr a ha
    obtain ⟨number,hnumber⟩ := List.mem_iff_getElem?.mp hr
    have hsound := h.recorders number r hnumber
    rw [hsound.partition a]
    exact List.count_eq_one_of_mem hsound.distinct ha
  onlyAdmitted := by
    intro r hr a ha
    obtain ⟨number,hnumber⟩ := List.mem_iff_getElem?.mp hr
    have hsound := h.recorders number r hnumber
    have hpos := List.count_pos_iff.mpr ha
    rw [List.count_append,List.count_append,hsound.partition a] at hpos
    exact List.count_pos_iff.mp hpos
  persisted := by
    intro r hr a ha
    obtain ⟨number,hnumber⟩ := List.mem_iff_getElem?.mp hr
    exact (h.recorders number r hnumber).written ha
  decisions := h.keyed
  lifecycle := h.once
  counts := h.counted
  capacity := by
    intro r hr
    obtain ⟨number,hnumber⟩ := List.mem_iff_getElem?.mp hr
    exact (h.recorders number r hnumber).bounded
  idle := by
    intro r hr
    obtain ⟨number,hnumber⟩ := List.mem_iff_getElem?.mp hr
    exact (h.recorders number r hnumber).quiet

lemma RecorderWorld.Sound.act (h : w.Sound) {f : Recorder → Option Recorder}
    (hf : ∀ r r', w.recorders[number]? = some r → f r = some r' →
      r.Sound number w.committed → r'.Sound number w.committed) : (w.act number f).Sound := by
  unfold RecorderWorld.act
  cases hr : w.recorders[number]? with
  | none => exact h
  | some r =>
    dsimp only
    cases hr' : f r with
    | none => exact h
    | some r' =>
      have hnew := hf r r' hr hr' (h.recorders number r hr)
      refine { recorders := ?_, owners := ?_, keyed := h.keyed, once := h.once
               counted := h.counted }
      · intro other q hq
        rw [List.getElem?_set] at hq
        by_cases hother : number = other
        · subst hother
          have hlt : number < w.recorders.length := (List.getElem?_eq_some_iff.mp hr).1
          rw [if_pos rfl,if_pos hlt] at hq
          cases hq
          exact hnew
        · rw [if_neg hother] at hq
          exact h.recorders other q hq
      · rw [List.length_set]
        exact h.owners

lemma Recorder.Sound.commitOther {r : Recorder} (h : r.Sound number committed)
    (hbatch : ∀ a ∈ batch, a.owner ≠ number) : r.Sound number (committed++batch) := by
  have hown : ∀ a ∈ r.pending, a ∉ batch := by
    intro a ha hmem
    exact hbatch a hmem (h.owned a (h.admitted_of_pending ha)).1
  have hun : ∀ part, part ⊆ r.pending → Unwritten committed part → Unwritten (committed++batch) part := by
    intro part hpart hold a ha hlife hmem
    rcases List.mem_append.mp hmem with hmem | hmem
    · exact hold a ha hlife hmem
    · exact hown a (hpart ha) hmem
  exact {
    numbered := h.numbered
    owned := h.owned
    distinct := h.distinct
    known := by
      intro a ha howner
      rcases List.mem_append.mp ha with ha | ha
      · exact h.known a ha howner
      · exact absurd howner (hbatch a ha)
    partition := h.partition
    unwritten := by
      refine hun _ ?_ h.unwritten
      intro a ha
      rw [Recorder.mem_pending]
      exact .inr (List.mem_append.mp ha)
    flight := by
      intro task htask
      have hold := h.flight task htask
      have hpart : task.batch ⊆ r.pending := by
        intro a ha
        rw [Recorder.mem_pending,WorkerPoint.inFlight_of_task htask]
        exact .inl ha
      unfold PersistTask.Consistent at hold ⊢
      split
      · rename_i hp
        rw [hp] at hold
        exact hun _ hpart hold
      · rename_i hp
        rw [hp] at hold
        exact hun _ hpart hold
      · rename_i hp
        rw [hp] at hold
        exact fun a ha => List.mem_append_left _ (hold ha)
      · rename_i hp
        rw [hp] at hold
        exact fun a ha => List.mem_append_left _ (hold ha)
      · rename_i hp
        rw [hp] at hold
        exact fun hretry => hun _ hpart (hold hretry)
      · trivial
    calm := h.calm
    written := fun a ha => List.mem_append_left _ (h.written ha)
    quiet := h.quiet
    bounded := h.bounded }

lemma Recorder.Sound.commitOwn {r : Recorder} (h : r.Sound number committed)
    {task task' : PersistTask} (htask : r.worker.task? = some task) {worker : WorkerPoint}
    (hworker : worker.task? = some task') (hbatch : task'.batch = task.batch)
    (hconsistent : task'.Consistent (committed++task.batch))
    (hcalm : worker.interrupted = false) :
    Recorder.Sound number (committed++task.batch) { r with worker } := by
  have hflight := WorkerPoint.inFlight_of_task htask
  have hsame : worker.inFlight = r.worker.inFlight := by
    rw [WorkerPoint.inFlight_of_task hworker,hbatch,hflight]
  have hpending : Recorder.pending { r with worker } = r.pending := by
    simp only [Recorder.pending,hsame]
  have hadmitted : ∀ a ∈ task.batch, a ∈ r.admitted := by
    intro a ha
    refine h.admitted_of_pending ?_
    rw [Recorder.mem_pending,hflight]
    exact .inl ha
  exact {
    numbered := h.numbered
    owned := h.owned
    distinct := h.distinct
    known := by
      intro a ha howner
      rcases List.mem_append.mp ha with ha | ha
      · exact h.known a ha howner
      · exact hadmitted a ha
    partition := by
      intro a
      rw [hpending]
      exact h.partition a
    unwritten := by
      intro a ha hlife hmem
      rcases List.mem_append.mp hmem with hmem | hmem
      · exact h.unwritten a ha hlife hmem
      · -- the batch and the queue are parts of a list without duplicates
        have hone := h.count_le_one a
        have htwo := List.count_pos_iff.mpr hmem
        have hthree := List.count_pos_iff.mpr ha
        simp only [Recorder.pending,hflight,List.count_append] at hone hthree
        omega
    flight := by
      intro other hother
      rw [hworker] at hother
      cases hother
      exact hconsistent
    calm := hcalm
    written := fun a ha => List.mem_append_left _ (h.written ha)
    quiet := by
      rw [hpending]
      exact h.quiet
    bounded := h.bounded }

variable (traceSnapshotValues) in
lemma insertStep_cases (w : RecorderWorld) (number : ℕ) (event : InsertEvent) :
    w.insertStep traceSnapshotValues number event = w ∨
      ∃ r task task' store' worker, w.recorders[number]? = some r ∧ r.worker.task? = some task ∧
        task.step traceSnapshotValues w.store event = some (store',task') ∧
        worker.task? = some task' ∧ worker.interrupted = r.worker.interrupted ∧
        w.insertStep traceSnapshotValues number event =
          { store := store'
            recorders := w.recorders.set number { r with worker }
            committed := if event = .commits then w.committed++task.batch else w.committed } := by
  unfold RecorderWorld.insertStep
  cases hr : w.recorders[number]? with
  | none => exact .inl rfl
  | some r =>
    dsimp only
    cases hw : r.worker with
    | flushing task =>
      dsimp only
      cases hs : task.step traceSnapshotValues w.store event with
      | none => exact .inl rfl
      | some result =>
        exact .inr ⟨r,task,result.2,result.1,.flushing result.2,rfl,by rw [hw]; rfl,hs, rfl,by rw [hw]; rfl,rfl⟩
    | awaiting task =>
      dsimp only
      cases hs : task.step traceSnapshotValues w.store event with
      | none => exact .inl rfl
      | some result =>
        exact .inr ⟨r,task,result.2,result.1,.awaiting result.2,rfl,by rw [hw]; rfl,hs, rfl,by rw [hw]; rfl,rfl⟩
    | gathering task interrupted =>
      dsimp only
      cases hs : task.step traceSnapshotValues w.store event with
      | none => exact .inl rfl
      | some result =>
        exact .inr ⟨r,task,result.2,result.1,.gathering result.2 interrupted,rfl,
          by rw [hw]; rfl,hs,rfl,by rw [hw]; rfl,rfl⟩
    | _ => exact .inl rfl

lemma RecorderWorld.Sound.insert (h : w.Sound) (number : ℕ) (event : InsertEvent) :
    (w.insertStep traceSnapshotValues number event).Sound := by
  rcases insertStep_cases traceSnapshotValues w number event with
    hsame | ⟨r,task,task',store',worker,hr,htask,hs,hworker,hcalm,heq⟩
  · rw [hsame]
    exact h
  have hsound := h.recorders number r hr
  have heffect := stepEffect hs (hsound.flight task htask)
  have hlt : number < w.recorders.length := (List.getElem?_eq_some_iff.mp hr).1
  rw [hsound.calm] at hcalm
  rw [heq]
  by_cases hevent : event = .commits
  · obtain ⟨hun,hconsistent,values,hvalues,hwrite⟩ := heffect.commit hevent
    have hpart : ∀ a ∈ task.batch, a ∈ r.pending := by
      intro a ha
      rw [Recorder.mem_pending,WorkerPoint.inFlight_of_task htask]
      exact .inl ha
    have howner : ∀ a ∈ task.batch, a.owner = number := fun a ha =>
      (hsound.owned a (hsound.admitted_of_pending (hpart a ha))).1
    have hnodup : task.batch.Nodup := by
      rw [List.nodup_iff_count_le_one]
      intro a
      have hone := hsound.count_le_one a
      simp only [Recorder.pending,WorkerPoint.inFlight_of_task htask,List.count_append] at hone
      omega
    rw [if_pos hevent]
    refine { recorders := ?_, owners := ?_, keyed := h.keyed.write hwrite, once := ?_
             counted := ?_ }
    · intro other q hq
      rw [List.getElem?_set] at hq
      by_cases hother : number = other
      · subst hother
        rw [if_pos rfl,if_pos hlt] at hq
        cases hq
        exact hsound.commitOwn htask hworker heffect.batch hconsistent hcalm
      · rw [if_neg hother] at hq
        refine (h.recorders other q hq).commitOther ?_
        intro a ha hsame
        exact hother ((howner a ha).symm.trans hsame)
    · intro a ha
      rw [List.length_set]
      rcases List.mem_append.mp ha with ha | ha
      · exact h.owners a ha
      · rw [howner a ha]
        exact hlt
    · rw [List.filter_append]
      refine List.nodup_append.mpr ⟨h.once,hnodup.filter _,?_⟩
      intro a ha b hb hab
      subst hab
      obtain ⟨hmem,hlife⟩ := List.mem_filter.mp hb
      exact hun a hmem hlife (List.mem_filter.mp ha).1
    · have hcounted := h.counted.batch hvalues hun hnodup
      rw [DecisionStore.write] at hwrite
      split at hwrite
      · cases hwrite
        exact hcounted
      · cases hwrite
  · obtain ⟨hstore,hconsistent⟩ := heffect.other hevent
    rw [if_neg hevent,hstore]
    refine { recorders := ?_, owners := ?_, keyed := h.keyed, once := h.once
             counted := h.counted }
    · intro other q hq
      rw [List.getElem?_set] at hq
      by_cases hother : number = other
      · subst hother
        rw [if_pos rfl,if_pos hlt] at hq
        cases hq
        refine hsound.setWorker ?_ ?_ hcalm
        · rw [WorkerPoint.inFlight_of_task hworker,heffect.batch, WorkerPoint.inFlight_of_task htask]
        · intro found hfound
          rw [hworker] at hfound
          cases hfound
          exact hconsistent
      · rw [if_neg hother] at hq
        exact h.recorders other q hq
    · rw [List.length_set]
      exact h.owners

lemma RecorderWorld.Sound.cleanup (h : w.Sound) (number : ℕ) (nowMs : ℤ) :
    (w.cleanupStep number nowMs).Sound := by
  unfold RecorderWorld.cleanupStep
  cases hr : w.recorders[number]? with
  | none => exact h
  | some r =>
    dsimp only
    cases hw : r.worker with
    | cleaning generation =>
      refine { recorders := h.recorders, owners := h.owners
               keyed := h.keyed.cleanup _ _ _, once := h.once, counted := ?_ }
      refine h.counted.mono (List.Subset.refl _) ?_
      dsimp only [DecisionStore.cleanup]
      by_cases hdays : r.retentionDays = 0
      · rw [if_pos hdays]
        exact List.Subset.refl _
      · rw [if_neg hdays]
        exact List.filter_subset_self _
    | _ => exact h

lemma RecorderWorld.Sound.restart (h : w.Sound) (config : RecorderConfig) :
    (w.step traceSnapshotValues (.restart config)).Sound := by
  unfold RecorderWorld.step
  refine { recorders := ?_, owners := ?_, keyed := h.keyed, once := h.once
           counted := h.counted }
  · intro number r hr
    rcases Nat.lt_or_ge number w.recorders.length with hlt | hge
    · rw [List.getElem?_append_left hlt] at hr
      exact h.recorders number r hr
    · rw [List.getElem?_append_right hge] at hr
      have hlast : number = w.recorders.length := by
        have hbound := (List.getElem?_eq_some_iff.mp hr).1
        rw [List.length_singleton] at hbound
        omega
      subst hlast
      simp only [Nat.sub_self,List.getElem?_cons_zero,Option.some.injEq] at hr
      rw [← hr]
      exact Recorder.sound_new config h.owners
  · intro a ha
    have hold := h.owners a ha
    rw [List.length_append,List.length_singleton]
    omega

def RecorderWorld.undisturbed (w : RecorderWorld) : RecorderEvent → Bool
  | .cancelWorker number => w.recorders[number]?.all fun r => !r.worker.gathers
  | _ => true

lemma RecorderWorld.Sound.call (h : w.Sound) (number : ℕ) {f : Recorder → Recorder}
    (hf : ∀ r, r.Sound number w.committed → (f r).Sound number w.committed) :
    (w.act number fun r => some (f r)).Sound := by
  refine h.act ?_
  intro r r' _ hr' hsound
  cases hr'
  exact hf r hsound

lemma RecorderWorld.Sound.step (h : w.Sound) {event : RecorderEvent}
    (hevent : w.undisturbed event = true) : (w.step traceSnapshotValues event).Sound := by
  cases event with
  | restart config => exact h.restart config
  | record number decision trace =>
    exact h.call number fun r hsound => Recorder.sound_record hsound decision trace
  | recordTrace number trace =>
    exact h.call number fun r hsound => Recorder.sound_recordTrace hsound trace
  | recordLifecycle number record =>
    exact h.call number fun r hsound => Recorder.sound_recordLifecycle hsound record
  | scheduleCleanup number retentionDays maxRows =>
    exact h.call number fun r hsound => Recorder.sound_scheduleCleanup hsound retentionDays maxRows
  | start number => exact h.call number fun r hsound => Recorder.sound_start hsound
  | close number => exact h.call number fun r hsound => Recorder.sound_close hsound
  | work number now => exact h.act fun r r' _ hr' hsound => Recorder.sound_work hsound hr'
  | cancelWorker number =>
    refine h.act fun r r' hr hr' hsound => ?_
    have hgathers : r.worker.gathers = false := by
      rw [RecorderWorld.undisturbed,hr] at hevent
      simpa using hevent
    exact Recorder.sound_cancelWorker hsound hgathers hr'
  | insert number event => exact h.insert number event
  | cleanupDeletes number nowMs => exact h.cleanup number nowMs
  | cleanupReturns number =>
    exact h.act fun r r' _ hr' hsound => Recorder.sound_cleanupReturns hsound hr'
  | cleanupRaises number now =>
    exact h.act fun r r' _ hr' hsound => Recorder.sound_cleanupRaises hsound hr'

lemma sound_initial : RecorderWorld.Sound {} where
  recorders := fun number r hr => by simp at hr
  owners := fun a ha => absurd ha List.not_mem_nil
  keyed := List.nodup_nil
  once := List.nodup_nil
  counted := fun row hrow => absurd hrow List.not_mem_nil

/-- Over any run from an empty store in which no cancellation reaches a worker that waits in the
gather of a cancelled call, every admitted record is persisted, pending or dropped. -/
theorem records_accounted {events : List RecorderEvent}
    (h : Along (RecorderWorld.step traceSnapshotValues)
      (fun w event => w.undisturbed event = true) {} events) :
    (events.foldl (RecorderWorld.step traceSnapshotValues) {}).Accounted :=
  (along_invariant (fun _ _ hevent hsound => hsound.step hevent) sound_initial h).accounted

def sampleConfig : RecorderConfig where
  queueCapacity := 1
  batchSize := 1
  retentionDays := 30
  maxRows := 100
  flushInterval := 1 / 4
  retryDelay := fun _ => 1 / 20
  capacity_pos := le_rfl
  batch_pos := le_rfl

def closedInFlight : List RecorderEvent :=
  [.restart sampleConfig,.record 0 { decisionId := "d1", createdAtMs := 1 } .missing,.start 0,
    .work 0 0,.work 0 0,.insert 0 .begins,.close 0]

/-- The wait of `close` ends and its worker is cancelled. -/
def cancelledOnce : List RecorderEvent :=
  closedInFlight++[.cancelWorker 0,.insert 0 .cancels,.work 0 6]

/-- A second cancellation, such as that of the task that waits in `close`, reaches the worker
before its call has ended. -/
def cancelledTwice : List RecorderEvent :=
  closedInFlight++[.cancelWorker 0,.cancelWorker 0,.insert 0 .cancels,.work 0 6]

theorem records_accounted_sample : (cancelledOnce.foldl (RecorderWorld.step Except.ok)
    {}).Accounted :=
  records_accounted (by decide +kernel)

/-- The batch is neither persisted nor pending nor counted as dropped. -/
theorem batch_lost : ¬(cancelledTwice.foldl (RecorderWorld.step Except.ok) {}).Accounted := by
  intro h
  have hlost : (cancelledTwice.foldl (RecorderWorld.step Except.ok) {}).recorders.map
      (fun r => (r.admitted.length,r.persisted,r.pending,r.dropped)) = [(1,[],[],[])] := by
    decide +kernel
  obtain ⟨r,hr,heq⟩ := List.mem_map.mp (hlost ▸ List.mem_singleton_self _)
  simp only [Prod.mk.injEq] at heq
  obtain ⟨hlength,hpersisted,hpending,hdropped⟩ := heq
  obtain ⟨a,ha⟩ := List.exists_mem_of_length_pos (by omega : 0 < r.admitted.length)
  have hone := h.exactlyOne r hr a ha
  simp [hpersisted,hpending,hdropped] at hone

end Memora.Injection

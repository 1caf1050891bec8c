import Memora.InjectionRecorder
import Memora.RunLaws

/-! Every record that a recorder took is persisted, pending or dropped, and only one of these. -/
namespace Memora.Injection

def Unwritten (committed batch : List Admission) : Prop :=
  ∀ a ∈ batch, a.item.isLifecycle = true → a ∉ committed

def PersistTask.Consistent (committed : List Admission) (task : PersistTask) : Prop :=
  match task.phase with
  | .created | .attempting _ false => Unwritten committed task.batch
  | .attempting _ true | .returned => task.batch ⊆ committed
  | .raised e => Recorder.retryLifecycle e = true → Unwritten committed task.batch
  | .cancelled => True

namespace WorkerPoint

def task? : WorkerPoint → Option PersistTask
  | .flushing task | .awaiting task | .gathering task _ => some task
  | _ => none

def gathers : WorkerPoint → Bool
  | .gathering _ _ => true
  | _ => false

def interrupted : WorkerPoint → Bool
  | .gathering _ interrupted => interrupted
  | _ => false

variable {point : WorkerPoint} {task : PersistTask}

lemma inFlight_of_task (h : point.task? = some task) : point.inFlight = task.batch := by
  cases point <;> cases h <;> rfl

lemma inFlight_of_none (h : point.task? = none) : point.inFlight = [] := by
  cases point <;> first | rfl | cases h

lemma interrupted_of_none (h : point.task? = none) : point.interrupted = false := by
  cases point <;> first | rfl | cases h

end WorkerPoint

structure Recorder.Conserved (number : ℕ) (committed : List Admission) (r : Recorder) : Prop where
  numbered : r.number = number
  owned : ∀ a ∈ r.admitted, a.owner = number ∧ a.ticket < r.admitted.length
  distinct : r.admitted.Nodup
  known : ∀ a ∈ committed, a.owner = number → a ∈ r.admitted
  partition : ∀ a, r.persisted.count a+r.pending.count a+r.dropped.count a = r.admitted.count a
  unwritten : Unwritten committed (r.retained++r.queue)
  flight : ∀ task, r.worker.task? = some task → task.Consistent committed
  calm : r.worker.interrupted = false
  written : r.persisted ⊆ committed
  quiet : r.idle = true → r.pending = []

structure Recorder.Sound (number : ℕ) (committed : List Admission) (r : Recorder) : Prop
    extends r.Conserved number committed where
  bounded : r.retained.length+r.queue.length ≤ r.config.queueCapacity

variable {number : ℕ} {committed batch : List Admission} {r r' : Recorder} {a : Admission}
  {batch' : List Admission}

lemma Unwritten.mono (h : Unwritten committed batch) (hsub : batch' ⊆ batch) :
    Unwritten committed batch' :=
  fun a ha hlife => h a (hsub ha) hlife

lemma Unwritten.append (h : Unwritten committed batch)
    (h' : Unwritten committed batch') : Unwritten committed (batch++batch') := by
  intro a ha hlife
  rcases List.mem_append.mp ha with ha | ha
  · exact h a ha hlife
  · exact h' a ha hlife

namespace Recorder

lemma mem_pending : a ∈ r.pending ↔ a ∈ r.worker.inFlight ∨ a ∈ r.retained ∨ a ∈ r.queue := by
  simp [pending]

namespace Conserved

lemma count_le_one (h : r.Conserved number committed) (a : Admission) :
    r.persisted.count a+r.pending.count a+r.dropped.count a ≤ 1 := by
  rw [h.partition a]
  exact List.nodup_iff_count_le_one.mp h.distinct a

lemma admitted_of_pending (h : r.Conserved number committed) (ha : a ∈ r.pending) :
    a ∈ r.admitted := by
  have hpos := List.count_pos_iff.mpr ha
  have hpart := h.partition a
  exact List.count_pos_iff.mp (by omega)

theorem regroup (h : r.Conserved number committed) (hn : r'.number = r.number)
    (ha : r'.admitted = r.admitted)
    (hcount : ∀ a, r'.persisted.count a+r'.pending.count a+r'.dropped.count a =
      r.persisted.count a+r.pending.count a+r.dropped.count a)
    (hun : Unwritten committed (r'.retained++r'.queue))
    (hflight : ∀ task, r'.worker.task? = some task → task.Consistent committed)
    (hcalm : r'.worker.interrupted = false) (hwritten : r'.persisted ⊆ committed)
    (hquiet : r'.idle = true → r'.pending = []) : r'.Conserved number committed where
  numbered := hn.trans h.numbered
  owned := by
    rw [ha]
    exact h.owned
  distinct := by
    rw [ha]
    exact h.distinct
  known := by
    rw [ha]
    exact h.known
  partition := fun a => by rw [hcount a,ha,h.partition a]
  unwritten := hun
  flight := hflight
  calm := hcalm
  written := hwritten
  quiet := hquiet

end Conserved

lemma conserved_dropOldest (h : r.Conserved number committed) :
    r.dropOldest.Conserved number committed := by
  unfold dropOldest
  cases hr : r.retained with
  | cons a rest =>
    have hun : Unwritten committed (rest++r.queue) := h.unwritten.mono (by simp [hr])
    refine h.regroup rfl rfl ?_ hun h.flight h.calm h.written ?_
    · intro x
      simp only [pending,hr,List.count_append,List.count_cons,List.count_nil]
      omega
    · intro hidle
      have hnone := h.quiet hidle
      simp [pending,hr] at hnone
  | nil =>
    cases hq : r.queue with
    | cons a rest =>
      have hun : Unwritten committed ([]++rest) := h.unwritten.mono (by simp [hq])
      refine h.regroup rfl rfl ?_ hun h.flight h.calm h.written ?_
      · intro x
        simp only [pending,hr,hq,List.count_append,List.count_cons,List.count_nil]
        omega
      · intro hidle
        have hnone := h.quiet hidle
        simp [pending,hq] at hnone
    | nil => exact h

lemma admitted_dropOldest (r : Recorder) : r.dropOldest.admitted = r.admitted := by
  unfold dropOldest
  cases r.retained with
  | cons a rest => rfl
  | nil => cases r.queue <;> rfl

lemma config_dropOldest (r : Recorder) : r.dropOldest.config = r.config := by
  unfold dropOldest
  cases r.retained with
  | cons a rest => rfl
  | nil => cases r.queue <;> rfl

lemma worker_dropOldest (r : Recorder) : r.dropOldest.worker = r.worker := by
  unfold dropOldest
  cases r.retained with
  | cons a rest => rfl
  | nil => cases r.queue <;> rfl

lemma size_dropOldest (r : Recorder) : r.dropOldest.retained.length+r.dropOldest.queue.length =
      r.retained.length+r.queue.length - 1 := by
  unfold dropOldest
  cases hr : r.retained with
  | cons a rest =>
    simp only [List.length_cons]
    omega
  | nil =>
    cases hq : r.queue with
    | cons a rest => simp
    | nil => simp [hr,hq]

lemma conserved_iterate (h : r.Conserved number committed) (n : ℕ) :
    (dropOldest^[n] r).Conserved number committed := by
  induction n generalizing r with
  | zero => exact h
  | succ n ih =>
    exact ih (conserved_dropOldest h)

lemma worker_iterate (r : Recorder) (n : ℕ) : (dropOldest^[n] r).worker = r.worker := by
  induction n generalizing r with
  | zero => rfl
  | succ n ih => rw [Function.iterate_succ_apply,ih,worker_dropOldest]

lemma size_iterate (r : Recorder) (n : ℕ) : (dropOldest^[n] r).config = r.config ∧
      (dropOldest^[n] r).retained.length+(dropOldest^[n] r).queue.length =
        r.retained.length+r.queue.length - n := by
  induction n generalizing r with
  | zero => exact ⟨rfl,rfl⟩
  | succ n ih =>
    rw [Function.iterate_succ_apply]
    obtain ⟨hconfig,hsize⟩ := ih r.dropOldest
    rw [config_dropOldest] at hconfig
    rw [size_dropOldest] at hsize
    exact ⟨hconfig,by omega⟩

lemma sound_trimPending (h : r.Conserved number committed) :
    r.trimPending.Sound number committed where
  toConserved := conserved_iterate h _
  bounded := by
    obtain ⟨hconfig,hsize⟩ := size_iterate r (r.retained.length+r.queue.length - r.config.queueCapacity)
    rw [trimPending,hconfig,hsize]
    omega

lemma sound_append (h : r.Conserved number committed) (hown : a.owner = number)
    (hticket : a.ticket = r.admitted.length)
    (hroom : r.retained.length+r.queue.length < r.config.queueCapacity) : Sound number committed
      { r with queue := r.queue++[a], admitted := r.admitted++[a], idle := false } := by
  have hnew : a ∉ r.admitted := by
    intro ha
    have hlt := (h.owned a ha).2
    omega
  have hfresh : a ∉ committed := fun ha => hnew (h.known a ha hown)
  refine { numbered := h.numbered, owned := ?_, distinct := ?_, known := ?_, partition := ?_
           unwritten := ?_, flight := h.flight, calm := h.calm, written := h.written
           quiet := fun hidle => absurd hidle (by simp), bounded := ?_ }
  · intro b hb
    rw [List.length_append,List.length_singleton]
    rcases List.mem_append.mp hb with hb | hb
    · obtain ⟨howner,hlt⟩ := h.owned b hb
      exact ⟨howner,by omega⟩
    · obtain rfl := List.mem_singleton.mp hb
      exact ⟨hown,by omega⟩
  · exact List.nodup_append_comm.mp (List.nodup_cons.mpr ⟨hnew,h.distinct⟩)
  · intro b hb howner
    exact List.mem_append_left _ (h.known b hb howner)
  · intro b
    have hpart := h.partition b
    simp only [pending,List.count_append] at hpart ⊢
    omega
  · have hold : Unwritten committed (r.retained++r.queue) := h.unwritten
    have hlast : Unwritten committed [a] := by
      intro b hb _
      rw [List.mem_singleton.mp hb]
      exact hfresh
    have hall := hold.append hlast
    rwa [List.append_assoc] at hall
  · simp only [List.length_append,List.length_singleton]
    omega

lemma sound_enqueueRecord (h : r.Sound number committed) (item : RecorderItem) :
    (r.enqueueRecord item).Sound number committed := by
  have hsize := h.bounded
  have hpos := r.config.capacity_pos
  by_cases hfull : r.config.queueCapacity ≤ r.retained.length+r.queue.length
  · have hroom : r.dropOldest.retained.length+r.dropOldest.queue.length <
        r.dropOldest.config.queueCapacity := by
      rw [size_dropOldest,config_dropOldest]
      omega
    have hticket : r.admitted.length = r.dropOldest.admitted.length := by
      rw [admitted_dropOldest]
    have hput := sound_append (a := ⟨r.number,r.admitted.length,item⟩)
      (conserved_dropOldest h.toConserved) h.numbered hticket hroom
    unfold enqueueRecord
    rw [if_pos hfull]
    exact hput
  · have hput := sound_append (a := ⟨r.number,r.admitted.length,item⟩) h.toConserved h.numbered rfl (by omega)
    unfold enqueueRecord
    rw [if_neg hfull]
    exact hput

lemma Sound.frame (h : r.Sound number committed) {retentionDays maxRows failuresTotal : ℕ}
    {closing : Bool} {cleanupGeneration cleanupCompletedGeneration : ℕ}
    {state : RecorderWorkerState} :
    Sound number committed { r with
      retentionDays, maxRows, failuresTotal, closing, cleanupGeneration
      cleanupCompletedGeneration, state } where
  numbered := h.numbered
  owned := h.owned
  distinct := h.distinct
  known := h.known
  partition := h.partition
  unwritten := h.unwritten
  flight := h.flight
  calm := h.calm
  written := h.written
  quiet := h.quiet
  bounded := h.bounded

lemma Sound.setIdle (h : r.Sound number committed) {idle : Bool}
    (hidle : idle = true → r.pending = []) : Sound number committed { r with idle } where
  toConserved := h.toConserved.regroup rfl rfl (fun _ => rfl) h.unwritten h.flight h.calm
    h.written hidle
  bounded := h.bounded

lemma Sound.busy (h : r.Sound number committed) : Sound number committed { r with idle := false } :=
  h.setIdle fun hidle => absurd hidle (by simp)

variable {worker : WorkerPoint}

lemma Sound.setWorker (h : r.Sound number committed) (hbatch : worker.inFlight = r.worker.inFlight)
    (hflight : ∀ task, worker.task? = some task → task.Consistent committed)
    (hcalm : worker.interrupted = false) : Sound number committed { r with worker } where
  toConserved := by
    have hpending : pending { r with worker } = r.pending := by
      simp only [pending,hbatch]
    refine h.toConserved.regroup rfl rfl ?_ h.unwritten hflight hcalm h.written ?_
    · intro a
      rw [hpending]
    · rw [hpending]
      exact h.quiet
  bounded := h.bounded

lemma Sound.moveWorker (h : r.Sound number committed) (hfrom : r.worker.task? = none)
    (hto : worker.task? = none) : Sound number committed { r with worker } := by
  refine h.setWorker ?_ ?_ (WorkerPoint.interrupted_of_none hto)
  · rw [WorkerPoint.inFlight_of_none hfrom,WorkerPoint.inFlight_of_none hto]
  · intro task htask
    rw [hto] at htask
    cases htask

variable {task : PersistTask}

lemma Sound.moveTask (h : r.Sound number committed) (hfrom : r.worker.task? = some task)
    (hto : worker.task? = some task) (hcalm : worker.interrupted = false) :
    Sound number committed { r with worker } := by
  refine h.setWorker ?_ ?_ hcalm
  · rw [WorkerPoint.inFlight_of_task hfrom,WorkerPoint.inFlight_of_task hto]
  · intro task' htask
    rw [hto] at htask
    cases htask
    exact h.flight task hfrom

lemma pending_of_drained (hdrained : r.drained = true) (hworker : r.worker.task? = none) :
    r.pending = [] := by
  rw [drained,Bool.and_eq_true,List.isEmpty_iff,List.isEmpty_iff] at hdrained
  simp [pending,WorkerPoint.inFlight_of_none hworker,hdrained.1,hdrained.2]

lemma sound_updateIdleState (h : r.Sound number committed) (hworker : r.worker.task? = none) :
    r.updateIdleState.Sound number committed := by
  refine h.setIdle fun hidle => ?_
  exact pending_of_drained (Bool.and_eq_true_iff.mp hidle).1 hworker

lemma sound_finish (h : r.Sound number committed) (hworker : r.worker.task? = none) :
    r.finish.Sound number committed :=
  (sound_updateIdleState h hworker).moveWorker hworker rfl

/-- A batch that left the worker goes back to the queue side of the account. -/
theorem sound_restoreFailedBatch (h : r.Conserved number committed)
    (hfrom : r.worker.task? = some task) (hto : worker.task? = none) {retryLifecycle : Bool}
    (hretry : retryLifecycle = true → Unwritten committed task.batch) :
    (restoreFailedBatch task.batch retryLifecycle { r with worker }).Sound number committed := by
  have hflight : ∀ task, worker.task? = some task → task.Consistent committed := by
    intro task' htask
    rw [hto] at htask
    cases htask
  have hcalm := WorkerPoint.interrupted_of_none hto
  have hbatch := WorkerPoint.inFlight_of_task hfrom
  have hnone := WorkerPoint.inFlight_of_none hto
  have hquiet : r.idle = true → task.batch = [] ∧ r.retained = [] ∧ r.queue = [] := by
    intro hidle
    have hpending := h.quiet hidle
    rw [pending,hbatch] at hpending
    simpa [and_assoc] using hpending
  unfold restoreFailedBatch
  by_cases hlife : retryLifecycle = true
  · rw [if_pos hlife]
    refine sound_trimPending (h.regroup rfl rfl ?_ ?_ hflight hcalm h.written ?_)
    · intro a
      simp only [pending,hbatch,hnone,List.nil_append,List.count_append]
    · have hback : Unwritten committed (task.batch++(r.retained++r.queue)) := (hretry hlife).append h.unwritten
      rwa [← List.append_assoc] at hback
    · intro hidle
      obtain ⟨hb,hr,hq⟩ := hquiet hidle
      simp [pending,hnone,hb,hr,hq]
  · rw [if_neg hlife]
    refine sound_trimPending (h.regroup rfl rfl ?_ ?_ hflight hcalm h.written ?_)
    · intro a
      have hsplit : (task.batch.filter (·.item.isLifecycle)).count a +
          (task.batch.filter (!·.item.isLifecycle)).count a = task.batch.count a := by
        rw [← List.count_append]
        exact (List.filter_append_perm _ task.batch).count_eq a
      simp only [pending,hbatch,hnone,List.nil_append,List.count_append]
      omega
    · have hkept : Unwritten committed (task.batch.filter (!·.item.isLifecycle)) := by
        intro a ha hlife
        have hnot := (List.mem_filter.mp ha).2
        simp [hlife] at hnot
      have hback := hkept.append h.unwritten
      rwa [← List.append_assoc] at hback
    · intro hidle
      obtain ⟨hb,hr,hq⟩ := hquiet hidle
      simp [pending,hnone,hb,hr,hq]

lemma sound_handlePersistFailure (h : r.Conserved number committed)
    (hfrom : r.worker.task? = some task) (hto : worker.task? = none) {e : StoreException}
    (he : task.phase = .raised e) (now : ℚ) :
    (handlePersistFailure now task.batch e { r with worker }).Sound number committed := by
  have hretry : retryLifecycle e = true → Unwritten committed task.batch := by
    have hknown := h.flight task hfrom
    rw [PersistTask.Consistent,he] at hknown
    exact hknown
  exact (sound_restoreFailedBatch h hfrom hto hretry).frame

lemma sound_scheduleLightweightCleanup (h : r.Sound number committed) (now : ℚ) :
    (scheduleLightweightCleanup now r).Sound number committed := by
  unfold scheduleLightweightCleanup
  by_cases hfew : r.state.rowsSinceCleanup < 1000
  · rw [if_pos hfew]
    exact h
  rw [if_neg hfew]
  by_cases hlong : 3600 ≤ now - r.state.lastLightweightCleanupAt
  · rw [if_pos hlong]
    exact h.busy.frame
  · rw [if_neg hlong]
    exact h.frame

lemma sound_completePersist (h : r.Sound number committed) (hfrom : r.worker.task? = some task)
    (hto : worker.task? = none) (he : task.phase = .returned) (now : ℚ) :
    (completePersist now task.batch { r with worker }).Sound number committed := by
  have hwritten : task.batch ⊆ committed := by
    have hknown := h.flight task hfrom
    rw [PersistTask.Consistent,he] at hknown
    exact hknown
  have hbatch := WorkerPoint.inFlight_of_task hfrom
  have hnone := WorkerPoint.inFlight_of_none hto
  have hmoved : Sound number committed { r with worker, persisted := r.persisted++task.batch } := by
    refine { toConserved := ?_, bounded := h.bounded }
    refine h.toConserved.regroup rfl rfl ?_ h.unwritten ?_ (WorkerPoint.interrupted_of_none hto) ?_ ?_
    · intro a
      simp only [pending,hbatch,hnone,List.nil_append,List.count_append]
      omega
    · intro task' htask
      rw [hto] at htask
      cases htask
    · exact List.append_subset.mpr ⟨h.written,hwritten⟩
    · intro hidle
      have hpending := h.quiet hidle
      rw [pending,hbatch] at hpending
      simp only [List.append_eq_nil_iff] at hpending
      simp [pending,hnone,hpending.1.2,hpending.2]
  exact sound_scheduleLightweightCleanup hmoved.frame now

lemma worker_restoreFailedBatch (attempted : List Admission) (retryLifecycle : Bool)
    (r : Recorder) : (restoreFailedBatch attempted retryLifecycle r).worker = r.worker := by
  unfold restoreFailedBatch trimPending
  by_cases hlife : retryLifecycle = true
  · rw [if_pos hlife,worker_iterate]
  · rw [if_neg hlife,worker_iterate]

lemma worker_handlePersistFailure (now : ℚ) (attempted : List Admission) (e : StoreException)
    (r : Recorder) : (handlePersistFailure now attempted e r).worker = r.worker :=
  worker_restoreFailedBatch attempted (retryLifecycle e) r

lemma worker_completePersist (now : ℚ) (attempted : List Admission) (r : Recorder) :
    (completePersist now attempted r).worker = r.worker := by
  unfold completePersist scheduleLightweightCleanup
  split
  · rfl
  · split <;> rfl

theorem sound_restored (h : r.Conserved number committed) (hfrom : r.worker.task? = some task) :
    (restoreFailedBatch task.batch false { r with worker := .absent }).finish.Sound number
      committed := by
  refine sound_finish (sound_restoreFailedBatch h hfrom rfl (by simp)) ?_
  rw [worker_restoreFailedBatch]
  rfl

end Recorder

end Memora.Injection

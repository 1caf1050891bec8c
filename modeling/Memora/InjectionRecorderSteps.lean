import Memora.InjectionRecorderAccounts

/-! Every call and every step of the worker keeps the account, but for a cancellation that reaches
the worker in the gather of a cancelled call. -/
namespace Memora.Injection

variable {number : ℕ} {committed : List Admission} {r r' : Recorder}

namespace Recorder

lemma sound_new (config : RecorderConfig) (h : ∀ a ∈ committed, a.owner < number) :
    (new number config).Sound number committed where
  numbered := rfl
  owned := fun a ha => absurd ha List.not_mem_nil
  distinct := List.nodup_nil
  known := fun a ha howner => absurd (h a ha) (by omega)
  partition := fun _ => rfl
  unwritten := fun a ha => absurd ha List.not_mem_nil
  flight := fun task htask => by cases htask
  calm := rfl
  written := List.nil_subset _
  quiet := fun _ => rfl
  bounded := Nat.zero_le _

lemma sound_record (h : r.Sound number committed) (decision : InjectionDecisionRecord)
    (trace : TracePayload) : (r.record decision trace).Sound number committed := by
  unfold record
  by_cases hclosing : r.closing = true
  · rw [if_pos hclosing]
    exact h.frame
  rw [if_neg hclosing]
  cases trace with
  | missing | built => exact sound_enqueueRecord h _
  | invalid => exact sound_enqueueRecord (h.frame : r.fail.Sound number committed) _

lemma sound_recordTrace (h : r.Sound number committed) (trace : Option RecallTraceSnapshot) :
    (r.recordTrace trace).Sound number committed := by
  unfold recordTrace
  by_cases hclosing : r.closing = true
  · rw [if_pos hclosing]
    exact h.frame
  rw [if_neg hclosing]
  cases trace with
  | none => exact h.frame
  | some snapshot => exact sound_enqueueRecord h _

lemma sound_recordLifecycle (h : r.Sound number committed) (record : InjectionLifecycleRecord) :
    (r.recordLifecycle record).Sound number committed := by
  have hfail : r.fail.Sound number committed := h.frame
  unfold recordLifecycle
  by_cases hcount : ¬(1 ≤ record.count ∧ record.count ≤ maxSqliteInteger)
  · rw [if_pos hcount]
    exact hfail
  rw [if_neg hcount]
  by_cases hdebug : record.eventKind = .injected ∧ record.source = .debug
  · rw [if_pos hdebug]
    exact hfail
  rw [if_neg hdebug]
  by_cases hclosing : r.closing = true
  · rw [if_pos hclosing]
    exact hfail
  · rw [if_neg hclosing]
    exact sound_enqueueRecord h _

lemma sound_scheduleCleanup (h : r.Sound number committed) (retentionDays maxRows : Option ℕ) :
    (r.scheduleCleanup retentionDays maxRows).Sound number committed := by
  unfold scheduleCleanup
  by_cases hclosing : r.closing = true
  · rw [if_pos hclosing]
    exact h.frame
  rw [if_neg hclosing]
  by_cases hrows : maxRows = some 0
  · rw [if_pos hrows]
    exact h
  · rw [if_neg hrows]
    exact h.busy.frame

lemma sound_start (h : r.Sound number committed) : r.start.Sound number committed := by
  unfold start
  by_cases hclosing : r.closing = true
  · rw [if_pos hclosing]
    exact h
  rw [if_neg hclosing]
  by_cases habsent : r.worker = .absent
  · rw [if_pos habsent]
    exact h.moveWorker (by rw [habsent]; rfl) rfl
  · rw [if_neg habsent]
    exact h

lemma sound_close (h : r.Sound number committed) : r.close.Sound number committed := by
  unfold close
  by_cases hempty : r.worker = .absent ∧ r.drained ∧ ¬r.cleanupPending
  · rw [if_pos hempty]
    exact h.frame
  rw [if_neg hempty]
  by_cases habsent : r.worker = .absent
  · rw [if_pos habsent]
    have hmoved : Sound number committed { r with worker := .created } :=
      h.moveWorker (by rw [habsent]; rfl) rfl
    exact hmoved.frame
  · rw [if_neg habsent]
    exact h.frame

lemma sound_schedulePeriodicCleanup (h : r.Sound number committed) (now : ℚ) :
    (schedulePeriodicCleanup now r).Sound number committed ∧
      (schedulePeriodicCleanup now r).worker = r.worker := by
  unfold schedulePeriodicCleanup
  by_cases hearly : now < r.state.nextPeriodicCleanupAt
  · rw [if_pos hearly]
    exact ⟨h,rfl⟩
  · rw [if_neg hearly]
    exact ⟨h.busy.frame,rfl⟩

lemma sound_fillRetainedBatch (h : r.Sound number committed) (now : ℚ) (cleanupDue : Bool) :
    (fillRetainedBatch now cleanupDue r).Sound number committed ∧
      (fillRetainedBatch now cleanupDue r).worker = r.worker := by
  unfold fillRetainedBatch
  by_cases hskip : cleanupDue || (!r.retained.isEmpty && decide (0 < r.state.batchAttempt))
  · rw [if_pos hskip]
    exact ⟨h,rfl⟩
  rw [if_neg hskip]
  refine ⟨?_,rfl⟩
  have hsame : ∀ n, r.retained++r.queue.take n++r.queue.drop n = r.retained++r.queue := by
    intro n
    rw [List.append_assoc,List.take_append_drop]
  have hmoved : Sound number committed { r with
      retained := r.retained++r.queue.take (r.config.batchSize - r.retained.length)
      queue := r.queue.drop (r.config.batchSize - r.retained.length) } := by
    refine { toConserved := h.toConserved.regroup rfl rfl ?_ ?_ h.flight h.calm h.written ?_
             bounded := ?_ }
    · intro a
      simp only [pending,List.append_assoc,List.take_append_drop]
    · have hun := h.unwritten
      rwa [← hsame] at hun
    · intro hidle
      have hpending := h.quiet hidle
      simpa only [pending,List.append_assoc,List.take_append_drop] using hpending
    · have hbounded := h.bounded
      simp only [List.length_append,List.length_take,List.length_drop]
      omega
  exact hmoved.frame

lemma sound_startPass (h : r.Sound number committed) (hworker : r.worker.task? = none)
    (now : ℚ) : (r.startPass now).Sound number committed := by
  obtain ⟨h₁,hw₁⟩ := sound_schedulePeriodicCleanup h now
  unfold startPass
  dsimp only
  generalize schedulePeriodicCleanup now r = r₁ at h₁ hw₁ ⊢
  obtain ⟨h₂,hw₂⟩ := sound_fillRetainedBatch h₁ now
    (r₁.cleanupPending && decide (r₁.state.cleanupRetryAt ≤ now))
  generalize fillRetainedBatch now _ r₁ = r₂ at h₂ hw₂ ⊢
  have hnone : r₂.worker.task? = none := by rw [hw₂,hw₁,hworker]
  by_cases hdue : r₂.flushIsDue now && decide (r₂.state.batchRetryAt ≤ now)
  · rw [if_pos hdue]
    have hempty := WorkerPoint.inFlight_of_none hnone
    have hflying : (WorkerPoint.flushing { batch := r₂.retained, phase := .created }).inFlight =
        r₂.retained := rfl
    have hun := h₂.unwritten
    refine { toConserved := h₂.toConserved.regroup rfl rfl ?_ ?_ ?_ rfl h₂.written ?_
             bounded := ?_ }
    · intro a
      simp only [pending,hempty,hflying,List.append_nil,List.nil_append]
    · exact hun.mono (List.subset_append_right _ _)
    · intro task htask
      cases htask
      exact hun.mono (List.subset_append_left _ _)
    · intro hidle
      have hpending := h₂.quiet hidle
      simpa only [pending,hempty,hflying,List.append_nil,List.nil_append] using hpending
    · have hbounded := h₂.bounded
      simp only [List.length_nil]
      omega
  · rw [if_neg hdue]
    exact h₂.moveWorker hnone rfl

lemma sound_work (h : r.Sound number committed) {now : ℚ} (hwork : r.work now = some r') :
    r'.Sound number committed := by
  unfold work at hwork
  cases hw : r.worker with
  | absent | cleaning => simp [hw] at hwork
  | created =>
    simp only [hw,Option.some.injEq] at hwork
    subst hwork
    have hmoved : Sound number committed { r with worker := .top } := h.moveWorker (by rw [hw]; rfl) rfl
    exact hmoved.frame
  | top =>
    simp only [hw,Option.some.injEq] at hwork
    subst hwork
    exact sound_startPass h (by rw [hw]; rfl) now
  | flushing task =>
    have hfrom : r.worker.task? = some task := by rw [hw]; rfl
    cases hp : task.phase with
    | created | attempting => simp [hw,hp] at hwork
    | returned =>
      simp only [hw,hp,Option.some.injEq] at hwork
      subst hwork
      exact sound_completePersist h hfrom rfl hp now
    | raised e =>
      simp only [hw,hp,Option.some.injEq] at hwork
      subst hwork
      exact sound_handlePersistFailure h.toConserved hfrom rfl hp now
    | cancelled =>
      simp only [hw,hp,Option.some.injEq] at hwork
      subst hwork
      by_cases hclosing : r.closing = true
      · rw [if_pos hclosing]
        exact h.moveTask hfrom rfl rfl
      · rw [if_neg hclosing]
        exact h.moveTask hfrom rfl rfl
  | awaiting task =>
    have hfrom : r.worker.task? = some task := by rw [hw]; rfl
    cases hp : task.phase with
    | created | attempting => simp [hw,hp] at hwork
    | returned =>
      simp only [hw,hp,Option.some.injEq] at hwork
      subst hwork
      have hdone : (completePersist now task.batch { r with worker := .absent }).Sound number
          committed := sound_completePersist h hfrom rfl hp now
      refine sound_finish hdone ?_
      rw [worker_completePersist]
      rfl
    | raised e =>
      simp only [hw,hp,Option.some.injEq] at hwork
      subst hwork
      have hdone : (handlePersistFailure now task.batch e { r with worker := .absent }).Sound
          number committed := sound_handlePersistFailure h.toConserved hfrom rfl hp now
      refine sound_finish hdone ?_
      rw [worker_handlePersistFailure]
      rfl
    | cancelled =>
      simp only [hw,hp,Option.some.injEq] at hwork
      subst hwork
      exact sound_restored h.toConserved hfrom
  | gathering task interrupted =>
    have hfrom : r.worker.task? = some task := by rw [hw]; rfl
    have hcalm : interrupted = false := by
      have hcalm := h.calm
      rwa [hw] at hcalm
    subst hcalm
    by_cases hdone : task.phase.done = true
    · simp only [hw,hdone,if_true,Bool.false_eq_true,if_false,Option.some.injEq] at hwork
      subst hwork
      exact sound_restored h.toConserved hfrom
    · simp [hw,hdone] at hwork
  | flushed =>
    simp only [hw] at hwork
    by_cases hdue : r.cleanupPending ∧ r.state.cleanupRetryAt ≤ now
    · rw [if_pos hdue,Option.some.injEq] at hwork
      subst hwork
      exact h.moveWorker (by rw [hw]; rfl) rfl
    · rw [if_neg hdue,Option.some.injEq] at hwork
      subst hwork
      exact h.moveWorker (by rw [hw]; rfl) rfl
  | cleaned =>
    simp only [hw] at hwork
    have hnone : r.worker.task? = none := by rw [hw]; rfl
    by_cases hend : r.closing ∧ r.drained
    · rw [if_pos hend,Option.some.injEq] at hwork
      subst hwork
      have hidle : Sound number committed { r with idle := true } :=
        h.setIdle fun _ => pending_of_drained hend.2 hnone
      exact hidle.moveWorker hnone rfl
    · rw [if_neg hend,Option.some.injEq] at hwork
      subst hwork
      exact (sound_updateIdleState h hnone).moveWorker hnone rfl
  | ending =>
    simp only [hw,Option.some.injEq] at hwork
    subst hwork
    exact sound_finish h (by rw [hw]; rfl)
  | waiting =>
    simp only [hw,Option.some.injEq] at hwork
    subst hwork
    exact h.moveWorker (by rw [hw]; rfl) rfl

/-- A cancellation keeps the account unless the worker waits in the gather of a cancelled call. -/
theorem sound_cancelWorker (h : r.Sound number committed) (hgathers : r.worker.gathers = false)
    (hcancel : r.cancelWorker = some r') : r'.Sound number committed := by
  unfold cancelWorker at hcancel
  cases hw : r.worker with
  | created =>
    simp only [hw,Option.some.injEq] at hcancel
    subst hcancel
    exact h.moveWorker (by rw [hw]; rfl) rfl
  | flushing task =>
    have hfrom : r.worker.task? = some task := by rw [hw]; rfl
    simp only [hw,Option.some.injEq] at hcancel
    subst hcancel
    by_cases hclosing : r.closing = true
    · rw [if_pos hclosing]
      exact h.moveTask hfrom rfl rfl
    · rw [if_neg hclosing]
      exact h.moveTask hfrom rfl rfl
  | awaiting task =>
    have hfrom : r.worker.task? = some task := by rw [hw]; rfl
    by_cases hdone : task.phase.done = true
    · simp only [hw,hdone,if_true,Option.some.injEq] at hcancel
      subst hcancel
      exact sound_restored h.toConserved hfrom
    · simp only [hw,hdone,Bool.false_eq_true,if_false,Option.some.injEq] at hcancel
      subst hcancel
      exact h
  | gathering task interrupted =>
    rw [hw] at hgathers
    cases hgathers
  | cleaning | waiting =>
    simp only [hw,Option.some.injEq] at hcancel
    subst hcancel
    exact sound_finish h (by rw [hw]; rfl)
  | absent | top | flushed | cleaned | ending => simp [hw] at hcancel

lemma sound_cleanupReturns (h : r.Sound number committed)
    (hreturns : r.cleanupReturns = some r') : r'.Sound number committed := by
  unfold cleanupReturns at hreturns
  cases hw : r.worker with
  | cleaning generation =>
    simp only [hw,Option.some.injEq] at hreturns
    subst hreturns
    have hmoved : Sound number committed { r with worker := .top } := h.moveWorker (by rw [hw]; rfl) rfl
    exact hmoved.frame
  | _ => simp [hw] at hreturns

lemma sound_cleanupRaises (h : r.Sound number committed) {now : ℚ}
    (hraises : r.cleanupRaises now = some r') : r'.Sound number committed := by
  unfold cleanupRaises at hraises
  cases hw : r.worker with
  | cleaning generation =>
    simp only [hw,Option.some.injEq] at hraises
    subst hraises
    have hmoved : Sound number committed { r with worker := .cleaned } := h.moveWorker (by rw [hw]; rfl) rfl
    exact hmoved.frame
  | _ => simp [hw] at hraises

end Recorder

end Memora.Injection

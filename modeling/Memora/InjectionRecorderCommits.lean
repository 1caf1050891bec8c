import Memora.InjectionRecorderAccounts

/-! What the events of a call of `insert_many` do to the store and to what is known of the batch. -/
namespace Memora.Injection

variable {committed : List Admission} {values : BatchValues} {record : InjectionLifecycleRecord}
  {rollback : Option StoreException} {rows : List LifecycleCount} {value : LifecycleCount}
  {e : StoreException}

section Store
variable {traceSnapshotValues : RecallTraceSnapshot → Except String RecallTraceSnapshot}
variable {store store' : DecisionStore} {task task' : PersistTask} {event : InsertEvent}

/-- A rollback fails only on a dead connection, and a failed commit of lifecycle records is
reported as such; neither failure replays them. -/
theorem not_retryLifecycle_of_fatal (h : e.isConnectionFatal = true) :
    Recorder.retryLifecycle e = false := by
  simp [Recorder.retryLifecycle,h]

lemma consistent_afterFailure (h : Unwritten committed task.batch) (attempt : ℕ)
    (e : StoreException) :
    PersistTask.Consistent committed { task with phase := afterFailure attempt e } := by
  unfold afterFailure
  by_cases hfatal : e.isConnectionFatal = true
  · rw [if_pos hfatal]
    exact fun _ => h
  rw [if_neg hfatal]
  by_cases hretry : e.isRetryEligible = true
  · rw [if_pos hretry]
    by_cases hlast : attempt = maxRetries - 1
    · rw [if_pos hlast]
      exact fun _ => h
    · rw [if_neg hlast]
      exact h
  · rw [if_neg hretry]
    exact fun _ => h

lemma afterFailure_commitFailure (attempt : ℕ) (e : StoreException)
    (hlife : values.lifecycleValues ≠ [])
    (hrollback : rollback.all (·.isConnectionFatal) = true) :
    ∃ raised, afterFailure attempt (rollback.getD (commitFailure values e)) = .raised raised ∧
      Recorder.retryLifecycle raised = false := by
  cases rollback with
  | some fatal =>
    have hfatal : fatal.isConnectionFatal = true := by simpa using hrollback
    refine ⟨fatal,?_,not_retryLifecycle_of_fatal hfatal⟩
    rw [Option.getD_some,afterFailure,if_pos hfatal]
  | none =>
    have hraised : commitFailure values e = lifecycleCommitOutcomeUnknown := by
      rw [commitFailure,if_neg (by simpa using hlife)]
    refine ⟨lifecycleCommitOutcomeUnknown,?_,rfl⟩
    rw [Option.getD_none,hraised,afterFailure,if_neg (by decide),if_neg (by decide)]

lemma lifecycle_of_batchValues {items : List RecorderItem}
    (h : batchValues traceSnapshotValues items = .ok values) (hnone : values.lifecycleValues = []) :
    ∀ item ∈ items, item.isLifecycle = false := by
  induction items generalizing values with
  | nil => simp
  | cons item items ih =>
    obtain ⟨first,hfirst,hothers⟩ := ExceptLaws.bind_ok h
    obtain ⟨rest,hrest,hjoin⟩ := ExceptLaws.bind_ok hothers
    cases hjoin
    rw [BatchValues.append,List.append_eq_nil_iff] at hnone
    intro other hother
    rcases List.mem_cons.mp hother with rfl | hother
    · cases other with
      | lifecycle record =>
        obtain ⟨row,hrow,hfirst⟩ := ExceptLaws.bind_ok hfirst
        cases hfirst
        simp at hnone
      | _ => rfl
    · exact ih hrest hnone.2 other hother

variable (traceSnapshotValues) in
structure StepEffect (committed : List Admission) (store store' : DecisionStore)
    (task task' : PersistTask) (event : InsertEvent) : Prop where
  batch : task'.batch = task.batch
  other : event ≠ .commits → store' = store ∧ task'.Consistent committed
  commit : event = .commits → Unwritten committed task.batch ∧
    task'.Consistent (committed++task.batch) ∧
    ∃ values, batchValues traceSnapshotValues (task.batch.map (·.item)) = .ok values ∧
      store.write values = some store'

lemma stepEffect_of_consistent {phase : InsertPhase} (hevent : event ≠ .commits)
    (h : PersistTask.Consistent committed { task with phase }) :
    StepEffect traceSnapshotValues committed store store task
      { task with phase } event where
  batch := rfl
  other := fun _ => ⟨rfl,h⟩
  commit := fun hcommit => absurd hcommit hevent

lemma consistent_commitRaises {attempt : ℕ}
    (hvalues : batchValues traceSnapshotValues (task.batch.map (·.item)) = .ok values)
    (hrollback : rollback.all (·.isConnectionFatal) = true) :
    PersistTask.Consistent committed { task with
      phase := afterFailure attempt (rollback.getD (commitFailure values e)) } := by
  by_cases hlife : values.lifecycleValues = []
  · refine consistent_afterFailure ?_ attempt _
    intro a ha hlifecycle
    have hplain := lifecycle_of_batchValues hvalues hlife a.item (List.mem_map_of_mem ha)
    rw [hplain] at hlifecycle
    cases hlifecycle
  · obtain ⟨raised,hraised,hno⟩ := afterFailure_commitFailure attempt e hlife hrollback
    rw [hraised]
    intro hretry
    rw [hno] at hretry
    cases hretry

lemma stepEffect (hs : task.step traceSnapshotValues store event = some (store',task'))
    (h : task.Consistent committed) : StepEffect traceSnapshotValues committed store store'
    task task'
      event := by
  unfold PersistTask.step at hs
  cases hp : task.phase with
  | created =>
    rw [PersistTask.Consistent,hp] at h
    cases event with
    | begins =>
      simp only [hp] at hs
      cases hvalues : batchValues traceSnapshotValues (task.batch.map (·.item)) with
      | error message =>
        simp only [hvalues,Option.some.injEq,Prod.mk.injEq] at hs
        obtain ⟨rfl,rfl⟩ := hs
        exact stepEffect_of_consistent (by simp) fun _ => h
      | ok values =>
        simp only [hvalues,Option.some.injEq,Prod.mk.injEq] at hs
        obtain ⟨rfl,rfl⟩ := hs
        exact stepEffect_of_consistent (by simp) h
    | cancels =>
      simp only [hp,Option.some.injEq,Prod.mk.injEq] at hs
      obtain ⟨rfl,rfl⟩ := hs
      exact stepEffect_of_consistent (by simp) trivial
    | _ => simp [hp] at hs
  | attempting attempt applied =>
    cases event with
    | begins => simp [hp] at hs
    | statementRaises e rollback =>
      cases applied with
      | true => simp [hp] at hs
      | false =>
        rw [PersistTask.Consistent,hp] at h
        simp only [hp] at hs
        by_cases hrollback : rollback.all (·.isConnectionFatal) = true
        · rw [if_pos hrollback,Option.some.injEq,Prod.mk.injEq] at hs
          obtain ⟨rfl,rfl⟩ := hs
          exact stepEffect_of_consistent (by simp) (consistent_afterFailure h attempt _)
        · rw [if_neg hrollback] at hs
          cases hs
    | commits =>
      cases applied with
      | true => simp [hp] at hs
      | false =>
        rw [PersistTask.Consistent,hp] at h
        simp only [hp] at hs
        cases hvalues : batchValues traceSnapshotValues (task.batch.map (·.item)) with
        | error message => simp [hvalues] at hs
        | ok values =>
          simp only [hvalues,Option.map_eq_some_iff,Prod.mk.injEq] at hs
          obtain ⟨written,hwrite,rfl,rfl⟩ := hs
          exact {
            batch := rfl
            other := fun hevent => absurd rfl hevent
            commit := fun _ => ⟨h,List.subset_append_right _ _,values,hvalues,hwrite⟩ }
    | commitRaises e rollback =>
      simp only [hp] at hs
      cases hvalues : batchValues traceSnapshotValues (task.batch.map (·.item)) with
      | error message => simp [hvalues] at hs
      | ok values =>
        simp only [hvalues] at hs
        by_cases hrollback : rollback.all (·.isConnectionFatal) = true
        · rw [if_pos hrollback,Option.some.injEq,Prod.mk.injEq] at hs
          obtain ⟨rfl,rfl⟩ := hs
          exact stepEffect_of_consistent (by simp) (consistent_commitRaises hvalues hrollback)
        · rw [if_neg hrollback] at hs
          cases hs
    | commitReturns =>
      cases applied with
      | true =>
        rw [PersistTask.Consistent,hp] at h
        simp only [hp,Option.some.injEq,Prod.mk.injEq] at hs
        obtain ⟨rfl,rfl⟩ := hs
        exact stepEffect_of_consistent (by simp) h
      | false => simp [hp] at hs
    | cancels =>
      simp only [hp,Option.some.injEq,Prod.mk.injEq] at hs
      obtain ⟨rfl,rfl⟩ := hs
      exact stepEffect_of_consistent (by simp) trivial
  | returned | raised | cancelled => cases event <;> simp [hp] at hs

end Store

def LifecycleCount.Adds (row : LifecycleCount) (a : Admission) : Prop :=
  ∃ record value, a.item = .lifecycle record ∧ lifecycleValues record = .ok value ∧
  value.key = row.key

def Admission.amount (a : Admission) : ℤ :=
  match a.item with
  | .lifecycle record => record.count
  | _ => 0

def CountedOnce (committed : List Admission) (rows : List LifecycleCount) : Prop :=
  ∀ row ∈ rows, ∃ adds : List Admission, adds.Nodup ∧
    (∀ a ∈ adds, a ∈ committed ∧ row.Adds a) ∧ row.eventCount = (adds.map Admission.amount).sum

lemma CountedOnce.mono {committed' : List Admission} {rows rows' : List LifecycleCount}
    (h : CountedOnce committed rows) (hc : committed ⊆ committed') (hr : rows' ⊆ rows) :
    CountedOnce committed' rows' := by
  intro row hrow
  obtain ⟨adds,hnodup,hadds,hsum⟩ := h row (hr hrow)
  exact ⟨adds,hnodup,fun a ha => ⟨hc (hadds a ha).1,(hadds a ha).2⟩,hsum⟩

lemma eventCount_of_lifecycleValues
    (h : lifecycleValues record = .ok value) : value.eventCount = record.count := by
  unfold lifecycleValues at h
  split at h
  · cases h
  split at h
  · cases h
  split at h
  · cases h
  · cases h
    rfl

lemma CountedOnce.upsert {a : Admission} (h : CountedOnce committed rows)
    (hitem : a.item = .lifecycle record)
    (hvalue : lifecycleValues record = .ok value) (hnew : a ∉ committed) :
    CountedOnce (committed++[a]) (upsertLifecycle rows value) := by
  have hamount : a.amount = value.eventCount := by
    rw [Admission.amount,hitem,eventCount_of_lifecycleValues hvalue]
  have hold : CountedOnce (committed++[a]) rows :=
    h.mono (List.subset_append_left _ _) (List.Subset.refl _)
  rw [upsertLifecycle]
  by_cases hany : rows.any fun row => row.key = value.key
  · rw [if_pos hany]
    intro row hrow
    obtain ⟨before,hbefore,rfl⟩ := RowTable.mem_modify.mp hrow
    by_cases hkey : before.key = value.key
    · obtain ⟨adds,hnodup,hadds,hsum⟩ := h before hbefore
      rw [if_pos (by simpa using hkey)]
      refine ⟨a::adds,?_,?_,?_⟩
      · exact List.nodup_cons.mpr ⟨fun ha => hnew (hadds a ha).1,hnodup⟩
      · intro b hb
        rcases List.mem_cons.mp hb with rfl | hb
        · exact ⟨by simp,record,value,hitem,hvalue,hkey.symm⟩
        · exact ⟨List.mem_append_left _ (hadds b hb).1,(hadds b hb).2⟩
      · rw [List.map_cons,List.sum_cons,hamount,← hsum]
        exact Int.add_comm _ _
    · rw [if_neg (by simpa using hkey)]
      exact hold before hbefore
  · rw [if_neg hany]
    intro row hrow
    rcases List.mem_append.mp hrow with hrow | hrow
    · exact hold row hrow
    · obtain rfl := List.mem_singleton.mp hrow
      refine ⟨[a],List.nodup_singleton a,?_,?_⟩
      · intro b hb
        obtain rfl := List.mem_singleton.mp hb
        exact ⟨by simp,record,row,hitem,hvalue,rfl⟩
      · simp [hamount]

lemma CountedOnce.batch {traceSnapshotValues : RecallTraceSnapshot →
    Except String RecallTraceSnapshot}
    {batch : List Admission}
    (h : CountedOnce committed rows)
    (hvalues : batchValues traceSnapshotValues (batch.map (·.item)) = .ok values)
    (hun : Unwritten committed batch) (hnodup : batch.Nodup) :
    CountedOnce (committed++batch) (values.lifecycleValues.foldl upsertLifecycle rows) := by
  induction batch generalizing committed rows values with
  | nil =>
    cases hvalues
    rwa [List.append_nil]
  | cons a batch ih =>
    obtain ⟨first,hfirst,hothers⟩ := ExceptLaws.bind_ok hvalues
    obtain ⟨rest,hrest,hjoin⟩ := ExceptLaws.bind_ok hothers
    cases hjoin
    change itemValues traceSnapshotValues a.item = _ at hfirst
    obtain ⟨hnotin,hnodup⟩ := List.nodup_cons.mp hnodup
    have hun' : Unwritten (committed++[a]) batch := by
      intro b hb hlife hmem
      rcases List.mem_append.mp hmem with hmem | hmem
      · exact hun b (List.mem_cons_of_mem _ hb) hlife hmem
      · rw [List.mem_singleton.mp hmem] at hb
        exact hnotin hb
    have hstep : CountedOnce (committed++[a]) (first.lifecycleValues.foldl upsertLifecycle rows) := by
      have hold : CountedOnce (committed++[a]) rows := h.mono (List.subset_append_left _ _) (List.Subset.refl _)
      cases hitem : a.item with
      | lifecycle record =>
        rw [hitem] at hfirst
        obtain ⟨value,hvalue,hfirst⟩ := ExceptLaws.bind_ok hfirst
        cases hfirst
        exact h.upsert hitem hvalue (hun a List.mem_cons_self (by rw [hitem]; rfl))
      | decision record =>
        rw [hitem] at hfirst
        cases hfirst
        exact hold
      | snapshot snapshot =>
        rw [hitem] at hfirst
        obtain ⟨row,hrow,hfirst⟩ := ExceptLaws.bind_ok hfirst
        cases hfirst
        exact hold
      | bundle decision snapshot =>
        rw [hitem,itemValues] at hfirst
        split at hfirst
        · cases hfirst
        · obtain ⟨row,hrow,hfirst⟩ := ExceptLaws.bind_ok hfirst
          cases hfirst
          exact hold
    have hall := ih hstep hrest hun' hnodup
    rw [List.append_assoc,List.singleton_append] at hall
    rw [BatchValues.append,List.foldl_append]
    exact hall

end Memora.Injection

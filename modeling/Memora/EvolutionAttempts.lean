import Memora.EvolutionJobs

/-! A claim counts an attempt. The limit is checked when a claim fails for a passing reason; a
cancelled claim and an expired lease put the job back without that check. -/
namespace Memora.Evolution

def handedSince (id : String) : List JobEvent → ℕ
  | [] => 0
  | .handed jobId::log => (if jobId = id then 1 else 0)+handedSince id log
  | .requeued jobId::log => if jobId = id then 0 else handedSince id log

variable {id : String} {log : List JobEvent}

lemma handedSince_requeued (ids : List String) : handedSince id (ids.map JobEvent.requeued++log) =
      if id ∈ ids then 0 else handedSince id log := by
  induction ids with
  | nil => simp
  | cons jobId ids ih =>
    rw [List.map_cons,List.cons_append,handedSince,ih]
    by_cases hid : jobId = id
    · simp [hid]
    · have hne : ¬id = jobId := fun h => hid h.symm
      simp [hid,hne]

/-- The handouts of a stretch without a requeue are among those since the last one. -/
theorem count_le_handedSince {middle after : List JobEvent} (hno : .requeued id ∉ middle) :
    middle.count (.handed id) ≤ handedSince id (middle++after) := by
  induction middle with
  | nil => simp
  | cons event middle ih =>
    have hrest := ih fun h => hno (List.mem_cons_of_mem _ h)
    cases event with
    | handed jobId =>
      rw [List.count_cons,List.cons_append,handedSince]
      by_cases hid : jobId = id
      · simp only [hid,beq_self_eq_true,if_true]
        omega
      · simp only [beq_iff_eq,JobEvent.handed.injEq,hid,if_false]
        omega
    | requeued jobId =>
      have hid : ¬jobId = id := by
        rintro rfl
        exact hno (by simp)
      rw [List.count_cons,List.cons_append,handedSince,if_neg hid]
      simpa using hrest

def WithinLimit (config : JobConfig) (log : List JobEvent) : Prop :=
  ∀ rest, rest <:+ log → ∀ id, handedSince id rest ≤ config.maxAttempts

lemma withinLimit_nil (config : JobConfig) : WithinLimit config [] := by
  intro rest hrest id
  rw [List.suffix_nil.mp hrest]
  exact Nat.zero_le _

lemma withinLimit_cons {config : JobConfig} {event : JobEvent} (h : WithinLimit config log)
    (hnew : ∀ id, handedSince id (event::log) ≤ config.maxAttempts) :
    WithinLimit config (event::log) := by
  intro rest hrest id
  rcases List.suffix_cons_iff.mp hrest with rfl | hrest
  · exact hnew id
  · exact h rest hrest id

lemma withinLimit_requeued {config : JobConfig} (h : WithinLimit config log)
    (ids : List String) : WithinLimit config (ids.map JobEvent.requeued++log) := by
  induction ids with
  | nil => exact h
  | cons jobId ids ih =>
    refine withinLimit_cons ih fun id => ?_
    rw [handedSince]
    split
    · exact Nat.zero_le _
    · exact ih _ List.suffix_rfl id

variable {T : Type} {config : JobConfig} {j : MemoryEvolutionJob T}

structure Kept (j j' : MemoryEvolutionJob T) : Prop where
  jobId : j'.jobId = j.jobId
  attempts : j'.attemptCount = j.attemptCount
  token : j'.workerToken = j.workerToken ∨ j'.workerToken = none

lemma Kept.rfl : Kept j j := ⟨Eq.refl _,Eq.refl _,.inl (Eq.refl _)⟩

lemma heldBy_iff {jobId : String} {workerToken : ℕ} : heldBy jobId workerToken j = true ↔
      j.jobId = jobId ∧ j.state = .processing ∧ j.workerToken = some workerToken := by
  simp [heldBy,and_assoc]

/-- A statement on behalf of a claim updates the row that its token holds. It leaves the row
waiting only for a cancelled claim or one that has attempts left. -/
theorem exitClaim_modify (claim : JobClaim T) (exit : ClaimExit T) (now : T)
    (jobs : List (MemoryEvolutionJob T)) :
    ∃ f, config.exitClaim claim exit now jobs =
    RowTable.modify (heldBy claim.jobId claim.workerToken) f jobs ∧
      (∀ j, Kept j (f j)) ∧
      ∀ j, j.state = .processing → (f j).state.waiting = true →
        exit = .cancelled ∨ claim.attemptCount < config.maxAttempts := by
  cases exit with
  | renewed leaseUntil =>
    refine ⟨_,rfl,fun _ => ⟨rfl,rfl,.inl rfl⟩,?_⟩
    intro j hstate hwaiting
    simp [hstate,JobState.waiting] at hwaiting
  | completed => exact ⟨_,rfl,fun _ => ⟨rfl,rfl,.inr rfl⟩,by simp [JobState.waiting]⟩
  | sourceChanged | proposalRejected =>
    exact ⟨_,rfl,fun _ => ⟨rfl,rfl,.inr rfl⟩,by simp [JobState.waiting]⟩
  | failed retryable notBefore reasonCode =>
    unfold JobConfig.exitClaim JobConfig.handleRetry
    dsimp only
    by_cases hretryable : (!retryable) = true
    · rw [if_pos hretryable]
      exact ⟨_,rfl,fun _ => ⟨rfl,rfl,.inr rfl⟩,by simp [JobState.waiting]⟩
    rw [if_neg hretryable]
    by_cases hspent : claim.attemptCount ≥ config.maxAttempts
    · rw [if_pos hspent]
      exact ⟨_,rfl,fun _ => ⟨rfl,rfl,.inr rfl⟩,by simp [JobState.waiting]⟩
    · rw [if_neg hspent]
      exact ⟨_,rfl,fun _ => ⟨rfl,rfl,.inr rfl⟩,fun _ _ _ => .inr (by omega)⟩
  | cancelled => exact ⟨_,rfl,fun _ => ⟨rfl,rfl,.inr rfl⟩,fun _ _ _ => .inl rfl⟩

variable {f : MemoryEvolutionJob T → MemoryEvolutionJob T} {p : MemoryEvolutionJob T → Bool}
  {jobs : List (MemoryEvolutionJob T)} {j' : MemoryEvolutionJob T}

lemma mem_modify_kept (hf : ∀ j, Kept j (f j)) (hj' : j' ∈ RowTable.modify p f jobs) :
    ∃ j ∈ jobs, Kept j j' ∧ (j' = j ∨ (p j = true ∧ j' = f j)) := by
  obtain ⟨j,hj,rfl⟩ := RowTable.mem_modify.mp hj'
  refine ⟨j,hj,?_⟩
  by_cases hp : p j = true
  · rw [if_pos hp]
    exact ⟨hf j,.inr ⟨hp,rfl⟩⟩
  · rw [if_neg hp]
    exact ⟨.rfl,.inl rfl⟩

lemma ids_modify (hf : ∀ j, (f j).jobId = j.jobId) (jobs : List (MemoryEvolutionJob T)) :
    (RowTable.modify p f jobs).map MemoryEvolutionJob.jobId = jobs.map MemoryEvolutionJob.jobId :=
  RowTable.map_modify _ p f jobs fun j _ _ => hf j

variable {w : JobWorld T}

structure JobWorld.Tracked (w : JobWorld T) : Prop where
  ids : (w.jobs.map MemoryEvolutionJob.jobId).Nodup
  handed : ∀ j ∈ w.jobs, handedSince j.jobId w.log ≤ j.attemptCount
  unknown : ∀ id, id ∉ w.jobs.map MemoryEvolutionJob.jobId → handedSince id w.log = 0
  drawn : ∀ c ∈ w.claims, c.workerToken < w.nextToken
  current : ∀ j ∈ w.jobs, ∀ c ∈ w.claims, c.jobId = j.jobId →
    j.workerToken = some c.workerToken → c.attemptCount = j.attemptCount
  tokens : ∀ j ∈ w.jobs, ∀ t, j.workerToken = some t → t < w.nextToken

def JobWorld.Limited (config : JobConfig) (w : JobWorld T) : Prop :=
  ∀ j ∈ w.jobs, j.attemptCount ≤ config.maxAttempts ∧
    (j.state.waiting = true → j.attemptCount < config.maxAttempts)

theorem tracked_modify (h : w.Tracked) (hf : ∀ j, Kept j (f j)) :
    JobWorld.Tracked { w with jobs := RowTable.modify p f w.jobs } := by
  have hids := ids_modify (p := p) (fun j => (hf j).jobId) w.jobs
  constructor
  · exact hids ▸ h.ids
  · intro j' hj'
    obtain ⟨j,hj,hk,-⟩ := mem_modify_kept hf hj'
    rw [hk.jobId,hk.attempts]
    exact h.handed j hj
  · intro id hid
    exact h.unknown id (hids ▸ hid)
  · exact h.drawn
  · intro j' hj' c hc hjob htoken
    obtain ⟨j,hj,hk,-⟩ := mem_modify_kept hf hj'
    rw [hk.attempts]
    rcases hk.token with hsame | hnone
    · exact h.current j hj c hc (hjob.trans hk.jobId) (hsame ▸ htoken)
    · rw [hnone] at htoken
      cases htoken
  · intro j' hj' t htoken
    obtain ⟨j,hj,hk,-⟩ := mem_modify_kept hf hj'
    rcases hk.token with hsame | hnone
    · exact h.tokens j hj t (hsame ▸ htoken)
    · rw [hnone] at htoken
      cases htoken

lemma insertJob_cases (spec : JobSpec T) (freshId : String) (now : T)
    (jobs : List (MemoryEvolutionJob T)) : insertJob spec freshId now jobs = jobs ∨
      (insertJob spec freshId now jobs = jobs++[spec.row freshId now] ∧
        (spec.row freshId now).jobId ∉ jobs.map MemoryEvolutionJob.jobId) := by
  unfold insertJob
  by_cases htaken : (jobs.any fun j => j.jobId = (spec.row freshId now).jobId) = true
  · rw [if_pos htaken]
    exact .inl rfl
  · rw [if_neg htaken]
    refine .inr ⟨rfl,fun hin => htaken ?_⟩
    obtain ⟨j,hj,hid⟩ := List.mem_map.mp hin
    exact List.any_eq_true.mpr ⟨j,hj,by simpa using hid⟩

variable {row : MemoryEvolutionJob T}

lemma tracked_append (h : w.Tracked) (hid : row.jobId ∉ w.jobs.map MemoryEvolutionJob.jobId)
    (htoken : row.workerToken = none) : JobWorld.Tracked { w with jobs := w.jobs++[row] } := by
  have hmem : ∀ j ∈ w.jobs++[row], j ∈ w.jobs ∨ j = row := by simp
  constructor
  · refine RowTable.nodup_append h.ids (by simp) ?_
    intro x hx j hj heq
    rw [List.mem_singleton.mp hx] at heq
    exact hid (List.mem_map.mpr ⟨j,hj,heq⟩)
  · intro j hj
    rcases hmem j hj with hj | rfl
    · exact h.handed j hj
    · change handedSince j.jobId w.log ≤ _
      rw [h.unknown _ hid]
      exact Nat.zero_le _
  · intro id hnot
    exact h.unknown id fun hin => hnot (by simp only [List.map_append,List.mem_append]; exact .inl hin)
  · exact h.drawn
  · intro j hj c hc hjob hcurrent
    rcases hmem j hj with hj | rfl
    · exact h.current j hj c hc hjob hcurrent
    · rw [htoken] at hcurrent
      cases hcurrent
  · intro j hj t hcurrent
    rcases hmem j hj with hj | rfl
    · exact h.tokens j hj t hcurrent
    · rw [htoken] at hcurrent
      cases hcurrent

lemma tracked_insertJob (h : w.Tracked) (spec : JobSpec T) (freshId : String) (now : T) :
    JobWorld.Tracked { w with jobs := insertJob spec freshId now w.jobs } := by
  rcases insertJob_cases spec freshId now w.jobs with hsame | ⟨hnew,hid⟩
  · rw [hsame]
    exact h
  · rw [hnew]
    exact tracked_append h hid rfl

lemma limited_insertJob (h : w.Limited config) (spec : JobSpec T) (freshId : String) (now : T) :
    JobWorld.Limited config { w with jobs := insertJob spec freshId now w.jobs } := by
  rcases insertJob_cases spec freshId now w.jobs with hsame | ⟨hnew,-⟩
  · rw [hsame]
    exact h
  · rw [hnew]
    intro j hj
    rcases List.mem_append.mp hj with hj | hj
    · exact h j hj
    · rw [List.mem_singleton.mp hj]
      exact ⟨Nat.zero_le _,fun _ => config.positive⟩

lemma reopened_log (spec : JobSpec T) (jobs : List (MemoryEvolutionJob T)) :
    (jobs.filter (reopens spec)).map (fun j => JobEvent.requeued j.jobId) =
      ((jobs.filter (reopens spec)).map MemoryEvolutionJob.jobId).map JobEvent.requeued := by
  rw [List.map_map]
  rfl

lemma reopens_none {spec : JobSpec T}
    (hno : ¬(jobs.any fun j => j.idempotencyKey = spec.idempotencyKey) = true) :
    jobs.filter (reopens spec) = [] := by
  rw [List.filter_eq_nil_iff]
  intro j hj hreopens
  obtain ⟨hkey,-⟩ := Bool.and_eq_true_iff.mp hreopens
  exact hno (List.any_eq_true.mpr ⟨j,hj,hkey⟩)

lemma tracked_reopened (h : w.Tracked) (spec : JobSpec T) (now : T) : JobWorld.Tracked { w with
      jobs := RowTable.modify (reopens spec) (fun j => j.reopened spec now) w.jobs
      log := (w.jobs.filter (reopens spec)).map (fun j => .requeued j.jobId)++w.log } := by
  have hids := ids_modify (p := reopens spec) (f := fun j => j.reopened spec now)
    (fun _ => rfl) w.jobs
  have hlog : ∀ id, handedSince id ((w.jobs.filter (reopens spec)).map
      (fun j => .requeued j.jobId)++w.log) ≤ handedSince id w.log := by
    intro id
    rw [reopened_log,handedSince_requeued]
    split
    · exact Nat.zero_le _
    · exact le_rfl
  constructor
  · exact hids ▸ h.ids
  · intro j' hj'
    obtain ⟨j,hj,rfl⟩ := RowTable.mem_modify.mp hj'
    by_cases hreopens : reopens spec j = true
    · rw [if_pos hreopens]
      change handedSince j.jobId _ ≤ 0
      rw [reopened_log,handedSince_requeued,if_pos]
      exact List.mem_map.mpr ⟨j,List.mem_filter.mpr ⟨hj,hreopens⟩,rfl⟩
    · rw [if_neg hreopens]
      exact (hlog j.jobId).trans (h.handed j hj)
  · intro id hid
    exact Nat.le_zero.mp ((hlog id).trans (h.unknown id (hids ▸ hid)).le)
  · exact h.drawn
  · intro j' hj' c hc hjob htoken
    obtain ⟨j,hj,rfl⟩ := RowTable.mem_modify.mp hj'
    by_cases hreopens : reopens spec j = true
    · rw [if_pos hreopens] at htoken
      exact absurd htoken (by simp [MemoryEvolutionJob.reopened])
    · rw [if_neg hreopens] at hjob htoken ⊢
      exact h.current j hj c hc hjob htoken
  · intro j' hj' t htoken
    obtain ⟨j,hj,rfl⟩ := RowTable.mem_modify.mp hj'
    by_cases hreopens : reopens spec j = true
    · rw [if_pos hreopens] at htoken
      exact absurd htoken (by simp [MemoryEvolutionJob.reopened])
    · rw [if_neg hreopens] at htoken
      exact h.tokens j hj t htoken

variable {lease now : T} {token : ℕ} {claim : JobClaim T}

lemma claimJob_some [LinearOrder T] {jobs jobs' : List (MemoryEvolutionJob T)}
    (h : claimJob token lease now jobs = some (claim,jobs')) :
    ∃ row ∈ jobs, row.state.waiting = true ∧ claim.jobId = row.jobId ∧
      claim.workerToken = token ∧ claim.attemptCount = row.attemptCount+1 ∧
      jobs' = RowTable.modify (fun j => j.jobId = row.jobId) (fun j => j.claimed token lease now)
        jobs := by
  obtain ⟨row,hrow,heq⟩ := Option.map_eq_some_iff.mp h
  obtain ⟨hin,hwaiting⟩ := List.mem_filter.mp (List.argmin_mem hrow)
  simp only [Prod.mk.injEq] at heq
  obtain ⟨hclaim,hjobs⟩ := heq
  obtain ⟨hstate,-⟩ := Bool.and_eq_true_iff.mp hwaiting
  subst hclaim
  exact ⟨row,hin,hstate,rfl,rfl,rfl,hjobs.symm⟩

lemma mem_claimed (hids : (w.jobs.map MemoryEvolutionJob.jobId).Nodup) (hrow : row ∈ w.jobs)
    (hj' : j' ∈ RowTable.modify (fun j => j.jobId = row.jobId) (fun j => j.claimed token lease now) w.jobs) :
    j' = row.claimed token lease now ∨ (j' ∈ w.jobs ∧ j'.jobId ≠ row.jobId) := by
  obtain ⟨j,hj,rfl⟩ := RowTable.mem_modify.mp hj'
  by_cases hsame : j.jobId = row.jobId
  · obtain rfl := RowTable.eq_of_key_eq hids hj hrow hsame
    left
    rw [if_pos (by simp)]
  · right
    rw [if_neg (by simpa using hsame)]
    exact ⟨hj,hsame⟩

lemma tracked_claimed (h : w.Tracked) (hrow : row ∈ w.jobs) : JobWorld.Tracked { w with
      jobs := RowTable.modify (fun j => j.jobId = row.jobId) (fun j => j.claimed w.nextToken lease now) w.jobs
      nextToken := w.nextToken+1 } := by
  have hids := ids_modify (p := fun j => j.jobId = row.jobId)
    (f := fun j => j.claimed w.nextToken lease now) (fun _ => rfl) w.jobs
  constructor
  · exact hids ▸ h.ids
  · intro j' hj'
    rcases mem_claimed h.ids hrow hj' with rfl | ⟨hj,-⟩
    · exact (h.handed row hrow).trans (Nat.le_succ _)
    · exact h.handed j' hj
  · intro id hid
    exact h.unknown id (hids ▸ hid)
  · intro c hc
    exact (h.drawn c hc).trans (Nat.lt_succ_self _)
  · intro j' hj' c hc hjob htoken
    rcases mem_claimed h.ids hrow hj' with rfl | ⟨hj,-⟩
    · -- the token was not drawn before
      have hnew : c.workerToken = w.nextToken := (Option.some.inj htoken).symm
      have hold := h.drawn c hc
      omega
    · exact h.current j' hj c hc hjob htoken
  · intro j' hj' t htoken
    rcases mem_claimed h.ids hrow hj' with rfl | ⟨hj,-⟩
    · have hnew : w.nextToken = t := Option.some.inj htoken
      change t < w.nextToken+1
      omega
    · exact (h.tokens j' hj t htoken).trans (Nat.lt_succ_self _)

lemma tracked_handed (h : w.Tracked) (hrow : row ∈ w.jobs)
    (hjob : claim.jobId = row.jobId) (htoken : claim.workerToken = w.nextToken)
    (hattempts : claim.attemptCount = row.attemptCount+1) :
    (w.hand claim (RowTable.modify (fun j => j.jobId = row.jobId)
      (fun j => j.claimed w.nextToken lease now) w.jobs)).Tracked := by
  have hlost := @tracked_claimed T w row lease now h hrow
  constructor
  · exact hlost.ids
  · intro j' hj'
    change handedSince j'.jobId (.handed claim.jobId::w.log) ≤ _
    rw [handedSince]
    rcases mem_claimed h.ids hrow hj' with rfl | ⟨hj,hne⟩
    · have hold := h.handed row hrow
      change (if claim.jobId = row.jobId then 1 else 0)+handedSince row.jobId w.log ≤ row.attemptCount+1
      rw [if_pos hjob]
      omega
    · have hold := h.handed j' hj
      rw [if_neg (by rw [hjob]; exact fun heq => hne heq.symm)]
      omega
  · intro id hid
    have hout := hlost.unknown id hid
    change handedSince id (.handed claim.jobId::w.log) = 0
    have hne : ¬claim.jobId = id := by
      rintro rfl
      refine hid ?_
      have hids := ids_modify (p := fun j => j.jobId = row.jobId)
        (f := fun j => j.claimed w.nextToken lease now) (fun _ => rfl) w.jobs
      change claim.jobId ∈ (RowTable.modify _ _ _).map MemoryEvolutionJob.jobId
      rw [hids,hjob]
      exact List.mem_map_of_mem hrow
    rw [handedSince,if_neg hne]
    simpa using hout
  · intro c hc
    change c.workerToken < w.nextToken+1
    rcases List.mem_append.mp hc with hc | hc
    · have hold := h.drawn c hc
      omega
    · rw [List.mem_singleton.mp hc,htoken]
      omega
  · intro j' hj' c hc hsame hcurrent
    rcases List.mem_append.mp hc with hc | hc
    · exact hlost.current j' hj' c hc hsame hcurrent
    · rw [List.mem_singleton.mp hc] at hsame hcurrent ⊢
      rcases mem_claimed h.ids hrow hj' with rfl | ⟨-,hne⟩
      · exact hattempts
      · exact absurd (hsame.symm.trans hjob) hne
  · exact hlost.tokens

lemma limited_claimed (hids : (w.jobs.map MemoryEvolutionJob.jobId).Nodup)
    (h : w.Limited config) (hrow : row ∈ w.jobs) (hwaiting : row.state.waiting = true) :
    ∀ j' ∈ RowTable.modify (fun j => j.jobId = row.jobId)
      (fun j => j.claimed token lease now) w.jobs, j'.attemptCount ≤ config.maxAttempts ∧
        (j'.state.waiting = true → j'.attemptCount < config.maxAttempts) := by
  intro j' hj'
  rcases mem_claimed hids hrow hj' with rfl | ⟨hj,-⟩
  · refine ⟨(h row hrow).2 hwaiting,?_⟩
    intro hstate
    exact absurd hstate (by simp [MemoryEvolutionJob.claimed,JobState.waiting])
  · exact h j' hj

lemma empty_tracked : ({} : JobWorld T).Tracked where
  ids := List.nodup_nil
  handed := by simp
  unknown := fun _ _ => rfl
  drawn := by simp
  current := by simp
  tokens := by simp

variable [LinearOrder T]

/-- The step puts a job back without a failure only while it has attempts left: a cancelled
claim restores its job, a start restores the jobs whose lease is over. -/
def Spares (config : JobConfig) (w : JobWorld T) (s : JobStep T) : Prop :=
  match s.call with
  | .exit worker .cancelled => ∀ claim ∈ w.claims[worker]?, ∀ j ∈ w.jobs,
      heldBy claim.jobId claim.workerToken j = true → j.attemptCount < config.maxAttempts
  | .start => ∀ j ∈ w.jobs, leaseExpired s.now j = true → j.attemptCount < config.maxAttempts
  | _ => True

lemma step_tracked (h : w.Tracked) (s : JobStep T) : (w.step config s).Tracked := by
  obtain ⟨call,now⟩ := s
  cases call with
  | enqueue spec freshId =>
    change JobWorld.Tracked { w with jobs := enqueueJob spec freshId now w.jobs }
    unfold enqueueJob
    split
    · exact h
    · exact tracked_insertJob h spec freshId now
  | requeue spec freshId =>
    change JobWorld.Tracked { w with jobs := requeueJob spec freshId now w.jobs, log := _ }
    unfold requeueJob
    by_cases hkey : (w.jobs.any fun j => j.idempotencyKey = spec.idempotencyKey) = true
    · rw [if_pos hkey]
      exact tracked_reopened h spec now
    · rw [if_neg hkey,reopens_none hkey]
      exact tracked_insertJob h spec freshId now
  | claim lease answered =>
    unfold JobWorld.step
    dsimp only
    cases hclaim : claimJob w.nextToken lease now w.jobs with
    | none => exact h
    | some given =>
      obtain ⟨claim,jobs⟩ := given
      obtain ⟨row,hrow,-,hjob,htoken,hattempts,rfl⟩ := claimJob_some hclaim
      cases answered with
      | true => exact tracked_handed h hrow hjob htoken hattempts
      | false => exact tracked_claimed h hrow
  | exit worker exit =>
    unfold JobWorld.step
    dsimp only
    cases hworker : w.claims[worker]? with
    | none => exact h
    | some claim =>
      obtain ⟨f,hf,hkept,-⟩ := @exitClaim_modify T config claim exit now w.jobs
      dsimp only
      rw [hf]
      exact tracked_modify h hkept
  | start => exact tracked_modify h fun _ => ⟨rfl,rfl,.inr rfl⟩

lemma step_limited (h : w.Tracked) (hlimited : w.Limited config) {s : JobStep T}
    (hspares : Spares config w s) : (w.step config s).Limited config := by
  obtain ⟨call,now⟩ := s
  cases call with
  | enqueue spec freshId =>
    change JobWorld.Limited config { w with jobs := enqueueJob spec freshId now w.jobs }
    unfold enqueueJob
    split
    · exact hlimited
    · exact limited_insertJob hlimited spec freshId now
  | requeue spec freshId =>
    change JobWorld.Limited config { w with jobs := requeueJob spec freshId now w.jobs, log := _ }
    unfold requeueJob
    by_cases hkey : (w.jobs.any fun j => j.idempotencyKey = spec.idempotencyKey) = true
    · rw [if_pos hkey]
      intro j' hj'
      obtain ⟨j,hj,rfl⟩ := RowTable.mem_modify.mp hj'
      split
      · exact ⟨Nat.zero_le _,fun _ => config.positive⟩
      · exact hlimited j hj
    · rw [if_neg hkey]
      exact limited_insertJob hlimited spec freshId now
  | claim lease answered =>
    unfold JobWorld.step
    dsimp only
    cases hclaim : claimJob w.nextToken lease now w.jobs with
    | none => exact hlimited
    | some given =>
      obtain ⟨claim,jobs⟩ := given
      obtain ⟨row,hrow,hwaiting,-,-,-,rfl⟩ := claimJob_some hclaim
      cases answered with
      | true | false => exact limited_claimed h.ids hlimited hrow hwaiting
  | exit worker exit =>
    unfold JobWorld.step
    dsimp only
    cases hworker : w.claims[worker]? with
    | none => exact hlimited
    | some claim =>
      obtain ⟨f,hf,hkept,hwaits⟩ := @exitClaim_modify T config claim exit now w.jobs
      dsimp only
      rw [hf]
      intro j' hj'
      obtain ⟨j,hj,hk,rfl | ⟨hheld,rfl⟩⟩ := mem_modify_kept hkept hj'
      · exact hlimited j' hj
      obtain ⟨hid,hstate,htoken⟩ := heldBy_iff.mp hheld
      rw [hk.attempts]
      refine ⟨(hlimited j hj).1,fun hwaiting => ?_⟩
      rcases hwaits j hstate hwaiting with rfl | hleft
      · exact hspares claim hworker j hj hheld
      · -- the claim whose token is current has the attempts of the row
        have hsame := h.current j hj claim (List.mem_of_getElem? hworker) hid.symm htoken
        omega
  | start =>
    intro j' hj'
    obtain ⟨j,hj,rfl⟩ := RowTable.mem_modify.mp hj'
    by_cases hexpired : leaseExpired now j = true
    · rw [if_pos hexpired]
      exact ⟨(hlimited j hj).1,fun _ => hspares j hj hexpired⟩
    · rw [if_neg hexpired]
      exact hlimited j hj

theorem step_withinLimit (h : w.Tracked) (hlimited : w.Limited config)
    (hlog : WithinLimit config w.log) {s : JobStep T} (hspares : Spares config w s) :
    WithinLimit config (w.step config s).log := by
  have htracked : (w.step config s).Tracked := step_tracked h s
  have hnext := step_limited h hlimited hspares
  have hbounded : ∀ id, handedSince id (w.step config s).log ≤ config.maxAttempts := by
    intro id
    by_cases hid : id ∈ (w.step config s).jobs.map MemoryEvolutionJob.jobId
    · obtain ⟨j,hj,rfl⟩ := List.mem_map.mp hid
      exact (htracked.handed j hj).trans (hnext j hj).1
    · rw [htracked.unknown id hid]
      exact Nat.zero_le _
  obtain ⟨call,now⟩ := s
  cases call with
  | enqueue | start => exact hlog
  | requeue spec freshId =>
    change WithinLimit config ((w.jobs.filter (reopens spec)).map _++w.log)
    rw [reopened_log]
    exact withinLimit_requeued hlog _
  | claim lease answered =>
    unfold JobWorld.step at hbounded ⊢
    dsimp only at hbounded ⊢
    cases hclaim : claimJob w.nextToken lease now w.jobs with
    | none => exact hlog
    | some given =>
      rw [hclaim] at hbounded
      cases answered with
      | true => exact withinLimit_cons hlog hbounded
      | false => exact hlog
  | exit worker exit =>
    unfold JobWorld.step
    dsimp only
    cases w.claims[worker]? with
    | none | some => exact hlog

lemma run_tracked (steps : List (JobStep T)) : (({} : JobWorld T).run config steps).Tracked :=
  RunLaws.foldl_invariant (P := JobWorld.Tracked) (fun _ s h => step_tracked h s)
  empty_tracked steps

/-- A worker's step changes the state of a row only while the row is processing under
its token. -/
theorem exit_fenced (h : w.Tracked) {worker : ℕ} {exit : ClaimExit T} {j j' : MemoryEvolutionJob T}
    (hj : j ∈ w.jobs) (hj' : j' ∈ (w.step config { call := .exit worker exit, now }).jobs)
    (hid : j'.jobId = j.jobId) (hchanged : j'.state ≠ j.state) :
    ∃ claim, w.claims[worker]? = some claim ∧ claim.jobId = j.jobId ∧
      j.workerToken = some claim.workerToken ∧ j.state = .processing := by
  unfold JobWorld.step at hj'
  dsimp only at hj'
  cases hworker : w.claims[worker]? with
  | none =>
    rw [hworker] at hj'
    obtain rfl := RowTable.eq_of_key_eq h.ids hj' hj hid
    exact absurd rfl hchanged
  | some claim =>
    rw [hworker] at hj'
    obtain ⟨f,hf,hkept,-⟩ := @exitClaim_modify T config claim exit now w.jobs
    dsimp only at hj'
    rw [hf] at hj'
    obtain ⟨j₀,hj₀,hk,hcase⟩ := mem_modify_kept hkept hj'
    obtain rfl := RowTable.eq_of_key_eq h.ids hj₀ hj (hk.jobId.symm.trans hid)
    rcases hcase with rfl | ⟨hheld,-⟩
    · exact absurd rfl hchanged
    · obtain ⟨hjob,hstate,htoken⟩ := heldBy_iff.mp hheld
      exact ⟨claim,rfl,hjob.symm,htoken,hstate⟩

/-- In a run whose restores and recoveries spare attempts, no stretch without a requeue hands a
job to workers more often than the limit. In any run a worker's step changes the state of a job
only while its claim has the job's current token. -/
theorem attempts_within_limit (config : JobConfig) (steps : List (JobStep T))
    (hspares : RunLaws.Along (JobWorld.step config) (Spares config) {} steps) :
    (∀ id before middle after, (({} : JobWorld T).run config steps).log = before++middle++after →
      JobEvent.requeued id ∉ middle → middle.count (.handed id) ≤ config.maxAttempts) ∧
    ∀ (before : List (JobStep T)) worker exit now,
      ∀ j ∈ (({} : JobWorld T).run config before).jobs,
      ∀ j' ∈ (({} : JobWorld T).run config (before++[{ call := .exit worker exit, now }])).jobs,
      j'.jobId = j.jobId → j'.state ≠ j.state →
      ∃ claim, (({} : JobWorld T).run config before).claims[worker]? = some claim ∧
        claim.jobId = j.jobId ∧ j.workerToken = some claim.workerToken ∧ j.state = .processing := by
  constructor
  · have hrun := RunLaws.along_invariant
      (P := fun w : JobWorld T => w.Tracked ∧ w.Limited config ∧ WithinLimit config w.log)
      (fun w s hs h => ⟨step_tracked h.1 s,step_limited h.1 h.2.1 hs, step_withinLimit h.1 h.2.1 h.2.2 hs⟩)
      ⟨empty_tracked,by simp [JobWorld.Limited],withinLimit_nil config⟩ hspares
    intro id before middle after hlog hno
    have hcount : middle.count (.handed id) ≤ handedSince id (middle++after) := count_le_handedSince hno
    have hsuffix : middle++after <:+ (({} : JobWorld T).run config steps).log :=
      ⟨before,by rw [hlog,List.append_assoc]⟩
    exact hcount.trans (hrun.2.2 _ hsuffix id)
  · intro before worker exit now j hj j' hj' hid hchanged
    unfold JobWorld.run at hj'
    rw [List.foldl_append] at hj'
    exact exit_fenced (run_tracked before) hj hj' hid hchanged

def teaSpec : JobSpec ℕ where
  scopeKey := "private:user-a"
  bucketKey := "tea"
  sourceIds := [1]
  idempotencyKey := "tea-1"
  notBefore := 0

def sampleLimit : JobConfig := .ofSetting (some 1)

/-- Two attempts are allowed: the first is cancelled, the second fails for a passing reason. -/
def secondAttempt : List (JobStep ℕ) :=
  [{ call := .enqueue teaSpec "job-1", now := 1 },
   { call := .claim 60 true, now := 2 },
   { call := .exit 0 .cancelled, now := 3 },
   { call := .claim 90 true, now := 30 },
   { call := .exit 1 (.failed true 50 "provider_unavailable"), now := 31 },
   { call := .claim 120 true, now := 60 }]

theorem attempts_within_limit_sample : (({} : JobWorld ℕ).run (.ofSetting (some 2))
    secondAttempt).log =
      [.handed "job-1",.handed "job-1"] ∧
    (({} : JobWorld ℕ).run (.ofSetting (some 2)) secondAttempt).log.count
    (.handed "job-1") ≤ 2 := by
  have hspares : RunLaws.Along (JobWorld.step (.ofSetting (some 2))) (Spares (.ofSetting (some 2)))
      ({} : JobWorld ℕ) secondAttempt :=
    ⟨trivial,trivial,by unfold Spares; decide +kernel,trivial,trivial,trivial,trivial⟩
  exact ⟨by decide +kernel,(attempts_within_limit (.ofSetting (some 2)) secondAttempt hspares).1
    "job-1" [] _ [] (by simp) (by decide +kernel)⟩

/-- The worker is stopped in its only attempt and the job is handed out again. -/
def stoppedJob : List (JobStep ℕ) :=
  [{ call := .enqueue teaSpec "job-1", now := 1 },
   { call := .claim 60 true, now := 2 },
   { call := .exit 0 .cancelled, now := 3 },
   { call := .claim 90 true, now := 30 }]

/-- One attempt is allowed, two are handed out and nothing was requeued; the same happens when
the worker dies and its lease is recovered. -/
theorem stopped_job_exceeds_limit : sampleLimit.maxAttempts = 1 ∧
      (({} : JobWorld ℕ).run sampleLimit stoppedJob).log = [.handed "job-1",.handed "job-1"] ∧
      (({} : JobWorld ℕ).run sampleLimit
        [{ call := .enqueue teaSpec "job-1", now := 1 },{ call := .claim 60 true, now := 2 },
         { call := .start, now := 70 },{ call := .claim 130 true, now := 71 }]).log =
        [.handed "job-1",.handed "job-1"] := by
  decide +kernel

end Memora.Evolution

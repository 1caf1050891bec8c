import Memora.Rotations
import Memora.SummaryLimits

/-! `claim_ready` remembers the session it served last, and tries sessions behind it first. Within
that order it takes the oldest job; where the oldest job is always one of the next session, the
claims rotate, and a session that waits is served before another one is served twice. -/
namespace Memora.Summary
open RunLaws Rotations RowTable

variable {env : Env} {s t : Store} {req : ClaimRequest} {stamp : Time} {tokens : String → String}
    {now : Time}
  {busy : String → ℕ} {room : Option ℕ}

namespace Store

def outside (s : Store) : List Message × ℕ × String :=
  (s.messages,s.nextMessageId,s.roundRobinCursor)

lemma rotation_of_outside (h : t.outside = s.outside) : t.roundRobinCursor = s.roundRobinCursor :=
  congrArg (·.2.2) h

lemma ensureEpoch_outside (s : Store) (session : String) (now : Time) :
    (s.ensureEpoch session now).1.outside = s.outside := by
  unfold ensureEpoch
  split <;> rfl

lemma advances_outside (now : Time) (l : List (String × ℕ)) (s : Store) :
    (l.foldl (fun s e => s.advanceCursor e.1 e.2 now) s).outside =
      s.outside := by
  induction l generalizing s with
  | nil => rfl
  | cons e l ih => exact ih _

lemma recordIntent_outside {claim : ClaimedJob} {s s' : Store}
    {i : CandidateIntent} (h : recordIntent env claim now s i = some s') :
    s'.outside = s.outside := by
  simp only [recordIntent] at h
  split at h
  · split at h
    · cases h
      rfl
    · cases h
  · rw [(insertCandidate_eq h).1]
    rfl

lemma claimJob_outside (s : Store) (req : ClaimRequest) (stamp : Time) (token : String)
    (item : Job) :
    (s.claimJob env req stamp token item).1.outside = s.outside := by
  unfold claimJob
  dsimp only
  split
  · rfl
  split
  · rfl
  split <;> rfl

lemma claimRows_outside (env : Env) (req : ClaimRequest) (stamp : Time)
    (tokens : String → String) (busy : String → ℕ) (room : Option ℕ) (items : List Job) (s : Store)
    (claims : List ClaimedJob) : (claimRows env req stamp tokens busy room items s claims).1.outside =
      s.outside := by
  induction items generalizing s claims with
  | nil => rfl
  | cons item items ih =>
    unfold claimRows
    split
    · rfl
    split
    · exact ih s claims
    · exact (ih _ _).trans (claimJob_outside s req stamp _ item)

theorem claimReady_idle (h : (s.claimReady env req tokens stamp).2 = []) :
    (s.claimReady env req tokens stamp).1.roundRobinCursor = s.roundRobinCursor := by
  unfold claimReady at h ⊢
  split at h
  · rename_i hlimit
    rw [if_pos hlimit]
  · rename_i hlimit
    rw [if_neg hlimit]
    dsimp only at h ⊢
    have hrows := claimRows_outside env req stamp tokens (s.activeIn stamp)
      (req.globalLimit.map fun g : ℤ => (g - ((s.active stamp).length : ℤ)).toNat) (s.readyJobs req stamp) s []
    split at h
    · exact rotation_of_outside hrows
    · rename_i c hlast
      rw [h] at hlast
      cases hlast

lemma beginCandidateIntents_outside (s : Store) (claim : ClaimedJob)
    (intents : List CandidateIntent) (now clock : Time) :
    (s.beginCandidateIntents env claim intents now clock).1.outside =
      s.outside := by
  unfold beginCandidateIntents
  split
  · rfl
  split
  · rfl
  simp only
  split
  · rfl
  split
  · rfl
  · rename_i s' hf
    exact foldlM_invariant (P := fun t => t.outside = s.outside)
      (fun t i _ t' ht h => (recordIntent_outside ht).trans h) rfl hf

lemma markUnknownClaim_outside {base s : Store} (h : s.outside = base.outside)
    (claim : ClaimedJob) (now recheck : Time) (reason : SummaryReasonCode)
    (exceptionType : Option String) :
    (markUnknownClaim base s claim now recheck reason exceptionType).1.outside =
      base.outside := by
  unfold markUnknownClaim
  split
  · rfl
  simp only
  split
  · rfl
  · exact h

lemma markUnknownCompleted_outside {base s : Store}
    (h : s.outside = base.outside) (claim : ClaimedJob) (now : Time) :
    (markUnknownCompleted base s claim now).1.outside = base.outside := by
  unfold markUnknownCompleted
  simp only
  split
  · rfl
  · exact h

lemma commitWindow_outside (s : Store) (claim : ClaimedJob) (o : WindowOutcome)
    (now clock recheck : Time) : (s.commitWindow env claim o now clock recheck).1.outside =
    s.outside := by
  unfold commitWindow
  simp only
  split
  · rfl
  split
  · exact markUnknownClaim_outside rfl _ _ _ _ _
  split
  · rfl
  split
  · exact markUnknownClaim_outside rfl _ _ _ _ _
  split
  · rfl
  split
  · rfl
  · dsimp only [advanceCursor,updateEpochs]
    split <;> rfl

lemma failWindow_outside (s : Store) (claim : ClaimedJob) (f : SummaryFailure) (stamp clock : Time) :
    (s.failWindow claim f stamp clock).1.outside = s.outside := by
  unfold failWindow
  split
  · rfl
  split
  · rfl
  split <;> rfl

lemma cancelJobs_outside {s s' : Store} {p : Job → Bool} {reason : SummaryReasonCode}
    (h : s.cancelJobs p reason now = some s') : s'.outside = s.outside := by
  simp only [cancelJobs] at h
  split at h
  · cases h
  · cases h
    rfl

lemma recordOwners_outside (claim : ClaimedJob) (now : Time) (allowed : Candidate → Bool)
    (held : Job → Bool) (owners : List (ℕ × ℕ)) (s : Store) :
    (recordOwners claim now allowed held owners s).1.outside = s.outside := by
  induction owners generalizing s with
  | nil => rfl
  | cons o owners ih =>
    unfold recordOwners
    simp only
    split
    · rfl
    · exact ih _

lemma reconcileCompleted_outside (s : Store) (claim : ClaimedJob) (job : Job)
    (mapping : List (RawSlot × RawId)) (now : Time) :
    (s.reconcileCompleted env claim job mapping now).1.outside = s.outside := by
  unfold reconcileCompleted
  simp only
  split
  · split
    · rfl
    · exact markUnknownCompleted_outside rfl _ _
  split
  · exact markUnknownCompleted_outside rfl _ _
  split
  · exact markUnknownCompleted_outside rfl _ _
  split
  · exact recordOwners_outside _ _ _ _ _ _
  · exact markUnknownCompleted_outside (recordOwners_outside _ _ _ _ _ _) _ _

lemma reconcileRunning_outside (s : Store) (claim : ClaimedJob) (job : Job)
    (mapping : List (RawSlot × RawId)) (now recheck : Time) :
    (s.reconcileRunning env claim job mapping now recheck).1.outside =
      s.outside := by
  unfold reconcileRunning
  simp only
  split
  · exact markUnknownClaim_outside rfl _ _ _ _ _
  rename_i owners _
  have hm := recordOwners_outside claim now Candidate.recordable claim.holds owners s
  split
  · exact markUnknownClaim_outside hm _ _ _ _ _
  split
  · exact hm
  split
  · exact markUnknownClaim_outside hm _ _ _ _ _
  split
  · rfl
  · exact hm

lemma reconcileWindow_outside (s : Store) (claim : ClaimedJob)
    (mapping : List (RawSlot × RawId)) (now clock recheck : Time) :
    (s.reconcileWindow env claim mapping now clock recheck).1.outside =
      s.outside := by
  unfold reconcileWindow
  simp only
  split
  · rfl
  split
  · rfl
  split
  · rfl
  split
  · exact reconcileCompleted_outside _ _ _ _ _
  · rfl
  · split
    · exact reconcileRunning_outside _ _ _ _ _ _
    · rfl
  · rfl

lemma startupJob_outside {st st' : Store × ℕ} {scan : ScannedJob}
    (h : startupJob now st scan = some st') : st'.1.outside = st.1.outside := by
  simp only [startupJob] at h
  split at h
  · cases h
    rfl
  split at h
  · cases h
    rfl
  split at h
  · cases h
    rfl
  split at h
  · split at h
    · cases h
      rfl
    · cases h
      rfl
  split at h
  · cases h
  split at h
  · cases h
    rfl
  split at h
  · cases h
    rfl
  · cases h
    rfl

lemma abandonJob_outside (now : Time) (st : Store × ℕ) (j : Job) :
    (abandonJob now st j).1.outside = st.1.outside := by
  unfold abandonJob
  simp only
  split <;> rfl

lemma confirmAbandonSessionJobs_outside (s : Store) (session : String) (epoch : ℕ) (now : Time) :
    (s.confirmAbandonSessionJobs session epoch now).1.outside = s.outside := by
  unfold confirmAbandonSessionJobs
  have h := foldl_invariant (P := fun t : Store × ℕ => t.1.outside = s.outside)
    (fun t j ht => (abandonJob_outside now t j).trans ht)
    (s := (s,0)) rfl (s.abandonableJobs session epoch)
  simp only
  split
  · exact h
  · exact h

end Store

lemma PlanStep.outside {c : SummaryWindowContext} {observedEnd : ℤ} {s s' : Store}
    (h : PlanStep env c observedEnd now s s') : s'.outside = s.outside := by
  cases h with
  | refused => rfl
  | enqueued sessions s₃ new frontier hcur hfront hstop hnew hbound hranges =>
    rw [hnew.eq]
    exact s.ensureEpoch_outside c.sessionId now

def Op.aside : Op → Bool
  | .addMessage .. | .claimReady .. | .clearSessionAtomically .. | .deleteOldSessions ..
  | .trimIfSafe .. => false
  | _ => true

lemma step_outside (env : Env) (s : Store) {c : Call} (h : c.op.aside = true) :
    (step env s c).outside = s.outside := by
  unfold step
  cases hop : c.op with
  | addMessage | claimReady | clearSessionAtomically | deleteOldSessions | trimIfSafe =>
    simp [hop,Op.aside] at h
  | planAndEnqueueWindows => exact (planAndEnqueueWindows_step s _ _ _).outside
  | beginCandidateIntents => exact s.beginCandidateIntents_outside _ _ _ _
  | beginCandidateWrite =>
    dsimp only
    unfold Store.beginCandidateWrite
    split
    · rfl
    · simp only
      split <;> rfl
  | commitWindow => exact s.commitWindow_outside _ _ _ _ _
  | failWindow => exact s.failWindow_outside _ _ _ _
  | renewClaim =>
    dsimp only
    unfold Store.renewClaim
    split <;> rfl
  | requeueClaim =>
    dsimp only
    unfold Store.requeueClaim
    simp only
    split <;> rfl
  | recoverExpiredClaims => exact Store.advances_outside _ _ _
  | reconcileWindow => exact s.reconcileWindow_outside _ _ _ _ _
  | reconcileStartupCandidates snapshot =>
    dsimp only
    unfold Store.reconcileStartupCandidates
    split
    · rfl
    · rename_i hf
      exact foldlM_invariant (P := fun t : Store × ℕ => t.1.outside = s.outside)
        (fun t _ _ t' ht h => (Store.startupJob_outside ht).trans h) rfl hf
  | confirmAbandonSessionJobs => exact s.confirmAbandonSessionJobs_outside _ _ _
  | cancelSessionJobs =>
    dsimp only
    unfold Store.cancelSessionJobs
    simp only
    split
    · rfl
    · exact Store.cancelJobs_outside ‹_›
  | resetSessionEpoch =>
    dsimp only
    unfold Store.resetSessionEpoch
    simp only
    split
    · rfl
    · rename_i hcancel
      exact (Store.cancelJobs_outside hcancel).trans (s.ensureEpoch_outside _ _)

lemma step_rotation (env : Env) (s : Store) (c : Call)
    (h : ∀ req tokens, c.op ≠ .claimReady req tokens) :
    (step env s c).roundRobinCursor = s.roundRobinCursor := by
  by_cases haside : c.op.aside = true
  · exact Store.rotation_of_outside (step_outside env s haside)
  unfold step
  cases hop : c.op with
  | addMessage => rfl
  | claimReady req tokens => exact absurd hop (h req tokens)
  | clearSessionAtomically session quarantined =>
    dsimp only
    unfold Store.clearSessionAtomically
    split
    · rfl
    · have hepoch := Store.rotation_of_outside (s.ensureEpoch_outside session c.now)
      exact hepoch
  | deleteOldSessions days ttl guarded =>
    dsimp only
    unfold Store.deleteOldSessions
    simp only
    generalize c.now - _ = cutoff
    split <;> rfl
  | trimIfSafe =>
    dsimp only
    unfold Store.trimIfSafe
    split <;> rfl
  | _ => simp [hop,Op.aside] at haside

namespace Store

/-- `claim_ready` may hand the job out: it is due, its session has room, and its row is valid. -/
def claimable (env : Env) (s : Store) (req : ClaimRequest) (stamp : Time) (j : Job) : Bool :=
  s.isCurrent j.sessionId j.sessionEpoch && j.due stamp &&
    (decide ((s.activeIn stamp j.sessionId : ℤ) < max 1 req.maxParallelPerSession) && j.validDto env)

def Waiting (env : Env) (s : Store) (req : ClaimRequest) (stamp : Time) (session : String) : Prop :=
  ∃ j ∈ s.jobs, s.claimable env req stamp j = true ∧ j.sessionId = session

lemma claimJob_isSome (hkt : Keyed t) {token : String}
    {item : Job} (hrow : t.job? item.jobId = some item) (hdue : item.due stamp = true) :
    (t.claimJob env req stamp token item).2.isSome = item.validDto env := by
  obtain ⟨w,hw,hjob⟩ := exists_window hkt (job?_mem hrow)
  subst hjob
  have hcount := (countP_job hkt hw (p := fun r => r.jobId = w.job.jobId &&
    r.sessionId = w.job.sessionId && r.sessionEpoch = w.job.sessionEpoch && r.due stamp) (by
      intro j hj
      simp only [Bool.and_eq_true,decide_eq_true_eq] at hj
      exact hj.1.1.1)).mpr (by simp [hdue])
  have hafter := t.window?_updateJobs (p := fun r => r.jobId = w.job.jobId &&
    r.sessionId = w.job.sessionId && r.sessionEpoch = w.job.sessionEpoch && r.due stamp)
    (f := Job.claimed stamp (stamp+max 1 req.leaseSeconds) token) (by intro j; rfl) w.job.jobId
  rw [hw,Option.map_some,if_pos (by simp [hdue])] at hafter
  unfold claimJob
  dsimp only
  rw [if_neg (not_not.mpr hcount),(window?_eq_some.mp hafter).1]
  dsimp only
  split
  · rename_i h
    exact h.symm
  · rename_i h
    exact (Bool.not_eq_true _ ▸ h).symm

lemma claimRows_full (items : List Job) {claims : List ClaimedJob} (h : req.limit ≤ claims.length) :
    claimRows env req stamp tokens busy room items t claims = (t,claims) := by
  cases items with
  | nil => rfl
  | cons item items =>
    unfold claimRows
    rw [if_pos (by simp [h])]

lemma claimRows_first (hlimit : req.limit = 1) {items : List Job}
    (hn : (items.map fun j => j.jobId).Nodup) (hkt : Keyed t)
    (hrows : ∀ item ∈ items, t.job? item.jobId = some item ∧ item.due stamp = true)
    {c : ClaimedJob} (hc : c ∈ (claimRows env req stamp tokens busy room items t []).2) :
    (claimRows env req stamp tokens busy room items t []).2 = [c] ∧
      ∃ j, items.find? (fun j =>
        decide ((busy j.sessionId : ℤ) < max 1 req.maxParallelPerSession) &&
          j.validDto env) = some j ∧ c.job.sessionId = j.sessionId := by
  induction items generalizing t with
  | nil => cases hc
  | cons item items ih =>
    rw [List.map_cons,List.nodup_cons] at hn
    unfold claimRows at hc ⊢
    split at hc
    · cases hc
    rename_i hgo
    rw [if_neg hgo]
    split at hc
    · rename_i hbusy
      rw [if_pos hbusy]
      simp only [List.any_nil,Bool.false_or,decide_eq_true_eq] at hbusy
      rw [List.find?_cons_of_neg (by simp [not_lt.mpr hbusy])]
      exact ih hn.2 hkt (fun i hi => hrows i (List.mem_cons_of_mem _ hi)) hc
    · rename_i hroom
      rw [if_neg hroom]
      simp only [List.any_nil,Bool.false_or,decide_eq_true_eq,not_le] at hroom
      obtain ⟨hrow,hdue⟩ := hrows item (by simp)
      have hsome : (t.claimJob env req stamp (tokens item.jobId) item).2.isSome =
          item.validDto env := claimJob_isSome hkt hrow hdue
      dsimp only at hc ⊢
      cases hclaim : (t.claimJob env req stamp (tokens item.jobId) item).2 with
      | none =>
        rw [hclaim] at hsome hc
        rw [List.find?_cons_of_neg (by simp [← hsome])]
        refine ih hn.2 (hkt.moves (claimJob_stills _ _ _ _ _ _).moves) ?_ hc
        intro i hi
        obtain ⟨hother,hdue'⟩ := hrows i (List.mem_cons_of_mem _ hi)
        have hne : item.jobId ≠ i.jobId := fun he => hn.1 (List.mem_map.mpr ⟨i,hi,he.symm⟩)
        refine ⟨?_,hdue'⟩
        obtain ⟨w,hw,hjob⟩ := exists_window hkt (job?_mem hother)
        have hsame := claimJob_other env t req stamp (tokens item.jobId) hne
        rw [hw] at hsame
        rw [(window?_eq_some.mp hsame).1,hjob]
      | some c' =>
        rw [hclaim] at hsome hc
        have hfull : req.limit ≤ (([] : List ClaimedJob)++(some c').toList).length := by
          rw [hlimit]
          rfl
        rw [claimRows_full _ hfull] at hc ⊢
        obtain rfl : c = c' := by simpa using hc
        refine ⟨rfl,item,?_,(claimJob_issued hkt hclaim).2.1⟩
        rw [List.find?_cons_of_pos]
        simp [hroom,← hsome]

end Store

theorem find?_least {β : Type*} {r : β → β → Prop} (hrefl : ∀ b, r b b) {p : β → Bool} {l : List β}
    (hl : l.Pairwise r) {b : β} (h : l.find? p = some b) {b' : β} (hb' : b' ∈ l)
    (hp : p b' = true) : r b b' := by
  induction l with
  | nil => cases h
  | cons a l ih =>
    rw [List.pairwise_cons] at hl
    by_cases ha : p a = true
    · rw [List.find?_cons_of_pos ha] at h
      cases h
      rcases List.mem_cons.mp hb' with rfl | hb'
      · exact hrefl _
      · exact hl.1 b' hb'
    · rw [List.find?_cons_of_neg ha] at h
      rcases List.mem_cons.mp hb' with rfl | hb'
      · exact absurd hp ha
      · exact ih hl.2 h hb'

namespace Store

/-- Where a rotation is under way, `claim_ready` sorts by the sides of its cursor, then by age. -/
theorem readyJobs_sorted (s : Store) (req : ClaimRequest) (stamp : Time)
    (hcursor : s.roundRobinCursor ≠ "") : (s.readyJobs req stamp).Pairwise fun a b =>
      claimKey (some s.roundRobinCursor) req.sessionOrder a ≤
        claimKey (some s.roundRobinCursor) req.sessionOrder b := by
  unfold readyJobs
  simp only [if_pos hcursor]
  exact List.pairwise_insertionSort _ _

theorem claimReady_first (hk : Keyed s) (hlimit : req.limit = 1) {c : ClaimedJob}
    (hc : c ∈ (s.claimReady env req tokens stamp).2) : (s.claimReady env req tokens stamp).2 = [c] ∧
      (s.claimReady env req tokens stamp).1.roundRobinCursor = c.job.sessionId ∧
      ∃ j ∈ s.jobs, s.claimable env req stamp j = true ∧ c.job.sessionId = j.sessionId ∧
        (s.roundRobinCursor ≠ "" → ∀ k ∈ s.jobs, s.claimable env req stamp k = true →
          claimKey (some s.roundRobinCursor) req.sessionOrder j ≤
            claimKey (some s.roundRobinCursor) req.sessionOrder k) := by
  have hrows : ∀ item ∈ s.readyJobs req stamp, s.job? item.jobId = some item ∧ item.due stamp = true := by
    intro item hitem
    obtain ⟨hmem,-,hdue⟩ := mem_readyJobs.mp hitem
    exact ⟨job?_of_mem hk hmem,hdue⟩
  unfold claimReady at hc ⊢
  rw [if_neg (by omega)] at hc ⊢
  dsimp only at hc ⊢
  generalize (req.globalLimit.map fun g : ℤ => (g - ((s.active stamp).length : ℤ)).toNat) =
    room at hc ⊢
  generalize hrun : claimRows env req stamp tokens (s.activeIn stamp) room
    (s.readyJobs req stamp) s [] = r at hc ⊢
  have hmem : c ∈ r.2 := by
    split at hc <;> exact hc
  rw [← hrun] at hmem
  obtain ⟨hone,j,hj,hsession⟩ := claimRows_first hlimit (readyJobs_nodup hk req stamp) hk hrows hmem
  rw [hrun] at hone
  obtain ⟨t,claims⟩ := r
  subst hone
  refine ⟨rfl,rfl,j,?_⟩
  obtain ⟨hstored,hcurrent,hdue⟩ := mem_readyJobs.mp (List.mem_of_find?_eq_some hj)
  have hclaimable : s.claimable env req stamp j = true := by
    unfold claimable
    rw [hcurrent,hdue,Bool.and_self,Bool.true_and]
    have hpasses := List.find?_some hj
    exact hpasses
  refine ⟨hstored,hclaimable,hsession,?_⟩
  intro hcursor k hk' hkclaimable
  obtain ⟨hkready,hkpasses⟩ := Bool.and_eq_true_iff.mp hkclaimable
  have hsorted := s.readyJobs_sorted req stamp hcursor
  exact find?_least (fun b => le_refl (claimKey (some s.roundRobinCursor) req.sessionOrder b))
    hsorted hj (mem_readyJobs.mpr ⟨hk',Bool.and_eq_true_iff.mp hkready⟩) hkpasses

end Store

/-- The age of a job, as `claim_ready` compares it. -/
def Job.ageKey (j : Job) : Time ×ₗ ℕ ×ₗ String := toLex (j.createdAt,toLex (j.startSeq,j.jobId))

namespace Store

def leading (env : Env) (s : Store) (req : ClaimRequest) (stamp : Time) : List Job :=
  let ready := s.jobs.filter (s.claimable env req stamp)
  let front := ready.filter fun j => s.roundRobinCursor < j.sessionId
  if front = [] then ready else front

def InRotation (env : Env) (s : Store) (req : ClaimRequest) (stamp : Time) : Prop :=
  ∀ j ∈ s.leading env req stamp, (∀ k ∈ s.leading env req stamp, j.ageKey ≤ k.ageKey) →
    ∀ k ∈ s.leading env req stamp, j.sessionId ≤ k.sessionId

lemma claimKey_le_iff {cursor : String} {order : List String} {j k : Job} :
    claimKey (some cursor) order j ≤ claimKey (some cursor) order k ↔
      (cursor < j.sessionId ∧ ¬cursor < k.sessionId) ∨
        ((cursor < j.sessionId ↔ cursor < k.sessionId) ∧ j.ageKey ≤ k.ageKey) := by
  unfold claimKey rotationRank
  rw [Prod.Lex.toLex_le_toLex]
  by_cases hj : cursor < j.sessionId <;> by_cases hk : cursor < k.sessionId <;> simp [hk,Job.ageKey]

lemma serves_of_inRotation (hturn : s.InRotation env req stamp) {j : Job} (hj : j ∈ s.jobs)
    (hclaimable : s.claimable env req stamp j = true)
    (hleast : ∀ k ∈ s.jobs, s.claimable env req stamp k = true →
      claimKey (some s.roundRobinCursor) req.sessionOrder j ≤
        claimKey (some s.roundRobinCursor) req.sessionOrder k) :
    Serves (s.Waiting env req stamp) s.roundRobinCursor j.sessionId := by
  have hready : ∀ k, k ∈ s.jobs.filter (s.claimable env req stamp) ↔
      k ∈ s.jobs ∧ s.claimable env req stamp k = true := fun k => List.mem_filter
  refine ⟨?_,?_⟩
  · rintro y ⟨k,hk,hkclaimable,rfl⟩ hbehind
    have hjfront : s.roundRobinCursor < j.sessionId := by
      rcases claimKey_le_iff.mp (hleast k hk hkclaimable) with h | h
      · exact h.1
      · exact h.1.mpr hbehind
    have hmem : ∀ i, i ∈ s.leading env req stamp ↔
        (i ∈ s.jobs ∧ s.claimable env req stamp i = true) ∧ s.roundRobinCursor < i.sessionId := by
      intro i
      unfold leading
      rw [if_neg]
      · rw [List.mem_filter,hready,decide_eq_true_eq]
      · intro hnil
        have hin : k ∈ (s.jobs.filter (s.claimable env req stamp)).filter fun i =>
            s.roundRobinCursor < i.sessionId :=
          List.mem_filter.mpr ⟨(hready k).mpr ⟨hk,hkclaimable⟩,by simpa using hbehind⟩
        rw [hnil] at hin
        cases hin
    refine ⟨hjfront,hturn j ((hmem j).mpr ⟨⟨hj,hclaimable⟩,hjfront⟩) ?_ k
      ((hmem k).mpr ⟨⟨hk,hkclaimable⟩,hbehind⟩)⟩
    intro i hi
    obtain ⟨⟨hi,hiclaimable⟩,hifront⟩ := (hmem i).mp hi
    rcases claimKey_le_iff.mp (hleast i hi hiclaimable) with h | h
    · exact absurd hifront h.2
    · exact h.2
  · rintro hwrapped y ⟨k,hk,hkclaimable,rfl⟩
    have hjback : ¬s.roundRobinCursor < j.sessionId := not_lt.mpr hwrapped
    have hback : ∀ i ∈ s.jobs, s.claimable env req stamp i = true → ¬s.roundRobinCursor < i.sessionId := by
      intro i hi hiclaimable
      rcases claimKey_le_iff.mp (hleast i hi hiclaimable) with h | h
      · exact absurd h.1 hjback
      · exact fun hlt => hjback (h.1.mpr hlt)
    have hmem : ∀ i, i ∈ s.leading env req stamp ↔ i ∈ s.jobs ∧ s.claimable env req stamp i = true := by
      intro i
      unfold leading
      rw [if_pos]
      · exact hready i
      · rw [List.filter_eq_nil_iff]
        intro i hi
        simpa using hback i ((hready i).mp hi).1 ((hready i).mp hi).2
    refine hturn j ((hmem j).mpr ⟨hj,hclaimable⟩) ?_ k ((hmem k).mpr ⟨hk,hkclaimable⟩)
    intro i hi
    obtain ⟨hi,hiclaimable⟩ := (hmem i).mp hi
    rcases claimKey_le_iff.mp (hleast i hi hiclaimable) with h | h
    · exact absurd h.1 hjback
    · exact h.2

end Store

def claimedSessions (env : Env) (s : Store) (c : Call) : List String :=
  match c.op with
  | .claimReady req tokens => (s.claimReady env req tokens c.now).2.map fun c => c.job.sessionId
  | _ => []

def Call.single (c : Call) : Prop :=
  match c.op with
  | .claimReady req _ => req.limit = 1
  | _ => True

def WaitsAt (env : Env) (session : String) (s : Store) (c : Call) : Prop :=
  match c.op with
  | .claimReady req _ => s.Waiting env req c.now session
  | _ => True

/-- Where the call asks for a claim, the oldest of the jobs that come first is of the next
session. -/
def InTurn (env : Env) (s : Store) (c : Call) : Prop :=
  match c.op with
  | .claimReady req _ => s.InRotation env req c.now
  | _ => True

/-- Between a claim of `x` and one of `y`, which waits, the cursor stays ahead of `y`. -/
structure Due (x y : String) (s : Store) : Prop where
  keyed : Keyed s
  started : s.roundRobinCursor ≠ ""
  ahead : Ahead x y s.roundRobinCursor

variable {x y : String} {c : Call}

lemma session_text {j : Job} (h : s.claimable env req stamp j = true) : j.sessionId ≠ "" := by
  have hvalid := (Bool.and_eq_true_iff.mp (Bool.and_eq_true_iff.mp h).2).2
  unfold Job.validDto at hvalid
  simp only [Bool.and_eq_true] at hvalid
  have htext := hvalid.1.1.1.1.1.1.1.1.1.1.1.1.1.1.1.2
  unfold isRequiredText at htext
  simp only [Bool.and_eq_true,decide_eq_true_eq] at htext
  exact htext.2

theorem Due.kept (h : Due x y s) (hsingle : c.single) (hturn : InTurn env s c)
    (hwaits : WaitsAt env y s c) :
    y ∈ claimedSessions env s c ∨ (x ∉ claimedSessions env s c ∧ Due x y (step env s c)) := by
  have hkeyed := h.keyed.step env c
  by_cases hop : ∃ req tokens, c.op = .claimReady req tokens
  · obtain ⟨req,tokens,hop⟩ := hop
    simp only [claimedSessions,Call.single,InTurn,WaitsAt,Summary.step,hop] at *
    cases hclaims : (s.claimReady env req tokens c.now).2 with
    | nil =>
      right
      refine ⟨by simp,hkeyed,?_,?_⟩
      · rw [Store.claimReady_idle hclaims]
        exact h.started
      · rw [Store.claimReady_idle hclaims]
        exact h.ahead
    | cons d rest =>
      have hd : d ∈ (s.claimReady env req tokens c.now).2 := by rw [hclaims]; simp
      obtain ⟨hone,hcursor,j,hj,hclaimable,hsession,hleast⟩ := Store.claimReady_first h.keyed hsingle hd
      obtain rfl : rest = [] := by simpa using hclaims.symm.trans hone
      by_cases hy : j.sessionId = y
      · left
        simp [hsession,hy]
      · right
        have hserves := Store.serves_of_inRotation hturn hj hclaimable (hleast h.started)
        obtain ⟨hahead,hne⟩ := hserves.ahead hwaits hy h.ahead
        refine ⟨?_,hkeyed,?_,?_⟩
        · simpa [hsession] using hne.symm
        · rw [hcursor,hsession]
          exact session_text hclaimable
        · rw [hcursor,hsession]
          exact hahead
  · right
    push Not at hop
    have hrotation := step_rotation env s c hop
    refine ⟨?_,hkeyed,hrotation.symm ▸ h.started,hrotation.symm ▸ h.ahead⟩
    unfold claimedSessions
    split
    · rename_i req tokens hclaim
      exact absurd hclaim (hop req tokens)
    · simp

lemma claimedSessions_single (hk : Keyed s) (hsingle : c.single)
    (hx : x ∈ claimedSessions env s c) (hy : y ∈ claimedSessions env s c) : x = y := by
  unfold claimedSessions at hx hy
  unfold Call.single at hsingle
  split at hx
  · rename_i req tokens hop
    rw [hop] at hsingle hy
    obtain ⟨d,hd,rfl⟩ := List.mem_map.mp hx
    obtain ⟨e,he,rfl⟩ := List.mem_map.mp hy
    rw [(Store.claimReady_first hk hsingle hd).1] at he
    rw [List.mem_singleton.mp he]
  · cases hx

lemma Due.first (hk : Keyed s) (hsingle : c.single)
    (hx : x ∈ claimedSessions env s c) : Due x y (step env s c) := by
  have hkeyed := hk.step env c
  unfold claimedSessions at hx
  unfold Call.single at hsingle
  split at hx
  · rename_i req tokens hop
    rw [hop] at hsingle
    obtain ⟨d,hd,rfl⟩ := List.mem_map.mp hx
    obtain ⟨-,hcursor,j,-,hclaimable,hsession,-⟩ := Store.claimReady_first hk hsingle hd
    have hstep : (step env s c).roundRobinCursor = d.job.sessionId := by
      unfold Summary.step
      rw [hop]
      exact hcursor
    refine ⟨hkeyed,?_,?_⟩
    · rw [hstep,hsession]
      exact session_text hclaimable
    · rw [hstep]
      exact ahead_self
  · cases hx

lemma Due.along (h : Due x y s) {calls : List Call} (hsingle : ∀ c ∈ calls, c.single)
    (hturn : Along (step env) (InTurn env) s calls)
    (hwaits : Along (step env) (WaitsAt env y) s calls) :
    (∃ earlier c later, calls = earlier++c::later ∧
      y ∈ claimedSessions env (run env s earlier) c) ∨ Due x y (run env s calls) := by
  induction calls generalizing s with
  | nil => exact .inr h
  | cons c calls ih =>
    rcases h.kept (hsingle c (by simp)) hturn.1 hwaits.1 with hy | ⟨-,hnext⟩
    · exact .inl ⟨[],c,calls,rfl,hy⟩
    · rcases ih hnext (fun d hd => hsingle d (by simp [hd])) hturn.2 hwaits.2 with
        ⟨earlier,d,later,rfl,hy⟩ | hdue
      · exact .inl ⟨c::earlier,d,later,rfl,hy⟩
      · exact .inr hdue

/-- Between two claims of one session, with one claim handed out at a time, every session that
waits whenever a claim is asked for is served. -/
theorem waiting_session_served (env : Env) (before middle : List Call) (first last : Call)
    {x y : String} (hxy : x ≠ y) (hsingle : ∀ c ∈ first::(middle++[last]), c.single)
    (hfirst : x ∈ claimedSessions env (run env Store.empty before) first)
    (hlast : x ∈ claimedSessions env (run env Store.empty (before++first::middle)) last)
    (hwaits : Along (step env) (WaitsAt env y) (run env Store.empty (before++[first])) (middle++[last]))
    (hturn : Along (step env) (InTurn env) (run env Store.empty (before++[first])) (middle++[last])) :
    ∃ earlier c later, middle = earlier++c::later ∧
      y ∈ claimedSessions env (run env Store.empty (before++first::earlier)) c := by
  have hk : Keyed (run env Store.empty before) := Keyed.empty.run env before
  have hstate : ∀ calls, run env Store.empty (before++first::calls) =
      run env (step env (run env Store.empty before) first) calls :=
    fun calls => run_append env _ before (first::calls)
  have hdue : Due x y (step env (run env Store.empty before) first) :=
    .first hk (hsingle first (by simp)) hfirst
  rw [hstate []] at hwaits hturn
  obtain ⟨hwaits₁,hwaits₂⟩ := along_append.mp hwaits
  obtain ⟨hturn₁,hturn₂⟩ := along_append.mp hturn
  have hrun := hdue.along (fun c hc => hsingle c (by simp [hc])) hturn₁ hwaits₁
  rcases hrun with ⟨earlier,c,later,rfl,hy⟩ | hdue'
  · exact ⟨earlier,c,later,rfl,(hstate earlier).symm ▸ hy⟩
  · rw [hstate] at hlast
    have hlastSingle : last.single := hsingle last (by simp)
    rcases hdue'.kept hlastSingle hturn₂.1 hwaits₂.1 with hy | ⟨hx,-⟩
    · exact absurd (claimedSessions_single hdue'.keyed hlastSingle hlast hy) hxy
    · exact absurd hlast hx

def plannedSessions (plans : List Call) : List Call :=
  (["a","b","c"].flatMap fun session => [(sampleMessage session).at 1,
    (sampleMessage session).at 1])++plans

def plannedInTurn : List Call :=
  plannedSessions [(samplePlan (sampleContext "a" 1 0)).at 2,
    (samplePlan (sampleContext "b" 1 0)).at 3]

/-- The window of `c` is older than that of `b`. -/
def plannedOutOfTurn : List Call :=
  plannedSessions [(samplePlan (sampleContext "a" 1 0)).at 2,
    (samplePlan (sampleContext "c" 1 0)).at 3,(samplePlan (sampleContext "b" 1 0)).at 4]

def secondClaim : List Call := [sampleClaim.at 6,Op.recoverExpiredClaims.at 500]

/-- Two sessions take turns. -/
theorem waiting_session_served_sample :
    ∃ earlier c later, secondClaim = earlier++c::later ∧
      "b" ∈ claimedSessions sampleEnv (run sampleEnv Store.empty
        (plannedInTurn++sampleClaim.at 5::earlier)) c := by
  refine waiting_session_served sampleEnv plannedInTurn secondClaim (sampleClaim.at 5)
    (sampleClaim.at 501) (show "a" ≠ "b" by decide) ?_ (by decide +kernel) (by decide +kernel)
    ⟨?_,trivial,?_,trivial⟩ ⟨?_,trivial,?_,trivial⟩
  · intro c hc
    simp only [secondClaim,List.cons_append,List.nil_append,List.mem_cons, List.not_mem_nil,or_false] at hc
    rcases hc with rfl | rfl | rfl | rfl
    · rfl
    · rfl
    · trivial
    · rfl
  · change ∃ j ∈ _, _ ∧ _
    decide +kernel
  · change ∃ j ∈ _, _ ∧ _
    decide +kernel
  · change ∀ j ∈ _, (∀ k ∈ _, _) → ∀ k ∈ _, _
    decide +kernel
  · change ∀ j ∈ _, (∀ k ∈ _, _) → ∀ k ∈ _, _
    decide +kernel

/-- `a` is served twice, and in between `c`, whose window is older: `b`, which is next behind
`a` and waits all the time, is served at none of the three claims. -/
theorem overtaken_session :
    claimedSessions sampleEnv (run sampleEnv Store.empty plannedOutOfTurn)
    (sampleClaim.at 5) = ["a"] ∧
      (¬∃ earlier c later, secondClaim = earlier++c::later ∧
        "b" ∈ claimedSessions sampleEnv (run sampleEnv Store.empty
          (plannedOutOfTurn++sampleClaim.at 5::earlier)) c) ∧
      claimedSessions sampleEnv (run sampleEnv Store.empty
        (plannedOutOfTurn++sampleClaim.at 5::secondClaim)) (sampleClaim.at 501) = ["a"] ∧
      Along (step sampleEnv) (WaitsAt sampleEnv "b") (run sampleEnv Store.empty plannedOutOfTurn)
        (sampleClaim.at 5::(secondClaim++[sampleClaim.at 501])) := by
  refine ⟨by decide +kernel,?_,by decide +kernel,?_,?_,trivial,?_,trivial⟩
  · rintro ⟨earlier,c,later,hsplit,hb⟩
    have hclaim : "b" ∉ claimedSessions sampleEnv (run sampleEnv Store.empty
        (plannedOutOfTurn++[sampleClaim.at 5])) (sampleClaim.at 6) := by decide +kernel
    cases earlier with
    | nil =>
      obtain ⟨rfl,-⟩ := List.cons.inj hsplit
      exact hclaim hb
    | cons d earlier =>
      obtain ⟨rfl,hrest⟩ := List.cons.inj hsplit
      cases earlier with
      | nil =>
        obtain ⟨rfl,-⟩ := List.cons.inj hrest
        cases hb
      | cons e earlier =>
        have hlong := congrArg List.length hrest
        simp at hlong
  · change ∃ j ∈ _, _ ∧ _
    decide +kernel
  · change ∃ j ∈ _, _ ∧ _
    decide +kernel
  · change ∃ j ∈ _, _ ∧ _
    decide +kernel

end Memora.Summary

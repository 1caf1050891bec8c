import Memora.SummaryLifeRecovery

/-! The worker generation of a job only grows, and a claim that has lost its row never gets
it back: every later call made with it leaves the store as it is. -/
namespace Memora.Summary
open RowTable

variable {env : Env} {s t : Store} {call : Call} {id : String} {w w' : Window}

inductive Op.MadeWith (claim : ClaimedJob) : Op → Prop
  | intents (intents : List CandidateIntent) : MadeWith claim (.beginCandidateIntents claim intents)
  | write (intent : CandidateIntent) : MadeWith claim (.beginCandidateWrite claim intent)
  | commit (o : WindowOutcome) : MadeWith claim (.commitWindow claim o)
  | fail (f : SummaryFailure) : MadeWith claim (.failWindow claim f)
  | renew (leaseSeconds : ℤ) : MadeWith claim (.renewClaim claim leaseSeconds)
  | requeue (reason : Option SummaryReasonCode) : MadeWith claim (.requeueClaim claim reason)

variable {claim : ClaimedJob}

lemma claimMatches_of_not_held (h : ∀ j ∈ s.jobs, claim.holds j = false) (clock : Time) :
    s.claimMatches claim clock = false := by
  by_contra hm
  obtain ⟨j,hj,hh,-⟩ := Store.claimMatches_job (by simpa using hm)
  rw [h j hj] at hh
  cases hh

lemma step_of_not_held (h : ∀ j ∈ s.jobs, claim.holds j = false) {use : Call}
    (huse : use.op.MadeWith claim) : step env s use = s := by
  have hm := fun clock => claimMatches_of_not_held h clock
  have hcount : s.jobs.countP claim.holds ≠ 1 := by
    intro hc
    obtain ⟨j,hj,hh⟩ := exists_of_countP_eq_one hc
    rw [h j hj] at hh
    cases hh
  unfold step
  generalize use.op = op at huse
  cases huse with
  | intents intents => simp [Store.beginCandidateIntents,hm]
  | write intent => simp [Store.beginCandidateWrite,hm]
  | commit o => simp [Store.commitWindow,hm]
  | fail f => simp [Store.failWindow,hm]
  | renew leaseSeconds =>
    simp only [Store.renewClaim]
    split
    · rfl
    · simp only [Store.updateJobs]
      rw [modify_of_none fun j hj => by simp [h j hj]]
  | requeue reason => simp [Store.requeueClaim,hcount]

lemma not_held_of_window (hk : Keyed s) (hw : s.window? claim.job.jobId = some w)
    (hh : claim.holds w.job = false) :
    ∀ j ∈ s.jobs, claim.holds j = false := by
  intro j hj
  by_contra hjh
  have hjh : claim.holds j = true := by simpa using hjh
  rw [Store.eq_job_of_mem hk hw hj (ClaimedJob.holds_jobId hjh),hh] at hjh
  cases hjh

lemma Life.generation_le (h : Life env s call w w') :
    w.job.workerGeneration ≤ w'.job.workerGeneration := by
  cases h <;> simp [Job.claimed,Job.refused,Job.committed,Job.doubted,Job.failed,Job.renewed,
    Job.requeued,Job.recovered,Job.reconciled,Job.degraded,Job.startupUnknown,
    Job.startupCompleted,Job.abandoned,Job.cancelledFor]

variable {reason : SummaryReasonCode} {stamp : Time} {req : ClaimRequest} {c : ClaimedJob}
  {tokens : String → String} {status : SummaryJobStatus} {claims : List ClaimedJob}
  {busy : String → ℕ}
  {f : SummaryFailure} {o : WindowOutcome} {room : Option ℕ} {items : List Job}

lemma commitVerdict_not_running {now : Time}
    {nextAt : Option Time} (h : commitVerdict claim o now = some (status,reason,nextAt)) :
    status = .unknown ∨ status = .completed ∨ status = .blocked ∨ status = .failed := by
  unfold commitVerdict at h
  split at h
  · simp_all
  split at h
  · simp_all
  split at h
  · simp_all
  · obtain ⟨d,_,h⟩ := Option.map_eq_some_iff.mp h
    simp_all

lemma failVerdict_not_running {nextAt : Time}
    (h : failVerdict claim f stamp = some (status,nextAt,reason)) :
    status = .cancelled ∨ status = .blocked ∨ status = .failed := by
  unfold failVerdict at h
  split at h
  · simp_all
  split at h
  · simp_all
  · obtain ⟨d,_,h⟩ := Option.map_eq_some_iff.mp h
    simp_all

lemma Life.running (h : Life env s call w w') (hr : w'.job.status = .running) :
    (∃ lease token, w'.job = w.job.claimed call.now lease token) ∨
      w.job.status = .running ∧ w'.job.claimToken = w.job.claimToken ∧
        w'.job.workerGeneration = w.job.workerGeneration := by
  cases h with
  | claimed _ _ _ _ _ lease token => exact .inl ⟨lease,token,rfl⟩
  | committed claim o status reason nextAt _ _ _ hverdict _ _ =>
    rcases commitVerdict_not_running hverdict with rfl | rfl | rfl | rfl <;>
      exact absurd hr (by simp [Job.committed])
  | failed claim f status nextAt reason _ _ hverdict =>
    rcases failVerdict_not_running hverdict with rfl | rfl | rfl <;> exact absurd hr (by simp [Job.failed])
  | recovered _ _ =>
    simp only [Job.recovered] at hr
    split at hr <;> cases hr
  | stay | recorded | writing | renewed | owned | confirmed | judged =>
    exact .inr ⟨hr,rfl,rfl⟩
  | _ => exact absurd hr (by simp [Job.refused,Job.doubted,Job.requeued,Job.reconciled,
      Job.degraded,Job.startupUnknown,Job.startupCompleted,Job.abandoned,Job.cancelledFor])

structure Gone (claim : ClaimedJob) (w : Window) : Prop where
  generation : claim.workerGeneration ≤ w.job.workerGeneration
  lost : claim.holds w.job = false

lemma Life.source (h : Life env s call w w') : w'.job.toJobSource = w.job.toJobSource := by
  cases h <;> rfl

lemma Gone.life (hg : Gone claim w) (h : Life env s call w w') :
    Gone claim w' := by
  refine ⟨hg.generation.trans h.generation_le,?_⟩
  by_contra hh
  have hh : claim.holds w'.job = true := by simpa using hh
  have hsrc := h.source
  simp only [ClaimedJob.holds,Bool.and_eq_true,decide_eq_true_eq] at hh
  obtain ⟨⟨⟨⟨⟨h1,h2⟩,h3⟩,hrun⟩,htok⟩,hgen⟩ := hh
  rcases h.running hrun with ⟨lease,token,hj⟩ | ⟨hrun',htok',hgen'⟩
  · have hle := hg.generation
    rw [hj] at hgen
    simp only [Job.claimed] at hgen
    omega
  · have hlost := hg.lost
    simp [ClaimedJob.holds,← hsrc,h1,h2,h3,hrun',← htok',htok,← hgen',hgen] at hlost

def issued (env : Env) (s : Store) (call : Call) : List ClaimedJob :=
  match call.op with
  | .claimReady req tokens => (s.claimReady env req tokens call.now).2
  | _ => []

structure IssuedFrom (stamp : Time) (c : ClaimedJob) (w : Window) (t : Store) : Prop where
  due : w.job.due stamp = true
  job : ∃ lease, c.job = w.job.claimed stamp lease c.claimToken
  generation : c.workerGeneration = c.job.workerGeneration
  after : t.window? c.job.jobId = some { w with job := c.job }

namespace Store

lemma exists_window {j : Job} (hk : Keyed s) (hj : j ∈ s.jobs) :
    ∃ w, s.window? j.jobId = some w ∧ w.job = j :=
  ⟨⟨j,s.slots j.jobId,s.credited j.jobId⟩, window?_eq_some.mpr ⟨job?_of_mem hk hj,rfl,rfl⟩,rfl⟩

lemma claimJob_issued (hkt : Keyed t) {token : String}
    {item : Job}
    (h : (t.claimJob env req stamp token item).2 = some c) :
    c.job.jobId = item.jobId ∧ c.job.sessionId = item.sessionId ∧
      ∃ w, t.window? c.job.jobId = some w ∧ IssuedFrom stamp c w (t.claimJob env req stamp token item).1 := by
  revert h
  unfold claimJob
  simp only
  generalize stamp+((max 1 req.leaseSeconds : ℤ) : Time) = lease
  split
  · intro h
    cases h
  rename_i hc
  obtain ⟨j,hj,htarget⟩ := exists_of_countP_eq_one (not_not.mp hc)
  obtain ⟨w,hw,rfl⟩ := exists_window hkt hj
  have h1 : (t.updateJobs (fun r => r.jobId = item.jobId && r.sessionId = item.sessionId &&
      r.sessionEpoch = item.sessionEpoch && r.due stamp) (Job.claimed stamp lease token)).window? w.job.jobId =
        some { w with job := w.job.claimed stamp lease token } := by
    rw [window?_updateJobs t (by intro j; rfl),hw]
    simp only [Option.map_some,htarget,if_true]
  simp only [Bool.and_eq_true,decide_eq_true_eq] at htarget
  obtain ⟨⟨⟨hid,hsid⟩,_⟩,hdue⟩ := htarget
  rw [hid] at h1
  rw [(window?_eq_some.mp h1).1]
  simp only
  split
  · intro h
    cases h
    refine ⟨hid,hsid,w,hw,hdue,⟨lease,rfl⟩,rfl,?_⟩
    simpa [Job.claimed,hid] using h1
  · intro h
    cases h

lemma claimRows_nodup (hn : (items.map fun j => j.jobId).Nodup) (hkt : Keyed t)
    (hc : (claims.map fun c => c.job.jobId).Nodup)
    (hd : ∀ c ∈ claims, ∀ item ∈ items, item.jobId ≠ c.job.jobId) :
    ((claimRows env req stamp tokens busy room items t claims).2.map fun c => c.job.jobId).Nodup := by
  induction items generalizing t claims with
  | nil => exact hc
  | cons item items ih =>
    rw [List.map_cons,List.nodup_cons] at hn
    unfold claimRows
    split
    · exact hc
    split
    · exact ih hn.2 hkt hc fun c hc x hx => hd c hc x (by simp [hx])
    have hnew : ∀ c ∈ (t.claimJob env req stamp (tokens item.jobId) item).2.toList,
        c.job.jobId = item.jobId := fun c hc =>
      (claimJob_issued hkt (Option.mem_toList.mp hc)).1
    refine ih hn.2 (hkt.moves (Stills.moves (claimJob_stills _ _ _ _ _ _))) ?_ ?_
    · refine nodup_append hc ?_ ?_
      · cases (t.claimJob env req stamp (tokens item.jobId) item).2 <;> simp
      · intro x hx c hc he
        exact hd c hc item (by simp) ((hnew x hx).symm.trans he.symm)
    · intro c hc x hx he
      rcases List.mem_append.mp hc with hc | hc
      · exact hd c hc x (by simp [hx]) he
      · exact hn.1 (List.mem_map.mpr ⟨x,hx,he.trans (hnew c hc)⟩)

lemma claimRows_issued (hn : (items.map fun j => j.jobId).Nodup) (hkt : Keyed t)
    (hc : c ∈ (claimRows env req stamp tokens busy room items t claims).2) :
    c ∈ claims ∨ (∃ item ∈ items, item.jobId = c.job.jobId) ∧
      ∃ w, t.window? c.job.jobId = some w ∧
        IssuedFrom stamp c w (claimRows env req stamp tokens busy room items t claims).1 := by
  induction items generalizing t claims with
  | nil => exact .inl hc
  | cons item items ih =>
    rw [List.map_cons,List.nodup_cons] at hn
    unfold claimRows at hc ⊢
    split at hc
    · exact .inl hc
    rename_i hgo
    rw [if_neg hgo]
    split at hc
    · rename_i hskip
      simp only [hskip,if_true]
      rcases ih hn.2 hkt hc with h | ⟨⟨x,hx,he⟩,h⟩
      · exact .inl h
      · exact .inr ⟨⟨x,by simp [hx],he⟩,h⟩
    rename_i hskip
    simp only [hskip,if_false,Bool.false_eq_true]
    have hk₁ : Keyed (t.claimJob env req stamp (tokens item.jobId) item).1 :=
      hkt.moves (Stills.moves (claimJob_stills _ _ _ _ _ _))
    rcases ih hn.2 hk₁ hc with h | ⟨⟨x,hx,he⟩,w,hw,h⟩
    · rcases List.mem_append.mp h with h | h
      · exact .inl h
      · obtain ⟨hid,-,w,hw,hfrom⟩ := claimJob_issued hkt (Option.mem_toList.mp h)
        refine .inr ⟨⟨item,by simp,hid.symm⟩,w,hw,hfrom.due,hfrom.job,hfrom.generation,
          (claimRows_other env req stamp tokens busy room ?_ _ _).trans hfrom.after⟩
        intro x hx he
        exact hn.1 (List.mem_map.mpr ⟨x,hx,he.trans hid⟩)
    · refine .inr ⟨⟨x,by simp [hx],he⟩,w,?_,h⟩
      have hne : item.jobId ≠ c.job.jobId := fun hid =>
        hn.1 (List.mem_map.mpr ⟨x,hx,he.trans hid.symm⟩)
      rw [← claimJob_other env t req stamp (tokens item.jobId) hne]
      exact hw

end Store

theorem issued_from (hk : Keyed s) (hc : c ∈ issued env s call) :
    ∃ w, s.window? c.job.jobId = some w ∧ IssuedFrom call.now c w (step env s call) := by
  unfold issued at hc
  unfold step
  split at hc
  · rename_i req tokens hop
    simp only [hop]
    unfold Store.claimReady at hc ⊢
    split at hc
    · simp at hc
    rename_i hl
    rw [if_neg hl]
    have hn := Store.readyJobs_nodup hk req call.now
    simp only at hc ⊢
    set r := Store.claimRows env req call.now tokens (s.activeIn call.now)
      (req.globalLimit.map fun g : ℤ => (g - ((s.active call.now).length : ℤ)).toNat)
      (s.readyJobs req call.now) s [] with hr
    have hmem : c ∈ r.2 := by
      split at hc <;> exact hc
    rcases Store.claimRows_issued hn hk (hr ▸ hmem) with h | ⟨_,w,hw,hfrom⟩
    · simp at h
    · refine ⟨w,hw,hfrom.due,hfrom.job,hfrom.generation,?_⟩
      split <;> exact hfrom.after
  · simp at hc

lemma issued_nodup (hk : Keyed s) (env : Env) (call : Call) :
    ((issued env s call).map fun c => c.job.jobId).Nodup := by
  unfold issued
  split
  · rename_i req tokens hop
    unfold Store.claimReady
    split
    · simp
    have h : ((Store.claimRows env req call.now tokens (s.activeIn call.now)
        (req.globalLimit.map fun g : ℤ => (g - ((s.active call.now).length : ℤ)).toNat)
        (s.readyJobs req call.now) s []).2.map fun c => c.job.jobId).Nodup :=
      Store.claimRows_nodup (Store.readyJobs_nodup hk req call.now) hk (by simp) (by simp)
    simp only
    split <;> exact h
  · simp

/-- What supersedes a claim: its expired lease is recovered, its job is requeued,
committed or failed, or its epoch is reset or cleared. -/
inductive Supersedes (env : Env) (s : Store) (claim : ClaimedJob) (call : Call) : Prop
  | recovered (j : Job) (hop : call.op = .recoverExpiredClaims) (hj : j ∈ s.jobs)
      (hid : j.jobId = claim.job.jobId) (hexp : j.expired call.now = true)
  | requeued (other : ClaimedJob) (reason : Option SummaryReasonCode)
      (hop : call.op = .requeueClaim other reason) (hid : other.job.jobId = claim.job.jobId)
      (hok : (s.requeueClaim other reason call.now).2 = true)
  | committed (other : ClaimedJob) (o : WindowOutcome) (hop : call.op = .commitWindow other o)
      (hid : other.job.jobId = claim.job.jobId)
      (hok : (s.commitWindow env other o call.now call.clock call.recheck).2.accepted = true)
  | failed (other : ClaimedJob) (f : SummaryFailure) (hop : call.op = .failWindow other f)
      (hid : other.job.jobId = claim.job.jobId)
      (hok : (s.failWindow other f call.now call.clock).2.accepted = true)
  | reset (reason : Option SummaryReasonCode)
      (hop : call.op = .resetSessionEpoch claim.job.sessionId reason)
      (hepoch : (s.getSummaryEpoch claim.job.sessionId).1 = claim.job.sessionEpoch)
      (hok : (s.resetSessionEpoch claim.job.sessionId reason call.now).2.accepted = true)
  | cleared (hop : call.op = .clearSessionAtomically claim.job.sessionId false)
      (hepoch : (s.getSummaryEpoch claim.job.sessionId).1 = claim.job.sessionEpoch)

lemma not_holds_of_status {j : Job} (h : j.status ≠ .running) : claim.holds j = false := by
  simp [ClaimedJob.holds,h]

lemma updateHeld_result (hk : Keyed t) (hc : t.jobs.countP claim.holds = 1) {f : Job → Job}
    (hf : ∀ j, (f j).jobId = j.jobId) (hw' : (t.updateJobs claim.holds f).window? claim.job.jobId = some w') :
    ∃ j, w'.job = f j := by
  obtain ⟨j,hj,hh⟩ := exists_of_countP_eq_one hc
  obtain ⟨w,hw,rfl⟩ := Store.exists_window hk hj
  rw [ClaimedJob.holds_jobId hh] at hw
  rw [Store.window?_updateHeld hw hh hf] at hw'
  cases hw'
  exact ⟨w.job,rfl⟩

lemma markUnknownClaim_accepted (hk : Keyed t) {base : Store} {now recheck : Time}
    {exceptionType : Option String}
    (hok : (Store.markUnknownClaim base t claim now recheck reason exceptionType).2.accepted = true)
    (hw' : (Store.markUnknownClaim base t claim now recheck reason exceptionType).1.window? claim.job.jobId = some w') :
    w'.job.status ≠ .running := by
  revert hok hw'
  unfold Store.markUnknownClaim
  simp only
  split
  · simp [CompletionResult.lost]
  split
  · simp [CompletionResult.lost]
  rename_i hc
  intro _ hw'
  obtain ⟨j,hj⟩ := updateHeld_result (hk.still (Store.doubtSlots_still t _ _)) (not_not.mp hc)
    (by intro j; rfl) hw'
  rw [hj]
  simp [Job.doubted]

lemma commitWindow_accepted (hk : Keyed s) {now clock recheck : Time}
    (hok : (s.commitWindow env claim o now clock recheck).2.accepted = true)
    (hw' : (s.commitWindow env claim o now clock recheck).1.window? claim.job.jobId = some w') :
    w'.job.status ≠ .running := by
  revert hok hw'
  unfold Store.commitWindow
  simp only
  split
  · simp [CompletionResult.lost]
  split
  · exact fun hok hw' => markUnknownClaim_accepted hk hok hw'
  split
  · simp
  rename_i status reason nextAt hverdict
  split
  · exact fun hok hw' => markUnknownClaim_accepted hk hok hw'
  split
  · simp
  split
  · simp [CompletionResult.lost]
  rename_i hc
  intro _ hw'
  have hk₁ : Keyed (s.updateCandidates (fun c => c.jobId = claim.job.jobId)
      (Candidate.settledBy o.candidateSlots now)) := by
    refine hk.still (.candidates _ _ _ fun c => ?_)
    unfold Candidate.settledBy
    split <;> rfl
  have hjob : ∃ j, w'.job = Job.committed status reason nextAt o now j := by
    rw [Store.window?_advanceCursor] at hw'
    split at hw'
    · rw [Store.window?_addCounters] at hw'
      obtain ⟨w₂,hw₂,rfl⟩ := Option.map_eq_some_iff.mp hw'
      obtain ⟨j,hj⟩ := updateHeld_result hk₁ (not_not.mp hc) (by intro j; rfl) hw₂
      exact ⟨j,hj⟩
    · exact updateHeld_result hk₁ (not_not.mp hc) (by intro j; rfl) hw'
  obtain ⟨j,hj⟩ := hjob
  rw [hj]
  rcases commitVerdict_not_running hverdict with rfl | rfl | rfl | rfl <;> simp [Job.committed]

lemma failWindow_accepted (hk : Keyed s) {stamp clock : Time}
    (hok : (s.failWindow claim f stamp clock).2.accepted = true)
    (hw' : (s.failWindow claim f stamp clock).1.window? claim.job.jobId = some w') :
    w'.job.status ≠ .running := by
  revert hok hw'
  unfold Store.failWindow
  split
  · simp
  split
  · simp
  rename_i status nextAt reason hverdict
  split
  · simp
  rename_i hc
  intro _ hw'
  obtain ⟨j,hj⟩ := updateHeld_result hk (not_not.mp hc) (by intro j; rfl) hw'
  rw [hj]
  rcases failVerdict_not_running hverdict with rfl | rfl | rfl <;> simp [Job.failed]

lemma requeueClaim_accepted (hk : Keyed s) {reason : Option SummaryReasonCode}
    (hok : (s.requeueClaim claim reason stamp).2 = true)
    (hw' : (s.requeueClaim claim reason stamp).1.window? claim.job.jobId = some w') :
    w'.job.status ≠ .running := by
  revert hok hw'
  unfold Store.requeueClaim
  simp only
  split
  · simp
  rename_i hc
  simp only [Bool.or_eq_true,not_or,decide_eq_true_eq,not_not] at hc
  intro _ hw'
  obtain ⟨j,hj⟩ := updateHeld_result hk hc.1 (by intro j; rfl) hw'
  rw [hj]
  simp [Job.requeued]

lemma not_holds_cancelled {now : Time} (hw' :
    (t.updateJobs (fun j => (j.sessionId = claim.job.sessionId &&
      j.sessionEpoch = claim.job.sessionEpoch) && !j.status.settled)
      (Job.cancelledFor reason now)).window? id = some w') : claim.holds w'.job = false := by
  rw [Store.window?_updateJobs t (by intro j; rfl)] at hw'
  obtain ⟨w,_,rfl⟩ := Option.map_eq_some_iff.mp hw'
  split
  · exact not_holds_of_status (by simp [Job.cancelledFor])
  · rename_i hp
    by_contra hh
    have hh : claim.holds w.job = true := by simpa using hh
    simp only [ClaimedJob.holds,Bool.and_eq_true,decide_eq_true_eq] at hh
    simp [hh,SummaryJobStatus.settled] at hp

lemma Supersedes.lost (hk : Keyed s) (h : Supersedes env s claim call)
    (hw' : (step env s call).window? claim.job.jobId = some w') : claim.holds w'.job = false := by
  cases h with
  | recovered j hop hj hid hexp =>
    obtain ⟨w,hw,rfl⟩ := Store.exists_window hk hj
    have hadv : (s.recoverExpiredClaims call.now).1.window? claim.job.jobId =
        (s.updateJobs (Job.expired call.now) (Job.recovered call.now)).window? claim.job.jobId :=
      Store.Advances.window? (advances_foldl call.now _ _) _
    simp only [step,hop] at hw'
    rw [hadv,Store.window?_updateJobs s (by intro j; rfl),← hid,hw] at hw'
    simp only [Option.map_some,hexp,if_true,Option.some.injEq] at hw'
    subst hw'
    refine not_holds_of_status ?_
    simp only [Job.recovered]
    split <;> simp
  | requeued other reason hop hid hok =>
    simp only [step,hop,← hid] at hw'
    exact not_holds_of_status (requeueClaim_accepted hk hok hw')
  | committed other o hop hid hok =>
    simp only [step,hop,← hid] at hw'
    exact not_holds_of_status (commitWindow_accepted hk hok hw')
  | failed other f hop hid hok =>
    simp only [step,hop,← hid] at hw'
    exact not_holds_of_status (failWindow_accepted hk hok hw')
  | reset reason hop hepoch hok =>
    simp only [step,hop] at hw'
    revert hok hw'
    have hold := congrArg Prod.fst (ensureEpoch_current s claim.job.sessionId call.now)
    unfold Store.resetSessionEpoch
    obtain ⟨⟨s₁,old,cursor⟩,hens⟩ : ∃ r, s.ensureEpoch claim.job.sessionId call.now = r := ⟨_,rfl⟩
    simp only [hens,hepoch] at hold ⊢
    subst hold
    split
    · simp
    rename_i s₂ hc
    intro _ hw'
    simp only [Store.cancelJobs] at hc
    split at hc
    · cases hc
    cases hc
    exact not_holds_cancelled hw'
  | cleared hop hepoch =>
    simp only [step,hop] at hw'
    revert hw'
    have hold := congrArg Prod.fst (ensureEpoch_current s claim.job.sessionId call.now)
    unfold Store.clearSessionAtomically
    obtain ⟨⟨s₁,old,cursor⟩,hens⟩ : ∃ r, s.ensureEpoch claim.job.sessionId call.now = r := ⟨_,rfl⟩
    simp only [hens,hepoch,Bool.false_eq_true,if_false] at hold ⊢
    subst hold
    exact fun hw' => not_holds_cancelled (t := s₁) hw'

def Superseded (env : Env) (s : Store) (claim : ClaimedJob) (calls : List Call) : Prop :=
  ∃ before call after, calls = before++call::after ∧ Supersedes env (run env s before) claim call

lemma run_append (env : Env) (s : Store) (c₁ c₂ : List Call) :
    run env s (c₁++c₂) = run env (run env s c₁) c₂ := List.foldl_append

lemma generation_run (hk : Keyed s) {n : ℕ} (env : Env) (calls : List Call)
    (hw : ∃ w, s.window? id = some w ∧ n ≤ w.job.workerGeneration) :
    ∃ w, (run env s calls).window? id = some w ∧ n ≤ w.job.workerGeneration := by
  refine (RunLaws.foldl_invariant (P := fun s => Keyed s ∧
    ∃ w, s.window? id = some w ∧ n ≤ w.job.workerGeneration) ?_ ⟨hk,hw⟩ calls).2
  rintro s call ⟨hk,w,hw,hn⟩
  obtain ⟨w',hw',hlife⟩ : Lives env s call id w (step env s call) := step_life hk hw call
  exact ⟨hk.step env call,w',hw',hn.trans hlife.generation_le⟩

lemma gone_run (hk : Keyed s) (env : Env) (calls : List Call)
    (hw : ∃ w, s.window? id = some w ∧ Gone claim w) :
    ∃ w, (run env s calls).window? id = some w ∧ Gone claim w := by
  refine (RunLaws.foldl_invariant (P := fun s => Keyed s ∧
    ∃ w, s.window? id = some w ∧ Gone claim w) ?_ ⟨hk,hw⟩ calls).2
  rintro s call ⟨hk,w,hw,hg⟩
  obtain ⟨w',hw',hlife⟩ : Lives env s call id w (step env s call) := step_life hk hw call
  exact ⟨hk.step env call,w',hw',hg.life hlife⟩

lemma effective_token {use : Call} (huse : use.op.MadeWith claim) (h : step env s use ≠ s) :
    ∃ j ∈ s.jobs, j.jobId = claim.job.jobId ∧ j.claimToken = some claim.claimToken := by
  by_contra hnone
  refine h (step_of_not_held (fun j hj => ?_) huse)
  by_contra hh
  have hh : claim.holds j = true := by simpa using hh
  refine hnone ⟨j,hj,ClaimedJob.holds_jobId hh,?_⟩
  simp only [ClaimedJob.holds,Bool.and_eq_true,decide_eq_true_eq] at hh
  exact hh.1.2

/-- A superseded claim changes nothing any more, and at every moment at most one token of
each job has an effect. -/
theorem superseded_claims_inert (env : Env) (calls : List Call) :
    (∀ before issue after claim use, calls = before++issue::after →
      claim ∈ issued env (run env Store.empty before) issue →
      Superseded env (run env Store.empty (before++[issue])) claim after →
      use.op.MadeWith claim → step env (run env Store.empty calls) use = run env Store.empty calls) ∧
    ∀ c₁ c₂ u₁ u₂, c₁.job.jobId = c₂.job.jobId → u₁.op.MadeWith c₁ → u₂.op.MadeWith c₂ →
      step env (run env Store.empty calls) u₁ ≠ run env Store.empty calls →
      step env (run env Store.empty calls) u₂ ≠ run env Store.empty calls → c₁.claimToken = c₂.claimToken := by
  refine ⟨?_,?_⟩
  · rintro before issue after claim use rfl hissued ⟨b,call,a,rfl,hsup⟩ huse
    have hk₀ : Keyed (run env Store.empty before) := Keyed.empty.run env before
    obtain ⟨w,_,hfrom⟩ := issued_from hk₀ hissued
    rw [run_append] at hsup
    simp only [run,List.foldl_cons,List.foldl_nil] at hsup hfrom ⊢
    set s₁ := step env (List.foldl (step env) Store.empty before) issue with hs₁
    have hk₁ : Keyed s₁ := hk₀.step env issue
    have hk₂ : Keyed (List.foldl (step env) s₁ b) := hk₁.run env b
    obtain ⟨w₂,hw₂,hn₂⟩ := generation_run hk₁ env (b++[call]) ⟨_,hfrom.after,hfrom.generation.le⟩
    simp only [run,List.foldl_append,List.foldl_cons,List.foldl_nil] at hw₂
    have hgone : Gone claim w₂ := ⟨hn₂,hsup.lost hk₂ hw₂⟩
    obtain ⟨w₃,hw₃,hg₃⟩ := gone_run (hk₂.step env call) env a ⟨w₂,hw₂,hgone⟩
    simp only [List.foldl_append,List.foldl_cons]
    exact step_of_not_held (not_held_of_window ((hk₂.step env call).run env a) hw₃ hg₃.lost) huse
  · intro c₁ c₂ u₁ u₂ hid h₁ h₂ he₁ he₂
    obtain ⟨j₁,hj₁,hid₁,ht₁⟩ := effective_token h₁ he₁
    obtain ⟨j₂,hj₂,hid₂,ht₂⟩ := effective_token h₂ he₂
    obtain rfl := eq_of_key_eq (Keyed.empty.run env calls).jobs hj₁ hj₂ (hid₁.trans (hid.trans hid₂.symm))
    exact Option.some.inj (ht₁.symm.trans ht₂)

def plannedCalls : List Call :=
  [(sampleMessage "a").at 1,(sampleMessage "a").at 1,(samplePlan (sampleContext "a" 1 0)).at 2]

lemma issued_sample : issued sampleEnv (run sampleEnv Store.empty plannedCalls)
    (sampleClaim.at 3) ≠ [] := by decide +kernel

def heldClaim : ClaimedJob :=
  (issued sampleEnv (run sampleEnv Store.empty plannedCalls) (sampleClaim.at 3)).head issued_sample

def heldCalls : List Call := plannedCalls++[sampleClaim.at 3]

/-- A lease recovered after its end: the old claim can no longer put the window back. -/
theorem superseded_claims_inert_sample :
    let claim := (issued sampleEnv (run sampleEnv Store.empty plannedCalls)
      (sampleClaim.at 3)).head issued_sample
    let calls := plannedCalls++[sampleClaim.at 3,Op.recoverExpiredClaims.at 500]
    let use := (Op.requeueClaim claim none).at 501
    step sampleEnv (run sampleEnv Store.empty calls) use = run sampleEnv Store.empty calls := by
  intro claim calls use
  refine (superseded_claims_inert sampleEnv calls).1 plannedCalls (sampleClaim.at 3)
    [Op.recoverExpiredClaims.at 500] claim use rfl (List.head_mem _) ?_ (.requeue none)
  have hne : (run sampleEnv Store.empty (plannedCalls++[sampleClaim.at 3])).jobs ≠ [] := by
    decide +kernel
  exact ⟨[],_,[],rfl,.recovered _ rfl (List.head_mem hne) (by decide +kernel +revert)
    (by decide +kernel +revert)⟩

end Memora.Summary

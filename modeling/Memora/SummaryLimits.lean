import Memora.SummaryFencing
import Memora.SummarySound

/-! A job is handed out at most three times between two requeues, and the running windows
with a live lease never exceed the limits the claims were made with. -/
namespace Memora.Summary
open RowTable

variable {env : Env} {s t : Store} {call : Call} {id : String} {w w' : Window}
    {stamp : Time} {j : Job}

def SummaryJobStatus.attempting (status : SummaryJobStatus) : Bool :=
  status.claimable || status = .running

def Window.spent (w : Window) : ℕ := if w.job.status.attempting then w.job.attemptCount else 3

lemma Job.due_claimable (h : j.due stamp = true) : j.status.claimable = true ∧
    j.attemptCount < 3 := by
  simp only [Job.due,Bool.and_eq_true,decide_eq_true_eq] at h
  exact h.1

lemma Life.attempts (h : Life env s call w w') (h3 : w.job.attemptCount ≤ 3) :
    w'.job.attemptCount ≤ 3 := by
  cases h with
  | claimed req tokens hop hdue | refused req tokens hop hdue => exact (Job.due_claimable hdue).2
  | failed claim f =>
    have hle : (if f.cancelled then w.job.attemptCount - 1 else w.job.attemptCount) ≤
        w.job.attemptCount := by split <;> omega
    exact hle.trans h3
  | requeued => exact (Nat.sub_le _ _).trans h3
  | _ => exact h3

lemma Fresh.attempts (hw : Fresh env w) : w.job.attemptCount ≤ 3 := by
  obtain ⟨c,id,start,stop,digest,complete,now,hj,_⟩ := hw.planned
  rw [hj]
  exact Nat.zero_le _

lemma attempts_step (hk : Keyed s) (call : Call)
    (h3 : ∀ id w, s.window? id = some w → w.job.attemptCount ≤ 3) :
    ∀ id w, (step env s call).window? id = some w → w.job.attemptCount ≤ 3 :=
  windows_step (fun _ hw => hw.attempts) (fun _ _ _ h h3 => h.attempts h3) hk h3

lemma attempts_run (env : Env) (calls : List Call) :
    ∀ id w, (run env Store.empty calls).window? id = some w → w.job.attemptCount ≤ 3 :=
  windows_run (fun _ hw => hw.attempts) (fun _ _ _ _ _ _ h h3 => h.attempts h3) calls

lemma Window.spent_le (h3 : w.job.attemptCount ≤ 3) : w.spent ≤ 3 := by
  unfold Window.spent
  split <;> omega

lemma spent_of_not_attempting (h : w.job.status.attempting = false) : w.spent = 3 := by
  simp [Window.spent,h]

lemma Life.attempting (h : Life env s call w w') (ha : w'.job.status.attempting = true) :
    w.job.status.attempting = true := by
  cases h with
  | claimed req tokens hop hdue => simp [SummaryJobStatus.attempting,(Job.due_claimable hdue).1]
  | committed _ _ _ _ _ _ hholds | failed _ _ _ _ _ _ hholds | requeued _ _ _ hholds =>
    simp only [ClaimedJob.holds,Bool.and_eq_true,decide_eq_true_eq] at hholds
    simp [SummaryJobStatus.attempting,hholds]
  | recovered hop hexp =>
    simp only [Job.expired,Bool.and_eq_true,decide_eq_true_eq] at hexp
    simp [SummaryJobStatus.attempting,hexp]
  | stay | recorded | writing | renewed | owned | confirmed | judged => exact ha
  | _ => exact absurd ha (by simp [SummaryJobStatus.attempting,SummaryJobStatus.claimable,
      Job.refused,Job.doubted,Job.reconciled,Job.degraded,Job.startupUnknown,
      Job.startupCompleted,Job.abandoned,Job.cancelledFor])

lemma Life.spent_le (h : Life env s call w w') (h3 : w.job.attemptCount ≤ 3)
    (hreq : ∀ claim reason, call.op = .requeueClaim claim reason → claim.holds w.job = false ∨
      (reason.getD .unknown).storable = false) : w.spent ≤ w'.spent := by
  by_cases ha : w'.job.status.attempting = true
  · have hb := h.attempting ha
    simp only [Window.spent,ha,hb,if_true]
    cases h with
    | claimed | refused => exact Nat.le_succ _
    | failed claim f status nextAt reason hop hholds hverdict =>
      -- a cancelled attempt is given back, but its job is cancelled
      have hc : f.cancelled = false := by
        by_contra hc
        have hc : f.cancelled = true := by simpa using hc
        simp only [failVerdict,hc,if_true,Option.some.injEq,Prod.mk.injEq] at hverdict
        obtain ⟨rfl,-⟩ := hverdict
        simp [Job.failed,SummaryJobStatus.attempting,SummaryJobStatus.claimable] at ha
      simp [Job.failed,hc]
    | requeued claim reason hop hholds hstor =>
      rcases hreq claim reason hop with hh | hh
      · exact absurd hholds (by simp [hh])
      · exact absurd hstor (by simp [hh])
    | _ => exact Nat.le_refl _
  · have hspent : w'.spent = 3 := spent_of_not_attempting (by simpa using ha)
    rw [hspent]
    exact Window.spent_le h3

def requeues (s : Store) (id : String) (call : Call) : Bool :=
  match call.op with
  | .requeueClaim claim reason =>
    claim.job.jobId = id && (s.requeueClaim claim reason call.now).2
  | _ => false

def handouts (env : Env) (s : Store) (id : String) (call : Call) : ℕ :=
  (issued env s call).countP fun c => c.job.jobId = id

def handoutsAlong (env : Env) (id : String) : Store → List Call → ℕ
  | _, [] => 0
  | s, call::calls => handouts env s id call+handoutsAlong env id (step env s call) calls

/-- Attempts of a job that can no longer be made; none before it is planned. -/
def Store.spent (s : Store) (id : String) : ℕ := (s.window? id).elim 0 Window.spent

variable {claim : ClaimedJob} {calls : List Call}

lemma requeues_of_holds (hk : Keyed s) {reason : Option SummaryReasonCode}
    (hop : call.op = .requeueClaim claim reason) (hw : s.window? w.job.jobId = some w)
    (hh : claim.holds w.job = true) (hstor : (reason.getD .unknown).storable = true) :
    requeues s w.job.jobId call = true := by
  have hid : claim.job.jobId = w.job.jobId := (ClaimedJob.holds_jobId hh).symm
  have hc : s.jobs.countP claim.holds = 1 :=
    (Store.countP_job hk hw fun j hj => (ClaimedJob.holds_jobId hj).trans hid).mpr hh
  simp [requeues,hop,hid,Store.requeueClaim,hc,hstor]

lemma handouts_step (hk : Keyed s) (h3 : ∀ w, s.window? id = some w → w.job.attemptCount ≤ 3)
    (hreq : requeues s id call = false) : s.spent id+handouts env s id call ≤
    (step env s call).spent id := by
  by_cases hcount : handouts env s id call = 0
  · rw [hcount,add_zero]
    cases hw : s.window? id with
    | none => simp [Store.spent,hw]
    | some w =>
      obtain ⟨w',hw',hlife⟩ : Lives env s call id w (step env s call) := step_life hk hw call
      have hid : w.job.jobId = id := Store.window?_jobId hw
      have hle : w.spent ≤ w'.spent := by
        refine hlife.spent_le (h3 w hw) ?_
        intro claim reason hop
        by_contra hh
        simp only [not_or,Bool.not_eq_false] at hh
        have hyes := requeues_of_holds hk hop (hid.symm ▸ hw) hh.1 hh.2
        rw [hid,hreq] at hyes
        cases hyes
      simpa [Store.spent,hw,hw'] using hle
  · obtain ⟨c,hc,hcid⟩ := List.countP_pos_iff.mp (Nat.pos_of_ne_zero hcount)
    obtain ⟨w,hw,hfrom⟩ := issued_from hk hc
    obtain rfl : c.job.jobId = id := by simpa using hcid
    have hone : handouts env s c.job.jobId call ≤ 1 :=
      countP_le_one (issued_nodup hk env call) fun x _ hx => by simpa using hx
    obtain ⟨lease,hjob⟩ := hfrom.job
    have hbefore : w.spent = w.job.attemptCount := by
      simp [Window.spent,SummaryJobStatus.attempting,(Job.due_claimable hfrom.due).1]
    have hafter : Window.spent { w with job := c.job } = w.job.attemptCount+1 := by
      rw [Window.spent,hjob]
      simp [Job.claimed,SummaryJobStatus.attempting]
    simp only [Store.spent,hw,hfrom.after,Option.elim_some]
    omega

/-- Between two requeues of a job it is handed out at most three times. -/
theorem handouts_le (hk : Keyed s) (h3 : ∀ id w, s.window? id = some w → w.job.attemptCount ≤ 3)
    (hreq : RunLaws.Along (step env) (fun s call => requeues s id call = false) s calls) :
    s.spent id+handoutsAlong env id s calls ≤ 3 := by
  induction calls generalizing s with
  | nil =>
    cases hw : s.window? id with
    | none => simp [Store.spent,hw,handoutsAlong]
    | some w =>
      have hle : w.spent ≤ 3 := Window.spent_le (h3 id w hw)
      simpa [Store.spent,hw,handoutsAlong] using hle
  | cons call calls ih =>
    have hstep : s.spent id+handouts env s id call ≤ (step env s call).spent id :=
      handouts_step hk (h3 id) hreq.1
    have hrest := ih (hk.step env call) (attempts_step hk call h3) hreq.2
    rw [handoutsAlong]
    omega

/-- The third attempt of the job ends without success: its worker reports a failure, its
commit ends in a failure, or its expired lease is recovered. -/
inductive ThirdFails (env : Env) (s : Store) (id : String) (call : Call) : Prop
  | failed (claim : ClaimedJob) (f : SummaryFailure) (hop : call.op = .failWindow claim f)
      (hid : claim.job.jobId = id) (h3 : 3 ≤ claim.job.attemptCount) (hf : f.cancelled = false)
      (hok : (s.failWindow claim f call.now call.clock).2.accepted = true)
  | committed (claim : ClaimedJob) (o : WindowOutcome) (hop : call.op = .commitWindow claim o)
      (hid : claim.job.jobId = id) (h3 : 3 ≤ claim.job.attemptCount)
      (hok : (s.commitWindow env claim o call.now call.clock call.recheck).2.accepted = true)
      (hfail : (s.commitWindow env claim o call.now call.clock call.recheck).2.status = .failed ∨
        (s.commitWindow env claim o call.now call.clock call.recheck).2.status = .blocked)
  | expired (j : Job) (hop : call.op = .recoverExpiredClaims) (hj : j ∈ s.jobs)
      (hid : j.jobId = id) (h3 : 3 ≤ j.attemptCount) (hexp : j.expired call.now = true)

lemma failWindow_third (hk : Keyed s) {f : SummaryFailure} {stamp clock : Time}
    (h3 : 3 ≤ claim.job.attemptCount) (hf : f.cancelled = false)
    (hok : (s.failWindow claim f stamp clock).2.accepted = true)
    (hw' : (s.failWindow claim f stamp clock).1.window? claim.job.jobId = some w') :
    w'.job.status = .blocked := by
  revert hok hw'
  unfold Store.failWindow
  have hverdict : failVerdict claim f stamp = some (.blocked,stamp,f.reasonCode) := by
    simp [failVerdict,hf,h3]
  rw [hverdict]
  simp only
  split
  · simp
  split
  · simp
  rename_i hc
  intro _ hw'
  obtain ⟨j,hj⟩ := updateHeld_result hk (not_not.mp hc) (by intro j; rfl) hw'
  rw [hj]
  rfl

lemma markUnknownClaim_status (base : Store) (claim : ClaimedJob) (now recheck : Time)
    (reason : SummaryReasonCode) (exceptionType : Option String) :
    (Store.markUnknownClaim base t claim now recheck reason exceptionType).2.status =
      .unknown := by
  unfold Store.markUnknownClaim
  simp only
  split
  · rfl
  split
  · rfl
  · rfl

lemma commitWindow_third (hk : Keyed s) {o : WindowOutcome} {now clock recheck : Time}
    (h3 : 3 ≤ claim.job.attemptCount)
    (hfail : (s.commitWindow env claim o now clock recheck).2.status = .failed ∨ (s.commitWindow env claim o now clock recheck).2.status = .blocked)
    (hw' : (s.commitWindow env claim o now clock recheck).1.window? claim.job.jobId = some w') :
    w'.job.status = .blocked := by
  have hv : ∀ status reason nextAt, commitVerdict claim o now = some (status,reason,nextAt) →
      status ≠ .failed := by
    intro status reason nextAt hverdict
    simp only [commitVerdict,h3,if_true] at hverdict
    split at hverdict
    · cases hverdict
      simp
    split at hverdict
    · cases hverdict
      simp
    · cases hverdict
      simp
  revert hfail hw'
  unfold Store.commitWindow
  simp only
  split
  · simp [CompletionResult.lost]
  split
  · simp [markUnknownClaim_status]
  split
  · simp
  rename_i status reason nextAt hverdict
  split
  · simp [markUnknownClaim_status]
  split
  · simp
  split
  · simp [CompletionResult.lost]
  rename_i hc
  intro hfail hw'
  have hblocked : status = .blocked := hfail.resolve_left (hv _ _ _ hverdict)
  subst hblocked
  have hk₁ : Keyed (s.updateCandidates (fun c => c.jobId = claim.job.jobId)
      (Candidate.settledBy o.candidateSlots now)) := by
    refine hk.still (.candidates _ _ _ fun c => ?_)
    unfold Candidate.settledBy
    split <;> rfl
  obtain ⟨j,hj⟩ := updateHeld_result hk₁ (not_not.mp hc) (by intro j; rfl) hw'
  rw [hj]
  rfl

lemma ThirdFails.blocked (hk : Keyed s) (h : ThirdFails env s id call)
    (hw' : (step env s call).window? id = some w') : w'.job.status = .blocked := by
  cases h with
  | failed claim f hop hid h3 hf hok =>
    simp only [step,hop,← hid] at hw'
    exact failWindow_third hk h3 hf hok hw'
  | committed claim o hop hid h3 hok hfail =>
    simp only [step,hop,← hid] at hw'
    exact commitWindow_third hk h3 hfail hw'
  | expired j hop hj hid h3 hexp =>
    obtain ⟨w,hw,rfl⟩ := Store.exists_window hk hj
    have hadv : (s.recoverExpiredClaims call.now).1.window? id =
        (s.updateJobs (Job.expired call.now) (Job.recovered call.now)).window? id :=
      Store.Advances.window? (advances_foldl call.now _ _) _
    simp only [step,hop] at hw'
    rw [hadv,Store.window?_updateJobs s (by intro j; rfl),← hid,hw] at hw'
    simp only [Option.map_some,hexp,if_true,Option.some.injEq] at hw'
    rw [← hw']
    simp [Job.recovered,h3]

lemma claimMatches_window (hk : Keyed s) {clock : Time} (h : s.claimMatches claim clock = true) :
    ∃ w, s.window? claim.job.jobId = some w := by
  obtain ⟨j,hj,hh,-⟩ := Store.claimMatches_job h
  obtain ⟨w,hw,-⟩ := Store.exists_window hk hj
  rw [ClaimedJob.holds_jobId hh] at hw
  exact ⟨w,hw⟩

lemma ThirdFails.window (hk : Keyed s) (h : ThirdFails env s id call) :
    ∃ w, s.window? id = some w := by
  cases h with
  | failed claim f hop hid h3 hf hok =>
    subst hid
    by_cases hm : s.claimMatches claim call.clock = true
    · exact claimMatches_window hk hm
    · exact absurd hok (by simp [Store.failWindow,hm])
  | committed claim o hop hid h3 hok =>
    subst hid
    by_cases hm : s.claimMatches claim call.clock = true
    · exact claimMatches_window hk hm
    · exact absurd hok (by simp [Store.commitWindow,hm,CompletionResult.lost])
  | expired j hop hj hid =>
    subst hid
    obtain ⟨w,hw,-⟩ := Store.exists_window hk hj
    exact ⟨w,hw⟩

def Retired (s : Store) (id : String) : Prop :=
  ∃ w, s.window? id = some w ∧ w.job.status.attempting = false

lemma Retired.step (hk : Keyed s) (h : Retired s id) (env : Env) (call : Call) :
    Retired (step env s call) id := by
  obtain ⟨w,hw,ha⟩ := h
  obtain ⟨w',hw',hlife⟩ : Lives env s call id w (Memora.Summary.step env s call) :=
    step_life hk hw call
  refine ⟨w',hw',?_⟩
  by_contra ha'
  rw [hlife.attempting (by simpa using ha')] at ha
  cases ha

lemma Retired.run (hk : Keyed s) (h : Retired s id) (env : Env) (calls : List Call) :
    Retired (run env s calls) id :=
  (RunLaws.foldl_invariant (P := fun s => Keyed s ∧ Retired s id)
    (fun _ call h => ⟨h.1.step env call,h.2.step h.1 env call⟩) ⟨hk,h⟩ calls).2

lemma Retired.not_issued (hk : Keyed s) {c : ClaimedJob} (h : Retired s c.job.jobId) :
    c ∉ issued env s call := by
  intro hc
  obtain ⟨w,hw,ha⟩ := h
  obtain ⟨w₁,hw₁,hfrom⟩ := issued_from hk hc
  obtain rfl := Option.some.inj (hw.symm.trans hw₁)
  simp [SummaryJobStatus.attempting,(Job.due_claimable hfrom.due).1] at ha

/-- Running windows with a live lease in their session's current epoch, of a selection. -/
def Store.activeOf (s : Store) (q : JobSource → Bool) (time : Time) : List Job :=
  (s.active time).filter fun j => q j.toJobSource

variable {time : Time} {req : ClaimRequest} {tokens : String → String} {G P : ℤ}
    {claims : List ClaimedJob}
  {q : JobSource → Bool} {busy : String → ℕ} {room : Option ℕ} {items : List Job}

lemma mem_activeOf : j ∈ s.activeOf q time ↔ j ∈ s.jobs ∧
    s.isCurrent j.sessionId j.sessionEpoch = true ∧
      j.leased time = true ∧ q j.toJobSource = true := by
  simp only [Store.activeOf,Store.active,List.mem_filter,Bool.and_eq_true]
  tauto

lemma Job.leased_mono {now time : Time} (h : j.leased time = true) (ht : now ≤ time) :
    j.leased now = true := by
  simp only [Job.leased,Bool.and_eq_true,decide_eq_true_eq,Option.any_eq_true_iff_get] at h ⊢
  obtain ⟨hr,hs,hl⟩ := h
  exact ⟨hr,hs,lt_of_le_of_lt ht (by simpa using hl) |> fun h => by simpa using h⟩

theorem Life.leased (h : Life env s call w w') (hl : w'.job.leased time = true)
    (ht : call.now ≤ time) :
    w.job.leased call.now = true ∨ ∃ req tokens, call.op = .claimReady req tokens := by
  have hrun : w'.job.status = .running := by
    simp only [Job.leased,Bool.and_eq_true,decide_eq_true_eq] at hl
    exact hl.1
  cases h with
  | claimed req tokens hop => exact .inr ⟨req,tokens,hop⟩
  | renewed claim leaseSeconds hop hholds hlive =>
    left
    simp only [Job.leased,Bool.and_eq_true,decide_eq_true_eq]
    exact ⟨hrun,hlive⟩
  | committed claim o status reason nextAt hop hholds hvalid hverdict =>
    rcases commitVerdict_not_running hverdict with rfl | rfl | rfl | rfl <;>
      exact absurd hrun (by simp [Job.committed])
  | failed claim f status nextAt reason hop hholds hverdict =>
    rcases failVerdict_not_running hverdict with rfl | rfl | rfl <;> exact absurd hrun (by simp [Job.failed])
  | recovered =>
    simp only [Job.recovered] at hrun
    split at hrun <;> cases hrun
  | stay | recorded | writing | owned | confirmed | judged => exact .inl (Job.leased_mono hl ht)
  | _ => exact absurd hrun (by simp [Job.refused,Job.doubted,Job.requeued,Job.reconciled,
      Job.degraded,Job.startupUnknown,Job.startupCompleted,Job.abandoned,Job.cancelledFor])

namespace Store

lemma claimRows_keep {c : ClaimedJob} (hc : c ∈ claims) :
    c ∈ (claimRows env req stamp tokens busy room items t claims).2 := by
  induction items generalizing t claims with
  | nil => exact hc
  | cons item items ih =>
    unfold claimRows
    split
    · exact hc
    split
    · exact ih hc
    · exact ih (List.mem_append_left _ hc)

lemma claimJob_cases (hkt : Keyed t) {token : String}
    {item : Job} (ht : t.window? item.jobId = some w) :
    (t.claimJob env req stamp token item).1.window? item.jobId = some w ∨
      (∃ w', (t.claimJob env req stamp token item).1.window? item.jobId = some w' ∧ w'.job.status ≠ .running) ∨
      ∃ c, (t.claimJob env req stamp token item).2 = some c ∧ c.job.jobId = item.jobId := by
  cases hc : (t.claimJob env req stamp token item).2 with
  | some c => exact .inr (.inr ⟨c,rfl,(claimJob_issued hkt hc).1⟩)
  | none =>
    revert hc
    unfold claimJob
    simp only
    generalize stamp+((max 1 req.leaseSeconds : ℤ) : Time) = lease
    have h1 := t.window?_updateJobs (p := fun r => r.jobId = item.jobId &&
      r.sessionId = item.sessionId && r.sessionEpoch = item.sessionEpoch && r.due stamp)
      (f := Job.claimed stamp lease token) (by intro j; rfl) item.jobId
    rw [ht,Option.map_some] at h1
    split
    · exact fun _ => .inl ht
    rename_i hcount
    have hdue := (countP_job hkt ht (p := fun r => r.jobId = item.jobId &&
      r.sessionId = item.sessionId && r.sessionEpoch = item.sessionEpoch && r.due stamp) (by
        intro j hj
        simp only [Bool.and_eq_true,decide_eq_true_eq] at hj
        exact hj.1.1.1)).mp (not_not.mp hcount)
    simp only [hdue,if_true] at h1
    split
    · rename_i hnone
      rw [(window?_eq_some.mp h1).1] at hnone
      cases hnone
    split
    · exact fun h => absurd h (by simp)
    · intro _
      right
      left
      have hid : w.job.jobId = item.jobId := window?_jobId ht
      refine ⟨{ w with job := (w.job.claimed stamp lease token).refused stamp },?_,?_⟩
      · rw [window?_updateJobs _ (by intro j; rfl),h1]
        simp [Job.claimed,hid]
      · simp [Job.refused]

lemma claimRows_running (hn : (items.map fun j => j.jobId).Nodup) (hkt : Keyed t)
    (ht : t.window? id = some w) :
    (claimRows env req stamp tokens busy room items t claims).1.window? id = some w ∨
      (∃ w', (claimRows env req stamp tokens busy room items t claims).1.window? id = some w' ∧
        w'.job.status ≠ .running) ∨
      ∃ c ∈ (claimRows env req stamp tokens busy room items t claims).2, c.job.jobId = id := by
  induction items generalizing t claims with
  | nil => exact .inl ht
  | cons item items ih =>
    rw [List.map_cons,List.nodup_cons] at hn
    unfold claimRows
    split
    · exact .inl ht
    split
    · exact ih hn.2 hkt ht
    have hk₁ : Keyed (t.claimJob env req stamp (tokens item.jobId) item).1 :=
      hkt.moves (Stills.moves (claimJob_stills _ _ _ _ _ _))
    by_cases hid : item.jobId = id
    · subst hid
      have hother : ∀ u claims, (claimRows env req stamp tokens busy room items u claims).1.window?
          item.jobId = u.window? item.jobId := fun u claims =>
        claimRows_other env req stamp tokens busy room
          (fun x hx he => hn.1 (List.mem_map.mpr ⟨x,hx,he⟩)) u claims
      have hcases := @claimJob_cases env t w stamp req hkt (tokens item.jobId) item ht
      rcases hcases with h | ⟨w',hw',hr⟩ | ⟨c,hc,hcid⟩
      · exact .inl ((hother _ _).trans h)
      · exact .inr (.inl ⟨w',(hother _ _).trans hw',hr⟩)
      · refine .inr (.inr ⟨c,claimRows_keep ?_,hcid⟩)
        simp [hc]
    · exact ih hn.2 hk₁ ((claimJob_other env t req stamp (tokens item.jobId) hid).trans ht)

lemma claimRows_length (env : Env) (req : ClaimRequest) (stamp : Time) (tokens : String → String)
    (busy : String → ℕ) (room : ℕ) (items : List Job) (t : Store) (claims : List ClaimedJob) :
    (claimRows env req stamp tokens busy (some room) items t claims).2.length ≤
    max claims.length room := by
  induction items generalizing t claims with
  | nil => exact le_max_left _ _
  | cons item items ih =>
    unfold claimRows
    split
    · exact le_max_left _ _
    rename_i hgo
    split
    · exact ih t claims
    · have hroom : claims.length < room := by
        simp only [Option.any_some,Bool.or_eq_true,decide_eq_true_eq,not_or,not_le] at hgo
        exact hgo.2
      have hlen : (claims++(t.claimJob env req stamp (tokens item.jobId) item).2.toList).length ≤
          room := by
        have hone : (t.claimJob env req stamp (tokens item.jobId) item).2.toList.length ≤ 1 := by
          cases (t.claimJob env req stamp (tokens item.jobId) item).2 <;> simp
        rw [List.length_append]
        omega
      exact (ih _ _).trans (max_le (hlen.trans (le_max_right _ _)) (le_max_right _ _))

theorem claimRows_session (env : Env) (req : ClaimRequest) (stamp : Time) (tokens : String → String)
    (busy : String → ℕ) (room : Option ℕ) (items : List Job) {t : Store} (hkt : Keyed t)
    (claims : List ClaimedJob) (session : String)
    (h : ((busy session+claims.countP fun c => c.job.sessionId = session : ℕ) : ℤ) ≤
      max (max 1 req.maxParallelPerSession) (busy session)) :
    ((busy session+(claimRows env req stamp tokens busy room items t claims).2.countP
      fun c => c.job.sessionId = session : ℕ) : ℤ) ≤
      max (max 1 req.maxParallelPerSession) (busy session) := by
  induction items generalizing t claims with
  | nil => exact h
  | cons item items ih =>
    unfold claimRows
    split
    · exact h
    split
    · exact ih hkt claims h
    rename_i hgo
    simp only [Bool.or_eq_true,List.any_eq_true,decide_eq_true_eq,not_or,not_exists,not_and, not_le] at hgo
    refine ih (hkt.moves (Stills.moves (claimJob_stills _ _ _ _ _ _))) _ ?_
    rw [List.countP_append]
    by_cases hs : item.sessionId = session
    · subst hs
      have hzero : claims.countP (fun c => c.job.sessionId = item.sessionId) = 0 := by
        rw [List.countP_eq_zero]
        intro c hc
        simpa using hgo.1 c hc
      have hone : (t.claimJob env req stamp (tokens item.jobId) item).2.toList.countP
          (fun c => c.job.sessionId = item.sessionId) ≤ 1 := by
        refine List.countP_le_length.trans ?_
        cases (t.claimJob env req stamp (tokens item.jobId) item).2 <;> simp
      omega
    · have hzero : (t.claimJob env req stamp (tokens item.jobId) item).2.toList.countP
          (fun c => c.job.sessionId = session) = 0 := by
        rw [List.countP_eq_zero]
        intro c hc
        have hsid := (claimJob_issued hkt (Option.mem_toList.mp hc)).2.1
        simpa [hsid] using hs
      omega

end Store

lemma claimReady_running (hk : Keyed s) (hw : s.window? id = some w)
    (hop : call.op = .claimReady req tokens) :
    (step env s call).window? id = some w ∨
      (∃ w', (step env s call).window? id = some w' ∧ w'.job.status ≠ .running) ∨
      ∃ c ∈ issued env s call, c.job.jobId = id := by
  simp only [step,issued,hop]
  unfold Store.claimReady
  split
  · exact .inl hw
  have h := @Store.claimRows_running env s id w call.now req tokens [] (s.activeIn call.now)
    (req.globalLimit.map fun g : ℤ => (g - ((s.active call.now).length : ℤ)).toNat)
    (s.readyJobs req call.now) (Store.readyJobs_nodup hk req call.now) hk hw
  simp only
  split <;> exact h

lemma Fresh.not_running (hw : Fresh env w) : w.job.status ≠ .running := by
  obtain ⟨c,id,start,stop,digest,complete,now,hj,_⟩ := hw.planned
  rw [hj]
  simp only [SummaryWindowContext.job]
  split <;> simp

lemma leased_running (h : j.leased time = true) : j.status = .running := by
  simp only [Job.leased,Bool.and_eq_true,decide_eq_true_eq] at h
  exact h.1

lemma active_step_mem (hs : Sound s) (ht : call.now ≤ time)
    (hj : j ∈ (step env s call).activeOf q time) : (∃ x ∈ s.activeOf q call.now, x.jobId = j.jobId) ∨
      ∃ c ∈ issued env s call, c.job.jobId = j.jobId ∧ q c.job.toJobSource = true := by
  obtain ⟨hjm,hcur,hl,hq⟩ := mem_activeOf.mp hj
  obtain ⟨w',hw',rfl⟩ := Store.exists_window (hs.step env call).keyed hjm
  cases hw : s.window? w'.job.jobId with
  | none =>
    rcases step_fresh hs.keyed hw call with h | ⟨w,hw₁,hf⟩
    · rw [h] at hw'
      cases hw'
    · obtain rfl := Option.some.inj (hw₁.symm.trans hw')
      exact absurd (leased_running hl) hf.not_running
  | some w =>
    obtain ⟨w₁,hw₁,hlife⟩ : Lives env s call w'.job.jobId w (step env s call) := step_life hs.keyed hw call
    obtain rfl := Option.some.inj (hw₁.symm.trans hw')
    have hsrc := hlife.source
    have hback : w.job.leased call.now = true → ∃ x ∈ s.activeOf q call.now, x.jobId = w₁.job.jobId := by
      intro hlw
      refine ⟨w.job,mem_activeOf.mpr ⟨Store.window?_mem hw,?_,hlw,hsrc ▸ hq⟩, Store.window?_jobId hw⟩
      have hcur' : (step env s call).isCurrent w.job.sessionId w.job.sessionEpoch = true := by
        rw [← hsrc]
        exact hcur
      exact hs.isCurrent_back (Store.window?_mem hw) hcur'
    rcases hlife.leased hl ht with hlw | ⟨req,tokens,hop⟩
    · exact .inl (hback hlw)
    rcases claimReady_running hs.keyed hw hop with h | ⟨w₂,hw₂,hr⟩ | ⟨c,hc,hcid⟩
    · obtain rfl := Option.some.inj (h.symm.trans hw')
      exact .inl (hback (Job.leased_mono hl ht))
    · obtain rfl := Option.some.inj (hw₂.symm.trans hw')
      exact absurd (leased_running hl) hr
    · obtain ⟨w₂,_,hfrom⟩ := issued_from hs.keyed hc
      have hafter := hfrom.after
      rw [hcid,hw'] at hafter
      have hjob : w₁.job = c.job := congrArg Window.job (Option.some.inj hafter)
      exact .inr ⟨c,hc,hcid,hjob ▸ hq⟩

lemma activeOf_nodup (hk : Keyed s) (q : JobSource → Bool) (time : Time) :
    ((s.activeOf q time).map fun j => j.jobId).Nodup :=
  hk.jobs.sublist ((List.filter_sublist.trans List.filter_sublist).map _)

lemma active_step_le (hs : Sound s) (ht : call.now ≤ time) (q : JobSource → Bool) :
    ((step env s call).activeOf q time).length ≤
      (s.activeOf q call.now).length+(issued env s call).countP fun c => q c.job.toJobSource := by
  have hsub : ((step env s call).activeOf q time).map (fun j => j.jobId) ⊆
      (s.activeOf q call.now).map (fun j => j.jobId) ++
        ((issued env s call).filter fun c => q c.job.toJobSource).map fun c => c.job.jobId := by
    intro id hid
    obtain ⟨j,hj,rfl⟩ := List.mem_map.mp hid
    rcases active_step_mem hs ht hj with ⟨x,hx,hxid⟩ | ⟨c,hc,hcid,hq⟩
    · exact List.mem_append_left _ (List.mem_map.mpr ⟨x,hx,hxid⟩)
    · exact List.mem_append_right _ (List.mem_map.mpr ⟨c,List.mem_filter.mpr ⟨hc,hq⟩,hcid⟩)
  have hlen := ((activeOf_nodup (hs.step env call).keyed q time).subperm hsub).length_le
  simpa [List.countP_eq_length_filter] using hlen

def UsesLimits (G P : ℤ) (call : Call) : Prop :=
  ∀ req tokens, call.op = .claimReady req tokens → req.globalLimit = some G ∧
  req.maxParallelPerSession = P

structure Limited (G P : ℤ) (time : Time) (s : Store) : Prop where
  total : ((s.active time).length : ℤ) ≤ max 0 G
  session : ∀ x, (s.activeIn time x : ℤ) ≤ max 1 P

lemma issued_length (hl : UsesLimits G P call) :
    (issued env s call).length ≤ (G - ((s.active call.now).length : ℤ)).toNat := by
  unfold issued
  split
  · rename_i req tokens hop
    have hg := (hl req tokens hop).1
    unfold Store.claimReady
    split
    · simp
    rw [hg]
    have h := Store.claimRows_length env req call.now tokens (s.activeIn call.now)
      (G - ((s.active call.now).length : ℤ)).toNat (s.readyJobs req call.now) s []
    simp only [Option.map_some]
    split <;> exact h
  · simp

lemma issued_session (hk : Keyed s) (hl : UsesLimits G P call) (x : String) :
    ((s.activeIn call.now x+(issued env s call).countP fun c => c.job.sessionId = x : ℕ) : ℤ) ≤
      max (max 1 P) (s.activeIn call.now x) := by
  unfold issued
  split
  · rename_i req tokens hop
    have hp := (hl req tokens hop).2
    unfold Store.claimReady
    split
    · simp
    have h := Store.claimRows_session env req call.now tokens (s.activeIn call.now)
      (req.globalLimit.map fun g : ℤ => (g - ((s.active call.now).length : ℤ)).toNat)
      (s.readyJobs req call.now) hk [] x (by simp)
    rw [hp] at h
    simp only
    split <;> exact h
  · simp

lemma activeOf_all (s : Store) (time : Time) : s.activeOf (fun _ => true) time = s.active time := by
  simp [Store.activeOf]

lemma activeOf_session (s : Store) (time : Time) (x : String) :
    (s.activeOf (fun j => j.sessionId = x) time).length = s.activeIn time x := by
  simp [Store.activeOf,Store.activeIn,List.countP_eq_length_filter]

lemma Limited.step (hs : Sound s) (h : Limited G P call.now s)
    (hl : UsesLimits G P call) (ht : call.now ≤ time) :
    Limited G P time (Memora.Summary.step env s call) := by
  refine ⟨?_,fun x => ?_⟩
  · have hle : ((Memora.Summary.step env s call).activeOf (fun _ => true) time).length ≤ _ :=
      active_step_le hs ht _
    have hlen : (issued env s call).length ≤ _ := issued_length hl
    have htotal := h.total
    rw [activeOf_all,activeOf_all] at hle
    simp only [List.countP_true] at hle
    omega
  · have hle : ((Memora.Summary.step env s call).activeOf (fun j => j.sessionId = x) time).length ≤
        _ := active_step_le hs ht _
    have hsess : ((s.activeIn call.now x+(issued env s call).countP
        fun c => c.job.sessionId = x : ℕ) : ℤ) ≤ _ := issued_session hs.keyed hl x
    have hbefore := h.session x
    rw [activeOf_session,activeOf_session] at hle
    omega

lemma Limited.run {s : Store} (hs : Sound s) {start : Time}
    (h : ∀ time, start ≤ time → Limited G P time s) (hl : ∀ call ∈ calls, UsesLimits G P call)
    (hclock : (calls.map Call.now).Pairwise (· ≤ ·)) (hstart : ∀ call ∈ calls, start ≤ call.now)
    (ht : start ≤ time) (hlast : ∀ call ∈ calls, call.now ≤ time) :
    Limited G P time (run env s calls) := by
  induction calls generalizing s start with
  | nil => exact h time ht
  | cons call calls ih =>
    rw [List.map_cons,List.pairwise_cons] at hclock
    have hnow : Limited G P call.now s := h _ (hstart call (by simp))
    have hafter : ∀ later, call.now ≤ later → Limited G P later (Memora.Summary.step env s call) :=
      fun later hlater => hnow.step hs (hl call (by simp)) hlater
    have hrest : ∀ c ∈ calls, call.now ≤ c.now := fun c hc =>
      hclock.1 _ (List.mem_map.mpr ⟨c,hc,rfl⟩)
    exact ih (hs.step env call) hafter (fun c hc => hl c (by simp [hc])) hclock.2 hrest
      (hlast call (by simp)) fun c hc => hlast c (by simp [hc])

lemma Limited.empty (G P : ℤ) (time : Time) : Limited G P time Store.empty := by
  refine ⟨by simp [Store.active,Store.empty],fun x => ?_⟩
  simp [Store.activeIn,Store.active,Store.empty]

/-- With a clock that does not go back, the windows running in current epochs with a live
lease stay within the limits of the claims, a job is handed out at most three times
between two requeues, and after a failed third attempt it is blocked and never handed out
again. -/
theorem claims_within_limits (env : Env) (calls : List Call) (G P : ℤ)
    (hlimits : ∀ call ∈ calls, UsesLimits G P call)
    (hclock : (calls.map Call.now).Pairwise (· ≤ ·)) :
    (∀ time, (∀ call ∈ calls, call.now ≤ time) →
      (((run env Store.empty calls).active time).length : ℤ) ≤ max 0 G ∧
        ∀ x, ((run env Store.empty calls).activeIn time x : ℤ) ≤ max 1 P) ∧
    (∀ before segment id, calls = before++segment →
      RunLaws.Along (step env) (fun s call => requeues s id call = false) (run env Store.empty before) segment →
      handoutsAlong env id (run env Store.empty before) segment ≤ 3) ∧
    ∀ before call after id, calls = before++call::after →
    ThirdFails env (run env Store.empty before) id call →
      (∃ j, (run env Store.empty (before++[call])).job? id = some j ∧ j.status = .blocked) ∧
        ∀ mid later rest claim, after = mid++later::rest →
          claim ∈ issued env (run env Store.empty (before++call::mid)) later → claim.job.jobId ≠ id := by
  refine ⟨?_,?_,?_⟩
  · intro time htime
    have hlim : Limited G P time (run env Store.empty calls) := by
      cases calls with
      | nil => exact Limited.empty G P time
      | cons call calls =>
        have hfirst : ∀ c ∈ call::calls, call.now ≤ c.now := by
          rw [List.map_cons,List.pairwise_cons] at hclock
          intro c hc
          rcases List.mem_cons.mp hc with rfl | hc
          · exact le_rfl
          · exact hclock.1 _ (List.mem_map.mpr ⟨c,hc,rfl⟩)
        exact Limited.run Sound.empty (fun later _ => Limited.empty G P later) hlimits hclock
          hfirst (htime call (by simp)) htime
    exact ⟨hlim.total,hlim.session⟩
  · rintro before segment id rfl hreq
    have hk : Keyed (run env Store.empty before) := Keyed.empty.run env before
    have hle := handouts_le hk (attempts_run env before) hreq
    omega
  · rintro before call after id rfl hthird
    have hk : Keyed (run env Store.empty before) := Keyed.empty.run env before
    obtain ⟨w,hw⟩ := hthird.window hk
    obtain ⟨w',hw',-⟩ : Lives env _ call id w (step env (run env Store.empty before) call) :=
      step_life hk hw call
    have hblocked : w'.job.status = .blocked := hthird.blocked hk hw'
    have hafter : run env Store.empty (before++[call]) =
        step env (run env Store.empty before) call := run_append env _ before [call]
    refine ⟨⟨w'.job,?_,hblocked⟩,?_⟩
    · rw [hafter]
      exact (Store.window?_eq_some.mp hw').1
    · rintro mid later rest claim rfl hissued rfl
      have hk' : Keyed (step env (run env Store.empty before) call) := hk.step env call
      have hretired : Retired (step env (run env Store.empty before) call) claim.job.jobId :=
        ⟨w',hw',by rw [hblocked]; rfl⟩
      have hrun : run env Store.empty (before++call::mid) =
          run env (step env (run env Store.empty before) call) mid :=
        run_append env _ before (call::mid)
      rw [hrun] at hissued
      exact (hretired.run hk' env mid).not_issued (hk'.run env mid) hissued

def attemptCalls : List Call :=
  plannedCalls++[sampleClaim.at 3,Op.recoverExpiredClaims.at 500,sampleClaim.at 501,
    Op.recoverExpiredClaims.at 1000,sampleClaim.at 1001]

lemma attemptCalls_limits : ∀ call ∈ attemptCalls++[Op.recoverExpiredClaims.at 1500],
    UsesLimits 2 1 call := by
  intro call hcall req tokens hop
  simp only [attemptCalls,plannedCalls,List.cons_append,List.nil_append,List.mem_cons,
    List.not_mem_nil,or_false] at hcall
  rcases hcall with rfl | rfl | rfl | rfl | rfl | rfl | rfl | rfl | rfl <;> cases hop
  all_goals exact ⟨rfl,rfl⟩

/-- The third lease of the job ran out: it was handed out three times and is blocked. -/
theorem claims_within_limits_sample :
    ((run sampleEnv Store.empty (attemptCalls++[Op.recoverExpiredClaims.at 1500])).activeIn
      1500 "a" : ℤ) ≤ max 1 1 ∧
    ∃ j, (run sampleEnv Store.empty (attemptCalls++[Op.recoverExpiredClaims.at 1500])).job?
      "a0" = some j ∧ j.status = .blocked := by
  have h := claims_within_limits sampleEnv (attemptCalls++[Op.recoverExpiredClaims.at 1500])
    2 1 attemptCalls_limits (by decide +kernel)
  have hne : (run sampleEnv Store.empty attemptCalls).jobs ≠ [] := by decide +kernel
  have hthird : ThirdFails sampleEnv (run sampleEnv Store.empty attemptCalls) "a0"
      (Op.recoverExpiredClaims.at 1500) :=
    .expired _ rfl (List.head_mem hne) (by decide +kernel +revert) (by decide +kernel +revert)
      (by decide +kernel +revert)
  exact ⟨(h.1 1500 (by decide +kernel)).2 "a",(h.2.2 attemptCalls _ [] "a0" rfl hthird).1⟩

end Memora.Summary

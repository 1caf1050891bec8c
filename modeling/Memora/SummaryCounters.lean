import Memora.SummaryBalance

/-! What the task counters received for a closed window is what the window stored, slot by
slot, unless a window is completed or given up whose earlier counts were stored without
being counted, or counted without being kept. -/
namespace Memora.Summary
open RowTable

variable {env : Env} {s : Store} {call : Call} {id : String} {w w' : Window}

def ScannedJob.completes (scan : ScannedJob) (s : Store) (w : Window) (now : Time) : Bool :=
  let judged := w.slots.map fun c => c.judged now (scan.verdict w.job.toJobSource c)
  s.isCurrent w.job.sessionId w.job.sessionEpoch && Store.sourceUnchanged scan w.job &&
    !judged.any Candidate.unresolved && ledgerCounts judged .failed = 0 && w.job.status.resumable

/-- Neither call that closes an interrupted window meets counts it does not reckon with:
start-up completes an unknown window only if its stored counts are in the counters, and
a window is given up only if nothing was counted for it. -/
structure Reckoned (s : Store) (call : Call) : Prop where
  startup : ∀ snapshot, call.op = .reconcileStartupCandidates snapshot →
    ∀ scan ∈ snapshot.jobs, ∀ w, s.window? scan.jobId = some w → w.job.status = .unknown →
      scan.completes s w call.now = true → w.credited = w.job.counts
  abandon : ∀ session epoch, call.op = .confirmAbandonSessionJobs session epoch →
    ∀ j ∈ s.abandonableJobs session epoch, s.credited j.jobId = 0

structure Credit (w : Window) : Prop where
  idle : w.job.status.attempting = true → w.credited = 0
  stored : w.job.status.attempting = true →
    w.job.counts = 0 ∨ ∃ c ∈ w.slots, c.status = .failed ∧ c.disposition = some .failed
  bounded : ∀ d, w.credited d ≤ closedCounts w.slots d
  final : w.job.status.terminal = true → w.credited = w.job.counts

lemma Credit.kept (hc : Credit w) (hrows : LedgerKept w.slots w'.slots)
    (hcounts : w'.job.counts = w.job.counts) (hcred : w'.credited = w.credited)
    (hatt : w'.job.status.attempting = true → w.job.status.attempting = true)
    (hterm : w'.job.status.terminal = true → w.job.status.terminal = true) : Credit w' := by
  constructor
  · intro ha
    rw [hcred,hc.idle (hatt ha)]
  · intro ha
    rcases hc.stored (hatt ha) with hzero | ⟨c,hm,hs,hd⟩
    · exact .inl (hcounts.trans hzero)
    · obtain ⟨c',hm',hkept⟩ := ListLaws.forall₂_left hrows hm
      have hclosed : c.status.closed = true := by rw [hs]; rfl
      exact .inr ⟨c',hm',(hkept.status hclosed).trans hs,(hkept.disposition hclosed).trans hd⟩
  · intro d
    rw [hcred]
    exact (hc.bounded d).trans (hrows.closedCounts_le d)
  · intro ht
    rw [hcred,hcounts]
    exact hc.final (hterm ht)

lemma Credit.of_settled (hs : Settled w) (ht : w.job.status.terminal = true)
    (hcred : w.credited = ledgerCounts w.slots) : Credit w := by
  have hidle : w.job.status.attempting ≠ true := by
    rcases terminal_iff.mp ht with h | h <;> rw [h] <;> decide
  refine ⟨fun ha => absurd ha hidle,fun ha => absurd ha hidle,fun d => ?_,fun _ => ?_⟩
  · rw [hcred,closedCounts_of_closed hs.closed]
  · rw [hcred,hs.counts]

theorem Credit.unspent (hc : Credit w) (ha : w.job.status.attempting = true)
    {rows : List Candidate} (hrows : LedgerKept w.slots rows)
    (hfailed : ledgerCounts rows .failed = 0) : w.credited = 0 ∧ w.job.counts = 0 := by
  refine ⟨hc.idle ha,?_⟩
  rcases hc.stored ha with hzero | ⟨c,hm,hs,hd⟩
  · exact hzero
  · obtain ⟨c',hm',hkept⟩ := ListLaws.forall₂_left hrows hm
    have hclosed : c.status.closed = true := by rw [hs]; rfl
    have hd' : c'.disposition = some .failed := (hkept.disposition hclosed).trans hd
    exact absurd hd' (ledgerCounts_eq_zero.mp hfailed c' hm')

lemma Credit.commit {claim : ClaimedJob} {o : WindowOutcome} {status : SummaryJobStatus}
    {reason : SummaryReasonCode} {nextAt : Option Time} {now : Time} (hc : Credit w)
    (hk : Keyed s) (hw : s.window? claim.job.jobId = some w) (hholds : claim.holds w.job = true)
    (hvalid : o.Valid) (hverdict : commitVerdict claim o now = some (status,reason,nextAt))
    (hacc : commitAccepted env s claim o = true) (hne : status ≠ .completed) :
    Credit { job := w.job.committed status reason nextAt o now
             slots := w.slots.map (Candidate.settledBy o.candidateSlots now)
             credited := w.credited } := by
  have hrun : w.job.status.attempting = true := by
    simp [SummaryJobStatus.attempting,holds_running hholds]
  have hidle : w.credited = 0 := hc.idle hrun
  refine ⟨fun _ => hidle,fun ha => .inr ?_,fun d => ?_,fun ht => ?_⟩
  · -- a retry is scheduled only when the outcome counts a failed slot
    have hfailed : o.counts .failed ≠ 0 := by
      intro hz
      simp only [commitVerdict,hz,decide_true,Bool.and_true,Bool.or_eq_true] at hverdict
      split at hverdict
      · obtain ⟨rfl,-⟩ : SummaryJobStatus.unknown = status ∧ _ := by simpa using hverdict
        simp [Job.committed,SummaryJobStatus.attempting,SummaryJobStatus.claimable] at ha
      · rename_i hadv
        have hcan : o.canAdvance = true := by
          by_contra hn
          exact hadv (.inr (by simpa using hn))
        simp only [hcan,if_true,Option.some.injEq,Prod.mk.injEq] at hverdict
        exact hne hverdict.1.symm
    rw [← settled_counts hk hw hvalid hacc now] at hfailed
    obtain ⟨c,hm,hd⟩ := List.countP_pos_iff.mp (Nat.pos_of_ne_zero hfailed)
    have hd : c.disposition = some .failed := by simpa using hd
    refine ⟨c,hm,?_,hd⟩
    obtain ⟨c₀,hc₀,rfl⟩ := List.mem_map.mp hm
    obtain ⟨i,hi,-,hfound⟩ := commitAccepted_row hk hw hacc hc₀
    rw [settledBy_disposition _ now hfound] at hd ⊢
    cases hvalid.closed i hi with
    | unknown _ hn => exact absurd (hn.symm.trans hd) (by simp)
    | failed hs _ => simp [Candidate.settled,hs]
    | committed d _ hd' hne => exact absurd (Option.some.inj (hd'.symm.trans hd)) hne
  · rw [hidle]
    exact Nat.zero_le _
  · rcases commitVerdict_not_running hverdict with rfl | rfl | rfl | rfl <;>
      first | exact absurd rfl hne | exact absurd ht (by simp [Job.committed,SummaryJobStatus.terminal])

lemma Life.credit (hk : Keyed s) (hw : s.window? w.job.jobId = some w)
    (h : Life env s call w w') (hgood : Reckoned s call) (hc : Credit w)
    (hs : w'.job.status.terminal = true → Settled w') : Credit w' := by
  have hatt := h.attempting
  cases h with
  | stay => exact hc
  | recorded claim intents hop hholds hempty hnodup =>
    have hrun : w.job.status.attempting = true := by
      simp [SummaryJobStatus.attempting,holds_running hholds]
    have hcounts : w.job.counts = 0 := by
      rcases hc.stored hrun with hzero | ⟨c,hm,-⟩
      · exact hzero
      · exact absurd hm (by simp [hempty])
    refine ⟨fun _ => hc.idle hrun,fun _ => .inl hcounts,fun d => ?_,hc.final⟩
    rw [hc.idle hrun]
    exact Nat.zero_le _
  | committed claim o status reason nextAt hop hholds hvalid hverdict hacc hstor =>
    have hw : s.window? claim.job.jobId = some w := by
      rw [holds_jobId hholds]
      exact hw
    have hvalid := WindowOutcome.valid hvalid
    by_cases hdone : status = .completed
    · subst hdone
      have hrun : w.job.status.attempting = true := by
        simp [SummaryJobStatus.attempting,holds_running hholds]
      have hledger := settled_counts hk hw hvalid hacc call.now
      refine .of_settled (hs rfl) rfl ?_
      simp only [if_true,hc.idle hrun,zero_add,hledger]
    · simp only [hdone,if_false]
      exact hc.commit hk hw hholds hvalid hverdict hacc hdone
  | reconciled claim mapping hop hholds slots hrows hclosed hfailed =>
    have hrun : w.job.status.attempting = true := by
      simp [SummaryJobStatus.attempting,holds_running hholds]
    obtain ⟨hcred,hcounts⟩ := hc.unspent hrun hrows.kept hfailed
    refine .of_settled (hs rfl) rfl ?_
    funext d
    simp [hcred,hcounts]
  | resolved snapshot scan hop hscan hid hcur hsame hne slots hslots hres hfailed hresume =>
    refine .of_settled (hs rfl) rfl ?_
    have hkept : LedgerKept w.slots slots := by
      rw [hslots]
      exact judgedRows_kept _ _ _ _
    have hequal : w.credited = w.job.counts := by
      by_cases hu : w.job.status = .unknown
      · have hcompletes : scan.completes s w call.now = true := by
          simp only [ScannedJob.completes,← hslots,hcur,hsame,hfailed,hresume]
          simpa using hres
        exact hgood.startup snapshot hop scan hscan w (hid ▸ hw) hu hcompletes
      · have hrun : w.job.status.attempting = true := by
          cases hst : w.job.status <;> simp_all [SummaryJobStatus.attempting,SummaryJobStatus.claimable,
              SummaryJobStatus.resumable]
        obtain ⟨hcred,hcounts⟩ := hc.unspent hrun hkept hfailed
        rw [hcred,hcounts]
    funext d
    have hle : w.credited d ≤ ledgerCounts slots d :=
      ((hc.bounded d).trans (hkept.closedCounts_le d)).trans (closedCounts_le_ledgerCounts slots d)
    simp only [Pi.add_apply,← hequal]
    omega
  | abandoned session epoch hop hab =>
    have hzero : w.credited = 0 := by
      rw [← Store.window?_credited hw]
      exact hgood.abandon session epoch hop w.job hab
    refine .of_settled (hs rfl) rfl ?_
    simp only [hzero,zero_add]
  | confirmed _ _ _ _ _ hrows | owned _ _ _ _ _ hrows => exact hc.kept hrows.kept rfl rfl hatt id
  | judged => exact hc.kept (judgedRows_kept _ _ _ _) rfl rfl hatt id
  | writing claim intent hop hholds => exact hc.kept (beginWrite_kept _ _ _) rfl rfl hatt id
  | renewed => exact hc.kept (.refl _) rfl rfl hatt id
  | failed claim f status nextAt reason hop hholds hverdict =>
    refine hc.kept (.refl _) rfl rfl hatt fun ht => ?_
    rcases failVerdict_not_running hverdict with rfl | rfl | rfl <;>
      exact absurd ht (by simp [Job.failed,SummaryJobStatus.terminal])
  | recovered =>
    refine hc.kept (.refl _) rfl rfl hatt fun ht => ?_
    simp only [Job.recovered] at ht
    split at ht <;> exact absurd ht (by simp [SummaryJobStatus.terminal])
  | rejected =>
    exact hc.kept (.map fun c _ => doubtOpen_kept _ c) rfl rfl hatt (by simp [Job.doubted,
      SummaryJobStatus.terminal])
  | doubted claim mapping reason exceptionType hop hholds hmatch slots hrows =>
    exact hc.kept hrows.doubted_kept rfl rfl hatt (by simp [Job.doubted,SummaryJobStatus.terminal])
  | degraded claim mapping hop hdone slots hrows =>
    exact hc.kept hrows.doubted_kept rfl rfl hatt (by simp [Job.degraded,SummaryJobStatus.terminal])
  | fenced =>
    exact hc.kept (doubtInDoubt_kept _ _) rfl rfl hatt (by simp [Job.startupUnknown, SummaryJobStatus.terminal])
  | unresolved =>
    exact hc.kept (judgedRows_kept _ _ _ _) rfl rfl hatt (by simp [Job.startupUnknown,
      SummaryJobStatus.terminal])
  | _ => exact hc.kept (.refl _) rfl rfl hatt (by simp [SummaryJobStatus.terminal,Job.claimed,
      Job.refused,Job.requeued,Job.startupUnknown,Job.cancelledFor])

lemma Fresh.credit (hw : Fresh env w) : Credit w := by
  obtain ⟨c,id,start,stop,digest,complete,now,hj,_⟩ := hw.planned
  have hcounts : w.job.counts = 0 := by rw [hj]; rfl
  refine ⟨fun _ => hw.credited,fun _ => .inl hcounts,fun d => ?_,fun _ => ?_⟩
  · rw [hw.credited]
    exact Nat.zero_le _
  · rw [hw.credited,hcounts]

lemma credit_along {calls : List Call} (hgood :
    RunLaws.Along (step env) Reckoned Store.empty calls) :
    ∀ id w, (run env Store.empty calls).window? id = some w →
      (w.job.status.terminal = true → Settled w) ∧ Credit w := by
  refine windows_along (P := fun w => (w.job.status.terminal = true → Settled w) ∧ Credit w)
    ?_ ?_ Keyed.empty ?_ hgood
  · intro w hw
    exact ⟨fun ht => absurd ht (by simp [hw.not_terminal]),hw.credit⟩
  · rintro s call w w' hk hg hw h ⟨hs,hc⟩
    have hs' := h.settled hk hw hs
    exact ⟨hs',h.credit hk hw hg hc hs'⟩
  · simp [Store.window?,Store.job?,Store.empty]

/-- What was counted for a closed window is what it stores, and each of its slots is
counted once, under its own disposition. -/
theorem counters_match_counts (env : Env) (calls : List Call)
    (hgood : RunLaws.Along (step env) Reckoned Store.empty calls) :
    ∀ j ∈ (run env Store.empty calls).jobs, j.status.terminal = true →
      (run env Store.empty calls).credited j.jobId = j.counts ∧
        ledgerCounts ((run env Store.empty calls).slots j.jobId) = j.counts := by
  intro j hj ht
  have hk : Keyed (run env Store.empty calls) := Keyed.empty.run env calls
  obtain ⟨w,hw,rfl⟩ := Store.exists_window hk hj
  obtain ⟨hs,hc⟩ := credit_along hgood w.job.jobId w hw
  constructor
  · rw [Store.window?_credited hw]
    exact hc.final ht
  · rw [Store.window?_slots hw]
    exact (hs ht).counts

/-- Slot 0 is quarantined and slot 1 in doubt: the counts are stored but not counted. -/
def doubtfulOutcome : WindowOutcome where
  counts := fun d => if d = .quarantined then 1 else 0
  unknownCount := 1
  candidateSlots := [settledIntent 0 (some .quarantined) .committed,settledIntent 1 none .unknown]
  reasonCode := .ledgerUnresolved
  slots_nodup := by decide
  no_facts := by simp

def doubtfulCalls : List Call :=
  heldCalls++[(Op.beginCandidateIntents heldClaim [plannedIntent 0,plannedIntent 1]).at 4,
    (Op.commitWindow heldClaim doubtfulOutcome).at 5]

def ownerLookups : Lookups where
  canonical := some fun key => if key = "key1" then .owner 7 else .absent

def ownerSnapshot : StartupSnapshot where
  jobs := ownerLookups.scan (run sampleEnv Store.empty doubtfulCalls)
  distinct := by decide +kernel

def quarantinedOutcome : WindowOutcome where
  canAdvance := true
  counts := fun d => if d = .quarantined then 1 else 0
  candidateSlots := [settledIntent 0 (some .quarantined) .committed]
  slots_nodup := by decide
  no_facts := by simp

def degradedCalls : List Call :=
  heldCalls++[(Op.beginCandidateIntents heldClaim [plannedIntent 0]).at 4,
    (Op.commitWindow heldClaim quarantinedOutcome).at 5,
    (Op.reconcileWindow heldClaim [(.slot 0,.int 7)]).at 6]

/-- Start-up leaves the quarantined slot uncounted, and giving up the degraded window
counts its slot a second time. -/
theorem counters_miss_counts : (∃ j ∈ (run sampleEnv Store.empty (doubtfulCalls ++
        [(Op.reconcileStartupCandidates ownerSnapshot).at 6])).jobs,
      j.status = .completed ∧ j.counts .quarantined = 1 ∧ (run sampleEnv Store.empty (doubtfulCalls ++
          [(Op.reconcileStartupCandidates ownerSnapshot).at 6])).credited j.jobId .quarantined = 0) ∧
    ∃ j ∈ (run sampleEnv Store.empty (degradedCalls++[(Op.confirmAbandonSessionJobs "a" 1).at 7])).jobs,
      j.status = .abandoned ∧ j.counts .quarantined = 1 ∧ (run sampleEnv Store.empty (degradedCalls ++
          [(Op.confirmAbandonSessionJobs "a" 1).at 7])).credited j.jobId .quarantined = 2 := by
  decide +kernel

lemma doubtfulCalls_reckoned (s : Store) : ∀ call ∈ doubtfulCalls, Reckoned s call := by
  intro call hcall
  simp only [doubtfulCalls,heldCalls,plannedCalls,List.cons_append,List.nil_append,
    List.mem_cons,List.not_mem_nil,or_false] at hcall
  rcases hcall with rfl | rfl | rfl | rfl | rfl | rfl <;>
    exact ⟨fun _ hop => (by cases hop),fun _ _ hop => (by cases hop)⟩

/-- The same window, given up instead: nothing was counted before. -/
theorem counters_match_counts_sample :
    ∃ j ∈ (run sampleEnv Store.empty (doubtfulCalls++[(Op.confirmAbandonSessionJobs "a" 1).at 6])).jobs,
      j.status = .abandoned ∧ (run sampleEnv Store.empty (doubtfulCalls ++
          [(Op.confirmAbandonSessionJobs "a" 1).at 6])).credited j.jobId = j.counts := by
  have hlast : Reckoned (run sampleEnv Store.empty doubtfulCalls)
      ((Op.confirmAbandonSessionJobs "a" 1).at 6) := by
    refine ⟨fun _ hop => (nomatch hop),fun session epoch hop => ?_⟩
    obtain ⟨rfl,rfl⟩ : "a" = session ∧ 1 = epoch := by cases hop; exact ⟨rfl,rfl⟩
    decide +kernel
  have hgood : RunLaws.Along (step sampleEnv) Reckoned Store.empty
      (doubtfulCalls++[(Op.confirmAbandonSessionJobs "a" 1).at 6]) :=
    RunLaws.along_append.mpr ⟨RunLaws.along_of_mem doubtfulCalls_reckoned _,hlast,trivial⟩
  obtain ⟨j,hj,hs⟩ : ∃ j ∈ (run sampleEnv Store.empty (doubtfulCalls ++
      [(Op.confirmAbandonSessionJobs "a" 1).at 6])).jobs, j.status = .abandoned := by
    decide +kernel
  have ht : j.status.terminal = true := by rw [hs]; rfl
  exact ⟨j,hj,hs,(counters_match_counts sampleEnv _ hgood j hj ht).1⟩

end Memora.Summary

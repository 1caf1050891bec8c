import Memora.ListLaws
import Memora.SummaryWindows

/-! What one call can do to one window, case by case. Every invariant of jobs, ledgers and
counters is an invariant of `Life`. -/
namespace Memora.Summary
open RowTable

def ClaimedJob.row (env : Env) (claim : ClaimedJob) (now : Time) (i : CandidateIntent) :
    Candidate where
  jobId := claim.job.jobId
  slot := i.slot
  slotKey := env.ownedSlotKey claim.job.jobId i.slot i.contentDigest
  contentDigest := i.contentDigest
  idempotencyKey := i.idempotencyKey
  disposition := i.disposition
  status := i.status
  canonicalId := i.canonicalId
  updatedAt := now

def Candidate.doubtOpen (now : Time) (c : Candidate) : Candidate :=
  if c.status.closed then c else c.doubted now

inductive OwnerStep (allowed : Candidate → Bool) (now : Time) : Candidate → Candidate → Prop
  | same (c : Candidate) : OwnerStep allowed now c c
  | owned (c : Candidate) (o : ℕ) (ha : allowed c = true)
      (hd : ∀ d ∈ c.disposition, d.ownsId = true) (hc : c.canonicalId.all (· = o) = true) :
      OwnerStep allowed now c (c.owned o now)

abbrev OwnersRecorded (allowed : Candidate → Bool) (now : Time) :
    List Candidate → List Candidate → Prop := List.Forall₂ (OwnerStep allowed now)

/-- The ledger after `abandonJob` closed its unfinished slots. -/
def abandonedSlots (now : Time) (rows : List Candidate) : List Candidate :=
  modify (fun c => c.canonicalId.isNone && !c.status.closed) (Candidate.abandoned now) rows

/-- Why `reconcile_window` marks a running window unknown. -/
def reconcileDoubted (env : Env) (s : Store) (claim : ClaimedJob)
    (mapping : List (RawSlot × RawId)) (now : Time) (rows : List Candidate) : Prop :=
  reconcileMapping env claim (s.orderedSlots claim.job.jobId) mapping false = none ∨
    (∃ owners, reconcileMapping env claim (s.orderedSlots claim.job.jobId) mapping false = some owners ∧
      (Store.recordOwners claim now Candidate.recordable claim.holds owners s).2 = false) ∨
    ∀ c ∈ rows, c.status.closed = true

inductive Life (env : Env) (s : Store) (call : Call) (w : Window) : Window → Prop
  | stay : Life env s call w w
  | claimed (req : ClaimRequest) (tokens : String → String)
      (hop : call.op = .claimReady req tokens) (hdue : w.job.due call.now = true)
      (hcur : s.isCurrent w.job.sessionId w.job.sessionEpoch = true) (lease : Time)
      (token : String) :
      Life env s call w { w with job := w.job.claimed call.now lease token }
  | refused (req : ClaimRequest) (tokens : String → String)
      (hop : call.op = .claimReady req tokens) (hdue : w.job.due call.now = true)
      (lease : Time) (token : String) :
      Life env s call w { w with job := (w.job.claimed call.now lease token).refused call.now }
  | recorded (claim : ClaimedJob) (intents : List CandidateIntent)
      (hop : call.op = .beginCandidateIntents claim intents) (hholds : claim.holds w.job = true)
      (hempty : w.slots = []) (hnodup : (intents.map CandidateIntent.slot).Nodup) :
      Life env s call w { w with slots := intents.map (claim.row env call.now) }
  | writing (claim : ClaimedJob) (intent : CandidateIntent)
      (hop : call.op = .beginCandidateWrite claim intent) (hholds : claim.holds w.job = true) :
      Life env s call w { w with
        slots := modify (fun c => ledgerRow env claim intent c && c.status ≠ .unknown)
          (Candidate.beginWrite call.now) w.slots }
  | committed (claim : ClaimedJob) (o : WindowOutcome) (status : SummaryJobStatus)
      (reason : SummaryReasonCode) (nextAt : Option Time)
      (hop : call.op = .commitWindow claim o) (hholds : claim.holds w.job = true)
      (hvalid : validWindowOutcome o = true)
      (hverdict : commitVerdict claim o call.now = some (status,reason,nextAt))
      (hacc : commitAccepted env s claim o = true) (hstor : reason.storable = true) :
      Life env s call w
        { job := w.job.committed status reason nextAt o call.now
          slots := w.slots.map (Candidate.settledBy o.candidateSlots call.now)
          credited := if status = .completed then w.credited+o.counts else w.credited }
  | rejected (claim : ClaimedJob) (o : WindowOutcome) (reason : SummaryReasonCode)
      (exceptionType : Option String) (hop : call.op = .commitWindow claim o)
      (hholds : claim.holds w.job = true) (hmatch : s.claimMatches claim call.clock = true)
      (hbad : validWindowOutcome o = false ∨ commitAccepted env s claim o = false)
      (hstor : reason.storable = true) :
      Life env s call w { w with
        job := w.job.doubted reason exceptionType call.now
        slots := w.slots.map (Candidate.doubtOpen call.now) }
  | failed (claim : ClaimedJob) (f : SummaryFailure) (status : SummaryJobStatus) (nextAt : Time)
      (reason : SummaryReasonCode) (hop : call.op = .failWindow claim f)
      (hholds : claim.holds w.job = true)
      (hverdict : failVerdict claim f call.now = some (status,nextAt,reason)) :
      Life env s call w { w with job := w.job.failed status nextAt reason f call.now }
  | renewed (claim : ClaimedJob) (leaseSeconds : ℤ) (hop : call.op = .renewClaim claim leaseSeconds)
      (hholds : claim.holds w.job = true)
      (hlive : w.job.leaseUntil.any (call.now < ·) = true) (lease : Time) :
      Life env s call w { w with job := w.job.renewed lease call.now }
  | requeued (claim : ClaimedJob) (reason : Option SummaryReasonCode)
      (hop : call.op = .requeueClaim claim reason) (hholds : claim.holds w.job = true)
      (hstor : (reason.getD .unknown).storable = true) :
      Life env s call w { w with job := w.job.requeued (reason.getD .unknown) call.now }
  | recovered (hop : call.op = .recoverExpiredClaims) (hexp : w.job.expired call.now = true) :
      Life env s call w { w with job := w.job.recovered call.now }
  | owned (claim : ClaimedJob) (mapping : List (RawSlot × RawId))
      (hop : call.op = .reconcileWindow claim mapping) (hholds : claim.holds w.job = true)
      (slots : List Candidate)
      (hrows : OwnersRecorded Candidate.recordable call.now w.slots slots) :
      Life env s call w { w with slots := slots }
  | reconciled (claim : ClaimedJob) (mapping : List (RawSlot × RawId))
      (hop : call.op = .reconcileWindow claim mapping) (hholds : claim.holds w.job = true)
      (slots : List Candidate)
      (hrows : OwnersRecorded Candidate.recordable call.now w.slots slots)
      (hclosed : ∀ c ∈ slots, c.status.closed = true ∧ c.disposition.isSome = true)
      (hfailed : ledgerCounts slots .failed = 0) :
      Life env s call w
        { job := w.job.reconciled (ledgerCounts slots) call.now
          slots := slots
          credited := w.credited+fun d => ledgerCounts slots d - w.job.counts d }
  | doubted (claim : ClaimedJob) (mapping : List (RawSlot × RawId))
      (reason : SummaryReasonCode) (exceptionType : Option String)
      (hop : call.op = .reconcileWindow claim mapping) (hholds : claim.holds w.job = true)
      (hmatch : s.claimMatches claim call.clock = true) (slots : List Candidate)
      (hrows : OwnersRecorded Candidate.recordable call.now w.slots slots)
      (hbad : reconcileDoubted env s claim mapping call.now slots)
      (hstor : reason.storable = true) :
      Life env s call w { w with
        job := w.job.doubted reason exceptionType call.now
        slots := slots.map (Candidate.doubtOpen call.now) }
  | confirmed (claim : ClaimedJob) (mapping : List (RawSlot × RawId))
      (hop : call.op = .reconcileWindow claim mapping) (hdone : w.job.status = .completed)
      (slots : List Candidate)
      (hrows : OwnersRecorded Candidate.ownedSlot call.now w.slots slots) :
      Life env s call w { w with slots := slots }
  | degraded (claim : ClaimedJob) (mapping : List (RawSlot × RawId))
      (hop : call.op = .reconcileWindow claim mapping) (hdone : w.job.status = .completed)
      (slots : List Candidate)
      (hrows : OwnersRecorded Candidate.ownedSlot call.now w.slots slots) :
      Life env s call w { w with
        job := w.job.degraded call.now
        slots := slots.map (Candidate.doubtOpen call.now) }
  | fenced (snapshot : StartupSnapshot) (scan : ScannedJob)
      (hop : call.op = .reconcileStartupCandidates snapshot) (hscan : scan ∈ snapshot.jobs)
      (hid : scan.jobId = w.job.jobId)
      (hout : s.isCurrent w.job.sessionId w.job.sessionEpoch = false ∨
        Store.sourceUnchanged scan w.job = false)
      (reason : SummaryReasonCode) (exceptionType : String) (hstor : reason.storable = true) :
      Life env s call w { w with
        job := w.job.startupUnknown reason exceptionType call.now
        slots := modify (fun c => c.status.inDoubt) (Candidate.doubted call.now) w.slots }
  | unlisted (snapshot : StartupSnapshot) (hop : call.op = .reconcileStartupCandidates snapshot)
      (hempty : w.slots = []) (exceptionType : String) :
      Life env s call w { w with
        job := w.job.startupUnknown .ledgerUnresolved exceptionType call.now }
  | unresolved (snapshot : StartupSnapshot) (scan : ScannedJob)
      (hop : call.op = .reconcileStartupCandidates snapshot) (hscan : scan ∈ snapshot.jobs)
      (hid : scan.jobId = w.job.jobId)
      (hcur : s.isCurrent w.job.sessionId w.job.sessionEpoch = true)
      (hsame : Store.sourceUnchanged scan w.job = true) (exceptionType : String) :
      Life env s call w { w with
        job := w.job.startupUnknown .ledgerUnresolved exceptionType call.now
        slots := w.slots.map fun c => c.judged call.now (scan.verdict w.job.toJobSource c) }
  | judged (snapshot : StartupSnapshot) (scan : ScannedJob)
      (hop : call.op = .reconcileStartupCandidates snapshot) (hscan : scan ∈ snapshot.jobs)
      (hid : scan.jobId = w.job.jobId)
      (hcur : s.isCurrent w.job.sessionId w.job.sessionEpoch = true)
      (hsame : Store.sourceUnchanged scan w.job = true) :
      Life env s call w { w with
        slots := w.slots.map fun c => c.judged call.now (scan.verdict w.job.toJobSource c) }
  | resolved (snapshot : StartupSnapshot) (scan : ScannedJob)
      (hop : call.op = .reconcileStartupCandidates snapshot) (hscan : scan ∈ snapshot.jobs)
      (hid : scan.jobId = w.job.jobId)
      (hcur : s.isCurrent w.job.sessionId w.job.sessionEpoch = true)
      (hsame : Store.sourceUnchanged scan w.job = true) (hne : w.slots ≠ [])
      (slots : List Candidate)
      (hslots : slots = w.slots.map fun c => c.judged call.now (scan.verdict w.job.toJobSource c))
      (hres : ∀ c ∈ slots, c.unresolved = false) (hfailed : ledgerCounts slots .failed = 0)
      (hresume : w.job.status.resumable = true) :
      Life env s call w
        { job := w.job.startupCompleted (ledgerCounts slots) call.now
          slots := slots
          credited := w.credited+fun d => ledgerCounts slots d - w.job.counts d }
  | abandoned (session : String) (epoch : ℕ)
      (hop : call.op = .confirmAbandonSessionJobs session epoch)
      (hab : w.job ∈ s.abandonableJobs session epoch) :
      Life env s call w
        { job := w.job.abandoned (ledgerCounts (abandonedSlots call.now w.slots)) call.now
          slots := abandonedSlots call.now w.slots
          credited := w.credited+ledgerCounts (abandonedSlots call.now w.slots) }
  | cancelled (reason : SummaryReasonCode) (now : Time) (hopen : w.job.status.settled = false)
      (hstor : reason.storable = true) :
      Life env s call w { w with job := w.job.cancelledFor reason now }

/-- The window is there after the call, changed as `Life` allows. -/
def Lives (env : Env) (s : Store) (call : Call) (id : String) (w : Window) (t : Store) : Prop :=
  ∃ w', t.window? id = some w' ∧ Life env s call w w'

variable {env : Env} {s t : Store} {call : Call} {id : String} {w : Window}

lemma Lives.of_eq (hw : s.window? id = some w) (h : t.window? id = s.window? id) :
    Lives env s call id w t := ⟨w,h.trans hw,.stay⟩

lemma Lives.congr {u : Store} (h : u.window? id = t.window? id)
    (ht : Lives env s call id w t) : Lives env s call id w u := by
  obtain ⟨w',hw',hlife⟩ := ht
  exact ⟨w',h.trans hw',hlife⟩

lemma Lives.stay (hw : s.window? id = some w) : Lives env s call id w s := .of_eq hw rfl

namespace Store

lemma claimJob_other (env : Env) (t : Store) (req : ClaimRequest) (stamp : Time)
    (token : String) {item : Job} (h : item.jobId ≠ id) :
    (t.claimJob env req stamp token item).1.window? id = t.window? id := by
  unfold claimJob
  simp only
  split
  · rfl
  have h1 : (t.updateJobs (fun r => r.jobId = item.jobId && r.sessionId = item.sessionId &&
      r.sessionEpoch = item.sessionEpoch && r.due stamp)
      (Job.claimed stamp (stamp+max 1 req.leaseSeconds) token)).window? id = t.window? id := by
    refine window?_updateJobs_of_ne t (by intro j; rfl) ?_
    intro j hj
    simp [hj,h.symm]
  split
  · exact h1
  split
  · exact h1
  · refine (window?_updateJobs_of_ne _ (by intro j; rfl) ?_).trans h1
    intro j hj
    simp [hj,h.symm]

variable {req : ClaimRequest} {tokens : String → String} {items : List Job}

lemma claimJob_lives (hkt : Keyed t) (hop : call.op = .claimReady req tokens)
    (hw : s.window? id = some w) (ht : t.window? id = some w) (token : String)
    (hcur : s.isCurrent w.job.sessionId w.job.sessionEpoch = true) :
    Lives env s call id w (t.claimJob env req call.now token w.job).1 := by
  unfold claimJob
  simp only
  split
  · exact ⟨w,ht,.stay⟩
  rename_i hc
  have hid := window?_jobId hw
  have hdue := (countP_job hkt ht (p := fun r => r.jobId = w.job.jobId &&
    r.sessionId = w.job.sessionId && r.sessionEpoch = w.job.sessionEpoch && r.due call.now) (by
      intro j hj
      simp only [Bool.and_eq_true,decide_eq_true_eq] at hj
      rw [← hid]
      exact hj.1.1.1)).mp (not_not.mp hc)
  simp only [decide_true,Bool.true_and] at hdue
  generalize call.now+((max 1 req.leaseSeconds : ℤ) : Time) = lease
  have h1 : (t.updateJobs (fun r => r.jobId = w.job.jobId && r.sessionId = w.job.sessionId &&
      r.sessionEpoch = w.job.sessionEpoch && r.due call.now) (Job.claimed call.now lease token)).window? id =
        some { w with job := w.job.claimed call.now lease token } := by
    rw [window?_updateJobs t (by intro j; rfl),ht]
    simp [hdue]
  split
  · exact ⟨_,h1,.claimed req tokens hop hdue hcur lease token⟩
  split
  · exact ⟨_,h1,.claimed req tokens hop hdue hcur lease token⟩
  · refine ⟨_,?_,.refused req tokens hop hdue lease token⟩
    rw [window?_updateJobs _ (by intro j; rfl),h1]
    simp [Job.claimed]

lemma claimRows_other (env : Env) (req : ClaimRequest) (stamp : Time)
    (tokens : String → String) (busy : String → ℕ) (room : Option ℕ)
    (h : ∀ item ∈ items, item.jobId ≠ id) (t : Store) (claims : List ClaimedJob) :
    (claimRows env req stamp tokens busy room items t claims).1.window? id = t.window? id := by
  induction items generalizing t claims with
  | nil => rfl
  | cons item items ih =>
    have ih := ih fun x hx => h x (by simp [hx])
    unfold claimRows
    split
    · rfl
    split
    · exact ih t claims
    · exact (ih _ _).trans (claimJob_other env t req stamp _ (h item (by simp)))

lemma claimRows_lives (hop : call.op = .claimReady req tokens) (hw : s.window? id = some w)
    (busy : String → ℕ) (room : Option ℕ) (hn : (items.map fun j => j.jobId).Nodup)
    (hitem : ∀ item ∈ items, item.jobId = id → item = w.job ∧ s.isCurrent w.job.sessionId w.job.sessionEpoch = true)
    (hkt : Keyed t) (ht : t.window? id = some w) (claims : List ClaimedJob) :
    Lives env s call id w (claimRows env req call.now tokens busy room items t claims).1 := by
  induction items generalizing t claims with
  | nil => exact ⟨w,ht,.stay⟩
  | cons item items ih =>
    rw [List.map_cons,List.nodup_cons] at hn
    have ih := fun {u} => ih (t := u) hn.2 fun x hx => hitem x (by simp [hx])
    unfold claimRows
    split
    · exact ⟨w,ht,.stay⟩
    split
    · exact ih hkt ht claims
    by_cases hid : item.jobId = id
    · obtain ⟨rfl,hcur⟩ := hitem item (by simp) hid
      obtain ⟨w',hw',hlife⟩ := claimJob_lives hkt hop hw ht (tokens w.job.jobId) hcur
      refine ⟨w',?_,hlife⟩
      rw [claimRows_other,hw']
      intro x hx hxid
      exact hn.1 (List.mem_map.mpr ⟨x,hx,hxid.trans hid.symm⟩)
    · refine ih ?_ ?_ _
      · exact hkt.moves (Stills.moves (claimJob_stills _ _ _ _ _ _))
      · exact (claimJob_other _ _ _ _ _ hid).trans ht

lemma mem_readyJobs {stamp : Time} {j : Job} : j ∈ s.readyJobs req stamp ↔
      j ∈ s.jobs ∧ s.isCurrent j.sessionId j.sessionEpoch = true ∧ j.due stamp = true := by
  simp [readyJobs]

lemma readyJobs_nodup (hk : Keyed s) (req : ClaimRequest) (stamp : Time) :
    ((s.readyJobs req stamp).map fun j => j.jobId).Nodup := by
  refine ((List.perm_insertionSort _ _).map _).nodup_iff.mpr ?_
  exact hk.jobs.sublist (List.filter_sublist.map _)

lemma claimReady_lives (hk : Keyed s) (hw : s.window? id = some w)
    (hop : call.op = .claimReady req tokens) :
    Lives env s call id w (s.claimReady env req tokens call.now).1 := by
  unfold claimReady
  split
  · exact .stay hw
  have h : Lives env s call id w (claimRows env req call.now tokens (s.activeIn call.now)
      (req.globalLimit.map fun g : ℤ => (g - ((s.active call.now).length : ℤ)).toNat)
      (s.readyJobs req call.now) s []).1 := by
    refine claimRows_lives hop hw _ _ (readyJobs_nodup hk req call.now) ?_ hk hw []
    intro item hi hid
    obtain ⟨hm,hcur,_⟩ := mem_readyJobs.mp hi
    obtain rfl := eq_job_of_mem hk hw hm hid
    exact ⟨rfl,hcur⟩
  simp only
  split
  · exact h
  · obtain ⟨w',hw',hlife⟩ := h
    exact ⟨w',hw',hlife⟩

variable {claim : ClaimedJob} {now : Time} {t' : Store} {i : CandidateIntent}

lemma claimMatches_holds {clock : Time} (hk : Keyed s) (hw : s.window? claim.job.jobId = some w)
    (h : s.claimMatches claim clock = true) : claim.holds w.job = true := by
  obtain ⟨j,hj,hh,-⟩ := claimMatches_job h
  rwa [eq_job_of_mem hk hw hj (ClaimedJob.holds_jobId hh)] at hh

lemma holds_of_countP (hk : Keyed s) (hw : s.window? claim.job.jobId = some w)
    (h : s.jobs.countP claim.holds = 1) : claim.holds w.job = true :=
  (countP_job hk hw fun _ hj => ClaimedJob.holds_jobId hj).mp h

lemma recordIntent_other (hne : claim.job.jobId ≠ id)
    (h : recordIntent env claim now t i = some t') :
    t'.window? id = t.window? id := by
  simp only [recordIntent] at h
  split at h
  · split at h
    · rw [Option.some.inj h]
    · cases h
  · rw [insertCandidate_window? h]
    cases t.window? id <;> simp [hne]

lemma recordIntent_new (ht : t.window? claim.job.jobId = some w)
    (hnew : ∀ c ∈ w.slots, c.slot ≠ i.slot)
    (h : recordIntent env claim now t i = some t') :
    t'.window? claim.job.jobId = some { w with slots := w.slots++[claim.row env now i] } := by
  simp only [recordIntent,window?_slots ht] at h
  have hnone : w.slots.find? (fun c => c.slot = i.slot) = none := by
    simpa [List.find?_eq_none] using hnew
  rw [hnone] at h
  rw [insertCandidate_window? h,ht]
  simp [ClaimedJob.row]

variable {intents : List CandidateIntent} {f : Job → Job} {o : WindowOutcome}

lemma recordIntents_new (ht : t.window? claim.job.jobId = some w)
    (hn : (intents.map CandidateIntent.slot).Nodup)
    (hnew : ∀ c ∈ w.slots, ∀ i ∈ intents, c.slot ≠ i.slot)
    (h : intents.foldlM (recordIntent env claim now) t = some t') : t'.window? claim.job.jobId =
      some { w with slots := w.slots++intents.map (claim.row env now) } := by
  induction intents generalizing t w with
  | nil =>
    obtain rfl : t = t' := by simpa using h
    simpa using ht
  | cons i intents ih =>
    obtain ⟨t₁,h1,h⟩ := Option.bind_eq_some_iff.mp h
    rw [List.map_cons,List.nodup_cons] at hn
    have ht₁ := recordIntent_new ht (fun c hc => hnew c hc i (by simp)) h1
    have hnew₁ : ∀ c ∈ w.slots++[claim.row env now i], ∀ x ∈ intents, c.slot ≠ x.slot := by
      intro c hc x hx
      rcases List.mem_append.mp hc with hc | hc
      · exact hnew c hc x (by simp [hx])
      · obtain rfl := List.mem_singleton.mp hc
        exact fun he => hn.1 (List.mem_map.mpr ⟨x,hx,he.symm⟩)
    rw [ih ht₁ hn.2 hnew₁ h]
    simp

lemma recordIntents_known (hknown : ∀ i ∈ intents, ∃ c ∈ t.slots claim.job.jobId, c.slot = i.slot)
    (h : intents.foldlM (recordIntent env claim now) t = some t') : t' = t := by
  induction intents with
  | nil => exact (by simpa using h : t = t').symm
  | cons i intents ih =>
    obtain ⟨t₁,h1,h2⟩ := Option.bind_eq_some_iff.mp h
    obtain ⟨c,hc,hci⟩ := hknown i (by simp)
    obtain rfl : t₁ = t := by
      simp only [recordIntent] at h1
      split at h1
      · split at h1
        · exact (Option.some.inj h1).symm
        · cases h1
      · rename_i hnone
        exact absurd hci (by simpa using List.find?_eq_none.mp hnone c hc)
    exact ih (fun x hx => hknown x (by simp [hx])) h2

lemma beginCandidateIntents_lives (hk : Keyed s) (hw : s.window? id = some w)
    (hop : call.op = .beginCandidateIntents claim intents) :
    Lives env s call id w (s.beginCandidateIntents env claim intents call.now call.clock).1 := by
  unfold beginCandidateIntents
  simp only
  split
  · exact .stay hw
  rename_i hm
  split
  · exact .stay hw
  rename_i hn
  split
  · exact .stay hw
  rename_i hsame
  split
  · exact .stay hw
  rename_i s' hf
  by_cases hid : claim.job.jobId = id
  · subst hid
    have hholds := claimMatches_holds hk hw (by simpa using hm)
    simp only [Bool.or_eq_true,not_or,Bool.not_eq_true',decide_eq_false_iff_not,not_not] at hn
    cases hs : w.slots with
    | nil =>
      refine ⟨_,recordIntents_new hw hn.1 (by simp [hs]) hf,?_⟩
      have hlife : Life env s call w _ := .recorded claim intents hop hholds hs hn.1
      simpa [hs] using hlife
    | cons c rows =>
      have hslots := window?_slots hw
      have hall : sameSlots (s.slots claim.job.jobId) intents = true := by
        simpa [hslots,hs] using hsame
      simp only [sameSlots,Bool.and_eq_true,List.all_eq_true,List.any_eq_true, decide_eq_true_eq] at hall
      rw [recordIntents_known hall.2 hf]
      exact .stay hw
  · refine .of_eq hw ?_
    exact RunLaws.foldlM_invariant (P := fun t => t.window? id = s.window? id)
      (fun t i _ t' ht h => (recordIntent_other hid ht).trans h) rfl hf

lemma beginCandidateWrite_lives (hk : Keyed s) (hw : s.window? id = some w)
    {intent : CandidateIntent} (hop : call.op = .beginCandidateWrite claim intent) :
    Lives env s call id w (s.beginCandidateWrite env claim intent call.now call.clock).1 := by
  unfold beginCandidateWrite
  simp only
  split
  · exact .stay hw
  rename_i hm
  split
  · exact .stay hw
  by_cases hid : claim.job.jobId = id
  · subst hid
    have hholds := claimMatches_holds hk hw (by simpa using hm)
    refine ⟨_,?_,.writing claim intent hop hholds⟩
    rw [window?_updateCandidates s (by intro c; rfl),hw]
    rfl
  · refine .of_eq hw (window?_updateCandidates_of_ne s (by intro c; rfl) ?_)
    intro c hc
    simp [ledgerRow,hc,Ne.symm hid]

lemma window?_doubtSlots (ht : t.window? id = some w) (now : Time) :
    (t.doubtSlots id now).window? id =
      some { w with slots := w.slots.map (Candidate.doubtOpen now) } := by
  unfold doubtSlots
  rw [window?_updateCandidates t (by intro c; rfl),ht]
  simp only [Option.map_some,Option.some.injEq,Window.mk.injEq,true_and,and_true]
  refine List.map_congr_left fun c hc => ?_
  have hcid : c.jobId = id := slots_jobId (window?_slots ht ▸ hc)
  cases hcl : c.status.closed <;> simp [Candidate.doubtOpen,hcid,hcl]

lemma window?_doubtSlots_of_ne {k : String} (t : Store) (hne : k ≠ id) (now : Time) :
    (t.doubtSlots k now).window? id = t.window? id := by
  refine window?_updateCandidates_of_ne t (by intro c; rfl) ?_
  intro c hc
  simp [hc,hne.symm]

lemma window?_updateHeld (hw : t.window? id = some w) (hh : claim.holds w.job = true)
    (hf : ∀ j, (f j).jobId = j.jobId) :
    (t.updateJobs claim.holds f).window? id = some { w with job := f w.job } := by
  rw [window?_updateJobs t hf,hw]
  simp [hh]

lemma window?_updateHeld_of_ne (t : Store) (hne : claim.job.jobId ≠ id)
    (hf : ∀ j, (f j).jobId = j.jobId) : (t.updateJobs claim.holds f).window? id = t.window? id := by
  refine window?_updateJobs_of_ne t hf ?_
  intro j hj
  by_contra hh
  exact hne ((ClaimedJob.holds_jobId (by simpa using hh)).symm.trans hj)

lemma markUnknownClaim_window (base : Store) (hk : Keyed t) (claim : ClaimedJob)
    (now recheck : Time) (reason : SummaryReasonCode) (exceptionType : Option String) :
    (markUnknownClaim base t claim now recheck reason exceptionType).1 = base ∨
    (∀ id, claim.job.jobId ≠ id →
        (markUnknownClaim base t claim now recheck reason exceptionType).1.window? id = t.window? id) ∧
      ∀ w, t.window? claim.job.jobId = some w → claim.holds w.job = true ∧
        (markUnknownClaim base t claim now recheck reason exceptionType).1.window?
          claim.job.jobId = some { w with
            job := w.job.doubted reason exceptionType now
            slots := w.slots.map (Candidate.doubtOpen now) } := by
  unfold markUnknownClaim
  simp only
  split
  · exact .inl rfl
  split
  · exact .inl rfl
  rename_i hc
  refine .inr ⟨?_,?_⟩
  · intro id hne
    exact (window?_updateHeld_of_ne _ hne (by intro j; rfl)).trans (window?_doubtSlots_of_ne t hne now)
  · intro w hw
    have hh := holds_of_countP hk hw (not_not.mp hc)
    exact ⟨hh,window?_updateHeld (window?_doubtSlots hw now) hh (by intro j; rfl)⟩

lemma settledBy_jobId (intents : List CandidateIntent) (now : Time) (c : Candidate) :
    (c.settledBy intents now).jobId = c.jobId := by
  unfold Candidate.settledBy
  split <;> rfl

lemma rejected_lives (hk : Keyed s) (hw : s.window? id = some w)
    (hop : call.op = .commitWindow claim o) (hmatch : s.claimMatches claim call.clock = true)
    (hbad : validWindowOutcome o = false ∨ commitAccepted env s claim o = false)
    {reason : SummaryReasonCode} (hstor : reason.storable = true) (exceptionType : Option String)
    (recheck : Time) :
    Lives env s call id w (s.markUnknownClaim s claim call.now recheck reason exceptionType).1 := by
  rcases markUnknownClaim_window s hk claim call.now recheck reason exceptionType with
    h | ⟨hother,hown⟩
  · rw [h]
    exact .stay hw
  by_cases hid : claim.job.jobId = id
  · subst hid
    obtain ⟨hh,hw'⟩ := hown w hw
    exact ⟨_,hw',.rejected claim o reason exceptionType hop hh hmatch hbad hstor⟩
  · exact .of_eq hw (hother id hid)

lemma commitWindow_lives (hk : Keyed s) (hw : s.window? id = some w)
    (hop : call.op = .commitWindow claim o) : Lives env s call id w
      (s.commitWindow env claim o call.now call.clock call.recheck).1 := by
  unfold commitWindow
  simp only
  split
  · exact .stay hw
  rename_i hm
  have hmatch : s.claimMatches claim call.clock = true := by simpa using hm
  split
  · exact rejected_lives hk hw hop hmatch (.inl (by simp_all)) rfl _ _
  rename_i hvalid
  split
  · exact .stay hw
  rename_i status reason nextAt hverdict
  split
  · exact rejected_lives hk hw hop hmatch (.inr (by simp_all)) rfl _ _
  rename_i hacc
  split
  · exact .stay hw
  rename_i hstor
  split
  · exact .stay hw
  have hstor : reason.storable = true := by
    have hh : o.storable reason = true := by simpa using hstor
    simp only [WindowOutcome.storable,Bool.and_eq_true] at hh
    exact hh.2
  set s₁ := s.updateCandidates (fun c => c.jobId = claim.job.jobId)
    (Candidate.settledBy o.candidateSlots call.now) with hs₁
  have hset : ∀ c : Candidate, (c.settledBy o.candidateSlots call.now).jobId = c.jobId :=
    settledBy_jobId _ _
  by_cases hid : claim.job.jobId = id
  · subst hid
    have hholds := claimMatches_holds hk hw hmatch
    have h1 : s₁.window? claim.job.jobId = some { w with
        slots := w.slots.map (Candidate.settledBy o.candidateSlots call.now) } := by
      rw [hs₁,window?_updateCandidates s hset,hw]
      simp only [Option.map_some,Option.some.injEq,Window.mk.injEq,true_and,and_true]
      refine List.map_congr_left fun c hc => ?_
      rw [← window?_slots hw] at hc
      rw [if_pos (decide_eq_true (slots_jobId hc))]
    have h2 := window?_updateHeld h1 (f := Job.committed status reason nextAt o call.now) hholds
      (by intro j; rfl)
    refine ⟨_,?_,.committed claim o status reason nextAt hop hholds (by simpa using hvalid)
      hverdict (by simpa using hacc) hstor⟩
    rw [window?_advanceCursor]
    split
    · rw [window?_addCounters,h2]
      simp
    · exact h2
  · refine .of_eq hw ?_
    have h1 : s₁.window? id = s.window? id := by
      refine window?_updateCandidates_of_ne s hset ?_
      intro c hc
      simpa [hc] using Ne.symm hid
    have h2 := (window?_updateHeld_of_ne s₁ hid (f := Job.committed status reason nextAt o call.now)
      (by intro j; rfl)).trans h1
    split
    · exact (window?_addCounters_of_ne _ _ hid).trans h2
    · exact h2

/-- A compare-and-set on the claimed row changes that row only. -/
theorem updateHeld_lives (hk : Keyed s) (hw : s.window? id = some w)
    (hc : s.jobs.countP claim.holds = 1) (hf : ∀ j, (f j).jobId = j.jobId)
    (hlife : claim.holds w.job = true → Life env s call w { w with job := f w.job }) :
    Lives env s call id w (s.updateJobs claim.holds f) := by
  by_cases hid : claim.job.jobId = id
  · subst hid
    have hh := holds_of_countP hk hw hc
    exact ⟨_,window?_updateHeld hw hh hf,hlife hh⟩
  · exact .of_eq hw (window?_updateHeld_of_ne s hid hf)

lemma failWindow_lives (hk : Keyed s) (hw : s.window? id = some w) {f : SummaryFailure}
    (hop : call.op = .failWindow claim f) :
    Lives env s call id w (s.failWindow claim f call.now call.clock).1 := by
  unfold failWindow
  split
  · exact .stay hw
  split
  · exact .stay hw
  rename_i status nextAt reason hverdict
  split
  · exact .stay hw
  rename_i hc
  have h := updateHeld_lives hk hw (not_not.mp hc) (f := Job.failed status nextAt reason f call.now)
    (by intro j; rfl) fun hh =>
      (.failed claim f status nextAt reason hop hh hverdict : Life env s call w _)
  exact h

lemma renewClaim_lives (hw : s.window? id = some w) {leaseSeconds : ℤ}
    (hop : call.op = .renewClaim claim leaseSeconds) :
    Lives env s call id w (s.renewClaim claim leaseSeconds call.now).1 := by
  unfold renewClaim
  split
  · exact .stay hw
  generalize call.now+((max 1 leaseSeconds : ℤ) : Time) = lease
  by_cases ht : (claim.holds w.job && w.job.leaseUntil.any (call.now < ·)) = true
  · obtain ⟨hh,hlive⟩ := (Bool.and_eq_true _ _).mp ht
    refine ⟨_,?_,.renewed claim leaseSeconds hop hh hlive lease⟩
    rw [window?_updateJobs s (by intro j; rfl),hw]
    simp only [Option.map_some,ht,if_true]
  · refine .of_eq hw ?_
    rw [window?_updateJobs s (by intro j; rfl),hw]
    simp only [Option.map_some,ht,if_false,Bool.false_eq_true]

lemma requeueClaim_lives (hk : Keyed s) (hw : s.window? id = some w)
    {reason : Option SummaryReasonCode} (hop : call.op = .requeueClaim claim reason) :
    Lives env s call id w (s.requeueClaim claim reason call.now).1 := by
  unfold requeueClaim
  simp only
  split
  · exact .stay hw
  rename_i hc
  simp only [Bool.or_eq_true,not_or,decide_eq_true_eq,not_not,Bool.not_eq_true', Bool.not_eq_false]
    at hc
  have h := updateHeld_lives hk hw hc.1 (f := Job.requeued (reason.getD .unknown) call.now)
    (by intro j; rfl) fun hh =>
      (.requeued claim reason hop hh hc.2 : Life env s call w _)
  exact h

lemma recoverExpiredClaims_lives (hw : s.window? id = some w)
    (hop : call.op = .recoverExpiredClaims) :
    Lives env s call id w (s.recoverExpiredClaims call.now).1 := by
  have hadv : (s.recoverExpiredClaims call.now).1.window? id =
      (s.updateJobs (Job.expired call.now) (Job.recovered call.now)).window? id :=
    Advances.window? (advances_foldl call.now _ _) id
  have h1 := s.window?_updateJobs (p := Job.expired call.now) (f := Job.recovered call.now)
    (by intro j; rfl) id
  rw [hw] at h1
  by_cases hexp : w.job.expired call.now = true
  · exact ⟨_,hadv.trans h1,by simpa [hexp] using Life.recovered hop hexp⟩
  · exact .of_eq hw (hadv.trans (h1.trans (by simp [hexp,hw])))

end Store

end Memora.Summary

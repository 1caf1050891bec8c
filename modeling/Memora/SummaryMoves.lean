import Memora.RunLaws
import Memora.SummarySystem

/-! Each operation is a sequence of a few kinds of statement, and all of them but the
start-up pass advance cursors only at their end. The operation that adds windows is
described on its own; what every move keeps is kept by all others. -/
namespace Memora.Summary
open RowTable

inductive Still : Store → Store → Prop
  | jobs (s : Store) (p : Job → Bool) (f : Job → Job)
      (hf : ∀ j, (f j).toJobSource = j.toJobSource) : Still s (s.updateJobs p f)
  | candidates (s : Store) (p : Candidate → Bool) (f : Candidate → Candidate)
      (hf : ∀ c, (f c).toSlotSource = c.toSlotSource) : Still s (s.updateCandidates p f)
  | credit (s : Store) (id : String) (n : Counts) (h : ∃ j ∈ s.jobs, j.jobId = id) :
      Still s (s.addCounters id n)
  | register (s : Store) (created : List EpochRow)
      (hc : ∀ e ∈ created, e.epoch = 1 ∧ e.cursorSeq = 0)
      (hn : (created.map EpochRow.sessionId).Nodup)
      (hf : ∀ e ∈ created, ∀ x ∈ s.epochs, x.sessionId ≠ e.sessionId) :
      Still s { s with epochs := s.epochs++created }
  | fence (s : Store) (p : EpochRow → Bool) (now : Time) : Still s (s.fenceEpochs p now)
  | record (s s' : Store) (c : Candidate) (h : s.insertCandidate c = some s')
      (hj : ∃ j ∈ s.jobs, j.jobId = c.jobId) : Still s s'
  | source (s : Store) (messages : List Message) (next : ℕ) (sessions : List Session) :
      Still s { s with messages := messages, nextMessageId := next, sessions := sessions }
  | rotate (s : Store) (session : String) : Still s { s with roundRobinCursor := session }

inductive Advance : Store → Store → Prop
  | cursor (s : Store) (session : String) (epoch : ℕ) (now : Time) :
      Advance s (s.advanceCursor session epoch now)

abbrev Stills : Store → Store → Prop := Relation.ReflTransGen Still

abbrev Advances : Store → Store → Prop := Relation.ReflTransGen Advance

def Closing (s s' : Store) : Prop := ∃ t, Stills s t ∧ Advances t s'

abbrev Moves : Store → Store → Prop := Relation.ReflTransGen fun s s' => Still s s' ∨ Advance s s'

lemma Stills.closing {s t : Store} (h : Stills s t) : Closing s t := ⟨t,h,.refl⟩

lemma Stills.advance {s t : Store} (h : Stills s t) (session : String) (epoch : ℕ)
    (now : Time) : Closing s (t.advanceCursor session epoch now) :=
  ⟨t,h,.single (.cursor _ _ _ _)⟩

variable {s s' : Store} {now : Time}

lemma Stills.moves (h : Stills s s') : Moves s s' := by
  induction h with
  | refl => exact .refl
  | tail _ h ih => exact ih.tail (.inl h)

lemma Closing.moves (h : Closing s s') : Moves s s' := by
  obtain ⟨t,h1,h2⟩ := h
  induction h2 with
  | refl => exact h1.moves
  | tail _ h ih => exact ih.tail (.inr h)

lemma advances_foldl (now : Time) (l : List (String × ℕ)) (s : Store) :
    Advances s (l.foldl (fun s e => s.advanceCursor e.1 e.2 now) s) := by
  induction l generalizing s with
  | nil => exact .refl
  | cons e l ih => exact .head (.cursor s e.1 e.2 now) (ih _)

structure Keyed (s : Store) : Prop where
  jobs : (s.jobs.map fun j => j.jobId).Nodup
  slots : (s.candidates.map fun c => (c.jobId,c.slot)).Nodup
  epochs : (s.epochs.map EpochRow.sessionId).Nodup
  owned : ∀ c ∈ s.candidates, ∃ j ∈ s.jobs, j.jobId = c.jobId
  counted : ∀ e ∈ s.counterLog, ∃ j ∈ s.jobs, j.jobId = e.1

lemma Keyed.empty : Keyed Store.empty := by
  constructor <;> simp [Store.empty]

namespace Store

variable (s : Store)

@[simp] lemma updateCandidates_jobs (p f) : (s.updateCandidates p f).jobs = s.jobs := rfl
@[simp] lemma updateEpochs_jobs (p f) : (s.updateEpochs p f).jobs = s.jobs := rfl

lemma insertCandidate_eq {s s' : Store} {c : Candidate} (h : s.insertCandidate c = some s') :
    s' = { s with candidates := s.candidates++[c] } ∧ c.checks = true ∧
      ∀ x ∈ s.candidates, x.jobId = c.jobId → x.slot ≠ c.slot := by
  simp only [insertCandidate,Bool.and_eq_true,List.all_eq_true] at h
  split at h
  · rename_i hc
    refine ⟨(Option.some.inj h).symm,hc.1,?_⟩
    intro x hx hj hs
    have hh := hc.2 x hx
    simp [hj,hs] at hh
  · cases h

lemma insertJob_eq {env : Env} {s s' : Store} {j : Job} (h : s.insertJob env j = some s') :
    s' = { s with jobs := s.jobs++[j] } ∧ j.checks env = true ∧
      ∀ x ∈ s.jobs, x.jobId ≠ j.jobId := by
  simp only [insertJob,Bool.and_eq_true,List.all_eq_true] at h
  split at h
  · rename_i hc
    refine ⟨(Option.some.inj h).symm,hc.1,?_⟩
    intro x hx hj
    have hh := hc.2 x hx
    simp [hj] at hh
  · cases h

end Store

theorem Still.sources (h : Still s s') : s'.jobs.map Job.toJobSource =
    s.jobs.map Job.toJobSource := by
  cases h with
  | jobs p f hf => exact map_modify _ _ _ _ fun j _ _ => hf j
  | record _ _ h _ => rw [(Store.insertCandidate_eq h).1]
  | _ => rfl

lemma Stills.sources (h : Stills s s') : s'.jobs.map Job.toJobSource =
    s.jobs.map Job.toJobSource := by
  induction h with
  | refl => rfl
  | tail _ h ih => exact h.sources.trans ih

lemma Advance.jobs (h : Advance s s') : s'.jobs = s.jobs := by
  cases h
  rfl

lemma Advances.jobs (h : Advances s s') : s'.jobs = s.jobs := by
  induction h with
  | refl => rfl
  | tail _ h ih => exact h.jobs.trans ih

theorem exists_job_of_sources (h : s'.jobs.map Job.toJobSource = s.jobs.map Job.toJobSource)
    {id : String} :
    (∃ j ∈ s'.jobs, j.jobId = id) ↔ ∃ j ∈ s.jobs, j.jobId = id := by
  have key : ∀ t : Store, (∃ j ∈ t.jobs, j.jobId = id) ↔
      ∃ x ∈ t.jobs.map Job.toJobSource, x.jobId = id := by
    intro t
    simp
  rw [key,key,h]

lemma Keyed.still (hk : Keyed s) (h : Still s s') : Keyed s' := by
  have hsrc := h.sources
  have hids : (s'.jobs.map fun j => j.jobId) = s.jobs.map fun j => j.jobId := by
    simpa [Function.comp_def] using congrArg (List.map JobSource.jobId) hsrc
  have hjobs : (s'.jobs.map fun j => j.jobId).Nodup := hids ▸ hk.jobs
  have hex : ∀ id : String, (∃ j ∈ s'.jobs, j.jobId = id) ↔ ∃ j ∈ s.jobs, j.jobId = id :=
    fun _ => exists_job_of_sources hsrc
  cases h with
  | jobs p f hf =>
    exact ⟨hjobs,hk.slots,hk.epochs,fun c hc => (hex _).mpr (hk.owned c hc),
      fun e he => (hex _).mpr (hk.counted e he)⟩
  | candidates p f hf =>
    refine ⟨hjobs,?_,hk.epochs,?_,hk.counted⟩
    · have hm := map_modify (fun c : Candidate => (c.jobId,c.slot)) p f s.candidates
        fun c _ _ => by simp [hf c]
      simpa [Store.updateCandidates,hm] using hk.slots
    · intro c hc
      obtain ⟨x,hx,rfl⟩ := mem_modify.mp hc
      obtain ⟨j,hj,he⟩ := hk.owned x hx
      refine ⟨j,hj,he.trans ?_⟩
      split <;> simp [hf x]
  | credit id n hj =>
    refine ⟨hjobs,hk.slots,hk.epochs,hk.owned,?_⟩
    intro e he
    rcases List.mem_append.mp he with he | he
    · exact hk.counted e he
    · obtain rfl : e = (id,n) := by simpa using he
      exact hj
  | register created hc hn hf =>
    exact ⟨hjobs,hk.slots,nodup_append hk.epochs hn hf,hk.owned,hk.counted⟩
  | fence p now =>
    refine ⟨hjobs,hk.slots,?_,hk.owned,hk.counted⟩
    simpa [Store.fenceEpochs,Store.updateEpochs,map_modify] using hk.epochs
  | record _ c h hj =>
    obtain ⟨rfl,_,hnew⟩ := Store.insertCandidate_eq h
    refine ⟨hjobs,?_,hk.epochs,?_,hk.counted⟩
    · refine nodup_append hk.slots (by simp) ?_
      rintro x hx r hr he
      obtain rfl : x = c := by simpa using hx
      exact hnew r hr (congrArg Prod.fst he) (congrArg Prod.snd he)
    · intro x hx
      rcases List.mem_append.mp hx with hx | hx
      · exact hk.owned x hx
      · obtain rfl : x = c := by simpa using hx
        exact hj
  | source | rotate => exact ⟨hjobs,hk.slots,hk.epochs,hk.owned,hk.counted⟩

lemma Keyed.advance (hk : Keyed s) (h : Advance s s') : Keyed s' := by
  cases h with
  | cursor session epoch now =>
    refine ⟨hk.jobs,hk.slots,?_,hk.owned,hk.counted⟩
    simpa [Store.advanceCursor,Store.updateEpochs,map_modify] using hk.epochs

lemma Keyed.moves (hk : Keyed s) (h : Moves s s') : Keyed s' := by
  induction h with
  | refl => exact hk
  | tail _ h ih => exact h.elim ih.still ih.advance

namespace Store

lemma addMessage_stills (s : Store) (m : MessageInput) (now : Time) :
    Stills s (s.addMessage m now).1 := .single (.source s _ _ _)

lemma ensureEpoch_stills (s : Store) (session : String) (now : Time) :
    Stills s (s.ensureEpoch session now).1 := by
  unfold ensureEpoch epochRow?
  split
  · exact .refl
  · rename_i hnone
    refine .single (.register s [⟨session,1,0,none,none,now⟩] ?_ (by simp) ?_)
    · simp
    · intro e he x hx
      obtain rfl : e = ⟨session,1,0,none,none,now⟩ := by simpa using he
      simpa using List.find?_eq_none.mp hnone x hx

lemma claimJob_stills (env : Env) (s : Store) (req : ClaimRequest) (stamp : Time)
    (token : String) (item : Job) : Stills s (s.claimJob env req stamp token item).1 := by
  unfold claimJob
  have h1 : Still s (s.updateJobs (fun r => r.jobId = item.jobId && r.sessionId = item.sessionId &&
      r.sessionEpoch = item.sessionEpoch && r.due stamp)
      (Job.claimed stamp (stamp+max 1 req.leaseSeconds) token)) := .jobs _ _ _ fun _ => rfl
  simp only
  split
  · exact .refl
  split
  · exact .single h1
  split
  · exact .single h1
  · exact .tail (.single h1) (.jobs _ _ _ fun _ => rfl)

lemma claimRows_stills (env : Env) (req : ClaimRequest) (stamp : Time) (tokens : String → String)
    (busy : String → ℕ) (room : Option ℕ) (items : List Job) (s : Store) (claims : List ClaimedJob) :
    Stills s (claimRows env req stamp tokens busy room items s claims).1 := by
  induction items generalizing s claims with
  | nil => exact .refl
  | cons item items ih =>
    unfold claimRows
    split
    · exact .refl
    split
    · exact ih s claims
    · exact (claimJob_stills env s req stamp _ item).trans (ih _ _)

lemma claimReady_stills (env : Env) (s : Store) (req : ClaimRequest) (tokens : String → String)
    (stamp : Time) : Stills s (s.claimReady env req tokens stamp).1 := by
  unfold claimReady
  split
  · exact .refl
  · have hm := claimRows_stills env req stamp tokens (s.activeIn stamp)
      (req.globalLimit.map fun g : ℤ => (g - ((s.active stamp).length : ℤ)).toNat) (s.readyJobs req stamp) s []
    simp only
    split
    · exact hm
    · exact hm.tail (.rotate _ _)

lemma claimMatches_job {s : Store} {claim : ClaimedJob} {clock : Time}
    (h : s.claimMatches claim clock = true) :
    ∃ j ∈ s.jobs, claim.holds j = true ∧ claim.sourceMatches j = true ∧
      claim.scopeMatches j = true ∧ j.leaseUntil.any (clock < ·) = true := by
  simp only [claimMatches,Bool.and_eq_true,List.any_eq_true] at h
  obtain ⟨_,j,hj,⟨⟨h1,h2⟩,h3⟩,h4⟩ := h
  exact ⟨j,hj,h1,h2,h3,h4⟩

end Store

lemma ClaimedJob.holds_jobId {c : ClaimedJob} {j : Job} (h : c.holds j = true) :
    j.jobId = c.job.jobId := by
  simp only [ClaimedJob.holds,Bool.and_eq_true,decide_eq_true_eq] at h
  exact h.1.1.1.1.1

namespace Store

lemma recordIntent_stills {env : Env} {claim : ClaimedJob} {s s' : Store}
    {i : CandidateIntent} (h : recordIntent env claim now s i = some s')
    (hj : ∃ j ∈ s.jobs, j.jobId = claim.job.jobId) : Stills s s' := by
  simp only [recordIntent] at h
  split at h
  · split at h
    · cases h
      exact .refl
    · cases h
  · exact .single (.record s s' _ h hj)

variable (s : Store) (session : String) (claim : ClaimedJob) (env : Env)

lemma beginCandidateIntents_stills (s : Store) (claim : ClaimedJob)
    (intents : List CandidateIntent) (now clock : Time) :
    Stills s (s.beginCandidateIntents env claim intents now clock).1 := by
  unfold beginCandidateIntents
  split
  · exact .refl
  rename_i hm
  obtain ⟨j,hj,hh,_⟩ := claimMatches_job (by simpa using hm)
  simp only
  split
  · exact .refl
  split
  · exact .refl
  split
  · exact .refl
  · rename_i s' hf
    exact RunLaws.foldlM_invariant (P := fun t => Stills s t)
      (fun t i _ t' ht hst => hst.trans (recordIntent_stills ht
        ((exists_job_of_sources (Stills.sources hst)).mpr ⟨j,hj,ClaimedJob.holds_jobId hh⟩)))
      .refl hf

lemma beginCandidateWrite_stills (s : Store) (claim : ClaimedJob) (intent : CandidateIntent)
    (now clock : Time) : Stills s (s.beginCandidateWrite env claim intent now clock).1 := by
  unfold beginCandidateWrite
  simp only
  split
  · exact .refl
  split
  · exact .refl
  · exact .single (.candidates _ _ _ fun _ => rfl)

lemma doubtSlots_still (id : String) (now : Time) : Still s (s.doubtSlots id now) :=
  .candidates _ _ _ fun _ => rfl

lemma markUnknownClaim_stills {base s : Store} (h : Stills base s) (claim : ClaimedJob)
    (now recheck : Time) (reason : SummaryReasonCode) (exceptionType : Option String) :
    Stills base (markUnknownClaim base s claim now recheck reason exceptionType).1 := by
  unfold markUnknownClaim
  simp only
  split
  · exact .refl
  split
  · exact .refl
  · exact (h.tail (doubtSlots_still s _ now)).tail (.jobs _ _ _ fun _ => rfl)

lemma markUnknownCompleted_stills {base s : Store} (h : Stills base s) (claim : ClaimedJob)
    (now : Time) : Stills base (markUnknownCompleted base s claim now).1 := by
  unfold markUnknownCompleted
  simp only
  split
  · exact .refl
  · exact (h.tail (doubtSlots_still s _ now)).tail (.jobs _ _ _ fun _ => rfl)

lemma exists_holds {s : Store} {claim : ClaimedJob} (h : s.jobs.countP claim.holds = 1) :
    ∃ j ∈ s.jobs, j.jobId = claim.job.jobId := by
  obtain ⟨j,hj,hh⟩ := exists_of_countP_eq_one h
  exact ⟨j,hj,ClaimedJob.holds_jobId hh⟩

lemma commitWindow_closing (s : Store) (claim : ClaimedJob) (o : WindowOutcome)
    (now clock recheck : Time) : Closing s (s.commitWindow env claim o now clock recheck).1 := by
  unfold commitWindow
  simp only
  split
  · exact Stills.closing .refl
  split
  · exact (markUnknownClaim_stills .refl _ _ _ _ _).closing
  split
  · exact Stills.closing .refl
  split
  · exact (markUnknownClaim_stills .refl _ _ _ _ _).closing
  split
  · exact Stills.closing .refl
  split
  · exact Stills.closing .refl
  · rename_i status reason nextAt _ _ _ hc
    have h1 : Stills s (s.updateCandidates (fun c => c.jobId = claim.job.jobId)
        (Candidate.settledBy o.candidateSlots now)) := by
      refine .single (.candidates _ _ _ fun c => ?_)
      unfold Candidate.settledBy
      split <;> rfl
    have h2 : Stills s _ := h1.tail (.jobs _ claim.holds (Job.committed status reason nextAt o now)
      fun _ => rfl)
    refine Stills.advance ?_ _ _ _
    split
    · refine h2.tail (.credit _ _ _ ?_)
      exact (exists_job_of_sources h2.sources).mpr (exists_holds (by simpa using hc))
    · exact h2

lemma failWindow_closing (f : SummaryFailure) (stamp clock : Time) :
    Closing s (s.failWindow claim f stamp clock).1 := by
  unfold failWindow
  split
  · exact Stills.closing .refl
  split
  · exact Stills.closing .refl
  split
  · exact Stills.closing .refl
  · refine Stills.advance (.single ?_) _ _ _
    exact .jobs _ _ _ fun _ => rfl

lemma renewClaim_stills (leaseSeconds : ℤ) (stamp : Time) :
    Stills s (s.renewClaim claim leaseSeconds stamp).1 := by
  unfold renewClaim
  split
  · exact .refl
  · exact .single (.jobs _ _ _ fun _ => rfl)

lemma requeueClaim_closing (reason : Option SummaryReasonCode) (stamp : Time) :
    Closing s (s.requeueClaim claim reason stamp).1 := by
  unfold requeueClaim
  simp only
  split
  · exact Stills.closing .refl
  · refine Stills.advance (.single ?_) _ _ _
    exact .jobs _ _ _ fun _ => rfl

lemma recoverExpiredClaims_closing (stamp : Time) : Closing s (s.recoverExpiredClaims stamp).1 := by
  have h : Stills s (s.updateJobs (Job.expired stamp) (Job.recovered stamp)) :=
    .single (.jobs _ _ _ fun _ => rfl)
  exact ⟨_,h,advances_foldl stamp _ _⟩

lemma cancelJobs_stills {s s' : Store} {p : Job → Bool} {reason : SummaryReasonCode}
    (h : s.cancelJobs p reason now = some s') : Stills s s' := by
  simp only [cancelJobs] at h
  split at h
  · cases h
  · cases h
    exact .single (.jobs _ _ _ fun _ => rfl)

lemma cancelSessionJobs_stills (epoch : ℕ) (reason : Option SummaryReasonCode) (now : Time) :
    Stills s (s.cancelSessionJobs session epoch reason now).1 := by
  unfold cancelSessionJobs
  simp only
  split
  · exact .refl
  · exact cancelJobs_stills ‹_›

lemma resetSessionEpoch_stills (reason : Option SummaryReasonCode) (now : Time) :
    Stills s (s.resetSessionEpoch session reason now).1 := by
  unfold resetSessionEpoch
  simp only
  split
  · exact .refl
  · exact ((ensureEpoch_stills s session now).trans (cancelJobs_stills ‹_›)).tail (.fence _ _ _)

lemma clearSessionAtomically_stills (quarantined : Bool) (now : Time) :
    Stills s (s.clearSessionAtomically session quarantined now).1 := by
  unfold clearSessionAtomically
  split
  · exact .refl
  · refine Relation.ReflTransGen.tail ?_ (.fence _ _ _)
    refine Relation.ReflTransGen.tail ?_ (.source _ _ _ _)
    exact (ensureEpoch_stills s session now).tail (.jobs _ _ _ fun _ => rfl)

lemma deleteOldSessions_stills (days : ℤ) (ttl : Option ℤ) (guarded : String → Bool)
    (now clock : Time) :
    Stills s (s.deleteOldSessions days ttl guarded now clock).1 := by
  unfold deleteOldSessions
  simp only
  generalize now - _ = cutoff
  split
  · exact .refl
  · refine Relation.ReflTransGen.tail ?_ (.source _ _ _ _)
    refine Relation.ReflTransGen.tail ?_ (.fence _ _ _)
    refine Relation.ReflTransGen.tail ?_ (.jobs _ _ _ fun _ => rfl)
    refine .single (.register _ _ ?_ ?_ ?_)
    · intro e he
      obtain ⟨id,_,rfl⟩ := List.mem_map.mp he
      exact ⟨rfl,rfl⟩
    · rw [List.map_map]
      have hid : EpochRow.sessionId ∘ (fun id => EpochRow.mk id 1 0 none none clock) = id := rfl
      rw [hid,List.map_id]
      exact (List.nodup_dedup _).filter _
    · intro e he x hx hxe
      obtain ⟨id,hid,rfl⟩ := List.mem_map.mp he
      have hid := (List.mem_filter.mp hid).2
      simp only [Bool.not_eq_true',List.any_eq_false] at hid
      exact hid x hx (by simpa using hxe)

lemma trimIfSafe_stills (epoch : ℕ) (deleteCount : ℤ) (quarantined : Bool) :
    Stills s (s.trimIfSafe session epoch deleteCount quarantined).1 := by
  unfold trimIfSafe
  split
  · exact .refl
  · exact .single (.source _ _ _ _)

lemma recordOwners_stills (now : Time) (allowed : Candidate → Bool) (held : Job → Bool)
    (owners : List (ℕ × ℕ)) (s : Store) : Stills s
    (recordOwners claim now allowed held owners s).1 := by
  induction owners generalizing s with
  | nil => exact .refl
  | cons o owners ih =>
    unfold recordOwners
    simp only
    split
    · exact .refl
    · refine Relation.ReflTransGen.trans (.single ?_) (ih _)
      exact .candidates _ _ _ fun _ => rfl

lemma reconcileCompleted_stills (s : Store) (claim : ClaimedJob) (job : Job)
    (mapping : List (RawSlot × RawId)) (now : Time) :
    Stills s (s.reconcileCompleted env claim job mapping now).1 := by
  unfold reconcileCompleted
  simp only
  split
  · split
    · exact .refl
    · exact markUnknownCompleted_stills .refl _ _
  split
  · exact markUnknownCompleted_stills .refl _ _
  split
  · exact markUnknownCompleted_stills .refl _ _
  split
  · exact recordOwners_stills _ _ _ _ _ _
  · exact markUnknownCompleted_stills (recordOwners_stills _ _ _ _ _ _) _ _

lemma reconcileRunning_closing (s : Store) (claim : ClaimedJob) (job : Job)
    (mapping : List (RawSlot × RawId)) (now recheck : Time) :
    Closing s (s.reconcileRunning env claim job mapping now recheck).1 := by
  unfold reconcileRunning
  simp only
  split
  · exact (markUnknownClaim_stills .refl _ _ _ _ _).closing
  rename_i owners _
  have hm := recordOwners_stills claim now Candidate.recordable claim.holds owners s
  split
  · exact (markUnknownClaim_stills hm _ _ _ _ _).closing
  split
  · exact hm.closing
  split
  · exact (markUnknownClaim_stills hm _ _ _ _ _).closing
  split
  · exact Stills.closing .refl
  · rename_i hc
    have h2 : Stills s _ := hm.tail (.jobs _ claim.holds (Job.reconciled
      (ledgerCounts ((recordOwners claim now Candidate.recordable claim.holds owners s).1.slots
        claim.job.jobId)) now) fun _ => rfl)
    refine Stills.advance (h2.tail (.credit _ _ _ ?_)) _ _ _
    have hex := exists_holds (s := (recordOwners claim now Candidate.recordable claim.holds
      owners s).1) (by simpa using hc)
    exact (exists_job_of_sources h2.sources).mpr ((exists_job_of_sources (Stills.sources hm)).mp hex)

lemma reconcileWindow_closing (s : Store) (claim : ClaimedJob) (mapping : List (RawSlot × RawId))
    (now clock recheck : Time) : Closing s (s.reconcileWindow env claim mapping now clock recheck).1 := by
  unfold reconcileWindow
  simp only
  split
  · exact Stills.closing .refl
  split
  · exact Stills.closing .refl
  split
  · exact Stills.closing .refl
  split
  · exact (reconcileCompleted_stills _ _ _ _ _ _).closing
  · exact Stills.closing .refl
  · split
    · exact reconcileRunning_closing _ _ _ _ _ _ _
    · exact Stills.closing .refl
  · exact Stills.closing .refl

lemma startupFence_stills (id : String) (reason : SummaryReasonCode) (now : Time) :
    Stills s (s.startupFence id reason now) := by
  refine Relation.ReflTransGen.tail (.single ?_) (.jobs _ _ _ fun _ => rfl)
  exact .candidates _ _ _ fun _ => rfl

lemma startupUnresolved_still (scan : ScannedJob) (now : Time) :
    Still s (s.startupUnresolved scan now) := .jobs _ _ _ fun _ => rfl

lemma judgeSlots_still (scan : ScannedJob) (job : Job) (now : Time) :
    Still s (s.judgeSlots scan job now) := by
  refine .candidates _ _ _ fun c => ?_
  unfold Candidate.judged
  split <;> rfl

lemma startupJob_closing {st st' : Store × ℕ} {scan : ScannedJob}
    (h : startupJob now st scan = some st') : Closing st.1 st'.1 := by
  obtain ⟨s,touched⟩ := st
  simp only [startupJob] at h
  split at h
  · cases h
    exact Stills.closing .refl
  rename_i job hjob
  have hex : ∃ j ∈ s.jobs, j.jobId = scan.jobId :=
    ⟨job,List.mem_of_find?_eq_some hjob,by simpa using List.find?_some hjob⟩
  split at h
  · cases h
    exact (startupFence_stills _ _ _ _).closing
  split at h
  · cases h
    exact (startupFence_stills _ _ _ _).closing
  split at h
  · split at h
    · cases h
      exact Stills.closing (.single (startupUnresolved_still _ _ _))
    · cases h
      exact Stills.closing .refl
  split at h
  · cases h
  have h1 : Stills s (s.judgeSlots scan job now) := .single (judgeSlots_still _ _ _ _)
  split at h
  · cases h
    exact Stills.closing (h1.tail (startupUnresolved_still _ _ _))
  split at h
  · cases h
    exact h1.closing
  · cases h
    have h2 : Stills s _ := h1.tail (.jobs _ (fun j => j.jobId = scan.jobId) (Job.startupCompleted
      (ledgerCounts ((s.judgeSlots scan job now).slots scan.jobId)) now) fun _ => rfl)
    exact Stills.advance (h2.tail (.credit _ _ _ ((exists_job_of_sources h2.sources).mpr hex)))
      _ _ _

lemma reconcileStartupCandidates_moves (snapshot : StartupSnapshot) (now : Time) :
    Moves s (s.reconcileStartupCandidates snapshot now).1 := by
  unfold reconcileStartupCandidates
  split
  · exact .refl
  · rename_i hf
    exact RunLaws.foldlM_invariant (P := fun t : Store × ℕ => Moves s t.1)
      (fun t _ _ t' ht hst => hst.trans (startupJob_closing ht).moves) .refl hf

lemma abandonJob_stills (now : Time) (st : Store × ℕ) (j : Job) :
    Stills st.1 (abandonJob now st j).1 := by
  unfold abandonJob
  have h1 : Stills st.1 (st.1.updateCandidates (fun c => c.jobId = j.jobId &&
      c.canonicalId.isNone && !c.status.closed) (Candidate.abandoned now)) :=
    .single (.candidates _ _ _ fun _ => rfl)
  simp only
  split
  · exact h1
  · rename_i hc
    obtain ⟨r,hr,hh⟩ := exists_of_countP_eq_one (not_not.mp hc)
    have h2 := h1.tail (.jobs _ (fun r => r.jobId = j.jobId && r.sessionId = j.sessionId &&
      r.sessionEpoch = j.sessionEpoch && (r.status = .blocked || r.status = .unknown))
      (Job.abandoned (ledgerCounts ((st.1.updateCandidates (fun c => c.jobId = j.jobId &&
        c.canonicalId.isNone && !c.status.closed) (Candidate.abandoned now)).slots j.jobId)) now)
        fun _ => rfl)
    refine h2.tail (.credit _ _ _ ((exists_job_of_sources (Stills.sources h2)).mpr ⟨r,hr,?_⟩))
    simp only [Bool.and_eq_true,decide_eq_true_eq] at hh
    exact hh.1.1.1

lemma confirmAbandonSessionJobs_closing (epoch : ℕ) (now : Time) :
    Closing s (s.confirmAbandonSessionJobs session epoch now).1 := by
  unfold confirmAbandonSessionJobs
  have h := RunLaws.foldl_invariant (P := fun t : Store × ℕ => Stills s t.1)
    (fun t j ht => ht.trans (abandonJob_stills now t j))
    (s := (s,0)) .refl (s.abandonableJobs session epoch)
  simp only
  split
  · exact h.closing
  · exact h.advance _ _ _

end Store

/-- Calls whose effect is not described by a closing sequence of moves. -/
def Op.special : Op → Prop
  | .planAndEnqueueWindows .. | .reconcileStartupCandidates _ => True
  | _ => False

lemma step_closing (env : Env) (s : Store) (c : Call) (h : ¬c.op.special) :
    Closing s (step env s c) := by
  unfold step
  split
  · exact (s.addMessage_stills _ _).closing
  · simp_all [Op.special]
  · exact (s.claimReady_stills _ _ _ _).closing
  · exact (s.beginCandidateIntents_stills _ _ _ _ _).closing
  · exact (s.beginCandidateWrite_stills _ _ _ _ _).closing
  · exact s.commitWindow_closing _ _ _ _ _ _
  · exact s.failWindow_closing _ _ _ _
  · exact (s.renewClaim_stills _ _ _).closing
  · exact s.requeueClaim_closing _ _ _
  · exact s.recoverExpiredClaims_closing _
  · exact s.reconcileWindow_closing _ _ _ _ _ _
  · simp_all [Op.special]
  · exact s.confirmAbandonSessionJobs_closing _ _ _
  · exact (s.cancelSessionJobs_stills _ _ _ _).closing
  · exact (s.resetSessionEpoch_stills _ _ _).closing
  · exact (s.clearSessionAtomically_stills _ _ _).closing
  · exact (s.deleteOldSessions_stills _ _ _ _ _).closing
  · exact (s.trimIfSafe_stills _ _ _ _).closing

end Memora.Summary

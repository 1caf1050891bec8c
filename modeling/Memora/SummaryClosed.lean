import Memora.SummaryBalance

/-! Where the slots of a window are recorded as planned and numbered from zero, a closed
window has a complete ledger that the trim check accepts. -/
namespace Memora.Summary
open RowTable

variable {env : Env} {s : Store} {call : Call} {id : String} {w w' : Window} {c c' : Candidate}
  {rows rows' : List Candidate} {now : Time}

structure Candidate.Shaped (c : Candidate) : Prop where
  committed : c.status = .committed →
    ∃ d, c.disposition = some d ∧ d ≠ .failed ∧ d.ownsId = c.canonicalId.isSome
  failed : c.status = .failed → c.disposition = some .failed ∧ c.canonicalId = none
  undecided : c.status.closed = false → c.disposition = none
  digest : c.contentDigest ≠ ""

structure LedgerShaped (rows : List Candidate) : Prop where
  shaped : ∀ c ∈ rows, c.Shaped
  numbered : (rows.map fun c => c.slot) = List.range rows.length

/-- The call records slots as a worker does: planned, without a verdict, numbered from zero. -/
def Call.plansSlots (call : Call) : Prop :=
  match call.op with
  | .beginCandidateIntents _ intents => intents.map CandidateIntent.slot = List.range intents.length ∧
      ∀ i ∈ intents, i.status = .planned ∧ i.disposition = none
  | _ => True

lemma shaped_of_undecided (hs : c.status.closed = false) (hd : c.disposition = none)
    (hdigest : c.contentDigest ≠ "") : c.Shaped := by
  refine ⟨fun h => ?_,fun h => ?_,fun _ => hd,hdigest⟩
  · exact absurd hs (by simp [h,CandidateLedgerStatus.closed])
  · exact absurd hs (by simp [h,CandidateLedgerStatus.closed])

lemma Candidate.Shaped.doubted (h : c.Shaped) : (c.doubted now).Shaped :=
  shaped_of_undecided rfl rfl h.digest

lemma Candidate.Shaped.doubtOpen (h : c.Shaped) : (c.doubtOpen now).Shaped := by
  unfold Candidate.doubtOpen
  split
  · exact h
  · exact h.doubted

lemma Candidate.Shaped.beginWrite (h : c.Shaped) : (c.beginWrite now).Shaped := by
  by_cases hp : c.status = .planned
  · have hd := h.undecided (by simp [hp,CandidateLedgerStatus.closed])
    exact shaped_of_undecided (by simp [Candidate.beginWrite,hp,CandidateLedgerStatus.closed]) hd h.digest
  · have hsame : (c.beginWrite now).status = c.status := by simp [Candidate.beginWrite,hp]
    refine ⟨fun hs => ?_,fun hs => ?_,fun hs => ?_,h.digest⟩
    · exact h.committed (hsame ▸ hs)
    · exact h.failed (hsame ▸ hs)
    · exact h.undecided (hsame ▸ hs)

lemma Candidate.Shaped.judged (h : c.Shaped) (scan : ScannedJob) (job : JobSource) :
    (c.judged now (scan.verdict job c)).Shaped := by
  have hmerged : ∀ d o, (d = .merged ∨ d = .canonical) → (c.judged now (.commit d (some o))).Shaped := by
    intro d o hd
    refine ⟨fun _ => ⟨d,rfl,?_,?_⟩,fun hs => absurd hs (by simp [Candidate.judged]),
      fun hs => absurd hs (by simp [Candidate.judged,CandidateLedgerStatus.closed]),h.digest⟩
    · rcases hd with rfl | rfl <;> decide
    · rcases hd with rfl | rfl <;> rfl
  have hquarantined : (c.judged now (.commit .quarantined none)).Shaped := by
    refine ⟨fun _ => ⟨.quarantined,rfl,by decide,rfl⟩,
      fun hs => absurd hs (by simp [Candidate.judged]),
      fun hs => absurd hs (by simp [Candidate.judged,CandidateLedgerStatus.closed]),h.digest⟩
  unfold ScannedJob.verdict
  split
  · exact h
  split
  · exact h.doubted
  split
  · exact h.doubted
  split
  · split
    · exact hmerged _ _ (.inl rfl)
    · exact h
  · split
    · exact hmerged _ _ (.inr rfl)
    · exact h
  · split
    · exact hquarantined
    · exact h.doubted
  · exact h.doubted

variable {allowed : Candidate → Bool} {f : Candidate → Candidate} {i : CandidateIntent}

lemma OwnerStep.shaped (h : OwnerStep allowed now c c')
    (hallowed : allowed c = true → c.status ≠ .failed) (hc : c.Shaped) : c'.Shaped := by
  cases h with
  | same => exact hc
  | owned o ha hd howner =>
    refine ⟨fun hs => ?_,fun hs => absurd hs (hallowed ha),hc.undecided,hc.digest⟩
    obtain ⟨d,hdisposition,hne,-⟩ := hc.committed hs
    exact ⟨d,hdisposition,hne,hd d hdisposition⟩

lemma Candidate.Shaped.abandoned (h : c.Shaped) : (c.abandoned now).Shaped :=
  ⟨fun hs => absurd hs (by simp [Candidate.abandoned]),fun _ => ⟨rfl,rfl⟩,
    fun hs => absurd hs (by simp [Candidate.abandoned,CandidateLedgerStatus.closed]),h.digest⟩

lemma Candidate.Shaped.settled (h : c.Shaped) (hi : i.Closed)
    (hmatch : Matched c i) : (c.settled i now).Shaped := by
  have howner : i.canonicalId = none → c.canonicalId = none := by
    intro hnone
    by_contra hsome
    have hrecorded := hmatch.recorded (Option.isSome_iff_ne_none.mpr hsome)
    exact hsome (hrecorded.trans hnone)
  have hown := hmatch.owner
  cases hi with
  | unknown hs hd =>
    exact shaped_of_undecided (by simp [Candidate.settled,hs,CandidateLedgerStatus.closed]) hd h.digest
  | failed hs hd =>
    have hnone : i.canonicalId = none := by
      rw [hd] at hown
      simpa [CandidateDisposition.ownsId] using hown.symm
    refine ⟨fun hc => absurd hc (by simp [Candidate.settled,hs]),fun _ => ⟨hd,?_⟩,
      fun hc => absurd hc (by simp [Candidate.settled,hs,CandidateLedgerStatus.closed]),h.digest⟩
    simp [Candidate.settled,hnone,howner hnone]
  | committed d hs hd hne =>
    refine ⟨fun _ => ⟨d,hd,hne,?_⟩,fun hc => absurd hc (by simp [Candidate.settled,hs]),
      fun hc => absurd hc (by simp [Candidate.settled,hs,CandidateLedgerStatus.closed]),h.digest⟩
    rw [hd] at hown
    cases hid : i.canonicalId with
    | none => simpa [Candidate.settled,hid,howner hid] using hown
    | some o => simpa [Candidate.settled,hid] using hown

lemma LedgerShaped.map (h : LedgerShaped rows)
    (hslot : ∀ c, (f c).slot = c.slot) (hf : ∀ c ∈ rows, c.Shaped → (f c).Shaped) :
    LedgerShaped (rows.map f) := by
  constructor
  · intro c' hc'
    obtain ⟨c,hc,rfl⟩ := List.mem_map.mp hc'
    exact hf c hc (h.shaped c hc)
  · have hsame : (rows.map f).map (fun c => c.slot) = rows.map fun c => c.slot := by
      simp [hslot]
    rw [hsame,h.numbered,List.length_map]

lemma LedgerShaped.modify (h : LedgerShaped rows) {p : Candidate → Bool}
    (hslot : ∀ c, (f c).slot = c.slot)
    (hf : ∀ c, c.Shaped → (f c).Shaped) : LedgerShaped (modify p f rows) := by
  refine h.map (f := fun c => if p c then f c else c) ?_ ?_
  · intro c
    split
    · exact hslot c
    · rfl
  · intro c _ hc
    split
    · exact hf c hc
    · exact hc

lemma OwnersRecorded.shaped (hrows : OwnersRecorded allowed now rows rows')
    (hallowed : ∀ c, allowed c = true → c.status ≠ .failed) (h : ∀ c ∈ rows, c.Shaped) :
    ∀ c ∈ rows', c.Shaped := by
  induction hrows with
  | nil => simp
  | cons hstep _ ih =>
    rw [List.forall_mem_cons] at h ⊢
    exact ⟨hstep.shaped (hallowed _) h.1,ih h.2⟩

lemma LedgerShaped.owners (h : LedgerShaped rows) (hrows : OwnersRecorded allowed now rows rows')
    (hallowed : ∀ c, allowed c = true → c.status ≠ .failed) : LedgerShaped rows' := by
  refine ⟨hrows.shaped hallowed h.shaped,?_⟩
  rw [hrows.kept.slots,h.numbered,hrows.length_eq]

lemma recordable_not_failed (c : Candidate) (h : c.recordable = true) : c.status ≠ .failed := by
  simp only [Candidate.recordable,Bool.and_eq_true,decide_eq_true_eq] at h
  exact h.1

lemma ownedSlot_not_failed (c : Candidate) (h : c.ownedSlot = true) : c.status ≠ .failed := by
  simp only [Candidate.ownedSlot,Bool.and_eq_true,decide_eq_true_eq] at h
  simp [h.1]

lemma LedgerShaped.judged (h : LedgerShaped rows) (scan : ScannedJob) (job : JobSource) :
    LedgerShaped (rows.map fun c => c.judged now (scan.verdict job c)) := by
  refine h.map (fun c => ?_) fun c _ hc => hc.judged scan job
  cases scan.verdict job c <;> rfl

lemma LedgerShaped.doubtOpen (h : LedgerShaped rows) :
    LedgerShaped (rows.map (Candidate.doubtOpen now)) := by
  refine h.map (fun c => ?_) fun c _ hc => hc.doubtOpen
  unfold Candidate.doubtOpen
  split <;> rfl

lemma digest_ne : i.contentDigest ≠ "" := by
  have h := i.digest_text
  simp only [isRequiredText,Bool.and_eq_true,decide_eq_true_eq] at h
  exact h.2

lemma ledgerShaped_recorded (claim : ClaimedJob) {intents : List CandidateIntent}
    (hnumbered : intents.map CandidateIntent.slot = List.range intents.length)
    (hplanned : ∀ i ∈ intents, i.status = .planned ∧ i.disposition = none) :
    LedgerShaped (intents.map (claim.row env now)) := by
  constructor
  · intro c hc
    obtain ⟨i,hi,rfl⟩ := List.mem_map.mp hc
    obtain ⟨hstatus,hdisposition⟩ := hplanned i hi
    exact shaped_of_undecided (by simp [ClaimedJob.row,hstatus,CandidateLedgerStatus.closed])
      hdisposition digest_ne
  · rw [List.map_map,List.length_map,← hnumbered]
    rfl

lemma Life.ledgerShaped (hk : Keyed s) (hw : s.window? w.job.jobId = some w)
    (hcall : call.plansSlots) (h : Life env s call w w') (hs : LedgerShaped w.slots) :
    LedgerShaped w'.slots := by
  cases h with
  | recorded claim intents hop =>
    unfold Call.plansSlots at hcall
    rw [hop] at hcall
    exact ledgerShaped_recorded claim hcall.1 hcall.2
  | writing => exact hs.modify (fun _ => rfl) fun _ hc => hc.beginWrite
  | committed claim o status reason nextAt hop hholds hvalid hverdict hacc =>
    have hw : s.window? claim.job.jobId = some w := by
      rw [holds_jobId hholds]
      exact hw
    have hvalid := WindowOutcome.valid hvalid
    refine hs.map (fun c => ?_) fun c hc hshape => ?_
    · unfold Candidate.settledBy
      split <;> rfl
    · obtain ⟨i,hi,hmatch,hfound⟩ := commitAccepted_row hk hw hacc hc
      rw [settledBy_disposition _ call.now hfound]
      exact hshape.settled (hvalid.closed i hi) hmatch
  | rejected => exact hs.doubtOpen
  | owned claim mapping hop hholds slots hrows | reconciled claim mapping hop hholds slots hrows =>
    exact hs.owners hrows recordable_not_failed
  | doubted claim mapping reason exceptionType hop hholds hmatch slots hrows =>
    exact (hs.owners hrows recordable_not_failed).doubtOpen
  | confirmed claim mapping hop hdone slots hrows => exact hs.owners hrows ownedSlot_not_failed
  | degraded claim mapping hop hdone slots hrows =>
    exact (hs.owners hrows ownedSlot_not_failed).doubtOpen
  | fenced => exact hs.modify (fun _ => rfl) fun _ hc => hc.doubted
  | unresolved | judged => exact hs.judged _ _
  | resolved snapshot scan hop hscan hid hcur hsame hne slots hslots =>
    subst hslots
    exact hs.judged _ _
  | abandoned => exact hs.modify (fun _ => rfl) fun _ hc => hc.abandoned
  | _ => exact hs

lemma ledgerShaped_run (env : Env) {calls : List Call} (hcalls : ∀ call ∈ calls, call.plansSlots) :
    ∀ id w, (run env Store.empty calls).window? id = some w → LedgerShaped w.slots :=
  windows_along (P := fun w => LedgerShaped w.slots) (fun w hw => by
      rw [hw.slots]
      exact ⟨by simp,rfl⟩)
    (fun _ call _ _ hk (hcall : call.plansSlots) hw h hs => h.ledgerShaped hk hw hcall hs)
    Keyed.empty (by simp [Store.window?,Store.job?,Store.empty])
    (RunLaws.along_of_mem (fun _ => hcalls) _)

theorem total_ledgerCounts (h : ∀ c ∈ rows, c.disposition.isSome = true) :
    Counts.total (ledgerCounts rows) = rows.length := by
  induction rows with
  | nil => rfl
  | cons c rows ih =>
    rw [List.forall_mem_cons] at h
    have ih := ih h.2
    obtain ⟨d,hd⟩ := Option.isSome_iff_exists.mp h.1
    simp only [Counts.total,ledgerCounts,List.countP_cons,List.length_cons,hd] at ih ⊢
    cases d <;> simp <;> omega

structure Candidate.Final (c : Candidate) : Prop where
  closed : c.status.closed = true
  digest : c.contentDigest ≠ ""
  owner : ∃ d, c.disposition = some d ∧ d.ownsId = c.canonicalId.isSome
  fits : c.malformed = false

lemma Candidate.Shaped.final (h : c.Shaped) (hclosed : c.status.closed = true) : c.Final := by
  have hstatus : c.status = .committed ∨ c.status = .failed := by
    cases hs : c.status <;> simp [hs,CandidateLedgerStatus.closed] at hclosed <;> simp
  rcases hstatus with hs | hs
  · obtain ⟨d,hd,hne,howner⟩ := h.committed hs
    refine ⟨hclosed,h.digest,⟨d,hd,howner⟩,?_⟩
    cases d <;> simp_all [Candidate.malformed,CandidateDisposition.ownsId, CandidateLedgerStatus.closed]
  · obtain ⟨hd,howner⟩ := h.failed hs
    refine ⟨hclosed,h.digest,⟨.failed,hd,by rw [howner]; rfl⟩,?_⟩
    simp [Candidate.malformed,hd,hs,CandidateLedgerStatus.closed]

/-- Where the slots are recorded as workers do, a closed window has one slot for each number
from zero on, every slot final, and the counts of its ledger. The trim check accepts it. -/
theorem closed_ledgers_final (env : Env) (calls : List Call)
    (hcalls : ∀ call ∈ calls, call.plansSlots) :
    ∀ j ∈ (run env Store.empty calls).jobs, j.status.terminal = true →
      let rows := (run env Store.empty calls).slots j.jobId
      (rows.map fun c => c.slot) = List.range rows.length ∧ (∀ c ∈ rows, c.Final) ∧
        ledgerCounts rows = j.counts ∧ terminalLedgerMatchesJob j rows = true ∧
        openSlotBlocks j rows = false ∧ malformedBlocks j rows = false ∧
        missingBlocks j rows = false ∧ countBlocks j rows = false := by
  intro j hj ht
  have hw : (run env Store.empty calls).window? j.jobId = some ⟨j,(run env Store.empty calls).slots j.jobId,
        (run env Store.empty calls).credited j.jobId⟩ := by
    rw [Store.window?,Store.job?_of_mem (Keyed.empty.run env calls) hj]
    rfl
  have hshaped := ledgerShaped_run env hcalls _ _ hw
  have hsettled := settled_run env calls _ _ hw ht
  have hcounts := hsettled.counts
  have hfinal : ∀ c ∈ (run env Store.empty calls).slots j.jobId, c.Final :=
    fun c hc => (hshaped.shaped c hc).final (hsettled.closed c hc)
  have hdisposition : ∀ c ∈ (run env Store.empty calls).slots j.jobId, c.disposition.isSome = true := by
    intro c hc
    obtain ⟨d,hd,-⟩ := (hfinal c hc).owner
    rw [hd]
    rfl
  have htotal := total_ledgerCounts hdisposition
  dsimp only at hcounts
  rw [hcounts] at htotal
  refine ⟨hshaped.numbered,hfinal,hcounts,?_,?_,?_,?_,?_⟩
  · simp only [terminalLedgerMatchesJob,Bool.and_eq_true,List.all_eq_true,decide_eq_true_eq]
    exact ⟨⟨hdisposition,htotal.symm⟩,fun d => congrFun hcounts d⟩
  · simp [openSlotBlocks,ht]
  · have hnone : ((run env Store.empty calls).slots j.jobId).any Candidate.malformed = false :=
      List.any_eq_false.mpr fun c hc => by simp [(hfinal c hc).fits]
    simp [malformedBlocks,hnone]
  · cases hrows : (run env Store.empty calls).slots j.jobId with
    | nil =>
      rw [hrows] at htotal
      simp [missingBlocks,htotal]
    | cons c rows => simp [missingBlocks]
  · simp [countBlocks,htotal,hcounts]

def quarantinedSlot (slot : ℕ) : WindowOutcome where
  canAdvance := true
  counts := fun d => if d = .quarantined then 1 else 0
  candidateSlots := [settledIntent slot (some .quarantined) .committed]
  slots_nodup := by simp
  no_facts := by simp

/-- A window whose only slot has this number. -/
def quarantinedCalls (slot : ℕ) : List Call :=
  heldCalls++[(Op.beginCandidateIntents heldClaim [plannedIntent slot]).at 4,
    (Op.commitWindow heldClaim (quarantinedSlot slot)).at 5]

/-- A committed slot without an owner, and a window whose slots do not begin at zero. -/
theorem closed_ledgers_unowned :
    (∃ j ∈ (run sampleEnv Store.empty (quarantinedCalls 0)).jobs, j.status = .completed ∧
      ∃ c ∈ (run sampleEnv Store.empty (quarantinedCalls 0)).slots j.jobId,
        c.status = .committed ∧ c.canonicalId = none) ∧
    ∃ j ∈ (run sampleEnv Store.empty (quarantinedCalls 5)).jobs, j.status = .completed ∧
      ((run sampleEnv Store.empty (quarantinedCalls 5)).slots j.jobId).map (fun c => c.slot) = [5] := by
  decide +kernel

theorem closed_ledgers_final_sample :
    ∃ j ∈ (run sampleEnv Store.empty (quarantinedCalls 0)).jobs, j.status = .completed ∧
      (run sampleEnv Store.empty (quarantinedCalls 0)).slots j.jobId ≠ [] ∧ terminalLedgerMatchesJob j
        ((run sampleEnv Store.empty (quarantinedCalls 0)).slots j.jobId) = true := by
  have hcalls : ∀ call ∈ quarantinedCalls 0, call.plansSlots := by
    intro call hcall
    simp only [quarantinedCalls,heldCalls,plannedCalls,List.cons_append,List.nil_append,
      List.mem_cons,List.not_mem_nil,or_false] at hcall
    rcases hcall with rfl | rfl | rfl | rfl | rfl | rfl
    all_goals first
      | exact trivial
      | exact ⟨rfl,by simp [plannedIntent]⟩
  obtain ⟨j,hj,hs,hne⟩ : ∃ j ∈ (run sampleEnv Store.empty (quarantinedCalls 0)).jobs,
      j.status = .completed ∧ (run sampleEnv Store.empty (quarantinedCalls 0)).slots j.jobId ≠ [] := by
    decide +kernel
  have ht : j.status.terminal = true := by rw [hs]; rfl
  have hfinal := closed_ledgers_final sampleEnv (quarantinedCalls 0) hcalls j hj ht
  exact ⟨j,hj,hs,hne,hfinal.2.2.2.1⟩

end Memora.Summary

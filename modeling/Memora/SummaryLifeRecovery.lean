import Memora.SummaryLife

/-! Reconciliation, the start-up pass, abandonment and the fences. -/
namespace Memora.Summary
open RowTable

variable {allowed : Candidate → Bool} {now : Time} {rows : List Candidate}

lemma OwnerStep.trans {a b c : Candidate} (h : OwnerStep allowed now a b)
    (h' : OwnerStep allowed now b c) :
    OwnerStep allowed now a c := by
  cases h with
  | same => exact h'
  | owned o ha hd hc =>
    cases h' with
    | same => exact .owned a o ha hd hc
    | owned o' _ _ hc' =>
      obtain rfl : o = o' := by simpa [Candidate.owned] using hc'
      exact .owned a o ha hd hc

lemma OwnerStep.kept {a b : Candidate} (h : OwnerStep allowed now a b) :
    b.toSlotSource = a.toSlotSource ∧ b.disposition = a.disposition ∧ b.status = a.status ∧
      (a.canonicalId.isSome = true → b.canonicalId = a.canonicalId) := by
  cases h with
  | same => simp
  | owned o ha hd hc =>
    refine ⟨rfl,rfl,rfl,?_⟩
    intro hs
    obtain ⟨i,hi⟩ := Option.isSome_iff_exists.mp hs
    simp_all [Candidate.owned]

lemma OwnersRecorded.refl (allowed : Candidate → Bool) (now : Time) (rows : List Candidate) :
    OwnersRecorded allowed now rows rows :=
  List.forall₂_same.mpr fun c _ => .same c

lemma OwnersRecorded.trans {rows₁ rows₂ rows₃ : List Candidate}
    (h : OwnersRecorded allowed now rows₁ rows₂) (h' : OwnersRecorded allowed now rows₂ rows₃) :
    OwnersRecorded allowed now rows₁ rows₃ := by
  induction h generalizing rows₃ with
  | nil => exact h'
  | cons hc _ ih =>
    cases h' with
    | cons hc' h' => exact .cons (hc.trans hc') (ih h')

lemma OwnersRecorded.modify {p : Candidate → Bool} {o : ℕ}
    (h : ∀ c ∈ rows, p c = true → allowed c = true ∧ (∀ d ∈ c.disposition, d.ownsId = true) ∧ c.canonicalId.all (· = o) = true) :
    OwnersRecorded allowed now rows (modify p (Candidate.owned o now) rows) := by
  refine List.forall₂_map_right_iff.mpr (List.forall₂_same.mpr fun c hc => ?_)
  split
  · obtain ⟨ha,hd,hi⟩ := h c hc ‹_›
    exact .owned c o ha hd hi
  · exact .same c

variable {env : Env} {s t : Store} {call : Call} {id : String} {w : Window} {P : Window → Prop}
  {c : SummaryWindowContext} {observedEnd : ℤ}

namespace Store

variable {claim : ClaimedJob} {owners : List (ℕ × ℕ)}

lemma recordOwners_other (hne : claim.job.jobId ≠ id) (now : Time) (allowed : Candidate → Bool)
    (held : Job → Bool) (owners : List (ℕ × ℕ)) (t : Store) :
    (recordOwners claim now allowed held owners t).1.window? id = t.window? id := by
  induction owners generalizing t with
  | nil => rfl
  | cons e owners ih =>
    unfold recordOwners
    simp only
    split
    · rfl
    · refine (ih _).trans (window?_updateCandidates_of_ne t (by intro c; rfl) ?_)
      intro c hc
      simp [hc,hne.symm]

theorem recordOwners_window (now : Time) (allowed : Candidate → Bool) (held : Job → Bool)
    (hd : ∀ e ∈ owners, ∀ c ∈ w.slots, c.slot = e.1 → ∀ d ∈ c.disposition, d.ownsId = true)
    (ht : t.window? claim.job.jobId = some w) :
    ∃ slots, OwnersRecorded allowed now w.slots slots ∧
      (recordOwners claim now allowed held owners t).1.window? claim.job.jobId =
        some { w with slots := slots } := by
  induction owners generalizing t w with
  | nil => exact ⟨w.slots,.refl _ _ _,ht⟩
  | cons e owners ih =>
    unfold recordOwners
    simp only
    split
    · exact ⟨w.slots,.refl _ _ _,ht⟩
    set p := fun c : Candidate => c.jobId = claim.job.jobId && c.slot = e.1 && allowed c &&
      c.canonicalId.all (· = e.2) && t.jobs.any held with hp
    have hrec : OwnersRecorded allowed now w.slots (modify p (Candidate.owned e.2 now) w.slots) := by
      refine .modify fun c hc hpc => ?_
      simp only [hp,Bool.and_eq_true,decide_eq_true_eq] at hpc
      exact ⟨hpc.1.1.2,hd e (by simp) c hc hpc.1.1.1.2,hpc.1.2⟩
    have ht' : (t.updateCandidates p (Candidate.owned e.2 now)).window? claim.job.jobId =
        some { w with slots := modify p (Candidate.owned e.2 now) w.slots } := by
      rw [window?_updateCandidates t (by intro c; rfl),ht]
      rfl
    have hd' : ∀ x ∈ owners, ∀ c ∈ modify p (Candidate.owned e.2 now) w.slots, c.slot = x.1 →
        ∀ d ∈ c.disposition, d.ownsId = true := by
      intro x hx c hc hcx
      obtain ⟨c₀,hc₀,hs⟩ := ListLaws.forall₂_right hrec hc
      obtain ⟨h1,h2,-⟩ := hs.kept
      have h1 : c.slot = c₀.slot := congrArg SlotSource.slot h1
      rw [h2]
      exact hd x (by simp [hx]) c₀ hc₀ (h1.symm.trans hcx)
    obtain ⟨slots,hrec',hwin⟩ := ih hd' ht'
    exact ⟨slots,hrec.trans hrec',hwin⟩

lemma mem_orderedSlots {c : Candidate} : c ∈ s.orderedSlots id ↔ c ∈ s.slots id := by
  simp [orderedSlots]

variable {mapping : List (RawSlot × RawId)}

lemma reconcileMapping_owns {terminal : Bool}
    (h : reconcileMapping env claim rows mapping terminal = some owners) :
    ∀ e ∈ owners, ∀ c ∈ rows, c.slot = e.1 → ∀ d ∈ c.disposition, d.ownsId = true := by
  obtain ⟨normalized,_,h⟩ := Option.bind_eq_some_iff.mp h
  split at h
  · rename_i hacc
    obtain rfl := Option.some.inj h
    intro e he c hc hce d hd
    simp only [Bool.and_eq_true,List.all_eq_true] at hacc
    have hrow := hacc.1 c hc
    have hlook : (normalized.lookup c.slot).isSome = true := by
      rw [hce]
      exact List.lookup_isSome_iff.mpr ⟨e,he,by simp⟩
    have hres : (resolvedOwner normalized c).isSome = true := by
      unfold resolvedOwner
      cases c.canonicalId <;> simp [hlook]
    have hdis : c.disposition = some d := hd
    simp only [rowAccepted,hdis,hres,Bool.and_eq_true,decide_eq_true_eq] at hrow
    exact hrow.2.1
  · cases h

lemma markUnknownCompleted_window (base : Store) (hk : Keyed t) (claim : ClaimedJob) (now : Time) :
    (markUnknownCompleted base t claim now).1 = base ∨ (∀ id, claim.job.jobId ≠ id →
        (markUnknownCompleted base t claim now).1.window? id = t.window? id) ∧
      ∀ w, t.window? claim.job.jobId = some w → w.job.status = .completed ∧
        (markUnknownCompleted base t claim now).1.window? claim.job.jobId = some { w with
          job := w.job.degraded now
          slots := w.slots.map (Candidate.doubtOpen now) } := by
  unfold markUnknownCompleted
  simp only
  split
  · exact .inl rfl
  rename_i hc
  have hp : ∀ j : Job, (claim.completes j && t.isCurrent claim.job.sessionId claim.job.sessionEpoch) = true →
      j.jobId = claim.job.jobId ∧ j.status = .completed := by
    intro j hj
    simp only [ClaimedJob.completes,Bool.and_eq_true,decide_eq_true_eq] at hj
    exact ⟨hj.1.1.1.1.1,hj.1.1.2⟩
  refine .inr ⟨?_,?_⟩
  · intro id hne
    refine (window?_updateJobs_of_ne _ (by intro j; rfl) ?_).trans (window?_doubtSlots_of_ne t hne now)
    intro j hj
    by_contra hh
    exact hne ((hp j (by simpa using hh)).1.symm.trans hj)
  · intro w hw
    have hh := (countP_job hk hw fun j hj => (hp j hj).1).mp (not_not.mp hc)
    refine ⟨(hp _ hh).2,?_⟩
    rw [window?_updateJobs _ (by intro j; rfl),window?_doubtSlots hw]
    simp only [Option.map_some,hh,if_true]

lemma degraded_lives (hkt : Keyed t) (hw : s.window? id = some w)
    (hop : call.op = .reconcileWindow claim mapping)
    (hother : ∀ id, claim.job.jobId ≠ id → t.window? id = s.window? id)
    (hown : claim.job.jobId = id → ∃ slots, t.window? id = some { w with slots := slots } ∧ OwnersRecorded Candidate.ownedSlot call.now w.slots slots) :
    Lives env s call id w (markUnknownCompleted s t claim call.now).1 := by
  rcases markUnknownCompleted_window s hkt claim call.now with h | ⟨hoth,hdoubt⟩
  · rw [h]
    exact .stay hw
  by_cases hid : claim.job.jobId = id
  · subst hid
    obtain ⟨slots,ht,hrows⟩ := hown rfl
    obtain ⟨hdone,hw'⟩ := hdoubt _ ht
    exact ⟨_,hw',.degraded (w := w) claim mapping hop hdone slots hrows⟩
  · exact .of_eq hw ((hoth id hid).trans (hother id hid))

lemma reconcileCompleted_lives (hk : Keyed s) (hw : s.window? id = some w)
    (hop : call.op = .reconcileWindow claim mapping) (job : Job)
    (hdone : claim.job.jobId = id → w.job.status = .completed) :
    Lives env s call id w (s.reconcileCompleted env claim job mapping call.now).1 := by
  have hdeg : Lives env s call id w (s.markUnknownCompleted s claim call.now).1 :=
    degraded_lives hk hw hop (fun _ _ => rfl) fun _ => ⟨w.slots,hw,.refl _ _ _⟩
  unfold reconcileCompleted
  simp only
  split
  · split
    · exact .stay hw
    · exact hdeg
  split
  · exact hdeg
  split
  · exact hdeg
  rename_i owners hmap
  have hother := fun id (hne : claim.job.jobId ≠ id) =>
    recordOwners_other hne call.now Candidate.ownedSlot claim.completes owners s
  have hown : claim.job.jobId = id → ∃ slots,
      (recordOwners claim call.now Candidate.ownedSlot claim.completes owners s).1.window? id =
        some { w with slots := slots } ∧
      OwnersRecorded Candidate.ownedSlot call.now w.slots slots := by
    rintro rfl
    obtain ⟨slots,hrows,ht⟩ := recordOwners_window call.now Candidate.ownedSlot claim.completes
      (fun e he c hc => reconcileMapping_owns hmap e he c (mem_orderedSlots.mpr (window?_slots hw ▸ hc))) hw
    exact ⟨slots,ht,hrows⟩
  split
  · by_cases hid : claim.job.jobId = id
    · obtain ⟨slots,ht,hrows⟩ := hown hid
      exact ⟨_,ht,.confirmed claim mapping hop (hdone hid) slots hrows⟩
    · exact .of_eq hw (hother id hid)
  · exact degraded_lives (hk.moves (Stills.moves (recordOwners_stills _ _ _ _ _ _))) hw hop hother hown

variable {reason : SummaryReasonCode} {k : String} {f : Candidate → Candidate}

lemma doubted_lives (hkt : Keyed t) (hw : s.window? id = some w)
    (hop : call.op = .reconcileWindow claim mapping)
    (hmatch : s.claimMatches claim call.clock = true)
    (hother : ∀ id, claim.job.jobId ≠ id → t.window? id = s.window? id)
    (hown : claim.job.jobId = id → ∃ slots, t.window? id = some { w with slots := slots } ∧ OwnersRecorded Candidate.recordable call.now w.slots slots ∧ reconcileDoubted env s claim mapping call.now slots)
    (hstor : reason.storable = true) (exceptionType : Option String) (recheck : Time) :
    Lives env s call id w (markUnknownClaim s t claim call.now recheck reason exceptionType).1 := by
  rcases markUnknownClaim_window s hkt claim call.now recheck reason exceptionType with
    h | ⟨hoth,hdoubt⟩
  · rw [h]
    exact .stay hw
  by_cases hid : claim.job.jobId = id
  · subst hid
    obtain ⟨slots,ht,hrows,hbad⟩ := hown rfl
    obtain ⟨hh,hw'⟩ := hdoubt _ ht
    exact ⟨_,hw',.doubted (w := w) claim mapping reason exceptionType hop hh hmatch slots hrows hbad hstor⟩
  · exact .of_eq hw ((hoth id hid).trans (hother id hid))

lemma reconcileRunning_lives (hk : Keyed s) (hw : s.window? id = some w)
    (hop : call.op = .reconcileWindow claim mapping)
    (hmatch : s.claimMatches claim call.clock = true) {job : Job}
    (hjob : claim.job.jobId = id → job = w.job) : Lives env s call id w
      (s.reconcileRunning env claim job mapping call.now call.recheck).1 := by
  unfold reconcileRunning
  simp only
  split
  · rename_i hmap
    exact doubted_lives hk hw hop hmatch (fun _ _ => rfl) (fun _ => ⟨w.slots,hw,.refl _ _ _,.inl hmap⟩) rfl _ _
  rename_i owners hmap
  set r := recordOwners claim call.now Candidate.recordable claim.holds owners s with hr
  have hkr : Keyed r.1 := hk.moves (Stills.moves (recordOwners_stills _ _ _ _ _ _))
  have hother : ∀ id, claim.job.jobId ≠ id → r.1.window? id = s.window? id := fun id hne =>
    recordOwners_other hne call.now Candidate.recordable claim.holds owners s
  have hown : claim.job.jobId = id → ∃ slots, r.1.window? id = some { w with slots := slots } ∧
      OwnersRecorded Candidate.recordable call.now w.slots slots := by
    rintro rfl
    obtain ⟨slots,hrows,ht⟩ := recordOwners_window call.now Candidate.recordable claim.holds
      (fun e he c hc => reconcileMapping_owns hmap e he c (mem_orderedSlots.mpr (window?_slots hw ▸ hc))) hw
    exact ⟨slots,ht,hrows⟩
  split
  · rename_i hfail
    refine doubted_lives hkr hw hop hmatch hother (fun hid => ?_) rfl _ _
    obtain ⟨slots,ht,hrows⟩ := hown hid
    exact ⟨slots,ht,hrows,.inr (.inl ⟨owners,hmap,by simpa [hr] using hfail⟩)⟩
  split
  · by_cases hid : claim.job.jobId = id
    · subst hid
      obtain ⟨slots,ht,hrows⟩ := hown rfl
      exact ⟨_,ht,.owned claim mapping hop (claimMatches_holds hk hw hmatch) slots hrows⟩
    · exact .of_eq hw (hother id hid)
  rename_i hopen
  simp only [Bool.or_eq_true,not_or,List.any_eq_true,not_exists,not_and,
    Bool.not_eq_true',Bool.not_eq_false,Option.isNone_iff_eq_none] at hopen
  split
  · refine doubted_lives hkr hw hop hmatch hother (fun hid => ?_) rfl _ _
    obtain ⟨slots,ht,hrows⟩ := hown hid
    subst hid
    rw [window?_slots ht] at hopen
    exact ⟨slots,ht,hrows,.inr (.inr fun c hc => (hopen.2 c hc).1)⟩
  rename_i hfailed
  split
  · exact .stay hw
  rename_i hc
  by_cases hid : claim.job.jobId = id
  · subst hid
    obtain ⟨slots,ht,hrows⟩ := hown rfl
    obtain rfl := hjob rfl
    rw [window?_slots ht] at hopen hfailed ⊢
    have hh := holds_of_countP hkr ht (not_not.mp hc)
    refine ⟨_,?_,.reconciled (w := w) claim mapping hop hh slots hrows ?_ (not_not.mp hfailed)⟩
    · rw [window?_advanceCursor,window?_addCounters,window?_updateHeld ht hh (by intro j; rfl)]
      simp
    · intro c hc
      exact ⟨(hopen.2 c hc).1,Option.isSome_iff_ne_none.mpr (hopen.2 c hc).2⟩
  · refine .of_eq hw ?_
    rw [window?_advanceCursor,window?_addCounters_of_ne _ _ hid,
      window?_updateHeld_of_ne _ hid (by intro j; rfl)]
    exact hother id hid

lemma reconcileWindow_lives (hk : Keyed s) (hw : s.window? id = some w)
    (hop : call.op = .reconcileWindow claim mapping) : Lives env s call id w
      (s.reconcileWindow env claim mapping call.now call.clock call.recheck).1 := by
  unfold reconcileWindow
  simp only
  split
  · exact .stay hw
  rename_i job hfound
  have hjob : claim.job.jobId = id → job = w.job := by
    rintro rfl
    have hf := List.find?_some hfound
    simp only [Bool.and_eq_true,decide_eq_true_eq] at hf
    exact eq_job_of_mem hk hw (List.mem_of_find?_eq_some hfound) hf.1.1.1
  split
  · exact .stay hw
  split
  · exact .stay hw
  split
  · rename_i hdone
    exact reconcileCompleted_lives hk hw hop job fun hid => hjob hid ▸ hdone
  · exact .stay hw
  · split
    · exact reconcileRunning_lives hk hw hop ‹_› hjob
    · exact .stay hw
  · exact .stay hw

lemma window?_updateLedger (ht : t.window? id = some w) (q : Candidate → Bool)
    (hf : ∀ c, (f c).jobId = c.jobId) : (t.updateCandidates (fun c => c.jobId = id && q c) f).window? id =
      some { w with slots := modify q f w.slots } := by
  rw [window?_updateCandidates t hf,ht]
  simp only [Option.map_some,Option.some.injEq,Window.mk.injEq,true_and,and_true]
  refine modify_congr fun c hc => ?_
  have hcid : c.jobId = id := slots_jobId (window?_slots ht ▸ hc)
  simp [hcid]

lemma window?_updateLedger_of_ne (t : Store) (hne : k ≠ id) (q : Candidate → Bool)
    (hf : ∀ c, (f c).jobId = c.jobId) :
    (t.updateCandidates (fun c => c.jobId = k && q c) f).window? id = t.window? id := by
  refine window?_updateCandidates_of_ne t hf ?_
  intro c hc
  simp [hc,hne.symm]

lemma window?_updateJob (ht : t.window? id = some w) {f : Job → Job}
    (hf : ∀ j, (f j).jobId = j.jobId) :
    (t.updateJobs (fun j => j.jobId = id) f).window? id = some { w with job := f w.job } := by
  rw [window?_updateJobs t hf,ht]
  simp [window?_jobId ht]

lemma window?_updateJob_of_ne (t : Store) (hne : k ≠ id) {f : Job → Job}
    (hf : ∀ j, (f j).jobId = j.jobId) : (t.updateJobs (fun j => j.jobId = k) f).window? id =
    t.window? id := by
  refine window?_updateJobs_of_ne t hf ?_
  intro j hj
  simp [hj,hne.symm]

lemma judged_jobId (now : Time) (v : SlotVerdict) (c : Candidate) :
    (c.judged now v).jobId = c.jobId := by
  cases v <;> rfl

variable {scan : ScannedJob} {st st' : Store × ℕ}

lemma window?_judgeSlots (ht : t.window? scan.jobId = some w) (job : Job) (now : Time) :
    (t.judgeSlots scan job now).window? scan.jobId = some { w with
      slots := w.slots.map fun c => c.judged now (scan.verdict job.toJobSource c) } := by
  have h := window?_updateLedger ht (fun _ => true)
    (f := fun c => c.judged now (scan.verdict job.toJobSource c)) fun c => judged_jobId _ _ c
  simpa [judgeSlots,RowTable.modify] using h

lemma window?_judgeSlots_of_ne (t : Store) (hne : scan.jobId ≠ id) (job : Job) (now : Time) :
    (t.judgeSlots scan job now).window? id = t.window? id := by
  refine window?_updateCandidates_of_ne t (fun c => judged_jobId _ _ c) ?_
  intro c hc
  simp [hc,hne.symm]

lemma startupFence_window? (ht : t.window? k = some w)
    (reason : SummaryReasonCode) (now : Time) :
    (t.startupFence k reason now).window? k = some { w with
      job := w.job.startupUnknown reason (reconcileExceptionType w.job.exceptionType none) now
      slots := modify (fun c => c.status.inDoubt) (Candidate.doubted now) w.slots } :=
  window?_updateJob (window?_updateLedger ht _ (by intro c; rfl)) (by intro j; rfl)

lemma startupFence_window?_of_ne (t : Store) (hne : k ≠ id)
    (reason : SummaryReasonCode) (now : Time) :
    (t.startupFence k reason now).window? id = t.window? id :=
  (window?_updateJob_of_ne _ hne (by intro j; rfl)).trans
  (window?_updateLedger_of_ne t hne _ (by intro c; rfl))

lemma startupUnresolved_window? (ht : t.window? scan.jobId = some w) (now : Time) :
    (t.startupUnresolved scan now).window? scan.jobId = some { w with
      job := w.job.startupUnknown .ledgerUnresolved
        (reconcileExceptionType w.job.exceptionType scan.evidenceError) now } :=
  window?_updateJob ht (by intro j; rfl)

lemma startupUnresolved_window?_of_ne (t : Store) (hne : scan.jobId ≠ id) (now : Time) :
    (t.startupUnresolved scan now).window? id = t.window? id :=
  window?_updateJob_of_ne t hne (by intro j; rfl)

lemma startupJob_other {now : Time} (hne : scan.jobId ≠ id)
    (h : startupJob now st scan = some st') : st'.1.window? id = st.1.window? id := by
  obtain ⟨s,touched⟩ := st
  simp only [startupJob] at h
  split at h
  · rw [← Option.some.inj h]
  rename_i job hjob
  have h1 := window?_judgeSlots_of_ne s hne job now
  split at h
  · rw [← Option.some.inj h]
    exact startupFence_window?_of_ne s hne _ now
  split at h
  · rw [← Option.some.inj h]
    exact startupFence_window?_of_ne s hne _ now
  split at h
  · split at h
    · rw [← Option.some.inj h]
      exact startupUnresolved_window?_of_ne s hne now
    · rw [← Option.some.inj h]
  split at h
  · cases h
  split at h
  · rw [← Option.some.inj h]
    exact (startupUnresolved_window?_of_ne _ hne now).trans h1
  split at h
  · rw [← Option.some.inj h]
    exact h1
  · rw [← Option.some.inj h]
    rw [window?_advanceCursor,window?_addCounters_of_ne _ _ hne,
      window?_updateJob_of_ne _ hne (by intro j; rfl)]
    exact h1

/-- The write phase of the start-up pass on one window, whose epoch is current or not; none
when SQLite refuses an owner. -/
def startupWindow (current : Bool) (scan : ScannedJob) (now : Time) (w : Window) : Option Window :=
  let fenced := fun reason : SummaryReasonCode => { w with
    job := w.job.startupUnknown reason (reconcileExceptionType w.job.exceptionType none) now
    slots := modify (fun c => c.status.inDoubt) (Candidate.doubted now) w.slots }
  let unresolved := w.job.startupUnknown .ledgerUnresolved
    (reconcileExceptionType w.job.exceptionType scan.evidenceError) now
  let slots := w.slots.map fun c => c.judged now (scan.verdict w.job.toJobSource c)
  if !current then some (fenced .epochFenced)
  else if !sourceUnchanged scan w.job then some (fenced .sourceDigestMismatch)
  else if w.slots.isEmpty then
    if w.job.status = .running then some { w with job := unresolved } else some w
  else if w.slots.any fun c => match scan.verdict w.job.toJobSource c with
      | .commit _ owner => !owner.all sqlInt
      | _ => false then none
  else if slots.any Candidate.unresolved then some { w with job := unresolved, slots := slots }
  else if ledgerCounts slots .failed ≠ 0 || !w.job.status.resumable then
    some { w with slots := slots }
  else some
    { job := w.job.startupCompleted (ledgerCounts slots) now
      slots := slots
      credited := w.credited+fun d => ledgerCounts slots d - w.job.counts d }

theorem startupJob_window? (ht : t.window? scan.jobId = some w) (now : Time) (n : ℕ) :
    (startupJob now (t,n) scan).map (fun st => st.1.window? scan.jobId) =
      (startupWindow (t.isCurrent w.job.sessionId w.job.sessionEpoch) scan now w).map some := by
  have h1 := window?_judgeSlots ht w.job now
  unfold startupWindow
  simp only [startupJob,(window?_eq_some.mp ht).1,window?_slots ht]
  split
  · exact congrArg some (startupFence_window? ht _ now)
  split
  · exact congrArg some (startupFence_window? ht _ now)
  split
  · split
    · exact congrArg some (startupUnresolved_window? ht now)
    · exact congrArg some ht
  split
  · rename_i hbad
    have hnone : Option.map some (none : Option Window) = none := rfl
    first
    | rfl
    | exact hnone.symm.trans (congrArg (Option.map some) (if_pos hbad).symm)
  rename_i hbad
  -- where `split` has met the condition on both sides, there is nothing left to rewrite
  try refine Eq.trans ?_ (congrArg (Option.map some) (if_neg hbad).symm)
  rw [window?_slots h1]
  split
  · exact congrArg some (startupUnresolved_window? h1 now)
  split
  · exact congrArg some h1
  · simp only [Option.map_some]
    rw [window?_advanceCursor,window?_addCounters,window?_updateJob h1 (by intro j; rfl)]
    simp

variable {snapshot : StartupSnapshot} {n : ℕ}

lemma startupJob_lives {st' : Store × ℕ}
    (hop : call.op = .reconcileStartupCandidates snapshot) (hscan : scan ∈ snapshot.jobs)
    (ht : t.window? scan.jobId = some w) (hcur : ∀ x e, t.isCurrent x e = s.isCurrent x e)
    (h : startupJob call.now (t,n) scan = some st') : Lives env s call scan.jobId w st'.1 := by
  have hid := (window?_jobId ht).symm
  have hwin := startupJob_window? ht call.now n
  rw [h,Option.map_some,hcur] at hwin
  cases hstart : startupWindow (s.isCurrent w.job.sessionId w.job.sessionEpoch) scan call.now w with
  | none => simp [hstart] at hwin
  | some w' =>
  rw [hstart,Option.map_some] at hwin
  replace hwin := Option.some.inj hwin
  refine ⟨w',hwin,?_⟩
  unfold startupWindow at hstart
  dsimp only at hstart
  split at hstart
  · rename_i hout
    cases hstart
    exact .fenced snapshot scan hop hscan hid (.inl (by simpa using hout)) _ _ rfl
  rename_i hin
  have hin : s.isCurrent w.job.sessionId w.job.sessionEpoch = true := by simpa using hin
  split at hstart
  · rename_i hout
    cases hstart
    exact .fenced snapshot scan hop hscan hid (.inr (by simpa using hout)) _ _ rfl
  rename_i hsame
  have hsame : sourceUnchanged scan w.job = true := by simpa using hsame
  split at hstart
  · rename_i hempty
    split at hstart
    · cases hstart
      exact .unlisted snapshot hop (by simpa using hempty) _
    · cases hstart
      exact .stay
  rename_i hne
  split at hstart
  · cases hstart
  split at hstart
  · cases hstart
    exact .unresolved snapshot scan hop hscan hid hin hsame _
  rename_i hres
  split at hstart
  · cases hstart
    exact .judged snapshot scan hop hscan hid hin hsame
  · rename_i hgo
    cases hstart
    simp only [Bool.or_eq_true,not_or,decide_eq_true_eq,not_not,Bool.not_eq_true', Bool.not_eq_false] at hgo
    exact .resolved snapshot scan hop hscan hid hin hsame (by simpa using hne) _ rfl
      (by simpa using hres) hgo.1 hgo.2

lemma isCurrent_updateEpochs (t : Store) {p : EpochRow → Bool} {f : EpochRow → EpochRow}
    (hf : ∀ e, (f e).sessionId = e.sessionId ∧ (f e).epoch = e.epoch) (session : String)
    (epoch : ℕ) : (t.updateEpochs p f).isCurrent session epoch = t.isCurrent session epoch := by
  unfold isCurrent updateEpochs RowTable.modify
  rw [List.any_map]
  congr 1
  funext e
  simp only [Function.comp_apply]
  split <;> simp [hf e]

lemma isCurrent_advanceCursor (t : Store) (x : String) (y : ℕ) (now : Time) (session : String)
    (epoch : ℕ) : (t.advanceCursor x y now).isCurrent session epoch = t.isCurrent session epoch :=
  isCurrent_updateEpochs t (by intro e; exact ⟨rfl,rfl⟩) session epoch

lemma startupJob_isCurrent {now : Time} (h : startupJob now st scan = some st') (session : String)
    (epoch : ℕ) :
    st'.1.isCurrent session epoch = st.1.isCurrent session epoch := by
  simp only [startupJob] at h
  split at h
  · rw [← Option.some.inj h]
  split at h
  · rw [← Option.some.inj h]
    rfl
  split at h
  · rw [← Option.some.inj h]
    rfl
  split at h
  · split at h
    · rw [← Option.some.inj h]
      rfl
    · rw [← Option.some.inj h]
  split at h
  · cases h
  split at h
  · rw [← Option.some.inj h]
    rfl
  split at h
  · rw [← Option.some.inj h]
    rfl
  · rw [← Option.some.inj h]
    exact isCurrent_advanceCursor _ _ _ _ _ _

lemma startupJobs_lives {scans : List ScannedJob} {st' : Store × ℕ}
    (hop : call.op = .reconcileStartupCandidates snapshot) (hsub : ∀ x ∈ scans, x ∈ snapshot.jobs)
    (hn : (scans.map ScannedJob.jobId).Nodup) (hw : s.window? id = some w)
    (ht : t.window? id = some w) (hcur : ∀ x e, t.isCurrent x e = s.isCurrent x e)
    (hf : scans.foldlM (startupJob call.now) (t,n) = some st') : Lives env s call id w st'.1 := by
  induction scans generalizing t n with
  | nil =>
    obtain rfl : (t,n) = st' := by simpa using hf
    exact ⟨w,ht,.stay⟩
  | cons scan scans ih =>
    obtain ⟨⟨t₁,n₁⟩,h1,h2⟩ := Option.bind_eq_some_iff.mp hf
    rw [List.map_cons,List.nodup_cons] at hn
    by_cases hid : scan.jobId = id
    · subst hid
      obtain ⟨w',hw',hlife⟩ := startupJob_lives hop (hsub scan (by simp)) ht hcur h1
      refine ⟨w',?_,hlife⟩
      exact RunLaws.foldlM_invariant (P := fun t : Store × ℕ => t.1.window? scan.jobId = some w')
        (fun u x hx u' hu h => (startupJob_other (fun he => hn.1
          (List.mem_map.mpr ⟨x,hx,he⟩)) hu).trans h) hw' h2
    · refine ih (fun x hx => hsub x (by simp [hx])) hn.2 ?_ ?_ h2
      · exact (startupJob_other hid h1).trans ht
      · intro x e
        exact (startupJob_isCurrent h1 x e).trans (hcur x e)

lemma reconcileStartupCandidates_lives (hw : s.window? id = some w)
    (hop : call.op = .reconcileStartupCandidates snapshot) :
    Lives env s call id w (s.reconcileStartupCandidates snapshot call.now).1 := by
  unfold reconcileStartupCandidates
  split
  · exact .stay hw
  · rename_i hf
    exact startupJobs_lives hop (fun _ h => h) snapshot.distinct hw hw (fun _ _ => rfl) hf

variable {session : String} {epoch : ℕ} {items : List Job}

lemma mem_abandonableJobs {j : Job} : j ∈ s.abandonableJobs session epoch ↔
    j ∈ s.jobs ∧ j.sessionId = session ∧
      j.sessionEpoch = epoch ∧ abandonable j (s.slots j.jobId) = true := by
  simp only [abandonableJobs,epochJobs,List.mem_insertionSort,List.mem_filter,
    Bool.and_eq_true,decide_eq_true_eq]
  tauto

lemma abandonableJobs_nodup (hk : Keyed s) (session : String) (epoch : ℕ) :
    ((s.abandonableJobs session epoch).map fun j => j.jobId).Nodup := by
  refine ((List.perm_insertionSort _ _).map _).nodup_iff.mpr ?_
  exact hk.jobs.sublist ((List.filter_sublist.trans List.filter_sublist).map _)

lemma abandonJob_other {j : Job} (hne : j.jobId ≠ id) (now : Time) (st : Store × ℕ) :
    (abandonJob now st j).1.window? id = st.1.window? id := by
  unfold abandonJob
  simp only
  have h1 : (st.1.updateCandidates (fun c => c.jobId = j.jobId && c.canonicalId.isNone &&
      !c.status.closed) (Candidate.abandoned now)).window? id = st.1.window? id := by
    refine window?_updateCandidates_of_ne _ (by intro c; rfl) ?_
    intro c hc
    simp [hc,hne.symm]
  split
  · exact h1
  · rw [window?_addCounters_of_ne _ _ hne]
    refine (window?_updateJobs_of_ne _ (by intro r; rfl) ?_).trans h1
    intro r hr
    simp [hr,hne.symm]

lemma abandonJobs_other (h : ∀ j ∈ items, j.jobId ≠ id) (now : Time)
    (st : Store × ℕ) : (items.foldl (abandonJob now) st).1.window? id = st.1.window? id := by
  induction items generalizing st with
  | nil => rfl
  | cons j items ih =>
    exact (ih (fun x hx => h x (by simp [hx])) _).trans (abandonJob_other (h j (by simp)) now st)

lemma abandonJob_lives (hop : call.op = .confirmAbandonSessionJobs session epoch)
    (hkt : Keyed t) (hw : s.window? id = some w) (ht : t.window? id = some w)
    (hab : w.job ∈ s.abandonableJobs session epoch) (n : ℕ) :
    Lives env s call id w (abandonJob call.now (t,n) w.job).1 := by
  obtain rfl := window?_jobId hw
  have hstatus : (w.job.status = .blocked || w.job.status = .unknown) = true := by
    have hh := (mem_abandonableJobs.mp hab).2.2.2
    simp only [abandonable,Bool.and_eq_true] at hh
    exact hh.1.1
  have hassoc : (fun c : Candidate => c.jobId = w.job.jobId && c.canonicalId.isNone &&
      !c.status.closed) = fun c => c.jobId = w.job.jobId && (c.canonicalId.isNone && !c.status.closed) := by
    funext c
    rw [Bool.and_assoc]
  unfold abandonJob
  simp only [hassoc]
  have h1 : (t.updateCandidates (fun c => c.jobId = w.job.jobId && (c.canonicalId.isNone &&
      !c.status.closed)) (Candidate.abandoned call.now)).window? w.job.jobId =
        some { w with slots := abandonedSlots call.now w.slots } :=
    window?_updateLedger ht _ (by intro c; rfl)
  have hk₁ := hkt.still (.candidates t (fun c => c.jobId = w.job.jobId && (c.canonicalId.isNone &&
    !c.status.closed)) (Candidate.abandoned call.now) fun _ => rfl)
  split
  · rename_i hc
    refine absurd ((countP_job hk₁ h1 ?_).mpr ?_) hc
    · intro r hr
      simp only [Bool.and_eq_true,decide_eq_true_eq] at hr
      exact hr.1.1.1
    · simpa using hstatus
  · refine ⟨_,?_,.abandoned session epoch hop hab⟩
    rw [window?_addCounters,window?_updateJobs _ (by intro r; rfl),h1,window?_slots h1]
    have hstatus : w.job.status = .blocked ∨ w.job.status = .unknown := by simpa using hstatus
    simp [hstatus]

lemma abandonJobs_lives (hop : call.op = .confirmAbandonSessionJobs session epoch)
    (hitem : ∀ j ∈ items, j.jobId = id → j = w.job ∧ w.job ∈ s.abandonableJobs session epoch)
    (hn : (items.map fun j => j.jobId).Nodup) (hkt : Keyed t) (hw : s.window? id = some w)
    (ht : t.window? id = some w) : Lives env s call id w
    (items.foldl (abandonJob call.now) (t,n)).1 := by
  induction items generalizing t n with
  | nil => exact ⟨w,ht,.stay⟩
  | cons j items ih =>
    rw [List.map_cons,List.nodup_cons] at hn
    rw [List.foldl_cons]
    by_cases hid : j.jobId = id
    · obtain ⟨rfl,hab⟩ := hitem j (by simp) hid
      obtain ⟨w',hw',hlife⟩ := abandonJob_lives hop hkt hw ht hab n
      refine ⟨w',(abandonJobs_other (fun x hx he => ?_) call.now _).trans hw',hlife⟩
      exact hn.1 (List.mem_map.mpr ⟨x,hx,he.trans hid.symm⟩)
    · exact ih (fun x hx => hitem x (by simp [hx])) hn.2
        (hkt.moves (Stills.moves (abandonJob_stills call.now (t,n) j)))
        ((abandonJob_other hid call.now (t,n)).trans ht)

lemma confirmAbandonSessionJobs_lives (hk : Keyed s) (hw : s.window? id = some w)
    (hop : call.op = .confirmAbandonSessionJobs session epoch) :
    Lives env s call id w (s.confirmAbandonSessionJobs session epoch call.now).1 := by
  unfold confirmAbandonSessionJobs
  have h : Lives env s call id w ((s.abandonableJobs session epoch).foldl (abandonJob call.now) (s,0)).1 := by
    refine abandonJobs_lives hop ?_ (abandonableJobs_nodup hk session epoch) hk hw hw
    intro j hj hid
    obtain rfl := eq_job_of_mem hk hw (mem_abandonableJobs.mp hj).1 hid
    exact ⟨rfl,hj⟩
  simp only
  split
  · exact h
  · exact h

lemma cancelled_lives (ht : t.window? id = some w) (p : Job → Bool) (now : Time)
    (hstor : (p w.job && !w.job.status.settled) = true → reason.storable = true) :
    Lives env s call id w
      (t.updateJobs (fun j => p j && !j.status.settled) (Job.cancelledFor reason now)) := by
  have h := t.window?_updateJobs (p := fun j => p j && !j.status.settled)
    (f := Job.cancelledFor reason now) (by intro j; rfl) id
  rw [ht] at h
  by_cases hp : (p w.job && !w.job.status.settled) = true
  · have hopen : w.job.status.settled = false := by
      simp only [Bool.and_eq_true,Bool.not_eq_true'] at hp
      exact hp.2
    exact ⟨_,h,by simpa only [hp,if_true] using Life.cancelled reason now hopen (hstor hp)⟩
  · exact ⟨_,h,by simpa only [hp,if_false,Bool.false_eq_true] using Life.stay⟩

lemma cancelJobs_lives (ht : t.window? id = some w) {p : Job → Bool} {now : Time} {t' : Store}
    (h : t.cancelJobs p reason now = some t') : Lives env s call id w t' := by
  simp only [cancelJobs] at h
  split at h
  · cases h
  rename_i hstor
  cases h
  refine cancelled_lives ht p now fun hp => ?_
  by_contra hr
  refine hstor ?_
  simp only [Bool.and_eq_true,List.any_eq_true]
  exact ⟨by simpa using hr,w.job,window?_mem ht,by simpa using hp⟩

lemma ensureEpoch_window? (s : Store) (session : String) (now : Time) (id : String) :
    (s.ensureEpoch session now).1.window? id = s.window? id := by
  unfold ensureEpoch
  split <;> rfl

lemma cancelSessionJobs_lives (hw : s.window? id = some w) (session : String) (epoch : ℕ)
    (reason : Option SummaryReasonCode) :
    Lives env s call id w (s.cancelSessionJobs session epoch reason call.now).1 := by
  unfold cancelSessionJobs
  simp only
  split
  · exact .stay hw
  · exact cancelJobs_lives hw ‹_›

lemma resetSessionEpoch_lives (hw : s.window? id = some w) (session : String)
    (reason : Option SummaryReasonCode) :
    Lives env s call id w (s.resetSessionEpoch session reason call.now).1 := by
  unfold resetSessionEpoch
  simp only
  split
  · exact .stay hw
  · rename_i s₂ hc
    exact .congr (t := s₂) rfl (cancelJobs_lives ((s.ensureEpoch_window? session call.now id).trans hw) hc)

lemma clearSessionAtomically_lives (hw : s.window? id = some w) (session : String)
    (quarantined : Bool) :
    Lives env s call id w (s.clearSessionAtomically session quarantined call.now).1 := by
  unfold clearSessionAtomically
  split
  · exact .stay hw
  · exact .congr rfl (cancelled_lives ((s.ensureEpoch_window? session call.now id).trans hw)
      (fun j => j.sessionId = session && j.sessionEpoch = (s.ensureEpoch session call.now).2.1)
      call.now fun _ => rfl)

lemma deleteOldSessions_lives (hw : s.window? id = some w) (days : ℤ) (ttl : Option ℤ)
    (guarded : String → Bool) (now clock : Time) :
    Lives env s call id w (s.deleteOldSessions days ttl guarded now clock).1 := by
  unfold deleteOldSessions
  simp only
  generalize now - _ = cutoff
  split
  · exact .stay hw
  · refine .congr rfl (cancelled_lives (t := { s with epochs := s.epochs++_ }) hw
      (fun j => List.contains _ j.sessionId) clock fun _ => rfl)

end Store

lemma PlanStep.window?
    (h : PlanStep env c observedEnd now s t) (hw : s.window? id = some w) :
    t.window? id = some w := by
  cases h with
  | refused => exact hw
  | enqueued sessions s₃ new frontier hcur hfront hstop hnew hbound hranges =>
    have h₁ : Store.window? { (s.ensureEpoch c.sessionId now).1 with sessions := sessions } id =
        some w := (s.ensureEpoch_window? c.sessionId now id).trans hw
    rw [Store.window?_advanceCursor,hnew.eq]
    generalize { (s.ensureEpoch c.sessionId now).1 with sessions := sessions } = s₁ at h₁
    obtain ⟨hj,hs,hl⟩ := Store.window?_eq_some.mp h₁
    refine Store.window?_eq_some.mpr ⟨?_,hs,hl⟩
    unfold Store.job? at hj ⊢
    simp only [List.find?_append,hj,Option.some_or]

lemma step_life (hk : Keyed s) (hw : s.window? id = some w) (call : Call) :
    Lives env s call id w (step env s call) := by
  unfold step
  split
  · exact .of_eq hw rfl
  · exact ⟨w,(planAndEnqueueWindows_step s _ _ _).window? hw,.stay⟩
  · exact Store.claimReady_lives hk hw ‹_›
  · exact Store.beginCandidateIntents_lives hk hw ‹_›
  · exact Store.beginCandidateWrite_lives hk hw ‹_›
  · exact Store.commitWindow_lives hk hw ‹_›
  · exact Store.failWindow_lives hk hw ‹_›
  · exact Store.renewClaim_lives hw ‹_›
  · exact Store.requeueClaim_lives hk hw ‹_›
  · exact Store.recoverExpiredClaims_lives hw ‹_›
  · exact Store.reconcileWindow_lives hk hw ‹_›
  · exact Store.reconcileStartupCandidates_lives hw ‹_›
  · exact Store.confirmAbandonSessionJobs_lives hk hw ‹_›
  · exact Store.cancelSessionJobs_lives hw _ _ _
  · exact Store.resetSessionEpoch_lives hw _ _
  · exact Store.clearSessionAtomically_lives hw _ _
  · exact Store.deleteOldSessions_lives hw _ _ _ _ _
  · unfold Store.trimIfSafe
    split
    · exact .stay hw
    · exact .of_eq hw rfl

structure Fresh (env : Env) (w : Window) : Prop where
  planned : ∃ (c : SummaryWindowContext) (id : String) (start stop : ℕ) (digest : String)
    (complete : Bool) (now : Time),
    w.job = c.job id start stop digest complete now ∧ w.job.checks env = true
  slots : w.slots = []
  credited : w.credited = 0

lemma window?_eq_none : s.window? id = none ↔ ¬∃ j ∈ s.jobs, j.jobId = id := by
  unfold Store.window? Store.job?
  simp

lemma Moves.window?_none (h : Moves s t) (hw : s.window? id = none) : t.window? id = none := by
  induction h with
  | refl => exact hw
  | tail _ h ih =>
    rw [window?_eq_none] at ih ⊢
    rcases h with h | h
    · rwa [exists_job_of_sources h.sources]
    · rwa [h.jobs]

/-- Without a job there is no ledger and nothing was counted. -/
theorem Keyed.bare (hk : Keyed s) (hw : s.window? id = none) :
    s.slots id = [] ∧ s.credited id = 0 := by
  rw [window?_eq_none] at hw
  have hslots : s.slots id = [] := by
    rw [Store.slots,List.filter_eq_nil_iff]
    intro c hc hid
    obtain ⟨j,hj,he⟩ := hk.owned c hc
    exact hw ⟨j,hj,he.trans (by simpa using hid)⟩
  have hlog : s.counterLog.filter (fun e => e.1 = id) = [] := by
    rw [List.filter_eq_nil_iff]
    intro e he hid
    obtain ⟨j,hj,hje⟩ := hk.counted e he
    exact hw ⟨j,hj,hje.trans (by simpa using hid)⟩
  refine ⟨hslots,?_⟩
  funext d
  simp [Store.credited,hlog]

lemma PlanStep.fresh (hk : Keyed s) (h : PlanStep env c observedEnd now s t)
    (hw : s.window? id = none) :
    t.window? id = none ∨ ∃ w, t.window? id = some w ∧ Fresh env w := by
  cases h with
  | refused => exact .inl hw
  | enqueued sessions s₃ new frontier hcur hfront hstop hnew hbound hranges =>
    have hst : Stills s { (s.ensureEpoch c.sessionId now).1 with sessions := sessions } :=
      (s.ensureEpoch_stills c.sessionId now).tail (.source _ _ _ sessions)
    have hk₁ := hk.moves (Stills.moves hst)
    have h₁ := Moves.window?_none (Stills.moves hst) hw
    generalize { (s.ensureEpoch c.sessionId now).1 with sessions := sessions } = s₁ at hnew hk₁ h₁
    rw [Store.window?_advanceCursor,hnew.eq]
    obtain ⟨hslots,hcred⟩ := hk₁.bare h₁
    have hnone : s₁.job? id = none := by
      simpa [Store.window?] using h₁
    have hjob : Store.job? { s₁ with jobs := s₁.jobs++new } id = new.find? fun j => j.jobId = id := by
      unfold Store.job? at hnone ⊢
      rw [List.find?_append,hnone,Option.none_or]
    cases hf : new.find? fun j => j.jobId = id with
    | none =>
      left
      simp [Store.window?,hjob,hf]
    | some j =>
      right
      refine ⟨⟨j,[],0⟩,Store.window?_eq_some.mpr ⟨hjob.trans hf,hslots.symm,hcred.symm⟩,?_⟩
      obtain ⟨i,start,stop,digest,complete,hj,hc⟩ := hnew.planned j (List.mem_of_find?_eq_some hf)
      exact ⟨⟨c,i,start,stop,digest,complete,now,hj,hc⟩,rfl,rfl⟩

lemma step_fresh (hk : Keyed s) (hw : s.window? id = none) (call : Call) :
    (step env s call).window? id = none ∨
      ∃ w, (step env s call).window? id = some w ∧ Fresh env w := by
  rcases step_cases env s call with ⟨c,observedEnd,now,h⟩ | ⟨snapshot,hop⟩ | ⟨_,h⟩
  · exact h.fresh hk hw
  · left
    simp only [step,hop]
    exact (s.reconcileStartupCandidates_moves _ _).window?_none hw
  · exact .inl (h.moves.window?_none hw)

lemma windows_step (hfresh : ∀ w, Fresh env w → P w)
    (hlife : ∀ w w', s.window? w.job.jobId = some w → Life env s call w w' → P w → P w')
    (hk : Keyed s) (hP : ∀ id w, s.window? id = some w → P w) :
    ∀ id w, (step env s call).window? id = some w → P w := by
  intro id w hw
  cases hs : s.window? id with
  | none =>
    rcases step_fresh hk hs call with h | ⟨w',hw',hf⟩
    · rw [h] at hw
      cases hw
    · obtain rfl := Option.some.inj (hw'.symm.trans hw)
      exact hfresh w' hf
  | some w₀ =>
    obtain ⟨w',hw',hl⟩ := step_life hk hs call
    obtain rfl := Option.some.inj (hw'.symm.trans hw)
    exact hlife w₀ w' (Store.window?_jobId hs ▸ hs) hl (hP id w₀ hs)

theorem windows_along {good : Store → Call → Prop} (hfresh : ∀ w, Fresh env w → P w)
    (hlife : ∀ s call w w', Keyed s → good s call → s.window? w.job.jobId = some w →
      Life env s call w w' → P w → P w') (hk : Keyed s)
    (hinit : ∀ id w, s.window? id = some w → P w) {calls : List Call}
    (hg : RunLaws.Along (step env) good s calls) :
    ∀ id w, (run env s calls).window? id = some w → P w :=
  (RunLaws.along_invariant (P := fun s => Keyed s ∧ ∀ id w, s.window? id = some w → P w)
    (fun s call hgood ⟨hk,hP⟩ => ⟨hk.step env call,
      windows_step hfresh (fun w w' => hlife s call w w' hk hgood) hk hP⟩) ⟨hk,hinit⟩ hg).2

lemma windows_run (hfresh : ∀ w, Fresh env w → P w)
    (hlife : ∀ s call w w', Keyed s → s.window? w.job.jobId = some w →
      Life env s call w w' → P w → P w') (calls : List Call) :
    ∀ id w, (run env Store.empty calls).window? id = some w → P w :=
  windows_along hfresh (fun s call w w' hk (_ : True) => hlife s call w w' hk)
    Keyed.empty (by simp [Store.window?,Store.job?,Store.empty])
    (RunLaws.along_of_mem (fun _ _ _ => trivial) _)

end Memora.Summary

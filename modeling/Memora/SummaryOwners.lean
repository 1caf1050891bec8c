import Memora.SummaryClosed

/-! A window whose ledger shows an owner is not given up. Whether the ledger still shows it
depends on the calls that mark a window unknown, which clear the owners of open slots. -/
namespace Memora.Summary
open RowTable

variable {env : Env} {s t : Store} {call : Call} {id : String} {w w' : Window}
  {c c' : Candidate} {rows rows' : List Candidate} {now : Time}

/-- The call leaves the owner of this slot alone, as far as it concerns the window: the slot
is closed, a commit is accepted, a mapping is accepted and names no failed slot, and the
evidence at start-up is for the recorded owner. -/
def Call.SparesOwner (env : Env) (s : Store) (call : Call) (id : String) (c : Candidate) : Prop :=
  c.status.closed = true ∨ match call.op with
    | .commitWindow claim o => claim.job.jobId = id → s.claimMatches claim call.clock = true →
        validWindowOutcome o = true ∧ commitAccepted env s claim o = true
    | .reconcileWindow claim mapping => claim.job.jobId = id → s.claimMatches claim call.clock = true →
        ∃ owners, reconcileMapping env claim (s.orderedSlots id) mapping false = some owners ∧
          ∀ e ∈ owners, ∀ c ∈ s.slots id, c.slot = e.1 → c.status ≠ .failed
    | .reconcileStartupCandidates snapshot => c.status.inDoubt = true →
        ∀ scan ∈ snapshot.jobs, scan.jobId = id → ∀ j, s.job? id = some j →
          s.isCurrent j.sessionId j.sessionEpoch = true ∧ Store.sourceUnchanged scan j = true ∧
            (scan.verdict j.toJobSource c = .keep ∨
              ∃ d o, scan.verdict j.toJobSource c = .commit d (some o))
    | _ => True

def Call.SparesOwners (env : Env) (id : String) (s : Store) (call : Call) : Prop :=
  ∃ c ∈ s.slots id, c.canonicalId.isSome = true ∧ call.SparesOwner env s id c

def Owned (rows : List Candidate) : Prop := ∃ c ∈ rows, c.canonicalId.isSome = true

variable {owners : List (ℕ × ℕ)} {mapping : List (RawSlot × RawId)}

lemma normalizeMapping_slots (h : normalizeMapping rows mapping = some owners) :
    (owners.map Prod.fst).Nodup ∧ ∀ e ∈ owners, ∃ c ∈ rows, c.slot = e.1 := by
  refine RunLaws.foldlM_invariant
    (P := fun owners => (owners.map Prod.fst).Nodup ∧ ∀ e ∈ owners, ∃ c ∈ rows, c.slot = e.1) ?_
    (by simp) h
  intro owners entry _ owners' hstep hP
  split at hstep
  · rename_i c i hrow hid
    split at hstep
    · cases hstep
    · rename_i hnew
      cases hstep
      simp only [Bool.or_eq_true,not_or,Bool.not_eq_true] at hnew
      have hfresh : c.slot ∉ owners.map Prod.fst := by
        intro hmem
        obtain ⟨e,he,hslot⟩ := List.mem_map.mp hmem
        have hno := List.any_eq_false.mp hnew.1.1 e he
        exact hno (by simpa using hslot)
      have hc : c ∈ rows := by
        unfold RawSlot.row at hrow
        split at hrow
        · exact List.mem_of_find?_eq_some hrow
        · split at hrow
          · cases hrow
          · exact List.mem_of_find?_eq_some hrow
        · cases hrow
      constructor
      · rw [List.map_append,List.nodup_append]
        refine ⟨hP.1,by simp,?_⟩
        intro k hk k' hk' heq
        obtain rfl : k' = c.slot := by simpa using hk'
        exact hfresh (heq ▸ hk)
      · intro e he
        rcases List.mem_append.mp he with he | he
        · exact hP.2 e he
        · obtain rfl : e = (c.slot,i.toNat) := by simpa using he
          exact ⟨c,hc,rfl⟩
  · cases hstep

variable {claim : ClaimedJob} {terminal : Bool}

lemma reconcileMapping_eq (h : reconcileMapping env claim rows mapping terminal = some owners) :
    normalizeMapping rows mapping = some owners ∧
      ∀ c ∈ rows, rowAccepted env claim owners terminal c = true := by
  obtain ⟨normalized,hn,h⟩ := Option.bind_eq_some_iff.mp h
  split at h
  · rename_i hacc
    cases h
    simp only [Bool.and_eq_true,List.all_eq_true] at hacc
    exact ⟨hn,hacc.1⟩
  · cases h

lemma lookup_of_mem (hn : (owners.map Prod.fst).Nodup) {e : ℕ × ℕ} (he : e ∈ owners) :
    owners.lookup e.1 = some e.2 := by
  induction owners with
  | nil => simp at he
  | cons x owners ih =>
    rw [List.map_cons,List.nodup_cons] at hn
    rcases List.mem_cons.mp he with rfl | he
    · rw [List.lookup_cons,beq_self_eq_true]
    · have hne : e.1 ≠ x.1 := fun heq => hn.1 (List.mem_map.mpr ⟨e,he,heq⟩)
      rw [List.lookup_cons,beq_eq_false_iff_ne.mpr hne]
      exact ih hn.2 he

/-- A slot an accepted mapping names, unless it failed, may record its owner. -/
theorem mapped_recordable
    (h : reconcileMapping env claim rows mapping terminal = some owners) {e : ℕ × ℕ}
    (he : e ∈ owners) :
    ∃ c ∈ rows, c.slot = e.1 ∧ c.status ≠ .unknown ∧ c.canonicalId.all (· = e.2) = true := by
  obtain ⟨hn,hrows⟩ := reconcileMapping_eq h
  obtain ⟨hnodup,hslots⟩ := normalizeMapping_slots hn
  obtain ⟨c,hc,hslot⟩ := hslots e he
  have hacc := hrows c hc
  simp only [rowAccepted,Bool.and_eq_true,decide_eq_true_eq] at hacc
  have howner := hacc.1.2
  rw [hslot,lookup_of_mem hnodup he] at howner
  refine ⟨c,hc,hslot,hacc.1.1.2,?_⟩
  cases hid : c.canonicalId with
  | none => rfl
  | some o => simpa [hid] using howner

lemma recordOwners_found (now : Time) (allowed : Candidate → Bool) {held : Job → Bool}
    (hk : Keyed t) (hheld : t.jobs.any held = true) (hn : (owners.map Prod.fst).Nodup)
    (hrows : ∀ e ∈ owners, ∃ c ∈ t.slots claim.job.jobId, c.slot = e.1 ∧ allowed c = true ∧ c.canonicalId.all (· = e.2) = true) :
    (Store.recordOwners claim now allowed held owners t).2 = true := by
  induction owners generalizing t with
  | nil => rfl
  | cons e owners ih =>
    rw [List.map_cons,List.nodup_cons] at hn
    obtain ⟨c,hc,hslot,hallowed,howner⟩ := hrows e (by simp)
    have hid := Store.slots_jobId hc
    have hcount : t.candidates.countP (fun c : Candidate => c.jobId = claim.job.jobId &&
        c.slot = e.1 && allowed c && c.canonicalId.all (· = e.2) && t.jobs.any held) = 1 := by
      refine countP_eq_one hk.slots (k := (claim.job.jobId,e.1)) ?_ (List.mem_filter.mp hc).1 ?_
      · intro r _ hr
        simp only [Bool.and_eq_true,decide_eq_true_eq] at hr
        rw [hr.1.1.1.1,hr.1.1.1.2]
      · simp [hid,hslot,hallowed,howner,hheld]
    unfold Store.recordOwners
    rw [if_neg (by simpa using hcount)]
    refine ih ?_ hheld hn.2 ?_
    · exact hk.moves (Stills.moves (.single (.candidates _ _ _ fun _ => rfl)))
    · intro e' he'
      obtain ⟨c',hc',hslot',hrest⟩ := hrows e' (by simp [he'])
      have hne : c'.slot ≠ e.1 := fun heq =>
        hn.1 (List.mem_map.mpr ⟨e',he',hslot'.symm.trans heq⟩)
      refine ⟨c',?_,hslot',hrest⟩
      rw [Store.slots_updateCandidates t (by intro c; rfl)]
      exact mem_modify.mpr ⟨c',hc',by simp [hne]⟩

lemma SlotKept.owned (h : SlotKept c c') (hclosed : c.status.closed = true)
    (howner : c.canonicalId.isSome = true) : c'.canonicalId.isSome = true := by
  rw [h.owner hclosed howner]
  exact howner

lemma LedgerKept.owned (h : LedgerKept rows rows') (hc : c ∈ rows)
    (hclosed : c.status.closed = true) (howner : c.canonicalId.isSome = true) : Owned rows' := by
  obtain ⟨c',hc',hkept⟩ := ListLaws.forall₂_left h hc
  exact ⟨c',hc',hkept.owned hclosed howner⟩

lemma OwnersRecorded.owned {allowed : Candidate → Bool}
    (h : OwnersRecorded allowed now rows rows') (hc : c ∈ rows)
    (howner : c.canonicalId.isSome = true) :
    ∃ c' ∈ rows', c'.status = c.status ∧ c'.canonicalId.isSome = true := by
  induction h with
  | nil => simp at hc
  | cons hstep _ ih =>
    rcases List.mem_cons.mp hc with rfl | hc
    · obtain ⟨-,-,hstatus,hsame⟩ := hstep.kept
      exact ⟨_,by simp,hstatus,by rw [hsame howner]; exact howner⟩
    · obtain ⟨c',hc',hrest⟩ := ih hc
      exact ⟨c',by simp [hc'],hrest⟩

/-- A running window is not marked unknown by a mapping that is accepted and names no failed
slot, as long as one of its slots is open. -/
theorem reconcileDoubted_open (hk : Keyed s) (hw : s.window? claim.job.jobId = some w)
    (hholds : claim.holds w.job = true)
    (hmapping : reconcileMapping env claim (s.orderedSlots claim.job.jobId) mapping false = some owners)
    (hfailed : ∀ e ∈ owners, ∀ c ∈ s.slots claim.job.jobId, c.slot = e.1 → c.status ≠ .failed)
    (hbad : reconcileDoubted env s claim mapping now rows) :
    ∀ c ∈ rows, c.status.closed = true := by
  rcases hbad with hnone | ⟨owners',hsome,hlost⟩ | hclosed
  · rw [hmapping] at hnone
    cases hnone
  · obtain rfl := Option.some.inj (hmapping.symm.trans hsome)
    have hheld : s.jobs.any claim.holds = true := List.any_eq_true.mpr ⟨w.job,Store.window?_mem hw,hholds⟩
    have hnodup := (normalizeMapping_slots (reconcileMapping_eq hmapping).1).1
    have hfound := recordOwners_found now Candidate.recordable hk hheld hnodup fun e he => by
        obtain ⟨c,hc,hslot,hstatus,howner⟩ := mapped_recordable hmapping he
        have hc := Store.mem_orderedSlots.mp hc
        refine ⟨c,hc,hslot,?_,howner⟩
        simp [Candidate.recordable,hstatus,hfailed e he c hc hslot]
    exact absurd hlost (by simp [hfound])
  · exact hclosed

lemma Candidate.settledBy_owned {intents : List CandidateIntent}
    (h : c.canonicalId.isSome = true) : (c.settledBy intents now).canonicalId.isSome = true := by
  unfold Candidate.settledBy
  split
  · rename_i i _
    obtain ⟨o,ho⟩ := Option.isSome_iff_exists.mp h
    simp only [Candidate.settled,ho]
    cases i.canonicalId <;> rfl
  · exact h

lemma Life.closed_owned (h : Life env s call w w') (hc : c ∈ w.slots)
    (hclosed : c.status.closed = true) (howner : c.canonicalId.isSome = true) : Owned w'.slots := by
  rcases h.kept with hempty | ⟨intents,hslots⟩ | hkept
  · simp [hempty] at hc
  · rw [hslots]
    exact ⟨_,List.mem_map.mpr ⟨c,hc,rfl⟩,Candidate.settledBy_owned howner⟩
  · exact hkept.owned hc hclosed howner

/-- Start-up with the recorded owner as its evidence, or with none where it does not look. -/
theorem judged_owned {scan : ScannedJob} {job : JobSource} (howner : c.canonicalId.isSome = true)
    (h : scan.verdict job c = .keep ∨ ∃ d o, scan.verdict job c = .commit d (some o)) :
    (c.judged now (scan.verdict job c)).canonicalId.isSome = true := by
  rcases h with h | ⟨d,o,h⟩
  · rw [h]
    exact howner
  · rw [h]
    rfl

lemma Life.spares (hk : Keyed s) (hw : s.window? w.job.jobId = some w)
    (hsettled : w.job.status.terminal = true → Settled w)
    (hspared : Call.SparesOwners env w.job.jobId s call) (h : Life env s call w w') :
    Owned w'.slots := by
  have ⟨c,hmem,howner,hspared⟩ := hspared
  have hc : c ∈ w.slots := Store.window?_slots hw ▸ hmem
  by_cases hclosed : c.status.closed = true
  · exact h.closed_owned hc hclosed howner
  have hspared := hspared.resolve_left hclosed
  have hjob : s.job? w.job.jobId = some w.job := (Store.window?_eq_some.mp hw).1
  -- the scan's verdict on this slot, where the pass reaches it
  have hverdict : ∀ snapshot scan, call.op = .reconcileStartupCandidates snapshot →
      scan ∈ snapshot.jobs → scan.jobId = w.job.jobId → (s.isCurrent w.job.sessionId w.job.sessionEpoch = true ∧
        Store.sourceUnchanged scan w.job = true ∨ c.status.inDoubt = false) ∧
      (scan.verdict w.job.toJobSource c = .keep ∨
        ∃ d o, scan.verdict w.job.toJobSource c = .commit d (some o)) := by
    intro snapshot scan hop hscan hid
    rw [hop] at hspared
    cases hd : c.status.inDoubt with
    | false => exact ⟨.inr rfl,.inl (verdict_keep hd)⟩
    | true =>
      obtain ⟨hcur,hsame,hv⟩ := hspared hd scan hscan hid w.job hjob
      exact ⟨.inl ⟨hcur,hsame⟩,hv⟩
  cases h with
  | recorded claim intents hop hholds hempty => simp [hempty] at hc
  | writing =>
    refine ⟨_,mem_modify.mpr ⟨c,hc,rfl⟩,?_⟩
    split <;> exact howner
  | committed => exact ⟨_,List.mem_map.mpr ⟨c,hc,rfl⟩,Candidate.settledBy_owned howner⟩
  | rejected claim o reason exceptionType hop hholds hmatch hbad =>
    rw [hop] at hspared
    obtain ⟨hvalid,hacc⟩ := hspared (holds_jobId hholds) hmatch
    rcases hbad with hbad | hbad
    · exact absurd hvalid (by simp [hbad])
    · exact absurd hacc (by simp [hbad])
  | owned claim mapping hop hholds slots hrows | reconciled claim mapping hop hholds slots hrows =>
    obtain ⟨c',hc',-,howner'⟩ := hrows.owned hc howner
    exact ⟨c',hc',howner'⟩
  | doubted claim mapping reason exceptionType hop hholds hmatch slots hrows hbad =>
    rw [hop] at hspared
    have hid := holds_jobId hholds
    obtain ⟨owners,hmapping,hfailed⟩ := hspared hid hmatch
    rw [← hid] at hmapping hfailed hw
    have hall := reconcileDoubted_open hk hw hholds hmapping hfailed hbad
    obtain ⟨c',hc',hstatus,-⟩ := hrows.owned hc howner
    exact absurd (hstatus ▸ hall c' hc') hclosed
  | confirmed claim mapping hop hdone | degraded claim mapping hop hdone =>
    have hterminal : w.job.status.terminal = true := by rw [hdone]; rfl
    exact absurd ((hsettled hterminal).closed c hc) hclosed
  | fenced snapshot scan hop hscan hid hout =>
    rcases (hverdict snapshot scan hop hscan hid).1 with ⟨hcur,hsame⟩ | hd
    · rcases hout with hout | hout
      · exact absurd hcur (by simp [hout])
      · exact absurd hsame (by simp [hout])
    · exact ⟨_,mem_modify.mpr ⟨c,hc,rfl⟩,by rw [if_neg (by simp [hd])]; exact howner⟩
  | unlisted snapshot hop hempty => simp [hempty] at hc
  | unresolved snapshot scan hop hscan hid | judged snapshot scan hop hscan hid =>
    exact ⟨_,List.mem_map.mpr ⟨c,hc,rfl⟩, judged_owned howner (hverdict snapshot scan hop hscan hid).2⟩
  | resolved snapshot scan hop hscan hid hcur hsame hne slots hslots =>
    subst hslots
    exact ⟨_,List.mem_map.mpr ⟨c,hc,rfl⟩, judged_owned howner (hverdict snapshot scan hop hscan hid).2⟩
  | abandoned session epoch hop hab =>
    have hnone := List.any_eq_false.mp (abandonable_evidence hw hab) c hc
    exact absurd howner (by simp [Candidate.ownerEvidence] at hnone; simp [hnone])
  | _ => exact ⟨c,hc,howner⟩

theorem Life.unowned (hw : s.window? w.job.jobId = some w) (h : Life env s call w w')
    (hs : w.job.status = .abandoned →
      ∀ c ∈ w.slots, c.status.closed = true ∧ c.canonicalId = none)
    (ht : w'.job.status = .abandoned) :
    ∀ c ∈ w'.slots, c.status.closed = true ∧ c.canonicalId = none := by
  cases h with
  | abandoned session epoch hop hab =>
    have hevidence := abandonable_evidence hw hab
    intro c' hc'
    refine ⟨abandonedSlots_closed call.now hevidence c' hc',?_⟩
    obtain ⟨c,hc,rfl⟩ := mem_modify.mp hc'
    have hnone := List.any_eq_false.mp hevidence c hc
    split
    · rfl
    · simp only [Candidate.ownerEvidence,Bool.or_eq_true,not_or,Bool.not_eq_true,
        Option.isSome_eq_false_iff,Option.isNone_iff_eq_none] at hnone
      exact hnone.1.1
  | judged snapshot scan =>
    intro c' hc'
    obtain ⟨c,hc,rfl⟩ := List.mem_map.mp hc'
    have hc := hs ht c hc
    have hdoubt : c.status.inDoubt = false := by
      by_contra hd
      exact absurd hc.1 (by simp [inDoubt_open (by simpa using hd)])
    rw [verdict_keep hdoubt]
    exact hc
  | stay => exact hs ht
  | writing claim intent hop hholds | owned claim mapping hop hholds
  | renewed claim leaseSeconds hop hholds | recorded claim intents hop hholds =>
    have hrun := holds_running hholds
    exact absurd ht (by simp [hrun,Job.renewed])
  | confirmed claim mapping hop hdone => exact absurd ht (by simp [hdone])
  | committed claim o status reason nextAt hop hholds hvalid hverdict =>
    rcases commitVerdict_not_running hverdict with rfl | rfl | rfl | rfl <;>
      exact absurd ht (by simp [Job.committed])
  | failed claim f status nextAt reason hop hholds hverdict =>
    rcases failVerdict_not_running hverdict with rfl | rfl | rfl <;> exact absurd ht (by simp [Job.failed])
  | recovered =>
    simp only [Job.recovered] at ht
    split at ht <;> cases ht
  | _ => exact absurd ht (by simp [Job.claimed,Job.refused,Job.doubted,Job.requeued,
      Job.degraded,Job.startupUnknown,Job.cancelledFor,Job.reconciled,Job.startupCompleted])

lemma abandoned_unowned_run (env : Env) (calls : List Call) :
    ∀ id w, (run env Store.empty calls).window? id = some w → w.job.status = .abandoned →
      ∀ c ∈ w.slots, c.status.closed = true ∧ c.canonicalId = none :=
  windows_run (P := fun w => w.job.status = .abandoned →
      ∀ c ∈ w.slots, c.status.closed = true ∧ c.canonicalId = none)
    (fun w hw _ => by rw [hw.slots]; simp)
    (fun _ _ _ _ _ hw h hs ht => h.unowned hw hs ht) calls

/-- Once a ledger shows an owner, it does so as long as every call spares one of its owners. -/
theorem owned_along {calls : List Call} (hk : Keyed s)
    (hsettled : ∀ id w, s.window? id = some w → w.job.status.terminal = true → Settled w)
    (hw : ∃ w, s.window? id = some w ∧ Owned w.slots)
    (hg : RunLaws.Along (step env) (Call.SparesOwners env id) s calls) :
    ∃ w, (run env s calls).window? id = some w ∧ Owned w.slots := by
  refine (RunLaws.along_invariant (P := fun s => Keyed s ∧
    (∀ id w, s.window? id = some w → w.job.status.terminal = true → Settled w) ∧
      ∃ w, s.window? id = some w ∧ Owned w.slots) ?_ ⟨hk,hsettled,hw⟩ hg).2.2
  rintro s call hspared ⟨hk,hsettled,w,hw,howned⟩
  refine ⟨hk.step env call,windows_step (P := fun w => w.job.status.terminal = true → Settled w)
    (fun w hw ht => absurd ht (by simp [hw.not_terminal]))
    (fun _ _ hw h hs => h.settled hk hw hs) hk hsettled,?_⟩
  obtain ⟨w',hw',hlife⟩ := step_life hk hw call
  have hid := Store.window?_jobId hw
  rw [← hid] at hw hspared
  exact ⟨w',hw',hlife.spares hk hw (hsettled _ _ hw) hspared⟩

/-- Where every call after a ledger showed an owner spares an owner of that ledger, the job is
never given up. -/
theorem owned_never_abandoned (env : Env) (calls calls' : List Call) (id : String)
    (howned : ∃ c ∈ (run env Store.empty calls).slots id, c.canonicalId.isSome = true)
    (hg : RunLaws.Along (step env) (Call.SparesOwners env id) (run env Store.empty calls) calls') :
    ∀ j ∈ (run env Store.empty (calls++calls')).jobs, j.jobId = id → j.status ≠ .abandoned := by
  have hk := Keyed.empty.run env calls
  obtain ⟨c,hc,howner⟩ := howned
  have hw : ∃ w, (run env Store.empty calls).window? id = some w ∧ Owned w.slots := by
    cases hwin : (run env Store.empty calls).window? id with
    | none => simp [(hk.bare hwin).1] at hc
    | some w => exact ⟨w,rfl,c,Store.window?_slots hwin ▸ hc,howner⟩
  obtain ⟨w,hw,c',hc',howner'⟩ := owned_along hk (settled_run env calls) hw hg
  have hrun : run env Store.empty (calls++calls') = run env (run env Store.empty calls) calls' :=
    List.foldl_append
  rw [← hrun] at hw
  intro j hj hid hstatus
  obtain rfl := Store.eq_job_of_mem (Keyed.empty.run env _) hw hj hid
  have hnone := (abandoned_unowned_run env _ id w hw hstatus c' hc').2
  simp [hnone] at howner'

/-- A window whose only slot has a recorded owner. -/
def ownedCalls : List Call :=
  heldCalls++[(Op.beginCandidateIntents heldClaim [plannedIntent 0]).at 4,
    (Op.reconcileWindow heldClaim [(.slot 0,.int 7)]).at 5]

def forgottenOutcome : WindowOutcome where
  unknownCount := 1
  candidateSlots := [settledIntent 0 none .unknown]
  reasonCode := .ledgerUnresolved
  slots_nodup := by decide
  no_facts := by simp

/-- The report clears the recorded owner, and the job is given up. -/
theorem owned_window_abandoned : (∃ j ∈ (run sampleEnv Store.empty ownedCalls).jobs,
      ∃ c ∈ (run sampleEnv Store.empty ownedCalls).slots j.jobId, c.canonicalId = some 7) ∧
    ∃ j ∈ (run sampleEnv Store.empty (ownedCalls++[(Op.commitWindow heldClaim forgottenOutcome).at 6,
          (Op.confirmAbandonSessionJobs "a" 1).at 7])).jobs, j.status = .abandoned := by
  decide +kernel

def ownedOutcome : WindowOutcome where
  canAdvance := true
  counts := fun d => if d = .canonical then 1 else 0
  candidateSlots := [{ settledIntent 0 (some .canonical) .committed with
    canonicalId := some 7
    canonical_pos := by simp }]
  slots_nodup := by decide
  no_facts := by simp

theorem owned_never_abandoned_sample : ((run sampleEnv Store.empty (ownedCalls ++
      [(Op.commitWindow heldClaim ownedOutcome).at 6,
        (Op.confirmAbandonSessionJobs "a" 1).at 7])).jobs.all fun j =>
          j.jobId ≠ "a0" || j.status ≠ .abandoned) = true := by
  have howned : ∀ calls : List Call, calls = [] ∨ calls = [(Op.commitWindow heldClaim ownedOutcome).at 6] →
      ∃ c ∈ (run sampleEnv Store.empty (ownedCalls++calls)).slots "a0", c.canonicalId.isSome = true := by
    rintro calls (rfl | rfl) <;> decide +kernel
  have hspares : RunLaws.Along (step sampleEnv) (Call.SparesOwners sampleEnv "a0")
      (run sampleEnv Store.empty ownedCalls) [(Op.commitWindow heldClaim ownedOutcome).at 6,
        (Op.confirmAbandonSessionJobs "a" 1).at 7] := by
    refine ⟨?_,?_,trivial⟩
    · obtain ⟨c,hc,howner⟩ := howned [] (.inl rfl)
      exact ⟨c,hc,howner,.inr fun _ _ => by decide +kernel⟩
    · obtain ⟨c,hc,howner⟩ := howned _ (.inr rfl)
      exact ⟨c,hc,howner,.inr trivial⟩
  have hkept := owned_never_abandoned sampleEnv ownedCalls _ "a0"
    (by simpa using howned [] (.inl rfl)) hspares
  rw [List.all_eq_true]
  intro j hj
  have hj' := hkept j hj
  by_cases hid : j.jobId = "a0"
  · simp [hj' hid]
  · simp [hid]

end Memora.Summary

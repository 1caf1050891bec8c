import Memora.SummaryLimits

/-! The ledger of a closed window is closed row by row and adds up to the stored counts.
Outside a commit no call touches the verdict of a closed slot. -/
namespace Memora.Summary
open RowTable

variable {env : Env} {s : Store} {call : Call} {id : String} {w w' : Window}
    {f : Candidate → Candidate}

structure SlotKept (c c' : Candidate) : Prop where
  source : c'.toSlotSource = c.toSlotSource
  status : c.status.closed = true → c'.status = c.status
  disposition : c.status.closed = true → c'.disposition = c.disposition
  owner : c.status.closed = true → c.canonicalId.isSome = true → c'.canonicalId = c.canonicalId

lemma SlotKept.refl (c : Candidate) : SlotKept c c := ⟨rfl,fun _ => rfl,fun _ => rfl,fun _ _ => rfl⟩

lemma SlotKept.trans {a b c : Candidate} (h : SlotKept a b) (h' : SlotKept b c) :
    SlotKept a c := by
  have hclosed : a.status.closed = true → b.status.closed = true := fun ha => by
    rw [h.status ha]
    exact ha
  refine ⟨h'.source.trans h.source,fun ha => ?_,fun ha => ?_,fun ha hi => ?_⟩
  · exact (h'.status (hclosed ha)).trans (h.status ha)
  · exact (h'.disposition (hclosed ha)).trans (h.disposition ha)
  · have howner := h.owner ha hi
    exact (h'.owner (hclosed ha) (by rw [howner]; exact hi)).trans howner

lemma SlotKept.of_open {c c' : Candidate} (hs : c'.toSlotSource = c.toSlotSource)
    (ho : c.status.closed = false) : SlotKept c c' :=
  ⟨hs,fun h => absurd h (by simp [ho]),fun h => absurd h (by simp [ho]),
    fun h => absurd h (by simp [ho])⟩

abbrev LedgerKept : List Candidate → List Candidate → Prop := List.Forall₂ SlotKept

lemma LedgerKept.refl (rows : List Candidate) : LedgerKept rows rows :=
  List.forall₂_same.mpr fun c _ => .refl c

lemma LedgerKept.map {rows : List Candidate}
    (h : ∀ c ∈ rows, SlotKept c (f c)) : LedgerKept rows (rows.map f) :=
  List.forall₂_map_right_iff.mpr (List.forall₂_same.mpr h)

lemma LedgerKept.modify {rows : List Candidate} {p : Candidate → Bool}
    (h : ∀ c ∈ rows, p c = true → SlotKept c (f c)) : LedgerKept rows (modify p f rows) := by
  refine .map fun c hc => ?_
  split
  · exact h c hc ‹_›
  · exact .refl c

lemma LedgerKept.trans {rows₁ rows₂ rows₃ : List Candidate} (h : LedgerKept rows₁ rows₂)
    (h' : LedgerKept rows₂ rows₃) : LedgerKept rows₁ rows₃ := by
  induction h generalizing rows₃ with
  | nil => exact h'
  | cons hc _ ih =>
    cases h' with
    | cons hc' h' => exact .cons (hc.trans hc') (ih h')

variable {rows rows' : List Candidate} {c : Candidate} {allowed : Candidate → Bool}

lemma LedgerKept.slots (h : LedgerKept rows rows') :
    (rows'.map fun c => c.slot) = rows.map fun c => c.slot := by
  induction h with
  | nil => rfl
  | cons hc _ ih =>
    have hslot := congrArg SlotSource.slot hc.source
    rw [List.map_cons,List.map_cons,ih,hslot]

lemma OwnersRecorded.kept {now : Time} (h : OwnersRecorded allowed now rows rows') :
    LedgerKept rows rows' := by
  refine h.imp fun c c' hc => ?_
  obtain ⟨h1,h2,h3,h4⟩ := hc.kept
  exact ⟨h1,fun _ => h3,fun _ => h2,fun _ => h4⟩

variable (now : Time)

lemma doubtOpen_kept (c : Candidate) : SlotKept c (c.doubtOpen now) := by
  cases hc : c.status.closed with
  | true =>
    rw [Candidate.doubtOpen,if_pos hc]
    exact .refl c
  | false => exact .of_open (by simp [Candidate.doubtOpen,hc,Candidate.doubted]) hc

lemma inDoubt_open {status : CandidateLedgerStatus} (h : status.inDoubt = true) :
    status.closed = false := by
  cases status <;> simp_all [CandidateLedgerStatus.inDoubt,CandidateLedgerStatus.closed]

theorem verdict_keep {scan : ScannedJob} {job : JobSource}
    (h : c.status.inDoubt = false) : scan.verdict job c = .keep := by
  simp [ScannedJob.verdict,h]

lemma judged_kept (scan : ScannedJob) (job : JobSource) (c : Candidate) :
    SlotKept c (c.judged now (scan.verdict job c)) := by
  cases hd : c.status.inDoubt with
  | false =>
    rw [verdict_keep hd]
    exact .refl c
  | true =>
    refine .of_open ?_ (inDoubt_open hd)
    cases scan.verdict job c <;> rfl

lemma beginWrite_kept (p : Candidate → Bool) (now : Time) (rows : List Candidate) :
    LedgerKept rows (modify p (Candidate.beginWrite now) rows) := by
  apply LedgerKept.modify
  intro c _ _
  refine ⟨rfl,fun hc => ?_,fun _ => rfl,fun _ _ => rfl⟩
  have hne : c.status ≠ .planned := by
    intro hp
    simp [hp,CandidateLedgerStatus.closed] at hc
  simp [Candidate.beginWrite,hne]

lemma doubtInDoubt_kept (rows : List Candidate) :
    LedgerKept rows (modify (fun c => c.status.inDoubt) (Candidate.doubted now) rows) :=
  .modify fun _ _ hd => .of_open rfl (inDoubt_open hd)

lemma abandonedSlots_kept (rows : List Candidate) : LedgerKept rows (abandonedSlots now rows) := by
  apply LedgerKept.modify
  intro c _ hp
  simp only [Bool.and_eq_true,Bool.not_eq_true'] at hp
  exact .of_open rfl hp.2

lemma OwnersRecorded.doubted_kept {now : Time}
    (h : OwnersRecorded allowed now rows rows') :
    LedgerKept rows (rows'.map (Candidate.doubtOpen now)) :=
  h.kept.trans (.map fun c _ => doubtOpen_kept now c)

lemma judgedRows_kept (scan : ScannedJob) (job : JobSource) (rows : List Candidate) :
    LedgerKept rows (rows.map fun c => c.judged now (scan.verdict job c)) :=
  .map fun c _ => judged_kept now scan job c

/-- A call adds to an empty ledger, settles it by the intents of a commit, or keeps the closed
slots. -/
theorem Life.kept (h : Life env s call w w') :
    w.slots = [] ∨ (∃ intents, w'.slots = w.slots.map (Candidate.settledBy intents call.now)) ∨
      LedgerKept w.slots w'.slots := by
  cases h with
  | recorded claim intents hop hholds hempty => exact .inl hempty
  | committed claim o => exact .inr (.inl ⟨o.candidateSlots,rfl⟩)
  | writing => exact .inr (.inr (beginWrite_kept _ _ _))
  | rejected => exact .inr (.inr (.map fun c _ => doubtOpen_kept _ c))
  | owned claim mapping hop hholds slots hrows | reconciled claim mapping hop hholds slots hrows =>
    exact .inr (.inr hrows.kept)
  | confirmed claim mapping hop hdone slots hrows => exact .inr (.inr hrows.kept)
  | doubted claim mapping reason exceptionType hop hholds hmatch slots hrows =>
    exact .inr (.inr hrows.doubted_kept)
  | degraded claim mapping hop hdone slots hrows => exact .inr (.inr hrows.doubted_kept)
  | fenced => exact .inr (.inr (doubtInDoubt_kept _ _))
  | unresolved | judged => exact .inr (.inr (judgedRows_kept _ _ _ _))
  | resolved snapshot scan hop hscan hid hcur hsame hne slots hslots =>
    subst hslots
    exact .inr (.inr (judgedRows_kept _ _ _ _))
  | abandoned => exact .inr (.inr (abandonedSlots_kept _ _))
  | _ => exact .inr (.inr (.refl _))

def closedCounts (rows : List Candidate) : Counts := fun d =>
  rows.countP fun c => c.status.closed && c.disposition = some d

lemma closedCounts_le_ledgerCounts (rows : List Candidate) (d : CandidateDisposition) :
    closedCounts rows d ≤ ledgerCounts rows d := by
  apply List.countP_mono_left
  intro c _ hc
  simp only [Bool.and_eq_true] at hc
  exact hc.2

lemma closedCounts_of_closed (h : ∀ c ∈ rows, c.status.closed = true) :
    closedCounts rows = ledgerCounts rows := by
  funext d
  apply List.countP_congr
  intro c hc
  simp [h c hc]

lemma LedgerKept.closedCounts_le (h : LedgerKept rows rows') (d : CandidateDisposition) :
    closedCounts rows d ≤ closedCounts rows' d := by
  refine countP_le_of_forall₂ h fun a b hab ha => ?_
  simp only [Bool.and_eq_true,decide_eq_true_eq] at ha ⊢
  have hstatus := hab.status ha.1
  have hdisposition := hab.disposition ha.1
  rw [hstatus,hdisposition]
  exact ha

lemma LedgerKept.ledgerCounts (h : LedgerKept rows rows')
    (hclosed : ∀ c ∈ rows, c.status.closed = true) : ledgerCounts rows' = ledgerCounts rows := by
  funext d
  unfold Memora.Summary.ledgerCounts
  induction h with
  | nil => rfl
  | @cons a b _ _ hab _ ih =>
    have hd := hab.disposition (hclosed a (by simp))
    have ih := ih fun c hc => hclosed c (by simp [hc])
    rw [List.countP_cons,List.countP_cons,ih,hd]

lemma ledgerCounts_eq_zero {d : CandidateDisposition} :
    ledgerCounts rows d = 0 ↔ ∀ c ∈ rows, c.disposition ≠ some d := by
  simp [ledgerCounts]

variable {claim : ClaimedJob}

lemma holds_jobId (hholds : claim.holds w.job = true) :
    claim.job.jobId = w.job.jobId := (ClaimedJob.holds_jobId hholds).symm

structure Matched (c : Candidate) (i : CandidateIntent) : Prop where
  slot : i.slot = c.slot
  digest : c.contentDigest = i.contentDigest
  doubtful : c.status = .unknown → i.status = .unknown
  owner : i.disposition.any CandidateDisposition.ownsId = i.canonicalId.isSome
  recorded : c.canonicalId.isSome = true → c.canonicalId = i.canonicalId

lemma slots_nodup (hk : Keyed s) (hw : s.window? id = some w) :
    (w.slots.map fun c => c.slot).Nodup := by
  have hslots := Store.window?_slots hw
  have hpairs : (w.slots.map fun c => (c.jobId,c.slot)).Nodup := by
    rw [← hslots]
    exact hk.slots.sublist (List.filter_sublist.map _)
  refine List.Nodup.of_map (fun q : ℕ => (id,q)) ?_
  rw [List.map_map]
  convert hpairs using 1
  apply List.map_congr_left
  intro c hc
  have hid : c.jobId = id := Store.slots_jobId (hslots ▸ hc)
  simp [hid]

variable {o : WindowOutcome} {i : CandidateIntent}

lemma commitAccepted_row (hk : Keyed s) (hw : s.window? claim.job.jobId = some w)
    (hacc : commitAccepted env s claim o = true) (hc : c ∈ w.slots) :
    ∃ i ∈ o.candidateSlots, Matched c i ∧ o.candidateSlots.find? (fun x => x.slot = c.slot) =
    some i := by
  simp only [commitAccepted,Store.window?_slots hw,Bool.and_eq_true,Store.sameSlots,
    List.all_eq_true,List.any_eq_true,decide_eq_true_eq,Bool.not_eq_true'] at hacc
  obtain ⟨⟨hrows,-⟩,hintents⟩ := hacc
  obtain ⟨i,hi,hslot⟩ := hrows c hc
  have hfound : o.candidateSlots.find? (fun x => x.slot = c.slot) = some i := by
    rw [← hslot]
    exact find?_key o.slots_nodup hi
  have hrow : w.slots.find? (fun x => x.slot = i.slot) = some c := by
    rw [hslot]
    exact @find?_key _ _ _ (fun x : Candidate => x.slot) _ _ (slots_nodup hk hw) hc
  have hrej := hintents i hi
  simp only [intentRejected,hrow,Bool.or_eq_false_iff,Bool.not_eq_false',ledgerRow,
    Bool.and_eq_true,decide_eq_true_eq] at hrej
  refine ⟨i,hi,⟨hslot,hrej.1.1.1.1.2,?_,?_,?_⟩,hfound⟩
  · intro hu
    simpa [hu] using hrej.1.1.2
  · simpa using hrej.1.2
  · intro ho
    simpa [ho] using hrej.2

/-- The intents of a valid outcome are unknown, failed or committed, never anything else. -/
inductive CandidateIntent.Closed (i : CandidateIntent) : Prop
  | unknown (hs : i.status = .unknown) (hd : i.disposition = none)
  | failed (hs : i.status = .failed) (hd : i.disposition = some .failed)
  | committed (d : CandidateDisposition) (hs : i.status = .committed)
      (hd : i.disposition = some d) (hne : d ≠ .failed)

lemma CandidateIntent.closed_of_shape (h : i.closedShape = true) :
    i.Closed := by
  unfold CandidateIntent.closedShape at h
  cases hs : i.status with
  | unknown =>
    rw [hs] at h
    exact .unknown hs (by simpa using h)
  | failed =>
    rw [hs] at h
    exact .failed hs (by simpa using h)
  | committed =>
    rw [hs] at h
    simp only [Bool.and_eq_true,decide_eq_true_eq] at h
    obtain ⟨d,hd⟩ := Option.isSome_iff_exists.mp h.1
    have hne : d ≠ .failed := fun he => h.2 (by rw [hd,he])
    exact .committed d hs hd hne
  | planned | writing =>
    rw [hs] at h
    cases h

/-- `valid_window_outcome`, read as propositions. -/
structure WindowOutcome.Valid (o : WindowOutcome) : Prop where
  closed : ∀ i ∈ o.candidateSlots, i.Closed
  unknown : o.candidateSlots.countP (fun i => i.status = .unknown) = o.unknownCount
  counts : intentCount o.candidateSlots = o.counts
  advance : o.canAdvance = true → o.unknownCount = 0 ∧ o.counts .failed = 0

lemma WindowOutcome.valid (h : validWindowOutcome o = true) : o.Valid := by
  simp only [validWindowOutcome,Bool.and_eq_true,List.all_eq_true,decide_eq_true_eq,
    Bool.or_eq_true,Bool.not_eq_true'] at h
  obtain ⟨⟨⟨hclosed,hunknown⟩,hcounts⟩,hadvance⟩ := h
  refine ⟨fun i hi => CandidateIntent.closed_of_shape (hclosed i hi),hunknown,funext hcounts,?_⟩
  intro ha
  rcases hadvance with hn | hz
  · exact absurd ha (by simp [hn])
  · exact hz

lemma WindowOutcome.Valid.completes (h : o.Valid) {now : Time} {reason : SummaryReasonCode}
    {nextAt : Option Time}
    (hverdict : commitVerdict claim o now = some (.completed,reason,nextAt)) :
    ∀ i ∈ o.candidateSlots, ∃ d, i.status = .committed ∧ i.disposition = some d ∧ d ≠ .failed := by
  have hadvance : o.canAdvance = true := by
    unfold commitVerdict at hverdict
    split at hverdict
    · simp at hverdict
    split at hverdict
    · assumption
    split at hverdict
    · simp at hverdict
    · obtain ⟨d,-,hd⟩ := Option.map_eq_some_iff.mp hverdict
      simp at hd
  obtain ⟨hunknown,hfailed⟩ := h.advance hadvance
  intro i hi
  have hstatus : i.status ≠ .unknown := by
    have hcount := h.unknown
    rw [hunknown,List.countP_eq_zero] at hcount
    simpa using hcount i hi
  have hdisposition : i.disposition ≠ some .failed := by
    have hcount := congrFun h.counts .failed
    rw [hfailed,intentCount,List.countP_eq_zero] at hcount
    simpa using hcount i hi
  cases h.closed i hi with
  | unknown hs => exact absurd hs hstatus
  | failed _ hd => exact absurd hd hdisposition
  | committed d hs hd hne => exact ⟨d,hs,hd,hne⟩

lemma settledBy_disposition (intents : List CandidateIntent) (now : Time)
    (h : intents.find? (fun x => x.slot = c.slot) = some i) :
    c.settledBy intents now = c.settled i now := by
  rw [Candidate.settledBy,h]

lemma settled_counts (hk : Keyed s) (hw : s.window? claim.job.jobId = some w) (hvalid : o.Valid)
    (hacc : commitAccepted env s claim o = true) (now : Time) :
    ledgerCounts (w.slots.map (Candidate.settledBy o.candidateSlots now)) = o.counts := by
  rw [← hvalid.counts]
  funext d
  have hsame : ∀ k, k ∈ (w.slots.map fun c => c.slot) ↔ k ∈ o.candidateSlots.map CandidateIntent.slot := by
    intro k
    simp only [commitAccepted,Store.window?_slots hw,Bool.and_eq_true,Store.sameSlots,
      List.all_eq_true,List.any_eq_true,decide_eq_true_eq] at hacc
    obtain ⟨⟨hrows,hintents⟩,-⟩ := hacc
    simp only [List.mem_map]
    constructor
    · rintro ⟨c,hc,rfl⟩
      exact hrows c hc
    · rintro ⟨i,hi,rfl⟩
      exact hintents i hi
  -- the disposition of a row depends on its slot only
  have hcount := countP_of_same_keys (slots_nodup hk hw) o.slots_nodup hsame fun k =>
    decide ((o.candidateSlots.find? fun x => x.slot = k).bind CandidateIntent.disposition = some d)
  have hleft : ledgerCounts (w.slots.map (Candidate.settledBy o.candidateSlots now)) d =
      w.slots.countP fun c => decide ((o.candidateSlots.find? fun x => x.slot = c.slot).bind
        CandidateIntent.disposition = some d) := by
    rw [ledgerCounts,List.countP_map]
    apply List.countP_congr
    intro c hc
    obtain ⟨i,-,-,hi⟩ := commitAccepted_row hk hw hacc hc
    simp [settledBy_disposition _ now hi,Candidate.settled,hi]
  have hright : intentCount o.candidateSlots d =
      o.candidateSlots.countP fun i => decide ((o.candidateSlots.find? fun x =>
        x.slot = i.slot).bind CandidateIntent.disposition = some d) := by
    apply List.countP_congr
    intro i hi
    have hfound : o.candidateSlots.find? (fun x => x.slot = i.slot) = some i := find?_key o.slots_nodup hi
    simp [hfound]
  rw [hleft,hright]
  exact hcount

structure Settled (w : Window) : Prop where
  closed : ∀ c ∈ w.slots, c.status.closed = true
  counts : ledgerCounts w.slots = w.job.counts

lemma Settled.kept (h : Settled w) (hrows : LedgerKept w.slots w'.slots)
    (hcounts : w'.job.counts = w.job.counts) : Settled w' := by
  constructor
  · intro c' hc'
    obtain ⟨c,hc,hkept⟩ := ListLaws.forall₂_right hrows hc'
    rw [hkept.status (h.closed c hc)]
    exact h.closed c hc
  · rw [hrows.ledgerCounts h.closed,h.counts,hcounts]

lemma terminal_iff {status : SummaryJobStatus} :
    status.terminal = true ↔ status = .completed ∨ status = .abandoned := by
  cases status <;> simp [SummaryJobStatus.terminal]

lemma holds_running (hholds : claim.holds w.job = true) : w.job.status = .running := by
  simp only [ClaimedJob.holds,Bool.and_eq_true,decide_eq_true_eq] at hholds
  exact hholds.1.1.2

/-- A given-up job shows no owner, so the three counts the abandonment zeroes are zero. -/
theorem abandonedCounts_eq (h : rows.any Candidate.ownerEvidence = false) :
    abandonedCounts (ledgerCounts (abandonedSlots now rows)) =
    ledgerCounts (abandonedSlots now rows) := by
  have hzero : ∀ d : CandidateDisposition, d.ownsId = true → ledgerCounts (abandonedSlots now rows) d = 0 := by
    intro d hd
    rw [ledgerCounts_eq_zero]
    intro c' hc' he
    obtain ⟨c,hc,rfl⟩ := mem_modify.mp hc'
    split at he
    · obtain rfl : CandidateDisposition.failed = d := by simpa [Candidate.abandoned] using he
      exact absurd hd (by simp [CandidateDisposition.ownsId])
    · have hc := (List.any_eq_false.mp h) c hc
      simp [Candidate.ownerEvidence,he,hd] at hc
  funext d
  cases d with
  | canonical | markWrite | skippedIdempotent => exact (hzero _ rfl).symm
  | _ => rfl

lemma abandonedSlots_closed (h : rows.any Candidate.ownerEvidence = false) :
    ∀ c ∈ abandonedSlots now rows, c.status.closed = true := by
  intro c' hc'
  obtain ⟨c,hc,rfl⟩ := mem_modify.mp hc'
  split
  · rfl
  · rename_i hp
    have howner := (List.any_eq_false.mp h) c hc
    have hnone : c.canonicalId.isNone = true := by
      by_contra hn
      have hsome : c.canonicalId.isSome = true := by
        rw [Option.isNone_iff_eq_none,← ne_eq,Option.ne_none_iff_isSome] at hn
        exact hn
      exact howner (by simp [Candidate.ownerEvidence,hsome])
    simpa [hnone] using hp

lemma abandonable_evidence {session : String} {epoch : ℕ}
    (hw : s.window? w.job.jobId = some w) (hab : w.job ∈ s.abandonableJobs session epoch) :
    w.slots.any Candidate.ownerEvidence = false := by
  have hcan := (Store.mem_abandonableJobs.mp hab).2.2.2
  simp only [abandonable,Bool.and_eq_true,Bool.not_eq_true',Store.window?_slots hw] at hcan
  exact hcan.2

lemma Life.settled (hk : Keyed s) (hw : s.window? w.job.jobId = some w)
    (h : Life env s call w w') (hs : w.job.status.terminal = true → Settled w)
    (ht : w'.job.status.terminal = true) : Settled w' := by
  cases h with
  | stay => exact hs ht
  | committed claim o status reason nextAt hop hholds hvalid hverdict hacc hstor =>
    have hw : s.window? claim.job.jobId = some w := by
      rw [holds_jobId hholds]
      exact hw
    have hvalid := WindowOutcome.valid hvalid
    obtain rfl : status = .completed := by
      rcases commitVerdict_not_running hverdict with rfl | rfl | rfl | rfl <;>
        first | rfl | exact absurd ht (by simp [Job.committed,SummaryJobStatus.terminal])
    refine ⟨?_,settled_counts hk hw hvalid hacc call.now⟩
    intro c' hc'
    obtain ⟨c,hc,rfl⟩ := List.mem_map.mp hc'
    obtain ⟨i,hi,-,hfound⟩ := commitAccepted_row hk hw hacc hc
    obtain ⟨d,hstatus,-,-⟩ := hvalid.completes hverdict i hi
    simp [settledBy_disposition _ call.now hfound,Candidate.settled,hstatus, CandidateLedgerStatus.closed]
  | reconciled claim mapping hop hholds slots hrows hclosed =>
    exact ⟨fun c hc => (hclosed c hc).1,rfl⟩
  | confirmed claim mapping hop hdone slots hrows => exact (hs ht).kept hrows.kept rfl
  | judged => exact (hs ht).kept (judgedRows_kept _ _ _ _) rfl
  | resolved snapshot scan hop hscan hid hcur hsame hne slots hslots hres =>
    refine ⟨fun c hc => ?_,rfl⟩
    have hc := hres c hc
    simp only [Candidate.unresolved,Bool.or_eq_false_iff,Bool.not_eq_false'] at hc
    exact hc.1
  | abandoned session epoch hop hab =>
    have hevidence := abandonable_evidence hw hab
    exact ⟨abandonedSlots_closed call.now hevidence,(abandonedCounts_eq call.now hevidence).symm⟩
  | recorded claim _ _ hholds | writing claim _ _ hholds | renewed claim _ _ hholds
  | owned claim _ _ hholds =>
    have hrun : w.job.status = .running := holds_running hholds
    exact absurd ht (by simp [hrun,Job.renewed,SummaryJobStatus.terminal])
  | failed claim f status nextAt reason hop hholds hverdict =>
    rcases failVerdict_not_running hverdict with rfl | rfl | rfl <;>
      exact absurd ht (by simp [Job.failed,SummaryJobStatus.terminal])
  | recovered =>
    simp only [Job.recovered] at ht
    split at ht <;> exact absurd ht (by simp [SummaryJobStatus.terminal])
  | _ => exact absurd ht (by simp [SummaryJobStatus.terminal,Job.claimed,Job.refused,
      Job.doubted,Job.requeued,Job.degraded,Job.startupUnknown,Job.cancelledFor])

lemma Fresh.not_terminal (hw : Fresh env w) : w.job.status.terminal = false := by
  obtain ⟨c,id,start,stop,digest,complete,now,hj,_⟩ := hw.planned
  rw [hj]
  simp only [SummaryWindowContext.job]
  split <;> rfl

lemma settled_run (env : Env) (calls : List Call) :
    ∀ id w, (run env Store.empty calls).window? id = some w → w.job.status.terminal = true →
    Settled w :=
  windows_run (P := fun w => w.job.status.terminal = true → Settled w)
    (fun w hw ht => absurd ht (by simp [hw.not_terminal]))
    (fun _ _ _ _ hk hw h hs => h.settled hk hw hs) calls

end Memora.Summary

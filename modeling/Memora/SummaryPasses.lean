import Memora.SummaryRestart

/-! A pass treats the windows of its scan one by one. Epochs and counters move only with a window
it completes. -/
namespace Memora.Summary
open RowTable

variable {env : Env} {s t : Store} {id : String} {w w' : Window} {l : Lookups} {now : Time}
    {st' : Store × ℕ}
  {n : ℕ}

namespace Store

structure Completes (s t : Store) (id : String) (w w' : Window) : Prop where
  before : s.window? id = some w
  after : t.window? id = some w'
  current : s.isCurrent w.job.sessionId w.job.sessionEpoch = true
  fresh : w.job.status ≠ .completed
  done : w'.job.status = .completed

lemma window?_of_job? {job : Job} (h : s.job? id = some job) :
    s.window? id = some ⟨job,s.slots id,s.credited id⟩ := by
  rw [window?,h]
  rfl

lemma resumable_not_completed {status : SummaryJobStatus} (h : status.resumable = true) :
    status ≠ .completed := by
  rintro rfl
  exact absurd h (by decide)

lemma epochRow?_advanceCursor_of_ne (t : Store) {session other : String} (hne : session ≠ other)
    {epoch : ℕ} : (t.advanceCursor other epoch now).epochRow? session = t.epochRow? session := by
  rw [epochRow?_advanceCursor]
  cases hrow : t.epochRow? session with
  | none => rfl
  | some e =>
    have he : e.sessionId ≠ other := (epochRow?_session hrow).trans_ne hne
    simp [he]

lemma startupJob_epochs {scan : ScannedJob}
    (h : startupJob now (t,n) scan = some st') : st'.1.epochs = t.epochs ∧
    st'.1.counterLog = t.counterLog ∨
      ∃ w w', Completes t st'.1 scan.jobId w w' ∧
        ∀ session, session ≠ w.job.sessionId → st'.1.epochRow? session = t.epochRow? session := by
  cases hjob : t.job? scan.jobId with
  | none =>
    simp only [startupJob,hjob] at h
    rw [← Option.some.inj h]
    exact .inl ⟨rfl,rfl⟩
  | some job =>
  have hw := window?_of_job? hjob
  simp only [startupJob,hjob] at h
  split at h
  · rw [← Option.some.inj h]
    exact .inl ⟨rfl,rfl⟩
  rename_i hcur
  split at h
  · rw [← Option.some.inj h]
    exact .inl ⟨rfl,rfl⟩
  split at h
  · split at h
    · rw [← Option.some.inj h]
      exact .inl ⟨rfl,rfl⟩
    · rw [← Option.some.inj h]
      exact .inl ⟨rfl,rfl⟩
  split at h
  · cases h
  have hjudged := window?_judgeSlots hw job now
  rw [window?_slots hjudged] at h
  split at h
  · rw [← Option.some.inj h]
    exact .inl ⟨rfl,rfl⟩
  split at h
  · rw [← Option.some.inj h]
    exact .inl ⟨rfl,rfl⟩
  rename_i hgo
  have hresume : job.status.resumable = true := by
    simp only [Bool.or_eq_true,not_or,Bool.not_eq_true',Bool.not_eq_false] at hgo
    exact hgo.2
  rw [← Option.some.inj h]
  have hafter := window?_updateJob hjudged (f := Job.startupCompleted (ledgerCounts
    ((t.slots scan.jobId).map fun c => c.judged now (scan.verdict job.toJobSource c))) now)
    (by intro j; rfl)
  set counts := ledgerCounts
    ((t.slots scan.jobId).map fun c => c.judged now (scan.verdict job.toJobSource c)) with hcounts
  have hwin := window?_addCounters ((t.judgeSlots scan job now).updateJobs
    (fun j => j.jobId = scan.jobId) (Job.startupCompleted counts now)) scan.jobId
    (fun d => counts d - job.counts d) scan.jobId
  rw [hafter,Option.map_some] at hwin
  exact .inr ⟨_,_,⟨hw,hwin,by simpa using hcur,resumable_not_completed hresume,rfl⟩,
    fun session hne => epochRow?_advanceCursor_of_ne _ hne⟩

variable {scans : List ScannedJob}

lemma startupJobs_other {st st' : Store × ℕ} (hid : ∀ scan ∈ scans, scan.jobId ≠ id)
    (h : scans.foldlM (startupJob now) st = some st') : st'.1.window? id = st.1.window? id :=
  RunLaws.foldlM_invariant (P := fun t : Store × ℕ => t.1.window? id = st.1.window? id)
    (fun _ scan hscan _ hu h => (startupJob_other (hid scan hscan) hu).trans h) rfl h

lemma not_mem_jobIds {scan : ScannedJob} (hn : scan.jobId ∉ scans.map ScannedJob.jobId) :
    ∀ x ∈ scans, x.jobId ≠ scan.jobId :=
  fun x hx he => hn (List.mem_map.mpr ⟨x,hx,he⟩)

theorem startupJobs_window (hn : (scans.map ScannedJob.jobId).Nodup)
    (h : scans.foldlM (startupJob now) (t,n) = some st') {scan : ScannedJob} (hscan : scan ∈ scans)
    (hw : t.window? scan.jobId = some w) :
    ∃ w', startupWindow (t.isCurrent w.job.sessionId w.job.sessionEpoch) scan now w = some w' ∧
      st'.1.window? scan.jobId = some w' := by
  induction scans generalizing t n with
  | nil => simp at hscan
  | cons first scans ih =>
    obtain ⟨⟨t₁,n₁⟩,h1,h2⟩ := Option.bind_eq_some_iff.mp h
    rw [List.map_cons,List.nodup_cons] at hn
    rcases List.mem_cons.mp hscan with rfl | hscan
    · have hwin := startupJob_window? hw now n
      rw [h1,Option.map_some] at hwin
      cases hstart : startupWindow (t.isCurrent w.job.sessionId w.job.sessionEpoch) scan now w with
      | none => simp [hstart] at hwin
      | some w' =>
        rw [hstart,Option.map_some] at hwin
        exact ⟨w',rfl,(startupJobs_other (not_mem_jobIds hn.1) h2).trans (Option.some.inj hwin)⟩
    · have hne : first.jobId ≠ scan.jobId := fun he => hn.1 (List.mem_map.mpr ⟨scan,hscan,he.symm⟩)
      rw [← startupJob_isCurrent h1]
      exact ih hn.2 h2 hscan ((startupJob_other hne h1).trans hw)

theorem startupJobs_none (hn : (scans.map ScannedJob.jobId).Nodup) :
    scans.foldlM (startupJob now) (t,n) = none ↔ ∃ scan ∈ scans, ∃ w, t.window? scan.jobId = some w ∧
        startupWindow (t.isCurrent w.job.sessionId w.job.sessionEpoch) scan now w = none := by
  induction scans generalizing t n with
  | nil => simp
  | cons first scans ih =>
    rw [List.map_cons,List.nodup_cons] at hn
    rw [List.foldlM_cons]
    cases h1 : startupJob now (t,n) first with
    | none =>
      simp only [Option.bind_eq_bind,Option.bind_none,true_iff]
      cases hw : t.window? first.jobId with
      | none =>
        have hjob : t.job? first.jobId = none := by simpa [window?] using hw
        simp [startupJob,hjob] at h1
      | some w =>
        have hwin := startupJob_window? hw now n
        rw [h1,Option.map_none] at hwin
        exact ⟨first,by simp,w,hw,by simpa using hwin.symm⟩
    | some st₁ =>
      simp only [Option.bind_eq_bind,Option.bind_some]
      rw [ih hn.2]
      constructor
      · rintro ⟨scan,hscan,w,hw,hnone⟩
        have hne : first.jobId ≠ scan.jobId := (not_mem_jobIds hn.1 scan hscan).symm
        rw [startupJob_isCurrent h1] at hnone
        exact ⟨scan,by simp [hscan],w,(startupJob_other hne h1).symm.trans hw,hnone⟩
      · rintro ⟨scan,hscan,w,hw,hnone⟩
        rcases List.mem_cons.mp hscan with rfl | hscan
        · have hwin := startupJob_window? hw now n
          rw [h1,hnone] at hwin
          cases hwin
        · have hne : first.jobId ≠ scan.jobId := (not_mem_jobIds hn.1 scan hscan).symm
          rw [← startupJob_isCurrent h1] at hnone
          exact ⟨scan,hscan,w,(startupJob_other hne h1).trans hw,hnone⟩

lemma startupJobs_epochs (hn : (scans.map ScannedJob.jobId).Nodup)
    (h : scans.foldlM (startupJob now) (t,n) = some st') :
    (st'.1.epochs = t.epochs ∧ st'.1.counterLog = t.counterLog ∨
      ∃ scan ∈ scans, ∃ w w', Completes t st'.1 scan.jobId w w') ∧
    ∀ session, st'.1.epochRow? session = t.epochRow? session ∨
      ∃ scan ∈ scans, ∃ w w', Completes t st'.1 scan.jobId w w' ∧ w.job.sessionId = session := by
  induction scans generalizing t n with
  | nil =>
    obtain rfl : (t,n) = st' := by simpa using h
    exact ⟨.inl ⟨rfl,rfl⟩,fun session => .inl rfl⟩
  | cons first scans ih =>
    obtain ⟨⟨t₁,n₁⟩,h1,h2⟩ := Option.bind_eq_some_iff.mp h
    rw [List.map_cons,List.nodup_cons] at hn
    obtain ⟨htables,hsessions⟩ := ih hn.2 h2
    -- later completions are completions of the whole pass, and so is the first one
    have hlater : ∀ scan ∈ scans, ∀ w w', Completes t₁ st'.1 scan.jobId w w' →
        Completes t st'.1 scan.jobId w w' := by
      intro scan hscan w w' hc
      have hne : first.jobId ≠ scan.jobId := (not_mem_jobIds hn.1 scan hscan).symm
      exact ⟨(startupJob_other hne h1).symm.trans hc.before,hc.after,
        (startupJob_isCurrent h1 _ _).symm.trans hc.current,hc.fresh,hc.done⟩
    have hfirst : ∀ w w', Completes t t₁ first.jobId w w' → Completes t st'.1 first.jobId w w' := fun w w' hc =>
      ⟨hc.before,(startupJobs_other (not_mem_jobIds hn.1) h2).trans hc.after,hc.current,hc.fresh, hc.done⟩
    have hstep := startupJob_epochs h1
    constructor
    · rcases htables with ⟨he,hl⟩ | ⟨scan,hscan,w,w',hc⟩
      · rcases hstep with ⟨he₁,hl₁⟩ | ⟨w,w',hc,-⟩
        · exact .inl ⟨he.trans he₁,hl.trans hl₁⟩
        · exact .inr ⟨first,by simp,w,w',hfirst w w' hc⟩
      · exact .inr ⟨scan,by simp [hscan],w,w',hlater scan hscan w w' hc⟩
    · intro session
      rcases hsessions session with hrow | ⟨scan,hscan,w,w',hc,hsession⟩
      · rcases hstep with ⟨he₁,-⟩ | ⟨w,w',hc,hothers⟩
        · exact .inl (hrow.trans (by rw [epochRow?,he₁,epochRow?]))
        · by_cases hsession : session = w.job.sessionId
          · exact .inr ⟨first,by simp,w,w',hfirst w w' hc,hsession.symm⟩
          · exact .inl (hrow.trans (hothers session hsession))
      · exact .inr ⟨scan,by simp [hscan],w,w',hlater scan hscan w w' hc,hsession⟩

end Store

open Store

lemma Keyed.scan_jobIds (hk : Keyed s) (l : Lookups) : ((l.scan s).map ScannedJob.jobId).Nodup := by
  have hsub : ((s.jobs.filter fun j => !(s.scannedSlots j).isEmpty).map
      fun j => j.jobId).Nodup := hk.jobs.sublist (List.filter_sublist.map _)
  have hperm := ((List.perm_insertionSort (fun a b : Job => a.jobId ≤ b.jobId)
    (s.jobs.filter fun j => !(s.scannedSlots j).isEmpty)).map fun j => j.jobId).nodup_iff.mpr hsub
  simpa [Lookups.scan,Lookups.scanJob,Function.comp_def] using hperm

def Lookups.snapshot (l : Lookups) (s : Store) (hk : Keyed s) : StartupSnapshot :=
  ⟨l.scan s,hk.scan_jobIds l⟩

variable {scan : ScannedJob} {snapshot : StartupSnapshot} {rows : List Candidate} {st₁ : Store × ℕ}
  {job : JobSource}

lemma mem_scan (hk : Keyed s) : scan ∈ l.scan s ↔
    ∃ w, s.window? scan.jobId = some w ∧ w.scanned ≠ [] ∧ scan = l.scanWindow w := by
  simp only [Lookups.scan,List.mem_map,List.mem_insertionSort,List.mem_filter]
  constructor
  · rintro ⟨j,⟨hj,hne⟩,rfl⟩
    have hw := window?_of_job? (job?_of_mem hk hj)
    refine ⟨_,hw,?_,scanJob_eq hw⟩
    rw [← scannedSlots_eq hw]
    simpa using hne
  · rintro ⟨w,hw,hne,hscan⟩
    refine ⟨w.job,⟨window?_mem hw,?_⟩,(scanJob_eq hw).trans hscan.symm⟩
    rw [scannedSlots_eq hw]
    simpa using hne

lemma startupWindow_source {current : Bool} (h : startupWindow current scan now w = some w') :
    w'.job.toJobSource = w.job.toJobSource := by
  unfold startupWindow at h
  dsimp only at h
  split at h
  · rw [← Option.some.inj h]
    rfl
  split at h
  · rw [← Option.some.inj h]
    rfl
  split at h
  · split at h
    · rw [← Option.some.inj h]
      rfl
    · rw [← Option.some.inj h]
  split at h
  · cases h
  split at h
  · rw [← Option.some.inj h]
    rfl
  split at h
  · rw [← Option.some.inj h]
  · rw [← Option.some.inj h]
    rfl

lemma startupJobs_isCurrent {scans : List ScannedJob} {st st' : Store × ℕ}
    (h : scans.foldlM (startupJob now) st = some st') (session : String) (epoch : ℕ) :
    st'.1.isCurrent session epoch = st.1.isCurrent session epoch :=
  RunLaws.foldlM_invariant
    (P := fun t : Store × ℕ => t.1.isCurrent session epoch = st.1.isCurrent session epoch)
    (fun _ _ _ _ hu h => (startupJob_isCurrent hu session epoch).trans h) rfl h

lemma scanned_twice (hk : Keyed s)
    (h : (l.scan s).foldlM (startupJob now) (s,0) = some st₁) (hw : st₁.1.window? id = some w')
    (hscanned : w'.scanned ≠ []) (hscan : scan = l.scanWindow w') (now' : Time) :
    ∃ w₂, startupWindow (st₁.1.isCurrent w'.job.sessionId w'.job.sessionEpoch) scan now' w' =
        some w₂ ∧ w₂.unstamped = w'.unstamped ∧ w₂.job.status ≠ .completed := by
  have hother : ∀ w, s.window? id = some w → w.scanned ≠ [] := by
    intro w hs hempty
    have hskip : ∀ x ∈ l.scan s, x.jobId ≠ id := by
      rintro x hx rfl
      obtain ⟨v,hv,hne,-⟩ := (mem_scan hk).mp hx
      obtain rfl : v = w := Option.some.inj (hv.symm.trans hs)
      exact hne hempty
    obtain rfl : w' = w := Option.some.inj (hw.symm.trans ((startupJobs_other hskip h).trans hs))
    exact hscanned hempty
  cases hs : s.window? id with
  | none =>
    have hskip : ∀ x ∈ l.scan s, x.jobId ≠ id := by
      rintro x hx rfl
      obtain ⟨v,hv,-⟩ := (mem_scan hk).mp hx
      exact absurd (hv.symm.trans hs) (by simp)
    exact absurd (hw.symm.trans ((startupJobs_other hskip h).trans hs)) (by simp)
  | some w =>
    have hid : (l.scanWindow w).jobId = id := window?_jobId hs
    have hmem : l.scanWindow w ∈ l.scan s := (mem_scan hk).mpr ⟨w,hid ▸ hs,hother w hs,rfl⟩
    obtain ⟨w₁,hstart,hw₁⟩ := startupJobs_window (hk.scan_jobIds l) h hmem (hid ▸ hs)
    rw [hid] at hw₁
    obtain rfl : w' = w₁ := Option.some.inj (hw.symm.trans hw₁)
    have hsource := startupWindow_source hstart
    have hsession := congrArg JobSource.sessionId hsource
    have hepoch := congrArg JobSource.sessionEpoch hsource
    rw [startupJobs_isCurrent h,hsession,hepoch,hscan]
    exact startupWindow_again (slots_nodup hk hs) hstart hscanned now'

theorem startupJobs_again (hk : Keyed s)
    (h : (l.scan s).foldlM (startupJob now) (s,0) = some st₁) (hk₁ : Keyed st₁.1) (now' : Time) :
    ∃ st₂, (l.scan st₁.1).foldlM (startupJob now') (st₁.1,0) = some st₂ ∧
      (∀ id, (st₂.1.window? id).map Window.unstamped = (st₁.1.window? id).map Window.unstamped) ∧
      st₂.1.epochs = st₁.1.epochs ∧ st₂.1.counterLog = st₁.1.counterLog := by
  have hn := hk₁.scan_jobIds l
  have hagain : ∀ scan ∈ l.scan st₁.1, ∀ w', st₁.1.window? scan.jobId = some w' →
      ∃ w₂, startupWindow (st₁.1.isCurrent w'.job.sessionId w'.job.sessionEpoch) scan now' w' =
        some w₂ ∧ w₂.unstamped = w'.unstamped ∧ w₂.job.status ≠ .completed := by
    intro scan hscan w' hw'
    obtain ⟨v,hv,hne,heq⟩ := (mem_scan hk₁).mp hscan
    obtain rfl : v = w' := Option.some.inj (hv.symm.trans hw')
    exact scanned_twice hk h hv hne heq now'
  cases h2 : (l.scan st₁.1).foldlM (startupJob now') (st₁.1,0) with
  | none =>
    obtain ⟨scan,hscan,w',hw',hnone⟩ := (startupJobs_none hn).mp h2
    obtain ⟨w₂,hw₂,-⟩ := hagain scan hscan w' hw'
    exact absurd (hnone.symm.trans hw₂) (by simp)
  | some st₂ =>
    refine ⟨st₂,rfl,fun id => ?_,?_⟩
    · by_cases hid : ∃ scan ∈ l.scan st₁.1, scan.jobId = id
      · obtain ⟨scan,hscan,rfl⟩ := hid
        obtain ⟨w',hw',-⟩ := (mem_scan hk₁).mp hscan
        obtain ⟨w₂,hw₂,hsame,-⟩ := hagain scan hscan w' hw'
        obtain ⟨w₃,hw₃,hafter⟩ := startupJobs_window hn h2 hscan hw'
        obtain rfl : w₂ = w₃ := Option.some.inj (hw₂.symm.trans hw₃)
        rw [hafter,hw',Option.map_some,Option.map_some,hsame]
      · push Not at hid
        rw [startupJobs_other hid h2]
    · rcases (startupJobs_epochs hn h2).1 with heq | ⟨scan,hscan,w',w₃,hc⟩
      · exact heq
      · obtain ⟨w₂,hw₂,-,hopen⟩ := hagain scan hscan w' hc.before
        obtain ⟨w₄,hw₄,hafter⟩ := startupJobs_window hn h2 hscan hc.before
        obtain rfl : w₂ = w₄ := Option.some.inj (hw₂.symm.trans hw₄)
        obtain rfl : w₃ = w₂ := Option.some.inj (hc.after.symm.trans hafter)
        exact absurd hc.done hopen

inductive Lookups.Shows (l : Lookups) (job : JobSource) (key : String) :
    CandidateDisposition → Option ℕ → Prop
  | merged (look : String → OwnerAnswer) (hlook : l.merged = some look) (o : ℕ) (ho : 0 < o)
      (h : look key = .owner o) : Shows l job key .merged (some o)
  | canonical (look : String → OwnerAnswer) (hlook : l.canonical = some look) (o : ℕ) (ho : 0 < o)
      (h : look key = .owner o) : Shows l job key .canonical (some o)
  | quarantined (look : String → QuarantineAnswer) (hlook : l.quarantine = some look)
      (e : QuarantineEvidence) (h : look key = .record e)
      (hmatch : quarantineEvidenceMatches job key e = true) : Shows l job key .quarantined none

lemma askOwner_cases (look : Option (String → OwnerAnswer)) (key : String)
    (found : ℕ → SlotEvidence) (next : SlotEvidence) :
    askOwner look key found next = next ∨ (∃ e, askOwner look key found next = .failed e) ∨
      ∃ f o, look = some f ∧ 0 < o ∧ f key = .owner (o : ℕ) ∧ askOwner look key found next = found o := by
  unfold askOwner
  split
  · exact .inl rfl
  · split
    · exact .inr (.inl ⟨_,rfl⟩)
    · rename_i f _ i hi
      split
      · rename_i hpos
        refine .inr (.inr ⟨f,i.toNat,rfl,by omega,?_,rfl⟩)
        rw [hi,Int.toNat_of_nonneg (by omega)]
      · exact .inr (.inl ⟨_,rfl⟩)
    · exact .inr (.inl ⟨_,rfl⟩)
    · exact .inl rfl

lemma askQuarantine_found (look : Option (String → QuarantineAnswer)) (key : String) :
    (∀ o, askQuarantine look key ≠ .merged o ∧ askQuarantine look key ≠ .canonical o) ∧
      ∀ e, askQuarantine look key = .quarantined e → ∃ f, look = some f ∧ f key = .record e := by
  unfold askQuarantine
  split
  · simp
  · rename_i f
    split
    · simp
    · rename_i e he
      simp [he]
    · simp

lemma ask_found (l : Lookups) (job : JobSource) (key : String) :
    (∀ o, l.ask key = .merged o → l.Shows job key .merged (some o)) ∧
    (∀ o, l.ask key = .canonical o → l.Shows job key .canonical (some o)) ∧
    ∀ e, l.ask key = .quarantined e → quarantineEvidenceMatches job key e = true →
      l.Shows job key .quarantined none := by
  have hq := askQuarantine_found l.quarantine key
  have hquarantined : ∀ e, askQuarantine l.quarantine key = .quarantined e →
      quarantineEvidenceMatches job key e = true → l.Shows job key .quarantined none := by
    intro e he hm
    obtain ⟨f,hf,hrecord⟩ := hq.2 e he
    exact .quarantined f hf e hrecord hm
  unfold Lookups.ask
  rcases askOwner_cases l.merged key .merged (askOwner l.canonical key .canonical
    (askQuarantine l.quarantine key)) with h | ⟨e,h⟩ | ⟨f,o,hf,ho,hkey,h⟩ <;> rw [h]
  · rcases askOwner_cases l.canonical key .canonical (askQuarantine l.quarantine key) with
      h | ⟨e,h⟩ | ⟨f,o,hf,ho,hkey,h⟩ <;> rw [h]
    · exact ⟨fun o ho => absurd ho (hq.1 o).1,fun o ho => absurd ho (hq.1 o).2,hquarantined⟩
    · simp
    · refine ⟨by simp,?_,by simp⟩
      rintro o' ho'
      obtain rfl : o = o' := by simpa using ho'
      exact .canonical f hf o ho hkey
  · simp
  · refine ⟨?_,by simp,by simp⟩
    rintro o' ho'
    obtain rfl : o = o' := by simpa using ho'
    exact .merged f hf o ho hkey

theorem verdict_shown {c : Candidate}
    (hscan : ∀ i ∈ scan.slots, ∃ c₀ : Candidate, i = l.scanSlot c₀) {d : CandidateDisposition}
    {o : Option ℕ} (h : scan.verdict job c = .commit d o) :
    c.status.inDoubt = true ∧ l.Shows job c.idempotencyKey d o := by
  unfold ScannedJob.verdict at h
  split at h
  · cases h
  rename_i hd
  refine ⟨by simpa using hd,?_⟩
  split at h
  · cases h
  rename_i i hi
  split at h
  · cases h
  rename_i hkey
  obtain ⟨c₀,rfl⟩ := hscan i (List.mem_of_find?_eq_some hi)
  have hkey : c₀.idempotencyKey = c.idempotencyKey := not_not.mp hkey
  have hask : (l.scanSlot c₀).evidence = l.ask c.idempotencyKey ∨ (l.scanSlot c₀).evidence = .none := by
    unfold Lookups.scanSlot
    split
    · exact .inl (congrArg l.ask hkey)
    · exact .inr rfl
  obtain ⟨hmerged,hcanonical,hquarantined⟩ := ask_found l job c.idempotencyKey
  split at h
  · rename_i o' he
    split at h
    · cases h
      exact hmerged o' ((hask.resolve_right (by simp [he])).symm.trans he)
    · cases h
  · rename_i o' he
    split at h
    · cases h
      exact hcanonical o' ((hask.resolve_right (by simp [he])).symm.trans he)
    · cases h
  · rename_i e he
    split at h
    · rename_i hm
      cases h
      exact hquarantined e ((hask.resolve_right (by simp [he])).symm.trans he) hm
    · cases h
  · cases h

structure Conservative (l : Lookups) (s t : Store) : Prop where
  committed : ∀ id w w', s.window? id = some w → t.window? id = some w' → ∀ c' ∈ w'.slots,
    c'.status = .committed → c' ∈ w.slots ∨
      s.isCurrent w.job.sessionId w.job.sessionEpoch = true ∧ ∃ c ∈ w.slots, ∃ d,
        c.status.inDoubt = true ∧ c'.toSlotSource = c.toSlotSource ∧ c'.disposition = some d ∧
          l.Shows w.job.toJobSource c.idempotencyKey d c'.canonicalId
  outdated : ∀ id w w', s.window? id = some w → t.window? id = some w' →
    s.isCurrent w.job.sessionId w.job.sessionEpoch = false → w' = w ∨ w'.job.status = .unknown
  cursor : ∀ session, t.epochRow? session = s.epochRow? session ∨
    ∃ id w w', Completes s t id w w' ∧ w.job.sessionId = session
  completed : ∀ id w w', Completes s t id w w' →
    ∀ c ∈ w'.slots, c.unresolved = false ∧ c.disposition ≠ some .failed

lemma Conservative.refl (l : Lookups) (s : Store) : Conservative l s s where
  committed := by
    intro id w w' hw hw' c' hc' _
    obtain rfl := Option.some.inj (hw.symm.trans hw')
    exact .inl hc'
  outdated := by
    intro id w w' hw hw' _
    exact .inl (Option.some.inj (hw'.symm.trans hw))
  cursor := fun _ => .inl rfl
  completed := by
    intro id w w' hc
    obtain rfl := Option.some.inj (hc.before.symm.trans hc.after)
    exact absurd hc.done hc.fresh

lemma judged_shown (hscan : ∀ i ∈ scan.slots, ∃ c₀ : Candidate, i = l.scanSlot c₀) {c' : Candidate}
    (hc' : c' ∈ rows.map fun c => c.judged now (scan.verdict job c))
    (hcommitted : c'.status = .committed) : c' ∈ rows ∨ ∃ c ∈ rows, ∃ d,
      c.status.inDoubt = true ∧ c'.toSlotSource = c.toSlotSource ∧ c'.disposition = some d ∧
        l.Shows job c.idempotencyKey d c'.canonicalId := by
  obtain ⟨c,hc,rfl⟩ := List.mem_map.mp hc'
  cases hv : scan.verdict job c with
  | keep =>
    left
    exact hc
  | doubt =>
    rw [hv] at hcommitted
    exact absurd hcommitted (by simp [Candidate.judged,Candidate.doubted])
  | commit d o =>
    obtain ⟨hd,hshown⟩ := verdict_shown hscan hv
    exact .inr ⟨c,hc,d,hd,rfl,rfl,hshown⟩

lemma fenced_shown {c' : Candidate} (hc' : c' ∈ modify (fun c => c.status.inDoubt)
    (Candidate.doubted now) rows)
    (hcommitted : c'.status = .committed) : c' ∈ rows := by
  obtain ⟨c,hc,rfl⟩ := mem_modify.mp hc'
  by_cases hd : c.status.inDoubt = true
  · rw [if_pos hd] at hcommitted
    exact absurd hcommitted (by simp [Candidate.doubted])
  · rw [if_neg hd]
    exact hc

lemma startupWindow_conservative {current : Bool}
    (hscan : ∀ i ∈ scan.slots, ∃ c₀ : Candidate, i = l.scanSlot c₀)
    (h : startupWindow current scan now w = some w') :
    (∀ c' ∈ w'.slots, c'.status = .committed → c' ∈ w.slots ∨ current = true ∧ ∃ c ∈ w.slots, ∃ d,
      c.status.inDoubt = true ∧ c'.toSlotSource = c.toSlotSource ∧ c'.disposition = some d ∧
        l.Shows w.job.toJobSource c.idempotencyKey d c'.canonicalId) ∧
    (current = false → w'.job.status = .unknown) ∧
    (w.job.status ≠ .completed → w'.job.status = .completed →
      ∀ c ∈ w'.slots, c.unresolved = false ∧ c.disposition ≠ some .failed) := by
  unfold startupWindow at h
  dsimp only at h
  split at h
  · rw [← Option.some.inj h]
    exact ⟨fun c' hc' hcommitted => .inl (fenced_shown hc' hcommitted),fun _ => rfl,
      by simp [Job.startupUnknown]⟩
  rename_i hcur
  have hcur : current = true := by simpa using hcur
  have hnotout : current = false → w'.job.status = .unknown := fun hout => by simp [hout] at hcur
  refine and_left_comm.mp ⟨hnotout,?_⟩
  split at h
  · rw [← Option.some.inj h]
    exact ⟨fun c' hc' hcommitted => .inl (fenced_shown hc' hcommitted),
      by simp [Job.startupUnknown]⟩
  split at h
  · split at h
    · rw [← Option.some.inj h]
      exact ⟨fun c' hc' _ => .inl hc',by simp [Job.startupUnknown]⟩
    · rw [← Option.some.inj h]
      exact ⟨fun c' hc' _ => .inl hc',fun hfresh hdone => absurd hdone hfresh⟩
  split at h
  · cases h
  split at h
  · rw [← Option.some.inj h]
    refine ⟨fun c' hc' hcommitted => ?_,by simp [Job.startupUnknown]⟩
    exact (judged_shown hscan hc' hcommitted).imp_right fun hshown => ⟨hcur,hshown⟩
  rename_i hresolved
  split at h
  · rw [← Option.some.inj h]
    refine ⟨fun c' hc' hcommitted => ?_,fun hfresh hdone => absurd hdone hfresh⟩
    exact (judged_shown hscan hc' hcommitted).imp_right fun hshown => ⟨hcur,hshown⟩
  rename_i hgo
  rw [← Option.some.inj h]
  refine ⟨fun c' hc' hcommitted => ?_,fun _ _ c hc => ⟨?_,?_⟩⟩
  · exact (judged_shown hscan hc' hcommitted).imp_right fun hshown => ⟨hcur,hshown⟩
  · exact Bool.eq_false_iff.mpr (List.any_eq_false.mp (Bool.eq_false_iff.mpr hresolved) c hc)
  · simp only [Bool.or_eq_true,not_or,decide_eq_true_eq,not_not] at hgo
    exact ledgerCounts_eq_zero.mp hgo.1 c hc

lemma scan_slots {s₀ : Store} (h : scan ∈ l.scan s₀) :
    ∀ i ∈ scan.slots, ∃ c₀ : Candidate, i = l.scanSlot c₀ := by
  obtain ⟨j,-,rfl⟩ := List.mem_map.mp h
  intro i hi
  obtain ⟨c₀,-,rfl⟩ := List.mem_map.mp hi
  exact ⟨c₀,rfl⟩

lemma reconcile_conservative {s₀ : Store} (hk₀ : Keyed s₀) (l : Lookups) (s : Store) (now : Time) :
    Conservative l s (s.reconcileStartupCandidates (l.snapshot s₀ hk₀) now).1 := by
  unfold reconcileStartupCandidates
  split
  · exact .refl l s
  rename_i t n hf
  have hn : ((l.snapshot s₀ hk₀).jobs.map ScannedJob.jobId).Nodup := (l.snapshot s₀ hk₀).distinct
  have hwindow : ∀ id w w', s.window? id = some w → t.window? id = some w' → w' = w ∨
      ∃ scan ∈ l.scan s₀, startupWindow (s.isCurrent w.job.sessionId w.job.sessionEpoch) scan now w
        = some w' := by
    intro id w w' hw hw'
    by_cases hid : ∃ scan ∈ l.scan s₀, scan.jobId = id
    · obtain ⟨scan,hscan,rfl⟩ := hid
      obtain ⟨w₁,hw₁,hafter⟩ := startupJobs_window hn hf hscan hw
      obtain rfl : w' = w₁ := Option.some.inj (hw'.symm.trans hafter)
      exact .inr ⟨scan,hscan,hw₁⟩
    · push Not at hid
      have hsame : t.window? id = s.window? id := startupJobs_other hid hf
      exact .inl (Option.some.inj (hw'.symm.trans (hsame.trans hw)))
  constructor
  · intro id w w' hw hw' c' hc' hcommitted
    rcases hwindow id w w' hw hw' with rfl | ⟨scan,hscan,hstart⟩
    · exact .inl hc'
    · exact (startupWindow_conservative (scan_slots hscan) hstart).1 c' hc' hcommitted
  · intro id w w' hw hw' hout
    rcases hwindow id w w' hw hw' with rfl | ⟨scan,hscan,hstart⟩
    · exact .inl rfl
    · exact .inr ((startupWindow_conservative (scan_slots hscan) hstart).2.1 hout)
  · intro session
    rcases (startupJobs_epochs hn hf).2 session with hrow | ⟨scan,-,w,w',hc,hsession⟩
    · exact .inl hrow
    · exact .inr ⟨scan.jobId,w,w',hc,hsession⟩
  · intro id w w' hc
    rcases hwindow id w w' hc.before hc.after with rfl | ⟨scan,hscan,hstart⟩
    · exact absurd hc.done hc.fresh
    · exact (startupWindow_conservative (scan_slots hscan) hstart).2.2 hc.fresh hc.done

lemma Keyed.startupPass (hk : Keyed s) (snapshot : StartupSnapshot) (now : Time) :
    Keyed (s.reconcileStartupCandidates snapshot now).1 :=
  hk.moves (reconcileStartupCandidates_moves s snapshot now)

lemma reconcile_none (h : snapshot.jobs.foldlM (startupJob now) (s,0) = none) :
    s.reconcileStartupCandidates snapshot now = (s,.error "summary_recovery_failed") := by
  rw [reconcileStartupCandidates,h]

lemma reconcile_some {st : Store × ℕ} (h : snapshot.jobs.foldlM (startupJob now) (s,0) = some st) :
    s.reconcileStartupCandidates snapshot now = (st.1,.ok st.2) := by
  rw [reconcileStartupCandidates,h]

theorem reconcile_twice (hk : Keyed s) (l : Lookups) (now now' : Time) :
    let first := s.reconcileStartupCandidates (l.snapshot s hk) now
    let second := first.1.reconcileStartupCandidates (l.snapshot first.1 (hk.startupPass _ now)) now'
    (∀ id, (second.1.window? id).map Window.unstamped = (first.1.window? id).map Window.unstamped) ∧
    second.1.epochs = first.1.epochs ∧ second.1.counterLog = first.1.counterLog ∧
    second.2.isOk = first.2.isOk := by
  intro first second
  have hn := hk.scan_jobIds l
  cases hf : (l.snapshot s hk).jobs.foldlM (startupJob now) (s,0) with
  | none =>
    have hfirst : first = (s,.error "summary_recovery_failed") := reconcile_none hf
    have hagain : (l.scan s).foldlM (startupJob now') (s,0) = none := by
      obtain ⟨scan,hscan,w,hw,hnone⟩ := (startupJobs_none hn).mp hf
      exact (startupJobs_none hn).mpr ⟨scan,hscan,w,hw,(startupWindow_none _ _ _ _ _).mp hnone⟩
    have hsecond : ∀ (t : Store) (hkt : Keyed t), t = s →
        t.reconcileStartupCandidates (l.snapshot t hkt) now' = (s,.error "summary_recovery_failed") := by
      rintro t hkt rfl
      exact reconcile_none hagain
    have hsecond : second = (s,.error "summary_recovery_failed") := hsecond first.1 _ (congrArg Prod.fst hfirst)
    rw [hsecond,hfirst]
    exact ⟨fun _ => rfl,rfl,rfl,rfl⟩
  | some st₁ =>
    have hfirst : first = (st₁.1,.ok st₁.2) := reconcile_some hf
    have hsecond : ∀ (t : Store) (hkt : Keyed t), t = st₁.1 → ∃ st₂ : Store × ℕ,
        t.reconcileStartupCandidates (l.snapshot t hkt) now' = (st₂.1,.ok st₂.2) ∧
        (∀ id, (st₂.1.window? id).map Window.unstamped = (st₁.1.window? id).map Window.unstamped) ∧
        st₂.1.epochs = st₁.1.epochs ∧ st₂.1.counterLog = st₁.1.counterLog := by
      rintro t hkt rfl
      obtain ⟨st₂,h2,hsame⟩ := startupJobs_again hk hf hkt now'
      exact ⟨st₂,reconcile_some h2,hsame⟩
    obtain ⟨st₂,hst₂,hwindows,hepochs,hlog⟩ := hsecond first.1 (hk.startupPass _ now) (congrArg Prod.fst hfirst)
    have hst₂ : second = (st₂.1,.ok st₂.2) := hst₂
    rw [hst₂,hfirst]
    exact ⟨hwindows,hepochs,hlog,rfl⟩

/-- Start-up reconciliation is idempotent in every reachable store, and conservative also where
the store has moved on since its scan. -/
theorem startup_idempotent_conservative (env : Env) (calls later : List Call) (l : Lookups)
    (now now' : Time) :
    let hk := Keyed.empty.run env calls
    let s := run env Store.empty calls
    let first := s.reconcileStartupCandidates (l.snapshot s hk) now
    let second := first.1.reconcileStartupCandidates (l.snapshot first.1 (hk.startupPass _ now)) now'
    ((∀ id, (second.1.window? id).map Window.unstamped = (first.1.window? id).map Window.unstamped) ∧
      second.1.epochs = first.1.epochs ∧ second.1.counterLog = first.1.counterLog ∧
      second.2.isOk = first.2.isOk) ∧
    Conservative l (run env s later)
      ((run env s later).reconcileStartupCandidates (l.snapshot s hk) now).1 := by
  intro hk s first second
  exact ⟨reconcile_twice hk l now now',reconcile_conservative hk l (run env s later) now⟩

end Memora.Summary

import Memora.SummaryBalance

/-! A pass over the scan of the same store is a function of each window. What it left unresolved
a second pass leaves as it is, up to time stamps. -/
namespace Memora.Summary
open RowTable

variable {env : Env} {s t : Store} {id : String} {w w' : Window} {l : Lookups} {job : JobSource}
  {c : Candidate} {rows : List Candidate} {now now' : Time}

def Window.scanned (w : Window) : List Candidate :=
  (w.slots.insertionSort fun a b => a.slot ≤ b.slot).filter fun c =>
    c.status.inDoubt || w.job.status = .running

/-- `scanJob` in terms of the window. -/
def Lookups.scanWindow (l : Lookups) (w : Window) : ScannedJob :=
  ⟨w.job.jobId,w.job.sessionId,w.job.startSeq,w.job.endSeq,w.job.expectedCount,
    w.job.sourceDigest,w.scanned.map l.scanSlot⟩

lemma scannedSlots_eq (hw : s.window? id = some w) : s.scannedSlots w.job = w.scanned := by
  have hid := Store.window?_jobId hw
  rw [Store.scannedSlots,Store.orderedSlots,hid,Store.window?_slots hw]
  rfl

lemma scanJob_eq (hw : s.window? id = some w) : l.scanJob s w.job = l.scanWindow w := by
  rw [Lookups.scanJob,scannedSlots_eq hw]
  rfl

def Lookups.verdict (l : Lookups) (job : JobSource) (c : Candidate) : SlotVerdict :=
  if !c.status.inDoubt then .keep
  else match (l.scanSlot c).evidence with
    | .merged o => if c.canonicalId.all (· = o) then .commit .merged (some o) else .keep
    | .canonical o => if c.canonicalId.all (· = o) then .commit .canonical (some o) else .keep
    | .quarantined e =>
      if quarantineEvidenceMatches job c.idempotencyKey e then .commit .quarantined none
      else .doubt
    | _ => .doubt

lemma scanned_nodup (hn : (w.slots.map fun c => c.slot).Nodup) :
    ((w.scanned.map l.scanSlot).map ScannedSlot.slot).Nodup := by
  rw [List.map_map]
  have hsorted := ((List.perm_insertionSort (fun a b : Candidate => a.slot ≤ b.slot) w.slots).map
    fun c => c.slot).nodup_iff.mpr hn
  exact hsorted.sublist (List.filter_sublist.map _)

lemma scanWindow_verdict (hn : (w.slots.map fun c => c.slot).Nodup) (hc : c ∈ w.slots) :
    (l.scanWindow w).verdict job c = l.verdict job c := by
  unfold ScannedJob.verdict Lookups.verdict
  by_cases hd : c.status.inDoubt = true
  · have hmem : l.scanSlot c ∈ w.scanned.map l.scanSlot := by
      refine List.mem_map.mpr ⟨c,List.mem_filter.mpr ⟨?_,by simp [hd]⟩,rfl⟩
      exact (List.perm_insertionSort _ _).mem_iff.mpr hc
    have hfind : (l.scanWindow w).slots.find? (fun i => i.slot = c.slot) = some (l.scanSlot c) :=
      find?_key (scanned_nodup hn) hmem
    have hkey : (l.scanSlot c).key = c.idempotencyKey := rfl
    rw [if_neg (by simp [hd]),if_neg (by simp [hd]),hfind]
    refine (if_neg (by simp [hkey])).trans ?_
    cases (l.scanSlot c).evidence <;> rfl
  · rw [if_pos (by simpa using hd),if_pos (by simpa using hd)]

lemma map_verdict (hn : (w.slots.map fun c => c.slot).Nodup) :
    (w.slots.map fun c => c.judged now ((l.scanWindow w).verdict job c)) =
      w.slots.map fun c => c.judged now (l.verdict job c) :=
  List.map_congr_left fun c hc => by rw [scanWindow_verdict hn hc]

def Candidate.unstamped (c : Candidate) : Candidate := { c with updatedAt := 0 }

def Job.unstamped (j : Job) : Job := { j with updatedAt := 0 }

def Window.unstamped (w : Window) : Window :=
  ⟨w.job.unstamped,w.slots.map Candidate.unstamped,w.credited⟩

lemma verdict_cases (l : Lookups) (job : JobSource) (c : Candidate) :
    (c.status.inDoubt = false ∧ l.verdict job c = .keep) ∨
      c.status.inDoubt = true ∧ (∀ e, (l.scanSlot c).evidence ≠ .failed e) ∧
        ((∃ d o, l.verdict job c = .commit d o) ∨ l.verdict job c = .keep) ∨
      c.status.inDoubt = true ∧ l.verdict job c = .doubt ∧
        ∀ now, l.verdict job (c.doubted now) = .doubt := by
  by_cases hd : c.status.inDoubt = true
  · have hagain : ∀ now, (l.scanSlot (c.doubted now)).evidence = (l.scanSlot c).evidence := by
      intro now
      have hdoubt : (CandidateLedgerStatus.unknown).inDoubt = true := rfl
      simp [Lookups.scanSlot,Candidate.doubted,hdoubt,hd]
    have hunknown : ∀ now, (c.doubted now).status.inDoubt = true := fun _ => rfl
    right
    unfold Lookups.verdict
    simp only [hd,hagain,hunknown]
    cases he : (l.scanSlot c).evidence with
    | merged o | canonical o =>
      left
      refine ⟨trivial,by simp,?_⟩
      by_cases ho : c.canonicalId.all (· = o) = true <;> simp [ho]
    | quarantined e =>
      have hkey : ∀ now, (c.doubted now).idempotencyKey = c.idempotencyKey := fun _ => rfl
      by_cases hm : quarantineEvidenceMatches job c.idempotencyKey e = true
      · exact .inl ⟨trivial,by simp,.inl ⟨.quarantined,none,by simp [hm]⟩⟩
      · exact .inr ⟨trivial,by simp [hm],fun now => by simp [hkey,hm]⟩
    | none | failed e => exact .inr ⟨trivial,rfl,fun _ => rfl⟩
  · left
    simp [Lookups.verdict,hd]

theorem judged_again (l : Lookups) (job : JobSource) (c : Candidate) (now now' : Time) :
    let c₁ := c.judged now (l.verdict job c)
    (c₁.judged now' (l.verdict job c₁)).unstamped = c₁.unstamped ∧
      ∀ d o, l.verdict job c₁ ≠ .commit d o := by
  intro c₁
  rcases verdict_cases l job c with ⟨hd,hkeep⟩ | ⟨hd,-,⟨d,o,hcommit⟩ | hkeep⟩ |
      ⟨hd,hdoubt,hagain⟩
  · have hc : c₁ = c := by
      change c.judged now (l.verdict job c) = c
      rw [hkeep]
      rfl
    rw [hc,hkeep]
    exact ⟨rfl,by simp⟩
  · have hc : c₁.status = .committed := by
      change (c.judged now (l.verdict job c)).status = _
      rw [hcommit]
      rfl
    have hkeep : l.verdict job c₁ = .keep := by
      simp [Lookups.verdict,hc,CandidateLedgerStatus.inDoubt]
    rw [hkeep]
    exact ⟨rfl,by simp⟩
  · have hc : c₁ = c := by
      change c.judged now (l.verdict job c) = c
      rw [hkeep]
      rfl
    rw [hc,hkeep]
    exact ⟨rfl,by simp⟩
  · have hc : c₁ = c.doubted now := by
      change c.judged now (l.verdict job c) = _
      rw [hdoubt]
      rfl
    rw [hc,hagain now]
    exact ⟨rfl,by simp⟩

def Lookups.failure (l : Lookups) (c : Candidate) : Option String :=
  match (l.scanSlot c).evidence with
  | .failed e => some e
  | _ => none

lemma failure_of_settled (hd : c.status.inDoubt = false) : l.failure c = none := by
  simp [Lookups.failure,Lookups.scanSlot,hd]

lemma findSome?_filter_of {α β : Type*} {p : α → Bool} {f : α → Option β} (items : List α)
    (h : ∀ x, p x = false → f x = none) : (items.filter p).findSome? f = items.findSome? f := by
  induction items with
  | nil => rfl
  | cons x items ih =>
    rw [List.filter_cons,List.findSome?_cons]
    cases hx : p x with
    | true => rw [if_pos rfl,List.findSome?_cons,ih]
    | false =>
      rw [if_neg (by simp),h x hx]
      exact ih

lemma evidenceError_eq (l : Lookups) (w : Window) : (l.scanWindow w).evidenceError =
    (w.slots.insertionSort fun a b => a.slot ≤ b.slot).findSome? l.failure := by
  have hmap : (l.scanWindow w).evidenceError = w.scanned.findSome? l.failure := by
    rw [ScannedJob.evidenceError,Lookups.scanWindow,List.findSome?_map]
    rfl
  rw [hmap,Window.scanned]
  apply findSome?_filter_of
  intro c hc
  simp only [Bool.or_eq_false_iff] at hc
  exact failure_of_settled hc.1

lemma failure_judged (l : Lookups) (job : JobSource) (c : Candidate) (now : Time) :
    l.failure (c.judged now (l.verdict job c)) = l.failure c := by
  rcases verdict_cases l job c with ⟨-,hkeep⟩ | ⟨-,hne,⟨d,o,hcommit⟩ | hkeep⟩ |
      ⟨hd,hdoubt,-⟩
  · rw [hkeep]
    rfl
  · have hnone : l.failure c = none := by
      unfold Lookups.failure
      split
      · rename_i e he
        exact absurd he (hne e)
      · rfl
    rw [hnone,hcommit]
    exact failure_of_settled rfl
  · rw [hkeep]
    rfl
  · rw [hdoubt]
    have hunknown : (CandidateLedgerStatus.unknown).inDoubt = true := rfl
    simp [Lookups.failure,Lookups.scanSlot,Candidate.judged,Candidate.doubted,hunknown,hd]

lemma judged_slot (now : Time) (v : SlotVerdict) (c : Candidate) :
    (c.judged now v).slot = c.slot := by
  cases v <;> rfl

lemma insertionSort_judged (l : Lookups) (job : JobSource) (now : Time) (rows : List Candidate) :
    ((rows.map fun c => c.judged now (l.verdict job c)).insertionSort
        fun a b => a.slot ≤ b.slot) =
      (rows.insertionSort fun a b => a.slot ≤ b.slot).map
        fun c => c.judged now (l.verdict job c) := by
  refine (List.map_insertionSort _ _ _ _ fun a _ b _ => ?_).symm
  rw [judged_slot,judged_slot]

theorem evidenceError_again (l : Lookups) (job : Job) (credited : Counts) (now : Time) :
    (l.scanWindow ⟨job,w.slots.map fun c => c.judged now (l.verdict w.job.toJobSource c),
      credited⟩).evidenceError = (l.scanWindow w).evidenceError := by
  rw [evidenceError_eq,evidenceError_eq,insertionSort_judged,List.findSome?_map]
  congr 1
  funext c
  exact failure_judged l _ c now

lemma normalizeExceptionType_safe {e : String} (h : e ∈ safeExceptionTypes) :
    normalizeExceptionType (some e) = some e := by
  have hall : ∀ e ∈ safeExceptionTypes, normalizeExceptionType (some e) = some e := by
    decide +kernel
  exact hall e h

lemma normalizeExceptionType_mem {value : Option String} {e : String}
    (h : normalizeExceptionType value = some e) : e ∈ safeExceptionTypes := by
  have hunknown : "unknown" ∈ safeExceptionTypes := by decide
  unfold normalizeExceptionType at h
  split at h
  · cases h
  split at h
  · cases h
  split at h
  · rename_i hsafe
    obtain rfl := Option.some.inj h
    exact hsafe
  · cases h
    exact hunknown

lemma reconcileExceptionType_again (current fallback : Option String) :
    reconcileExceptionType (some (reconcileExceptionType current fallback)) fallback =
      reconcileExceptionType current fallback := by
  have hfallback : exceptionOrUnknown fallback ∈ safeExceptionTypes := by
    unfold exceptionOrUnknown
    split
    · rename_i e he
      exact normalizeExceptionType_mem he
    · decide
  have hrecorded : reconcileExceptionType current fallback = exceptionOrUnknown fallback ∨
      reconcileExceptionType current fallback ≠ "unknown" ∧
        reconcileExceptionType current fallback ∈ safeExceptionTypes := by
    unfold reconcileExceptionType
    split
    · rename_i e he
      split
      · exact .inl rfl
      · rename_i hne
        exact .inr ⟨hne,normalizeExceptionType_mem he⟩
    · exact .inl rfl
  rcases hrecorded with h | ⟨hne,hsafe⟩
  · rw [h,reconcileExceptionType,normalizeExceptionType_safe hfallback]
    dsimp only
    split <;> rfl
  · generalize reconcileExceptionType current fallback = e at hne hsafe
    rw [reconcileExceptionType,normalizeExceptionType_safe hsafe]
    dsimp only
    rw [if_neg hne]

lemma unstamped_judged (l : Lookups) (job : JobSource) (rows : List Candidate) (now now' : Time) :
    let rows₁ := rows.map fun c => c.judged now (l.verdict job c)
    (rows₁.map fun c => c.judged now' (l.verdict job c)).map Candidate.unstamped =
      rows₁.map Candidate.unstamped := by
  intro rows₁
  rw [List.map_map,List.map_map,List.map_map]
  apply List.map_congr_left
  intro c _
  exact (judged_again l job c now now').1

lemma any_unresolved_congr {rows rows' : List Candidate}
    (h : rows.map Candidate.unstamped = rows'.map Candidate.unstamped) :
    rows.any Candidate.unresolved = rows'.any Candidate.unresolved := by
  have hany : ∀ rows : List Candidate,
      (rows.map Candidate.unstamped).any Candidate.unresolved = rows.any Candidate.unresolved := by
    intro rows
    rw [List.any_map]
    rfl
  rw [← hany rows,h,hany]

lemma ledgerCounts_congr {rows rows' : List Candidate}
    (h : rows.map Candidate.unstamped = rows'.map Candidate.unstamped) :
    ledgerCounts rows = ledgerCounts rows' := by
  have hcount : ∀ rows : List Candidate, ledgerCounts (rows.map Candidate.unstamped) = ledgerCounts rows := by
    intro rows
    funext d
    rw [ledgerCounts,List.countP_map]
    rfl
  rw [← hcount rows,h,hcount]

lemma sourceUnchanged_scanWindow (l : Lookups) (w : Window) :
    Store.sourceUnchanged (l.scanWindow w) w.job = true := by
  simp [Store.sourceUnchanged,Lookups.scanWindow]

lemma scanned_closed (hclosed : ∀ c ∈ w.slots, c.status.closed = true)
    (hstatus : w.job.status ≠ .running) : w.scanned = [] := by
  rw [Window.scanned,List.filter_eq_nil_iff]
  intro c hc
  have hc := hclosed c ((List.perm_insertionSort _ _).mem_iff.mp hc)
  have hd : c.status.inDoubt = false := by
    by_contra hd
    exact absurd hc (by simp [inDoubt_open (by simpa using hd)])
  simp [hd,hstatus]

lemma not_unresolved_closed (h : rows.any Candidate.unresolved = false) :
    ∀ c ∈ rows, c.status.closed = true := by
  intro c hc
  have hno := List.any_eq_false.mp h c hc
  simp only [Candidate.unresolved,Bool.or_eq_true,not_or,Bool.not_eq_true, Bool.not_eq_false'] at hno
  exact hno.1

lemma startupWindow_current (hn : (w.slots.map fun c => c.slot).Nodup) (hne : w.slots ≠ [])
    (hstore : ∀ c ∈ w.slots, ∀ d o, l.verdict w.job.toJobSource c = .commit d o →
      o.all sqlInt = true) (now : Time) :
    let slots := w.slots.map fun c => c.judged now (l.verdict w.job.toJobSource c)
    Store.startupWindow true (l.scanWindow w) now w = some (if slots.any Candidate.unresolved then
        { w with
          job := w.job.startupUnknown .ledgerUnresolved
            (reconcileExceptionType w.job.exceptionType (l.scanWindow w).evidenceError) now
          slots := slots }
      else if ledgerCounts slots .failed ≠ 0 || !w.job.status.resumable then
        { w with slots := slots }
      else
        { job := w.job.startupCompleted (ledgerCounts slots) now
          slots := slots
          credited := w.credited+fun d => ledgerCounts slots d - w.job.counts d }) := by
  intro slots
  have hslots : (w.slots.map fun c => c.judged now
      ((l.scanWindow w).verdict w.job.toJobSource c)) = slots := map_verdict hn
  unfold Store.startupWindow
  rw [hslots,if_neg (by simp),if_neg (by simp [sourceUnchanged_scanWindow]),
    if_neg (by simpa using hne)]
  rw [if_neg]
  · split
    · rfl
    · split <;> rfl
  · rw [Bool.not_eq_true,List.any_eq_false]
    intro c hc
    rw [scanWindow_verdict hn hc]
    cases hv : l.verdict w.job.toJobSource c with
    | commit d o => simp [hstore c hc d o hv]
    | keep | doubt => simp

lemma startupWindow_none (current : Bool) (scan : ScannedJob) (w : Window) (now now' : Time) :
    Store.startupWindow current scan now w = none ↔
    Store.startupWindow current scan now' w = none := by
  unfold Store.startupWindow
  dsimp only
  split
  · simp
  split
  · simp
  split
  · split <;> simp
  split
  · simp
  · constructor
    · intro h
      split at h
      · simp at h
      · split at h <;> simp at h
    · intro h
      split at h
      · simp at h
      · split at h <;> simp at h

lemma fenced_again (rows : List Candidate) (now now' : Time) :
    (modify (fun c : Candidate => c.status.inDoubt) (Candidate.doubted now')
        (modify (fun c => c.status.inDoubt) (Candidate.doubted now) rows)).map Candidate.unstamped =
      (modify (fun c => c.status.inDoubt) (Candidate.doubted now) rows).map
        Candidate.unstamped := by
  rw [modify_modify,RowTable.modify,List.map_map,List.map_map]
  apply List.map_congr_left
  intro c _
  dsimp only [Function.comp_apply]
  by_cases hd : c.status.inDoubt = true
  · have hunknown : (c.doubted now).status.inDoubt = true := rfl
    rw [if_pos hd,if_pos hunknown]
    rfl
  · rw [if_neg hd,if_neg hd]

lemma startupWindow_again {current : Bool} (hn : (w.slots.map fun c => c.slot).Nodup)
    (h : Store.startupWindow current (l.scanWindow w) now w = some w')
    (hscanned : w'.scanned ≠ []) (now' : Time) :
    ∃ w₂, Store.startupWindow current (l.scanWindow w') now' w' = some w₂ ∧
      w₂.unstamped = w'.unstamped ∧ w₂.job.status ≠ .completed := by
  cases current with
  | false =>
    obtain rfl : _ = w' := Option.some.inj h
    refine ⟨_,rfl,?_,by simp [Job.startupUnknown]⟩
    simp only [Window.unstamped,fenced_again,Job.unstamped,Job.startupUnknown, reconcileExceptionType_again]
  | true =>
    have hne : w.slots ≠ [] := by
      intro hempty
      unfold Store.startupWindow at h
      rw [if_neg (by simp),if_neg (by simp [sourceUnchanged_scanWindow]), if_pos (by simp [hempty])] at h
      split at h <;> obtain rfl := Option.some.inj h <;> exact hscanned (by simp [Window.scanned,hempty])
    have hstore : ∀ c ∈ w.slots, ∀ d o, l.verdict w.job.toJobSource c = .commit d o → o.all sqlInt = true := by
      by_contra hbad
      push Not at hbad
      obtain ⟨c,hc,d,o,hv,ho⟩ := hbad
      unfold Store.startupWindow at h
      rw [if_neg (by simp),if_neg (by simp [sourceUnchanged_scanWindow]),
        if_neg (by simpa using hne),if_pos] at h
      · cases h
      · refine List.any_eq_true.mpr ⟨c,hc,?_⟩
        rw [scanWindow_verdict hn hc,hv]
        simpa using ho
    rw [startupWindow_current hn hne hstore] at h
    set slots := w.slots.map fun c => c.judged now (l.verdict w.job.toJobSource c) with hslots
    have hslotsNodup : (slots.map fun c => c.slot).Nodup := by
      rw [hslots,List.map_map]
      simpa [Function.comp_def,judged_slot] using hn
    have hslotsNe : slots ≠ [] := by simpa [hslots] using hne
    have hagain : ∀ c ∈ slots, ∀ d o, l.verdict w.job.toJobSource c ≠ .commit d o := by
      intro c hc
      obtain ⟨c₀,-,rfl⟩ := List.mem_map.mp hc
      exact (judged_again l w.job.toJobSource c₀ now now').2
    have hslots₂ : (slots.map fun c => c.judged now' (l.verdict w.job.toJobSource c)).map
        Candidate.unstamped = slots.map Candidate.unstamped :=
      unstamped_judged l w.job.toJobSource w.slots now now'
    have hany := any_unresolved_congr hslots₂
    have hcounts := ledgerCounts_congr hslots₂
    have hw' := (Option.some.inj h).symm
    split at hw'
    · rename_i hunresolved
      subst hw'
      have hstart := startupWindow_current (l := l) (w := { w with
          job := w.job.startupUnknown .ledgerUnresolved
            (reconcileExceptionType w.job.exceptionType (l.scanWindow w).evidenceError) now
          slots := slots }) hslotsNodup hslotsNe
        (fun c hc d o hv => absurd hv (hagain c hc d o)) now'
      refine ⟨_,hstart.trans (congrArg some (if_pos (hany.trans hunresolved))),?_,
        by simp [Job.startupUnknown]⟩
      have herror := evidenceError_again (w := w) l (w.job.startupUnknown .ledgerUnresolved
        (reconcileExceptionType w.job.exceptionType (l.scanWindow w).evidenceError) now) w.credited now
      simp only [Window.unstamped,Job.unstamped,Job.startupUnknown] at herror ⊢
      rw [herror,reconcileExceptionType_again]
      exact congrArg (fun rows => Window.mk _ rows _) hslots₂
    · rename_i hresolved
      have hclosed := not_unresolved_closed (by simpa using hresolved)
      split at hw'
      · rename_i hstay
        subst hw'
        have hrunning : w.job.status = .running := by
          by_contra hstatus
          exact hscanned (scanned_closed (w := { w with slots := slots }) hclosed hstatus)
        have hstart := startupWindow_current (l := l) (w := { w with slots := slots }) hslotsNodup
          hslotsNe (fun c hc d o hv => absurd hv (hagain c hc d o)) now'
        have hresolved₂ : ¬(slots.map fun c =>
            c.judged now' (l.verdict w.job.toJobSource c)).any Candidate.unresolved = true := by
          rw [hany]
          exact hresolved
        have hstay₂ : (ledgerCounts (slots.map fun c =>
            c.judged now' (l.verdict w.job.toJobSource c)) .failed ≠ 0 ||
              !w.job.status.resumable) = true := by
          rw [hcounts]
          exact hstay
        refine ⟨_,hstart.trans (congrArg some ((if_neg hresolved₂).trans (if_pos hstay₂))),?_,
          by simp [hrunning]⟩
        exact congrArg (fun rows => Window.mk w.job.unstamped rows w.credited) hslots₂
      · subst hw'
        exact absurd (scanned_closed (w := { job := _, slots := slots, credited := _ }) hclosed
          (by simp [Job.startupCompleted])) hscanned

end Memora.Summary

import Memora.SummaryBalance

/-! How the worker turns the prepared slots and what the candidate store reported for
them into one window outcome. Every exit of the candidate phase yields an outcome
the summary store accepts at commit. -/
namespace Memora.Summary

inductive ReflectionStoreOutcome
  | canonical | quarantined | discarded | markWrite | merged | failed | skippedIdempotent
  deriving DecidableEq

/-- `_RESULT_DISPOSITIONS`. -/
def ReflectionStoreOutcome.disposition : ReflectionStoreOutcome → CandidateDisposition
  | .canonical => .canonical
  | .quarantined => .quarantined
  | .discarded => .discard
  | .markWrite => .markWrite
  | .merged => .merged
  | .failed => .failed
  | .skippedIdempotent => .skippedIdempotent

/-- What a store may leave in `canonical_id`; a boolean is an integer to `isinstance`. -/
inductive OwnerValue
  | int (value : ℤ)
  | bool (value : Bool)
  deriving DecidableEq

def OwnerValue.toInt : OwnerValue → ℤ
  | .int value => value
  | .bool value => if value then 1 else 0

def validId : Option OwnerValue → Option ℕ
  | some (.int value) => if 0 < value then some value.toNat else none
  | _ => none

structure ReflectionStoreResult where
  outcome : ReflectionStoreOutcome
  idempotencyKey : String := ""
  canonicalId : Option OwnerValue := none

/-- What `_prepare_candidates` keeps of a candidate for its slot. -/
structure PreparedCandidate where
  idempotencyKey : String
  contentDigest : String
  digest_text : isRequiredText contentDigest = true

def prepareIntents (candidates : List PreparedCandidate) : List CandidateIntent :=
  candidates.mapIdx fun slot c =>
    { slot := slot, contentDigest := c.contentDigest, idempotencyKey := c.idempotencyKey,
      digest_text := c.digest_text, canonical_pos := by simp }

/-- One slot of the loop: its intent, what the store returned for it (`none` when that is
no `ReflectionStoreResult`) and the key and digest its candidate has after the writes. -/
structure SlotReport where
  intent : CandidateIntent
  result : Option ReflectionStoreResult
  expected : Option (String × String)

variable (r : SlotReport) {value : Option OwnerValue}

def SlotReport.disposition : Option CandidateDisposition :=
  r.result.map fun result => result.outcome.disposition

def SlotReport.canonicalId : Option OwnerValue :=
  r.result.bind ReflectionStoreResult.canonicalId

def SlotReport.owner : Option ℕ := validId r.canonicalId

/-- The flags `valid` and `mapping_inconsistent` of one slot. -/
structure Judgement where
  valid : Bool
  mappingInconsistent : Bool
  deriving DecidableEq

def Judgement.fault (j : Judgement) (found : Bool) : Judgement :=
  if found then ⟨false,true⟩ else j

def SlotReport.digestDiffers : Bool :=
  r.expected.any fun e => e.2 ≠ r.intent.contentDigest

def SlotReport.keyDiffers : Bool :=
  r.disposition ≠ some .failed && r.expected.any fun e => r.result.any fun result =>
    result.idempotencyKey ≠ e.1

def SlotReport.failedKeyDiffers : Bool :=
  r.disposition = some .failed && r.expected.any fun e => r.result.any fun result =>
      result.idempotencyKey ≠ "" && result.idempotencyKey ≠ e.1

/-- A disposition with an owner needs a valid one; any other, while valid, has none. -/
def SlotReport.ownerFault (j : Judgement) : Bool :=
  if r.disposition.any CandidateDisposition.ownsId then r.owner.isNone
  else j.valid && r.canonicalId.isSome

def SlotReport.intentOwnerDiffers : Bool :=
  r.intent.canonicalId.any fun owner => r.canonicalId.map OwnerValue.toInt ≠ some (owner : ℤ)

def SlotReport.judgeKeys : Judgement :=
  (((Judgement.mk r.disposition.isSome false).fault r.digestDiffers).fault r.keyDiffers).fault
    r.failedKeyDiffers

def SlotReport.judge : Judgement :=
  let j := r.judgeKeys.fault (r.ownerFault r.judgeKeys)
  j.fault (j.valid && r.intentOwnerDiffers)

lemma validId_pos {owner : ℕ} (h : validId value = some owner) : 0 < owner := by
  unfold validId at h
  split at h
  · split at h
    · cases h
      omega
    · simp at h
  · simp at h

lemma SlotReport.owner_pos : ∀ owner ∈ r.owner, 0 < owner :=
  fun _ h => validId_pos h

/-- The intent of an invalid slot: no disposition, status unknown. -/
def CandidateIntent.unresolved (i : CandidateIntent) : CandidateIntent :=
  { i with disposition := none, status := .unknown }

def SlotReport.settled (d : CandidateDisposition) : CandidateIntent :=
  { r.intent with
    disposition := some d
    status := if d = .failed then .failed else .committed
    canonicalId := r.owner
    canonical_pos := r.owner_pos }

structure SlotTally where
  counts : Counts := fun _ => 0
  finalIntents : List CandidateIntent := []
  unknownCount : ℕ := 0
  ledgerUnresolved : Bool := false

variable (intents : List CandidateIntent) (results : List (Option ReflectionStoreResult))
  (expected : Option (List (String × String))) (t : SlotTally)

/-- One pass of the loop; the source asserts that a valid slot has a disposition. -/
def SlotTally.add (r : SlotReport) : SlotTally :=
  let unresolved := t.ledgerUnresolved || r.judge.mappingInconsistent
  match r.judge.valid, r.disposition with
  | true, some d =>
    { counts := Function.update t.counts d (t.counts d+1)
      finalIntents := t.finalIntents++[r.settled d]
      unknownCount := t.unknownCount
      ledgerUnresolved := unresolved }
  | _, _ =>
    { counts := t.counts
      finalIntents := t.finalIntents++[r.intent.unresolved]
      unknownCount := t.unknownCount+1
      ledgerUnresolved := unresolved }

/-- The constructor of a window outcome; `none` where `__post_init__` raises. -/
def WindowOutcome.create (canAdvance : Bool) (counts : Counts) (factsRejectedCount : ℕ)
    (unknownCount : ℕ) (candidateSlots : List CandidateIntent) (failedStage : Option String)
    (reasonCode : SummaryReasonCode) (exceptionType : Option String) : Option WindowOutcome :=
  if h : (candidateSlots.map CandidateIntent.slot).Nodup ∧
      (reasonCode = .noFacts → canAdvance = true ∧ candidateSlots = [] ∧
        (∀ d, counts d = 0) ∧ factsRejectedCount = 0 ∧ unknownCount = 0) then
    some { canAdvance := canAdvance, counts := counts, factsRejectedCount := factsRejectedCount,
           unknownCount := unknownCount, candidateSlots := candidateSlots,
           failedStage := failedStage, reasonCode := reasonCode,
           exceptionType := normalizeExceptionType exceptionType,
           slots_nodup := h.1, no_facts := h.2 }
  else none

/-- Nothing is known about any slot. -/
def unknownOutcome (stage : String) (reason : SummaryReasonCode) (exceptionType : Option String) :
    Option WindowOutcome :=
  WindowOutcome.create false (fun _ => 0) 0 intents.length
    (intents.map fun i => { i with status := .unknown }) (some stage) reason exceptionType

/-- `zip(intents, results, strict=True)` with the expected keys of the same index. -/
def slotReports : List SlotReport :=
  match expected with
  | none => List.zipWith (fun i r => ⟨i,r,none⟩) intents results
  | some keys =>
    List.zipWith (fun i re => ⟨i,re.1,some re.2⟩) intents (results.zip keys)

def SlotTally.canAdvance : Bool :=
  decide (t.counts .failed = 0) && decide (t.unknownCount = 0)

def SlotTally.reason : SummaryReasonCode :=
  if t.canAdvance then .completed
  else if t.ledgerUnresolved then .ledgerUnresolved
  else if t.unknownCount ≠ 0 then .invalidAction
  else .unknown

def buildOutcome (factsRejectedCount : ℕ) :
    Option WindowOutcome :=
  if results.length ≠ intents.length then
    unknownOutcome intents "candidate_write" .invalidSlot (some "unknown")
  else if expected.any fun keys => keys.length ≠ intents.length then
    unknownOutcome intents "candidate_reconcile" .ledgerUnresolved (some "unknown")
  else
    let t := (slotReports intents results expected).foldl SlotTally.add {}
    WindowOutcome.create t.canAdvance t.counts factsRejectedCount t.unknownCount t.finalIntents
      (if t.canAdvance then none else some "candidate_write") t.reason none

/-- The reasons `_route_quality` stops the writes with. -/
inductive GateRefusal
  | ledgerUnresolved | invalidAction
  deriving DecidableEq

def GateRefusal.reason : GateRefusal → SummaryReasonCode
  | .ledgerUnresolved => .ledgerUnresolved
  | .invalidAction => .invalidAction

/-- How the candidate phase of a claimed window ends once its slots are prepared. -/
inductive CandidateExit
  | intentsRefused
  | ownersUnreconciled
  | writesRefused
  | gateRefused (refusal : GateRefusal) (exceptionType : Option String)
  | storeRaised (exceptionType : String)
  | stored (results : List (Option ReflectionStoreResult))
      (expected : Option (List (String × String))) (factsRejectedCount : ℕ)

def CandidateExit.outcome : CandidateExit → Option WindowOutcome
  | .intentsRefused => unknownOutcome intents "candidate_intent" .ledgerUnresolved (some "unknown")
  | .ownersUnreconciled =>
    unknownOutcome intents "candidate_reconcile" .ledgerUnresolved (some "unknown")
  | .writesRefused => unknownOutcome intents "candidate_intent" .ledgerUnresolved (some "unknown")
  | .gateRefused refusal exceptionType =>
    unknownOutcome intents "quality_gate" refusal.reason exceptionType
  | .storeRaised exceptionType =>
    unknownOutcome intents "candidate_write" .ledgerUnresolved (some exceptionType)
  | .stored results expected factsRejectedCount =>
    buildOutcome intents results expected factsRejectedCount

def SlotReport.Consistent (d : CandidateDisposition) : Prop :=
  r.disposition = some d ∧
  (∀ e ∈ r.expected, e.2 = r.intent.contentDigest) ∧
  (∀ e ∈ r.expected, ∀ result ∈ r.result,
    result.idempotencyKey = e.1 ∨ d = .failed ∧ result.idempotencyKey = "") ∧
  (if d.ownsId then r.owner.isSome = true else r.canonicalId = none) ∧
  ∀ owner ∈ r.intent.canonicalId, r.owner = some owner

instance (r : SlotReport) (d : CandidateDisposition) : Decidable (r.Consistent d) := by
  unfold SlotReport.Consistent
  infer_instance

lemma Judgement.fault_valid (j : Judgement) (found : Bool) :
    (j.fault found).valid = true ↔ j.valid = true ∧ found = false := by
  cases found <;> simp [Judgement.fault]

lemma validId_toInt {owner : ℕ} (h : validId value = some owner) :
    value.map OwnerValue.toInt = some (owner : ℤ) := by
  unfold validId at h
  split at h
  · split at h
    · cases h
      simp only [Option.map_some,OwnerValue.toInt,Option.some.injEq]
      omega
    · simp at h
  · simp at h

variable {r : SlotReport} {d : CandidateDisposition} {reason : SummaryReasonCode}

lemma SlotReport.keys_agree (hd : r.disposition = some d) :
    (r.keyDiffers = false ∧ r.failedKeyDiffers = false) ↔
      ∀ e ∈ r.expected, ∀ result ∈ r.result,
        result.idempotencyKey = e.1 ∨ d = .failed ∧ result.idempotencyKey = "" := by
  obtain ⟨intent,result,expected⟩ := r
  cases result with
  | none => simp [SlotReport.disposition] at hd
  | some result =>
    cases expected with
    | none => simp [SlotReport.keyDiffers,SlotReport.failedKeyDiffers]
    | some e =>
      by_cases hf : d = .failed
      · simp only [SlotReport.keyDiffers,SlotReport.failedKeyDiffers,hd,hf]
        simp
        tauto
      · simp [SlotReport.keyDiffers,SlotReport.failedKeyDiffers,hd,hf]

lemma SlotReport.owner_agrees (hd : r.disposition = some d) (j : Judgement) (hj : j.valid = true) :
    r.ownerFault j = false ↔ if d.ownsId then r.owner.isSome = true else r.canonicalId = none := by
  unfold SlotReport.ownerFault
  rw [hd,hj]
  cases hown : d.ownsId <;> simp [hown]

lemma SlotReport.intentOwner_agrees
    (howner : if d.ownsId then r.owner.isSome = true else r.canonicalId = none) :
    r.intentOwnerDiffers = false ↔ ∀ owner ∈ r.intent.canonicalId, r.owner = some owner := by
  unfold SlotReport.intentOwnerDiffers
  cases hi : r.intent.canonicalId with
  | none => simp
  | some kept =>
    cases ho : r.owner with
    | some owner =>
      have hnum : r.canonicalId.map OwnerValue.toInt = some (owner : ℤ) := validId_toInt ho
      simp [hnum]
    | none =>
      have hnone : r.canonicalId = none := by
        cases hown : d.ownsId
        · simpa [hown] using howner
        · simp [hown,ho] at howner
      simp [hnone]

lemma SlotReport.judge_valid : r.judge.valid = true ↔ ∃ d, r.Consistent d := by
  cases hd : r.disposition with
  | none =>
    constructor
    · intro h
      simp [SlotReport.judge,SlotReport.judgeKeys,Judgement.fault_valid,hd] at h
    · rintro ⟨d,hsome,-⟩
      simp [hd] at hsome
  | some d =>
    have hdigest : r.digestDiffers = false ↔
        ∀ e ∈ r.expected, e.2 = r.intent.contentDigest := by
      unfold SlotReport.digestDiffers
      cases r.expected <;> simp
    have hkeys := r.keys_agree hd
    have hone : (∃ d', r.Consistent d') ↔ r.Consistent d := by
      constructor
      · rintro ⟨d',h⟩
        have : d' = d := Option.some.inj (h.1.symm.trans hd)
        rwa [this] at h
      · exact fun h => ⟨d,h⟩
    rw [hone]
    have hcombined : r.judgeKeys.valid = true ↔ (∀ e ∈ r.expected, e.2 = r.intent.contentDigest) ∧
        ∀ e ∈ r.expected, ∀ result ∈ r.result,
          result.idempotencyKey = e.1 ∨ d = .failed ∧ result.idempotencyKey = "" := by
      rw [← hdigest,← hkeys]
      simp [SlotReport.judgeKeys,Judgement.fault_valid,hd,and_assoc]
    constructor
    · intro h
      simp only [SlotReport.judge,Judgement.fault_valid,Bool.and_eq_false_iff] at h
      obtain ⟨⟨hj,howner⟩,hsame⟩ := h
      have howns := (r.owner_agrees hd _ hj).mp howner
      have hintent : r.intentOwnerDiffers = false := by
        rcases hsame with hsame | hsame
        · have : (r.judgeKeys.fault (r.ownerFault r.judgeKeys)).valid = true :=
            (Judgement.fault_valid _ _).mpr ⟨hj,howner⟩
          simp [this] at hsame
        · exact hsame
      exact ⟨hd,(hcombined.mp hj).1,(hcombined.mp hj).2,howns, (r.intentOwner_agrees howns).mp hintent⟩
    · rintro ⟨-,hdig,hkey,howns,hsame⟩
      have hj := hcombined.mpr ⟨hdig,hkey⟩
      simp only [SlotReport.judge,Judgement.fault_valid,Bool.and_eq_false_iff]
      exact ⟨⟨hj,(r.owner_agrees hd _ hj).mpr howns⟩, .inr ((r.intentOwner_agrees howns).mpr hsame)⟩

lemma SlotReport.Consistent.unique {d d' : CandidateDisposition} (h : r.Consistent d)
    (h' : r.Consistent d') : d' = d :=
  Option.some.inj (h'.1.symm.trans h.1)

lemma SlotTally.add_consistent (h : r.Consistent d) : t.add r = {
      counts := Function.update t.counts d (t.counts d+1)
      finalIntents := t.finalIntents++[r.settled d]
      unknownCount := t.unknownCount
      ledgerUnresolved := t.ledgerUnresolved || r.judge.mappingInconsistent } := by
  have hvalid : r.judge.valid = true := r.judge_valid.mpr ⟨d,h⟩
  simp [SlotTally.add,hvalid,h.1]

lemma SlotTally.add_unresolved (h : ¬ ∃ d, r.Consistent d) : t.add r = {
      counts := t.counts
      finalIntents := t.finalIntents++[r.intent.unresolved]
      unknownCount := t.unknownCount+1
      ledgerUnresolved := t.ledgerUnresolved || r.judge.mappingInconsistent } := by
  have hvalid : r.judge.valid = false := by
    rw [← r.judge_valid] at h
    simpa using h
  simp [SlotTally.add,hvalid]

lemma SlotReport.settled_shape (d : CandidateDisposition) : (r.settled d).closedShape = true := by
  by_cases hd : d = .failed <;> simp [SlotReport.settled,CandidateIntent.closedShape,hd]

lemma SlotReport.settled_known (d : CandidateDisposition) : (r.settled d).status ≠ .unknown := by
  by_cases hd : d = .failed <;> simp [SlotReport.settled,hd]

structure SlotTally.Sound (t : SlotTally) (passed : List SlotReport) : Prop where
  counts : ∀ d, t.counts d = passed.countP fun r => decide (r.Consistent d)
  dispositions : ∀ d, intentCount t.finalIntents d = t.counts d
  unknown : t.unknownCount = passed.countP fun r => decide (¬ ∃ d, r.Consistent d)
  statuses : t.finalIntents.countP (fun i => i.status = .unknown) = t.unknownCount
  shapes : ∀ i ∈ t.finalIntents, i.closedShape = true
  slots : t.finalIntents.map CandidateIntent.slot = passed.map fun r => r.intent.slot

lemma SlotTally.Sound.start : SlotTally.Sound {} [] where
  counts _ := rfl
  dispositions _ := rfl
  unknown := rfl
  statuses := rfl
  shapes := by simp
  slots := rfl

lemma SlotTally.Sound.add {t : SlotTally} {passed : List SlotReport} (h : t.Sound passed)
    (r : SlotReport) : (t.add r).Sound (passed++[r]) := by
  by_cases hr : ∃ d, r.Consistent d
  · obtain ⟨d,hd⟩ := hr
    rw [t.add_consistent hd]
    have hothers : ∀ d', d' ≠ d → ¬ r.Consistent d' := fun d' hne h' => hne (hd.unique h')
    constructor
    · intro d'
      rw [List.countP_append,← h.counts]
      by_cases he : d' = d
      · subst he
        simp [hd]
      · simp [he,hothers d' he]
    · intro d'
      have hcount := h.dispositions d'
      unfold intentCount at hcount ⊢
      rw [List.countP_append,hcount]
      by_cases he : d' = d
      · subst he
        simp [SlotReport.settled]
      · have hne : d ≠ d' := fun h => he h.symm
        simp [SlotReport.settled,he,hne]
    · rw [List.countP_append,← h.unknown]
      have : ∃ d, r.Consistent d := ⟨d,hd⟩
      simp [this]
    · rw [List.countP_append,h.statuses]
      simp [r.settled_known d]
    · intro i hi
      rcases List.mem_append.mp hi with hi | hi
      · exact h.shapes i hi
      · rw [List.mem_singleton.mp hi]
        exact r.settled_shape d
    · rw [List.map_append,List.map_append,h.slots]
      rfl
  · rw [t.add_unresolved hr]
    have hnone : ∀ d, ¬ r.Consistent d := fun d hd => hr ⟨d,hd⟩
    constructor
    · intro d
      rw [List.countP_append,← h.counts]
      simp [hnone d]
    · intro d
      have hcount := h.dispositions d
      unfold intentCount at hcount ⊢
      rw [List.countP_append,hcount]
      simp [CandidateIntent.unresolved]
    · rw [List.countP_append,← h.unknown]
      simp [hnone]
    · rw [List.countP_append,h.statuses]
      simp [CandidateIntent.unresolved]
    · intro i hi
      rcases List.mem_append.mp hi with hi | hi
      · exact h.shapes i hi
      · rw [List.mem_singleton.mp hi]
        simp [CandidateIntent.unresolved,CandidateIntent.closedShape]
    · rw [List.map_append,List.map_append,h.slots]
      rfl

lemma SlotTally.Sound.run (reports : List SlotReport) :
    ∀ (t : SlotTally) (passed : List SlotReport), t.Sound passed →
      (reports.foldl SlotTally.add t).Sound (passed++reports) := by
  induction reports with
  | nil =>
    intro t passed h
    simpa using h
  | cons r rest ih =>
    intro t passed h
    have := ih (t.add r) (passed++[r]) (h.add r)
    simpa using this

lemma SlotTally.sound (reports : List SlotReport) :
    (reports.foldl SlotTally.add {}).Sound reports := by
  have := SlotTally.Sound.run reports {} [] .start
  simpa using this

/-- The window may advance exactly when each slot has one consistent disposition other than
failed. -/
theorem SlotTally.Sound.canAdvance {t : SlotTally} {reports : List SlotReport}
    (h : t.Sound reports) :
    t.canAdvance = true ↔ ∀ r ∈ reports, ∃ d, d ≠ .failed ∧ r.Consistent d := by
  simp only [SlotTally.canAdvance,Bool.and_eq_true,decide_eq_true_eq,h.counts,h.unknown,
    List.countP_eq_zero]
  constructor
  · rintro ⟨hfailed,hunknown⟩ r hr
    have hsome : ∃ d, r.Consistent d := by
      by_contra hnone
      exact hunknown r hr (by simpa using hnone)
    obtain ⟨d,hd⟩ := hsome
    refine ⟨d,?_,hd⟩
    rintro rfl
    exact hfailed r hr hd
  · intro hall
    constructor
    · intro r hr hfailed
      obtain ⟨d,hne,hd⟩ := hall r hr
      exact hne (SlotReport.Consistent.unique hfailed hd)
    · intro r hr hnone
      obtain ⟨d,-,hd⟩ := hall r hr
      exact hnone ⟨d,hd⟩

theorem WindowOutcome.create_some (canAdvance : Bool) (counts : Counts)
    (factsRejected unknownCount : ℕ) (stage exceptionType : Option String)
    {slots : List CandidateIntent}
    (hslots : (slots.map CandidateIntent.slot).Nodup) (hreason : reason ≠ .noFacts) :
    ∃ o, WindowOutcome.create canAdvance counts factsRejected unknownCount slots stage reason
        exceptionType = some o ∧
      o.canAdvance = canAdvance ∧ o.counts = counts ∧ o.unknownCount = unknownCount ∧
      o.candidateSlots = slots := by
  unfold WindowOutcome.create
  rw [dif_pos ⟨hslots,fun h => absurd h hreason⟩]
  exact ⟨_,rfl,rfl,rfl,rfl,rfl⟩

lemma SlotTally.reason_ne_noFacts : t.reason ≠ .noFacts := by
  unfold SlotTally.reason
  split_ifs <;> simp

lemma SlotTally.Sound.outcome {t : SlotTally} {reports : List SlotReport}
    (h : t.Sound reports) (hslots : (reports.map fun r => r.intent.slot).Nodup)
    (factsRejected : ℕ) (stage : Option String) :
    ∃ o, WindowOutcome.create t.canAdvance t.counts factsRejected t.unknownCount t.finalIntents
        stage t.reason none = some o ∧
      validWindowOutcome o = true ∧
      (o.canAdvance = true ↔ ∀ r ∈ reports, ∃ d, d ≠ .failed ∧ r.Consistent d) ∧
      ∀ d, o.counts d = reports.countP fun r => decide (r.Consistent d) := by
  obtain ⟨o,ho,hadvance,hcounts,hunknown,hintents⟩ :=
    WindowOutcome.create_some t.canAdvance t.counts factsRejected t.unknownCount stage none
      (h.slots ▸ hslots) t.reason_ne_noFacts
  refine ⟨o,ho,?_,?_,?_⟩
  · simp only [validWindowOutcome,hadvance,hcounts,hunknown,hintents,Bool.and_eq_true,
      List.all_eq_true,decide_eq_true_eq,Bool.or_eq_true,Bool.not_eq_true']
    refine ⟨⟨⟨h.shapes,h.statuses⟩,h.dispositions⟩,?_⟩
    cases hc : t.canAdvance with
    | false => exact .inl rfl
    | true =>
      simp only [SlotTally.canAdvance,Bool.and_eq_true,decide_eq_true_eq] at hc
      exact .inr ⟨hc.2,hc.1⟩
  · rw [hadvance]
    exact h.canAdvance
  · rw [hcounts]
    exact h.counts

section Prepared

variable {intents : List CandidateIntent}

/-- `_prepare_candidates` hands out distinct slots whose disposition is still open. -/
structure Prepared (intents : List CandidateIntent) : Prop where
  slots : (intents.map CandidateIntent.slot).Nodup
  undecided : ∀ i ∈ intents, i.disposition = none

lemma prepareIntents_prepared (candidates : List PreparedCandidate) :
    Prepared (prepareIntents candidates) where
  slots := by
    have : (prepareIntents candidates).map CandidateIntent.slot = List.range candidates.length := by
      apply List.ext_getElem <;> simp [prepareIntents]
    rw [this]
    exact List.nodup_range
  undecided := by
    intro i hi
    obtain ⟨k,hk,rfl⟩ := List.mem_mapIdx.mp hi
    rfl

lemma Prepared.unknownOutcome (h : Prepared intents) (stage : String)
    (hreason : reason ≠ .noFacts) (exceptionType : Option String) :
    ∃ o, unknownOutcome intents stage reason exceptionType = some o ∧
      validWindowOutcome o = true ∧ o.canAdvance = false ∧ ∀ d, o.counts d = 0 := by
  have hslots : ((intents.map fun i => { i with status := .unknown }).map CandidateIntent.slot).Nodup := by
    rw [List.map_map]
    exact h.slots
  obtain ⟨o,ho,hadvance,hcounts,hunknown,hintents⟩ :=
    WindowOutcome.create_some false (fun _ => 0) 0 intents.length (some stage) exceptionType
    hslots hreason
  refine ⟨o,ho,?_,hadvance,fun d => by rw [hcounts]⟩
  simp only [validWindowOutcome,hadvance,hcounts,hunknown,hintents,Bool.and_eq_true,
    List.all_eq_true,decide_eq_true_eq,Bool.not_false,Bool.true_or,and_true]
  refine ⟨⟨?_,?_⟩,?_⟩
  · intro i hi
    obtain ⟨kept,hkept,rfl⟩ := List.mem_map.mp hi
    simp [CandidateIntent.closedShape,h.undecided kept hkept]
  · rw [List.countP_map]
    apply List.countP_eq_length.mpr
    intro i _
    simp
  · intro d
    unfold intentCount
    rw [List.countP_eq_zero]
    intro i hi
    obtain ⟨kept,hkept,rfl⟩ := List.mem_map.mp hi
    simp [h.undecided kept hkept]

lemma slotReports_intents {results : List (Option ReflectionStoreResult)}
    {expected : Option (List (String × String))} (hresults : results.length = intents.length)
    (hexpected : ∀ keys ∈ expected, keys.length = intents.length) :
    (slotReports intents results expected).map SlotReport.intent = intents := by
  cases expected with
  | none =>
    apply List.ext_getElem
    · simp [slotReports,hresults]
    · intro k h1 h2
      simp [slotReports]
  | some keys =>
    have hkeys := hexpected keys rfl
    apply List.ext_getElem
    · simp [slotReports,hresults,hkeys]
    · intro k h1 h2
      simp [slotReports]

end Prepared

def storedReports : Option (List SlotReport) :=
  if results.length = intents.length ∧ ∀ keys ∈ expected, keys.length = intents.length then
    some (slotReports intents results expected)
  else none

/-- The slots with what the store and the candidates say about each; `none` where nothing is
known about any slot. -/
def CandidateExit.reports : CandidateExit → Option (List SlotReport)
  | .stored results expected _ => storedReports intents results expected
  | _ => none

/-- The outcome agrees with what is known about the slots; `none` when nothing is. -/
structure WindowOutcome.Reflects (o : WindowOutcome) (known : Option (List SlotReport)) :
    Prop where
  accepted : validWindowOutcome o = true
  advances : o.canAdvance = true ↔
    ∃ reports, known = some reports ∧ ∀ r ∈ reports, ∃ d, d ≠ .failed ∧ r.Consistent d
  slotCounts : ∀ d, o.counts d = intentCount o.candidateSlots d
  counts : ∀ d, o.counts d = (known.getD []).countP fun r => decide (r.Consistent d)

lemma validWindowOutcome_counts {o : WindowOutcome} (h : validWindowOutcome o = true)
    (d : CandidateDisposition) : o.counts d = intentCount o.candidateSlots d :=
  (congrFun (WindowOutcome.valid h).counts d).symm

lemma Prepared.unknownOutcome_reflects {intents : List CandidateIntent} (h : Prepared intents)
    (stage : String) (hreason : reason ≠ .noFacts) (exceptionType : Option String) :
    ∃ o, Memora.Summary.unknownOutcome intents stage reason exceptionType = some o ∧
      o.Reflects none := by
  obtain ⟨o,ho,hvalid,hadvance,hzero⟩ := h.unknownOutcome stage hreason exceptionType
  refine ⟨o,ho,hvalid,?_,validWindowOutcome_counts hvalid,?_⟩
  · simp [hadvance]
  · intro d
    simp [hzero d]

lemma Prepared.buildOutcome_reflects {intents : List CandidateIntent} (h : Prepared intents)
    (results : List (Option ReflectionStoreResult)) (expected : Option (List (String × String)))
    (factsRejected : ℕ) :
    ∃ o, buildOutcome intents results expected factsRejected = some o ∧
      o.Reflects (storedReports intents results expected) := by
  unfold buildOutcome storedReports
  by_cases hresults : results.length = intents.length
  · rw [if_neg (by simpa using hresults)]
    by_cases hexpected : ∀ keys ∈ expected, keys.length = intents.length
    · have hany : ¬ (expected.any fun keys => decide (keys.length ≠ intents.length)) = true := by
        cases expected with
        | none => simp
        | some keys => simpa using hexpected keys rfl
      rw [if_neg hany,if_pos ⟨hresults,hexpected⟩]
      have hsound := SlotTally.sound (slotReports intents results expected)
      have hslots : ((slotReports intents results expected).map
          fun r => r.intent.slot).Nodup := by
        have hmap : ((slotReports intents results expected).map fun r => r.intent.slot) =
            intents.map CandidateIntent.slot := by
          conv_rhs => rw [← slotReports_intents hresults hexpected]
          rw [List.map_map]
          rfl
        rw [hmap]
        exact h.slots
      obtain ⟨o,ho,hvalid,hadvance,hcounts⟩ := hsound.outcome hslots factsRejected
        (if ((slotReports intents results expected).foldl SlotTally.add {}).canAdvance then none
          else some "candidate_write")
      refine ⟨o,ho,hvalid,?_,validWindowOutcome_counts hvalid,hcounts⟩
      simp [hadvance]
    · have hany : (expected.any fun keys => decide (keys.length ≠ intents.length)) = true := by
        cases expected with
        | none => simp at hexpected
        | some keys => simpa using hexpected
      rw [if_pos hany,if_neg (fun hboth => hexpected hboth.2)]
      exact h.unknownOutcome_reflects _ (by simp) _
  · rw [if_pos hresults,if_neg (fun hboth => hresults hboth.1)]
    exact h.unknownOutcome_reflects _ (by simp) _

/-- Where the pairs expected are those of the candidates, each slot is judged by its own key and
digest. -/
theorem own_outcome_reflects (candidates : List PreparedCandidate)
    (results : List (Option ReflectionStoreResult)) (hresults : results.length = candidates.length)
    (factsRejected : ℕ) :
    ∃ o, buildOutcome (prepareIntents candidates) results
        (some (candidates.map fun c => (c.idempotencyKey,c.contentDigest))) factsRejected = some o ∧
      o.Reflects (some (List.zipWith (fun i r => ⟨i,r,some (i.idempotencyKey,i.contentDigest)⟩)
        (prepareIntents candidates) results)) := by
  have hreflects := (prepareIntents_prepared candidates).buildOutcome_reflects results
    (some (candidates.map fun c => (c.idempotencyKey,c.contentDigest))) factsRejected
  have hreports : storedReports (prepareIntents candidates) results
      (some (candidates.map fun c => (c.idempotencyKey,c.contentDigest))) =
      some (List.zipWith (fun i r => ⟨i,r,some (i.idempotencyKey,i.contentDigest)⟩)
        (prepareIntents candidates) results) := by
    rw [storedReports,if_pos (by simp [prepareIntents,hresults]),Option.some_inj]
    exact List.ext_getElem (by simp [slotReports,prepareIntents,hresults])
      fun i h1 h2 => by simp [slotReports,prepareIntents]
  rwa [hreports] at hreflects

/-- Every exit of the candidate phase builds an outcome the store accepts; it lets the window
advance exactly when each slot has one consistent disposition and none failed, and its counts
are those of the slots. -/
theorem CandidateExit.outcome_reflects (candidates : List PreparedCandidate) (e : CandidateExit) :
    ∃ o, e.outcome (prepareIntents candidates) = some o ∧
      o.Reflects (e.reports (prepareIntents candidates)) := by
  have h := prepareIntents_prepared candidates
  cases e with
  | intentsRefused | ownersUnreconciled | writesRefused | storeRaised =>
    exact h.unknownOutcome_reflects _ (by simp) _
  | gateRefused refusal exceptionType =>
    exact h.unknownOutcome_reflects _ (by cases refusal <;> simp [GateRefusal.reason]) _
  | stored results expected factsRejected =>
    exact h.buildOutcome_reflects results expected factsRejected

end Memora.Summary

import Memora.CanonicalSource
import Memora.CanonicalOwners

/-! What a step does to one row and to one call, and from it: a staged row is accepted only by
the activation of a call with its token, and an accepted row stays accepted unless a
finalisation falls back on its unconditional write. -/
namespace Memora.Canonical

variable {digest : String → String} {s s' : IdempotencyTables} {f : SummarySourceFence}
  {id : ℕ} {m m' : Metadata} {orphan requirePending : Bool} {token : Option String}

def Metadata.settle (m : Metadata) (orphan : Bool) : Metadata :=
  { m with summarySourceOrphan := orphan, summarySourcePending := false }

theorem updateMetadata_of_same_key (hm : s.documents.get? id = some m)
    (hkey : m'.idempotencyKey = m.idempotencyKey) :
    s.updateMetadata id m' = some { s with documents := s.documents.set id m' } := by
  have hsame : normalizedKeySql m = normalizedKeySql m' := by
    rw [normalizedKeySql,normalizedKeySql,hkey]
  unfold IdempotencyTables.updateMetadata
  rw [hm]
  dsimp only
  rw [if_pos (by rw [hsame])]

lemma applySummarySourceState_some : applySummarySourceState s id orphan token
    requirePending = some s' ↔
      ∃ m, s.documents.get? id = some m ∧ (token.isSome → m.sourceFence = token) ∧
        (requirePending → m.summarySourcePending) ∧
        s' = { s with documents := s.documents.set id (m.settle orphan) } := by
  unfold applySummarySourceState
  cases hm : s.documents.get? id with
  | none => simp
  | some m =>
    have hwrite : s.updateMetadata id
        { m with summarySourceOrphan := orphan, summarySourcePending := false } =
          some { s with documents := s.documents.set id (m.settle orphan) } :=
      updateMetadata_of_same_key hm rfl
    dsimp only
    rw [hwrite]
    by_cases htoken : token.isSome = true ∧ m.sourceFence ≠ token
    · rw [if_pos (by simpa using htoken)]
      simp only [Option.some.injEq,reduceCtorEq,false_iff,not_exists,not_and]
      rintro m' rfl hfence
      exact absurd (hfence htoken.1) htoken.2
    · rw [if_neg (by simpa using htoken)]
      push Not at htoken
      by_cases hpending : requirePending = true ∧ m.summarySourcePending = false
      · rw [if_pos (by simpa using hpending)]
        simp only [Option.some.injEq,reduceCtorEq,false_iff,not_exists,not_and]
        rintro m' rfl - hreq
        exact absurd (hreq hpending.1) (by simp [hpending.2])
      · rw [if_neg (by simpa using hpending)]
        have hreq : requirePending = true → m.summarySourcePending = true := by
          intro h
          by_contra hno
          exact hpending ⟨h,by simpa using hno⟩
        constructor
        · intro h
          exact ⟨m,rfl,htoken,hreq,(Option.some.inj h).symm⟩
        · rintro ⟨m',hm',-,-,rfl⟩
          rw [Option.some.inj hm']

lemma stamp_some (h : f.stamp digest m = some m') :
    m'.summarySourceOrphan = true ∧ m'.summarySourcePending = true ∧
      m'.sourceFence = some (f.opaqueToken digest) ∧ m'.idempotencyKey = m.idempotencyKey ∧
      m'.memoryStatus = m.memoryStatus ∧ m'.status = m.status := by
  unfold SummarySourceFence.stamp at h
  dsimp only at h
  split at h
  · split at h
    · cases h
      exact ⟨rfl,rfl,rfl,rfl,rfl,rfl⟩
    · cases h
  · cases h
    exact ⟨rfl,rfl,rfl,rfl,rfl,rfl⟩

lemma insertDocument_documents (h : s.insertDocument id m = some s') :
    s.documents.get? id = none ∧ s'.documents = s.documents.set id m := by
  unfold IdempotencyTables.insertDocument at h
  split at h
  · cases h
  rename_i hnew
  have hnone : s.documents.get? id = none := by simpa using hnew
  split at h
  · cases h
    exact ⟨hnone,rfl⟩
  · obtain ⟨mapping,-,rfl⟩ := Option.map_eq_some_iff.mp h
    exact ⟨hnone,rfl⟩

lemma deleteDocument_get? (s : IdempotencyTables) (id j : ℕ) :
    (s.deleteDocument id).documents.get? j = if j = id then none else s.documents.get? j := by
  unfold IdempotencyTables.deleteDocument
  cases hid : s.documents.get? id with
  | none =>
    dsimp only
    split
    · rename_i hj
      rw [hj,hid]
    · rfl
  | some old =>
    apply Option.ext
    intro m
    rw [Dict.get?_pop]
    split
    · simp [*]
    · simp [*]

namespace SourceWorld

variable {w : SourceWorld} {a : SourceStep} {k : ℕ} {c c' : SourceCall} {o : SourceOutcome}
  {tables : IdempotencyTables}

lemma writeState_some (h : w.writeState o id orphan token requirePending = some tables) :
    ∃ m, w.row id = some m ∧ (token.isSome → m.sourceFence = token) ∧
      (requirePending → m.summarySourcePending) ∧
      tables.documents = w.tables.documents.set id (m.settle orphan) := by
  unfold writeState at h
  split at h
  · obtain ⟨m,hm,htoken,hpending,rfl⟩ := applySummarySourceState_some.mp h
    exact ⟨m,hm,htoken,hpending,rfl⟩
  · cases h

inductive RowChange (digest : String → String) (w : SourceWorld) (c : SourceCall) (id : ℕ) :
    Option Metadata → Option Metadata → Prop
  | same (r : Option Metadata) : RowChange digest w c id r r
  | inserted (m : Metadata) (phase : c.phase = .inserting m) : RowChange digest w c id none (some m)
  | rejected (m : Metadata) (phase : c.phase = .rejecting id)
      (token : m.sourceFence = some (c.fence.opaqueToken digest))
      (pending : m.summarySourcePending = true) :
      RowChange digest w c id (some m) (some (m.settle true))
  | activated (m : Metadata) (phase : c.phase = .activating id)
      (token : m.sourceFence = some (c.fence.opaqueToken digest))
      (pending : m.summarySourcePending = true) :
      RowChange digest w c id (some m) (some (m.settle false))
  | orphaned (m : Metadata) (phase : c.phase = .orphaning id) :
      RowChange digest w c id (some m) (some (m.settle true))

theorem row_set {d : Dict ℕ Metadata} {i : ℕ} (h : d.get? i = some m) (m' : Metadata) (j : ℕ) :
    (d.set i m').get? j = d.get? j ∨ j = i ∧ d.get? j = some m ∧ (d.set i m').get? j = some m' := by
  rw [Dict.get?_set]
  split
  · rename_i hj
    subst hj
    exact .inr ⟨rfl,h,rfl⟩
  · exact .inl rfl

lemma next_row (digest : String → String) (w : SourceWorld) (c : SourceCall) (o : SourceOutcome)
    (id : ℕ) : RowChange digest w c id (w.row id) ((w.next digest c o).1.documents.get? id) := by
  have hsame : RowChange digest w c id (w.row id) (w.tables.documents.get? id) := .same _
  cases hp : c.phase with
  | started | looking m =>
    simp only [next,hp]
    split
    · exact hsame
    · split <;> exact hsame
  | inserting m =>
    simp only [next,hp]
    split
    · rename_i tables hins
      split at hins
      · obtain ⟨hnone,hset⟩ := insertDocument_documents hins
        rw [hset,Dict.get?_set]
        split
        · rename_i hid
          subst hid
          rw [row,hnone]
          exact .inserted m hp
        · exact .same _
      · cases hins
    · exact hsame
  | recovering =>
    simp only [next,hp]
    split <;> exact hsame
  | loading i =>
    simp only [next,hp]
    split
    · split <;> exact hsame
    · exact hsame
  | rejecting i =>
    simp only [next,hp]
    cases hw : w.writeState o i true (some (c.fence.opaqueToken digest)) true with
    | none => exact hsame
    | some tables =>
      obtain ⟨m,hm,htoken,hpending,hset⟩ := writeState_some hw
      rw [Option.getD_some,hset]
      rcases row_set hm (m.settle true) id with heq | ⟨rfl,hrow,heq⟩
      · rw [heq]
        exact hsame
      · rw [heq,hm]
        exact .rejected m hp (htoken rfl) (hpending rfl)
  | activating i =>
    simp only [next,hp]
    cases hw : w.writeState o i false (some (c.fence.opaqueToken digest)) true with
    | none => exact hsame
    | some tables =>
      obtain ⟨m,hm,htoken,hpending,hset⟩ := writeState_some hw
      rw [hset]
      rcases row_set hm (m.settle false) id with heq | ⟨rfl,hrow,heq⟩
      · rw [heq]
        exact hsame
      · rw [heq,hm]
        exact .activated m hp (htoken rfl) (hpending rfl)
  | orphaning i =>
    simp only [next,hp]
    cases hw : w.writeState o i true none false with
    | none => exact hsame
    | some tables =>
      obtain ⟨m,hm,-,-,hset⟩ := writeState_some hw
      rw [Option.getD_some,hset]
      rcases row_set hm (m.settle true) id with heq | ⟨rfl,hrow,heq⟩
      · rw [heq]
        exact hsame
      · rw [heq,hm]
        exact .orphaned m hp
  | checking | reloading | finalizing | finished | failed =>
    simp only [next,hp]
    exact hsame

lemma step_row (digest : String → String) (w : SourceWorld) (a : SourceStep) (id : ℕ) :
    (w.step digest a).row id = w.row id ∨ (w.step digest a).row id = none ∨
      ∃ k o c, a = .advance k o ∧ w.calls.get? k = some c ∧
        RowChange digest w c id (w.row id) ((w.step digest a).row id) := by
  cases a with
  | claims | crash => exact .inl rfl
  | begin | finalize =>
    simp only [step]
    split <;> exact .inl rfl
  | advance k o =>
    cases hc : w.calls.get? k with
    | none => simp [step,hc]
    | some c =>
      refine .inr (.inr ⟨k,o,c,rfl,hc,?_⟩)
      simpa [step,hc,row] using next_row digest w c o id
  | delete i =>
    simp only [step,row,deleteDocument_get?]
    split
    · exact .inr (.inl rfl)
    · exact .inl rfl

lemma step_call (h : (w.step digest a).calls.get? k = some c') :
    w.calls.get? k = some c' ∨ c'.phase = .started ∨ (∃ id, c'.phase = .finalizing id) ∨
      ∃ o c, a = .advance k o ∧ w.calls.get? k = some c ∧ c' = { c with phase := (w.next digest c o).2 } := by
  cases a with
  | claims | delete => exact .inl h
  | begin k' fence candidate =>
    simp only [step] at h
    split at h
    · exact .inl h
    · rw [Dict.get?_set] at h
      split at h
      · cases h
        exact .inr (.inl rfl)
      · exact .inl h
  | finalize k' fence candidate i =>
    simp only [step] at h
    split at h
    · exact .inl h
    · rw [Dict.get?_set] at h
      split at h
      · cases h
        exact .inr (.inr (.inl ⟨i,rfl⟩))
      · exact .inl h
  | advance k' o =>
    cases hc : w.calls.get? k' with
    | none =>
      simp only [step,hc] at h
      exact .inl h
    | some c =>
      simp only [step,hc] at h
      rw [Dict.get?_set] at h
      split at h
      · rename_i hk
        subst hk
        exact .inr (.inr (.inr ⟨o,c,rfl,hc,(Option.some.inj h).symm⟩))
      · exact .inl h
  | crash => exact absurd h (by simp [step])

def Staged (digest : String → String) (w : SourceWorld) : Prop :=
  ∀ k c m, w.calls.get? k = some c → c.phase = .looking m ∨ c.phase = .inserting m →
    c.fence.stamp digest c.candidate.keyed = some m

/-- What a call rests on that goes on to a lookup, an insertion or an activation. -/
lemma next_enters (w : SourceWorld) (c : SourceCall) (o : SourceOutcome) :
    (∀ m, (w.next digest c o).2 = .looking m ∨ (w.next digest c o).2 = .inserting m →
      c.fence.stamp digest c.candidate.keyed = some m ∨ c.phase = .looking m) ∧
    ∀ id, (w.next digest c o).2 = .activating id → w.fenceActive c.fence = true := by
  cases hp : c.phase with
  | started =>
    cases hs : c.fence.stamp digest c.candidate.keyed with
    | none =>
      simp only [next,hp,hs]
      split <;> simp
    | some m' =>
      simp only [next,hp,hs]
      split
      · simp
      · split <;> simp
  | looking | inserting =>
    simp only [next,hp]
    split
    · simp
    · split <;> simp
  | loading i =>
    simp only [next,hp]
    split
    · split
      · split <;> simp
      · simp
    · simp
  | checking i seen =>
    simp only [next,hp]
    split
    · simp
    · rename_i hactive
      split <;> simp_all
  | recovering | activating | reloading | finalizing =>
    simp only [next,hp]
    split <;> simp
  | rejecting | orphaning | finished | failed => simp [next,hp]

lemma next_staged (h : ∀ m, c.phase = .looking m ∨ c.phase = .inserting m →
      c.fence.stamp digest c.candidate.keyed = some m)
    (hm : (w.next digest c o).2 = .looking m ∨ (w.next digest c o).2 = .inserting m) :
    c.fence.stamp digest c.candidate.keyed = some m := by
  rcases (next_enters w c o).1 m hm with hstamp | hlooking
  · exact hstamp
  · exact h m (.inl hlooking)

lemma staged_step (h : w.Staged digest) (a : SourceStep) : (w.step digest a).Staged digest := by
  intro k c' m hc' hm
  rcases step_call hc' with hold | hnew | ⟨i,hnew⟩ | ⟨o,c,rfl,hc,rfl⟩
  · exact h k c' m hold hm
  · simp [hnew] at hm
  · simp [hnew] at hm
  · exact next_staged (w := w) (c := c) (o := o) (fun m => h k c m hc) hm

def Validated (w : SourceWorld) : Prop :=
  ∀ k c id, w.calls.get? k = some c → c.phase = .activating id → w.fenceActive c.fence = true

def Activates (digest : String → String) (w : SourceWorld) (a : SourceStep) (id : ℕ)
    (c : SourceCall) : Prop :=
  ∃ k o m, a = .advance k o ∧ w.calls.get? k = some c ∧ c.phase = .activating id ∧
    w.row id = some m ∧ m.sourceFence = some (c.fence.opaqueToken digest) ∧
    m.summarySourcePending = true

def BecomesRecallable (digest : String → String) (w : SourceWorld) (a : SourceStep) (id : ℕ) :
    Prop :=
  (w.row id).any isMemoryRecallable = false ∧
  ((w.step digest a).row id).any isMemoryRecallable = true

def StaysAccepted (digest : String → String) (w : SourceWorld) (a : SourceStep) : Prop :=
  ∀ id m m', w.row id = some m → isSummarySourceAccepted m = true →
    (w.step digest a).row id = some m' → isSummarySourceAccepted m' = true

structure SourceSafe (digest : String → String) (w : SourceWorld) (a : SourceStep) : Prop where
  activated : ∀ id, BecomesRecallable digest w a id →
    ∃ c, Activates digest w a id c ∧ w.fenceActive c.fence = true
  kept : StaysAccepted digest w a

/-- No claim ends while a call that validated it is about to activate a row, and no
finalisation whose read failed writes to a row that is accepted. -/
structure Benign (w : SourceWorld) (a : SourceStep) : Prop where
  claims : ∀ store clock k c id, a = .claims store clock → w.calls.get? k = some c →
    c.phase = .activating id → summarySourceFenceIsActive store c.fence clock = true
  reads : ∀ k o c id, a = .advance k o → w.calls.get? k = some c → c.phase = .orphaning id →
    o.committed = true → (w.row id).any isSummarySourceAccepted = false

lemma recallable_by_activation (h : w.Staged digest) {id : ℕ}
    (hr : BecomesRecallable digest w a id) : ∃ c, Activates digest w a id c := by
  obtain ⟨hbefore,hafter⟩ := hr
  rcases step_row digest w a id with hsame | hnone | ⟨k,o,c,rfl,hc,hchange⟩
  · rw [hsame,hbefore] at hafter
    cases hafter
  · rw [hnone] at hafter
    cases hafter
  · generalize hrow' : (w.step digest (.advance k o)).row id = row' at hchange hafter
    generalize hrow : w.row id = row at hchange hbefore
    cases hchange with
    | same => simp [hbefore] at hafter
    | inserted m hp =>
      have horphan := (stamp_some (h k c m hc (.inr hp))).1
      simp [isMemoryRecallable,horphan] at hafter
    | rejected | orphaned => simp [isMemoryRecallable,Metadata.settle] at hafter
    | activated m hp htoken hpending => exact ⟨c,k,o,m,rfl,hc,hp,hrow,htoken,hpending⟩

/-- An accepted row is not pending, so only the unconditional write of a finalisation can
take its acceptance back. -/
theorem accepted_stays (hb : Benign w a) : StaysAccepted digest w a := by
  intro id m m' hm haccepted hm'
  have hpending : m.summarySourcePending = false := by
    simp only [isSummarySourceAccepted,Bool.and_eq_true,Bool.not_eq_true'] at haccepted
    exact haccepted.2
  rcases step_row digest w a id with hsame | hnone | ⟨k,o,c,rfl,hc,hchange⟩
  · rw [hsame,hm] at hm'
    rwa [← Option.some.inj hm']
  · exact absurd (hnone.symm.trans hm') (by simp)
  · have hrow' := hm'
    rw [hm,hm'] at hchange
    cases hchange with
    | same => exact haccepted
    | rejected _ hp htoken hpend | activated _ hp htoken hpend =>
      exact absurd (hpending.symm.trans hpend) (by simp)
    | orphaned _ hp =>
      cases hcommit : o.committed with
      | true =>
        have hno := hb.reads k o c id rfl hc hp hcommit
        simp [hm,haccepted] at hno
      | false =>
        have hkept : (w.step digest (.advance k o)).row id = w.row id := by
          simp [step,hc,next,hp,writeState,hcommit,row]
        have heq : m = m.settle true := Option.some.inj (hm.symm.trans (hkept.symm.trans hrow'))
        rwa [← heq]

lemma validated_step (hb : Benign w a) (h : w.Validated) : (w.step digest a).Validated := by
  intro k c' id hc' hp
  rcases step_call hc' with hold | hnew | ⟨i,hnew⟩ | ⟨o,c,rfl,hc,rfl⟩
  · cases a with
    | claims store clock => exact hb.claims store clock k c' id rfl hold hp
    | begin | finalize | advance =>
      simp only [step,fenceActive]
      split <;> exact h k c' id hold hp
    | delete | crash => exact h k c' id hold hp
  · simp [hnew] at hp
  · simp [hnew] at hp
  · have hactive := (next_enters _ _ _).2 _ hp
    simpa [step,hc,fenceActive] using hactive

/-- In every run a row becomes recallable only by the activation of a call that holds the
token recorded on the pending row. While no claim ends between its validation and the
activation, the fence is active at that point; while no finalisation whose read failed
writes to an accepted row, accepted rows stay accepted. -/
theorem source_rows_safe (digest : String → String) (tables : IdempotencyTables)
    (store : Summary.Store) (clock : Summary.Time) (steps : List SourceStep) :
    RunLaws.Along (step digest) (fun w a => ∀ id, BecomesRecallable digest w a id →
      ∃ c, Activates digest w a id c) (start tables store clock) steps ∧
    (RunLaws.Along (step digest) Benign (start tables store clock) steps →
      RunLaws.Along (step digest) (SourceSafe digest) (start tables store clock) steps) := by
  have hstaged : (start tables store clock).Staged digest := by
    intro k c m hc
    exact absurd hc (by simp [start])
  have hvalidated : (start tables store clock).Validated := by
    intro k c id hc
    exact absurd hc (by simp [start])
  constructor
  · have htrue : RunLaws.Along (step digest) (fun _ _ => True) (start tables store clock) steps :=
      RunLaws.along_of_mem (fun _ _ _ => trivial) _
    exact RunLaws.along_imp (P := Staged digest) (fun w a _ h => staged_step h a)
      (fun w a _ h id => recallable_by_activation h) hstaged htrue
  · intro hbenign
    refine RunLaws.along_imp (P := fun w => w.Staged digest ∧ w.Validated) ?_ ?_ ⟨hstaged,hvalidated⟩ hbenign
    · exact fun w a hb h => ⟨staged_step h.1 a,validated_step hb h.2⟩
    · intro w a hb h
      refine ⟨fun id hr => ?_,accepted_stays hb⟩
      obtain ⟨c,hc⟩ := recallable_by_activation h.1 hr
      have hact := hc
      obtain ⟨k,o,m,_,hcall,hp,_⟩ := hact
      exact ⟨c,hc,h.2 k c id hcall hp⟩

def sampleDigest (s : String) : String := s

def sampleFence (generation : ℕ) (token : String) (h : 0 < generation) : SummarySourceFence where
  jobId := "job"
  sessionId := "a"
  sessionEpoch := 1
  startSeq := 0
  endSeq := 2
  expectedCount := 2
  sourceDigest := "window"
  workerGeneration := generation
  claimToken := token
  epoch_pos := by decide
  range := by decide
  count := rfl
  generation_pos := h
  scope_whole := .inl ⟨rfl,rfl,rfl⟩
  marked := by simp

/-- The window runs under this claim until time 100. -/
def sampleClaims (generation : ℕ) (token : String) : Summary.Store where
  epochs := [{ sessionId := "a", epoch := 1, cursorSeq := 0, updatedAt := 0 }]
  jobs := [{ jobId := "job", sessionId := "a", sessionEpoch := 1, startSeq := 0, endSeq := 2,
             expectedCount := 2, sourceDigest := "window", createdAt := 0, status := .running,
             attemptCount := generation, nextAttemptAt := 0, claimToken := some token,
             leaseUntil := some 100, workerGeneration := generation, reasonCode := .queued,
             updatedAt := 0 }]

def sampleCandidate : SourceCandidate where
  idempotencyKey := "candidate"
  metadata := {}
  unmarked := ⟨rfl,rfl⟩

def firstFence : SummarySourceFence := sampleFence 1 "first" (by decide)

def sampleStart : SourceWorld := start {} (sampleClaims 1 "first") 0

def firstSteps (n : ℕ) : List SourceStep :=
  .begin 0 firstFence sampleCandidate::List.replicate n (.advance 0 { newId := 1 })

/-- The row is activated and read again, but the read fails. -/
def lostRead : List SourceStep :=
  firstSteps 6++[.advance 0 { readable := false, newId := 1 },.advance 0 { newId := 1 }]

def lateActivation : List SourceStep :=
  firstSteps 5++[.claims (sampleClaims 1 "first") 200,.advance 0 { newId := 1 }]

/-- A failed read takes the acceptance of a row back, and a row is activated after its claim
has ended. -/
theorem source_rows_unsafe :
    ¬ RunLaws.Along (step sampleDigest) (SourceSafe sampleDigest) sampleStart lostRead ∧
      ¬ RunLaws.Along (step sampleDigest) (SourceSafe sampleDigest) sampleStart lateActivation := by
  constructor
  · intro h
    have hlast := (RunLaws.along_append.mp (show RunLaws.Along _ _ _
      ((firstSteps 6++[.advance 0 { readable := false, newId := 1 }]) ++
        [.advance 0 { newId := 1 }]) from h)).2.1
    have haccepted : (((sampleStart.run sampleDigest (firstSteps 6 ++
        [.advance 0 { readable := false, newId := 1 }])).row 1).any isSummarySourceAccepted) =
          true := by
      decide +kernel
    have horphan : (((sampleStart.run sampleDigest lostRead).row 1).all isSummarySourceAccepted) =
        false := by
      decide +kernel
    obtain ⟨m,hm,hm_accepted⟩ := (Option.any_eq_true _ _).mp haccepted
    obtain ⟨m',hm',hm'_orphan⟩ := (Option.all_eq_false _ _).mp horphan
    have hkept := hlast.kept 1 m m' hm hm_accepted hm'
    exact absurd (hkept.symm.trans hm'_orphan) (by simp)
  · intro h
    have hlast := (RunLaws.along_append.mp (show RunLaws.Along _ _ _
      ((firstSteps 5++[.claims (sampleClaims 1 "first") 200])++[.advance 0 { newId := 1 }]) from h)).2.1
    have hrecallable : BecomesRecallable sampleDigest (sampleStart.run sampleDigest (firstSteps 5 ++
        [.claims (sampleClaims 1 "first") 200])) (.advance 0 { newId := 1 }) 1 := by
      constructor <;> decide +kernel
    have hended : (((sampleStart.run sampleDigest (firstSteps 5 ++
        [.claims (sampleClaims 1 "first") 200])).calls.get? 0).all fun c =>
          !(sampleStart.run sampleDigest (firstSteps 5 ++
            [.claims (sampleClaims 1 "first") 200])).fenceActive c.fence) = true := by
      decide +kernel
    obtain ⟨c,⟨k,o,m,hk,hc,-⟩,hactive⟩ := hlast.activated 1 hrecallable
    obtain ⟨rfl,-⟩ : 0 = k ∧ _ = o := by simpa using hk
    have hno := (Option.all_eq_true _ _).mp hended c hc
    rw [Bool.not_eq_true'] at hno
    exact absurd (hactive.symm.trans hno) (by simp)

def plainStep (w : SourceWorld) : SourceStep → Bool
  | .claims _ _ => false
  | .advance k _ => (w.calls.get? k).all fun c =>
    match c.phase with
    | .orphaning _ => false
    | _ => true
  | _ => true

lemma benign_of_plainStep (h : w.plainStep a = true) : Benign w a := by
  constructor
  · rintro store clock k c id rfl
    exact absurd h (by simp [plainStep])
  · rintro k o c id rfl hc hp
    simp [plainStep,hc,hp] at h

/-- The whole call, from its validation to the end of the finalisation. -/
theorem source_rows_safe_sample :
    RunLaws.Along (step sampleDigest) (SourceSafe sampleDigest) sampleStart (firstSteps 7) ∧
      ((sampleStart.run sampleDigest (firstSteps 7)).row 1).any isMemoryRecallable = true := by
  have hplain : RunLaws.Along (step sampleDigest) (fun w a => w.plainStep a = true) sampleStart
      (firstSteps 7) := by
    decide +kernel
  have hbenign : RunLaws.Along (step sampleDigest) Benign sampleStart (firstSteps 7) :=
    RunLaws.along_imp (P := fun _ => True) (fun _ _ _ _ => trivial)
      (fun _ _ h _ => benign_of_plainStep h) trivial hplain
  exact ⟨(source_rows_safe sampleDigest {} (sampleClaims 1 "first") 0 (firstSteps 7)).2 hbenign,
    by decide +kernel⟩

end SourceWorld

end Memora.Canonical

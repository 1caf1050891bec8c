import Memora.QuarantineSteps
import Memora.RunLaws

/-! Any interleaving of approvals, rejections and repairs, with a stop or a crash at every point. -/
namespace Memora.Quality
open RunLaws

variable {w : Gate}

structure Gate.Accounted (w : Gate) : Prop where
  atMostOne : ∀ c ∈ w.candidates,
    w.memories.countP (fun m => m.candidateId = some c.candidateId) ≤ 1
  approved : ∀ c ∈ w.candidates, c.status = .approved → Names w.memories c
  closed : ∀ c ∈ w.candidates, c.status = .rejected ∨ c.status = .blocked →
    Unwritten w.memories c.candidateId

def GateEvent.finalizes (event : GateEvent) : Prop :=
  ∃ i, event = .finalize i ∨ event = .finishApproval i

def GateEvent.blocks (event : GateEvent) : Prop :=
  ∃ i, (∃ reasonCode, event = .block i reasonCode) ∨ event = .finishBlocked i

/-- A candidate leaves `approving` by being finalised, repaired or blocked. -/
def Gate.LeavesBy (w : Gate) (event : GateEvent) : Prop :=
  ∀ c ∈ w.candidates, c.status = .approving → ∀ c' ∈ (w.step event).candidates,
    c'.candidateId = c.candidateId → c'.status ≠ .approving →
      (c'.status = .approved ∧ event.finalizes) ∨ (c'.status = .blocked ∧ event.blocks)

/-- A write begins while its approval still holds the claim, a memory found under its key is of
the same content and source, and `repair_blocked` blocks a candidate that has no memory. -/
def Gate.fenced (w : Gate) : GateEvent → Bool
  | .beginWrite i =>
    match w.approvals[i]? with
    | some (.claimed row) =>
      !(w.lockFree row.sessionId && row.source.isSome) ||
        (rowOf w.candidates row.candidateId).any fun c =>
          c.status = .approving && c.revision = row.revision
    | _ => true
  | .commits i =>
    match w.approvals[i]? with
    | some (.writing row none) =>
      (approvedMemory row).idempotencyKey = "" ||
        w.memories.all fun m => m.idempotencyKey ≠ (approvedMemory row).idempotencyKey ||
          (m.content = row.content && m.source = row.source)
    | _ => true
  | .finishBlocked j =>
    match w.repairs[j]? with
    | some (.blocking current expectedRevision) =>
      !w.lockFree current.sessionId ||
        (rowOf w.candidates current.candidateId).all fun c =>
          !(c.status = .approving && c.revision = expectedRevision) ||
            w.memories.all fun m => m.candidateId ≠ some current.candidateId
    | _ => true
  | _ => true

lemma Gate.Sound.accounted (h : w.Sound) : w.Accounted where
  atMostOne := fun c _ => h.once c.candidateId
  approved := h.approved
  closed := by
    intro c hc hstatus m hm hown
    obtain ⟨other,hother,hid,hbusy⟩ := h.owned m hm _ hown
    obtain rfl := RowTable.eq_of_key_eq h.ids hother hc hid
    rcases hstatus with hstatus | hstatus <;> rw [hstatus] at hbusy <;> simp at hbusy

lemma Gate.sound_empty : Gate.Sound {} where
  ids := List.nodup_nil
  approvals := fun i a ha => by simp at ha
  repairs := fun p hp => by cases hp
  distinct := fun i j a b row other ha => by simp at ha
  owned := fun m hm => by cases hm
  once := fun id => Nat.zero_le 1
  approved := fun c hc => by cases hc

lemma Gate.Sound.repairBlocked (h : w.Sound) (id : String) (expectedRevision : ℤ)
    (confirm : Bool) : (w.repairBlocked id expectedRevision confirm).Sound := by
  unfold Gate.repairBlocked
  cases hrow : rowOf w.candidates id with
  | none => exact h
  | some current =>
    dsimp only
    split
    · refine h.appendRepair ⟨?_,fun _ _ _ _ heq => by cases heq⟩
      intro other hother
      cases hother
      exact snapshot_of_rowOf hrow
    · exact h

lemma Gate.Sound.repairApproval (h : w.Sound) (id : String) (expectedRevision : ℤ)
    (memoryId : ℕ) (tokenHash : Option String) :
    (w.repairApproval id expectedRevision memoryId tokenHash).Sound := by
  unfold Gate.repairApproval
  cases hrow : rowOf w.candidates id with
  | none => exact h
  | some current =>
    dsimp only
    by_cases hready : (current.status = .approving && current.revision = expectedRevision) = true
    · rw [if_pos hready]
      simp only [Bool.and_eq_true,decide_eq_true_eq] at hready
      refine h.appendRepair ⟨?_,?_⟩
      · intro other hother
        cases hother
        exact snapshot_of_rowOf hrow
      · intro other revision otherId otherHash heq
        cases heq
        exact hready.2
    · rw [if_neg hready]
      exact h

lemma Gate.Sound.step (h : w.Sound) {event : GateEvent} (hfenced : w.fenced event = true) :
    (w.step event).Sound := by
  cases event with
  | stage candidateId candidateKey content metadata sessionId source =>
    rcases mem_stageCandidate candidateId candidateKey content metadata sessionId source
      w.candidates with hsame | ⟨new,hstatus,hnew,hadded⟩
    · rw [Gate.step,hsame]
      exact h
    · rw [Gate.step,hadded]
      exact h.append hstatus hnew
  | approve candidateId expectedRevision content =>
    exact h.approve candidateId expectedRevision content
  | claim i tokenHash => exact h.claim i tokenHash
  | block i reasonCode => exact h.block i reasonCode
  | beginWrite i =>
    refine h.beginWrite fun row ha hready => ?_
    simp only [Gate.fenced,ha,hready,Bool.not_true,Bool.false_or] at hfenced
    cases hrow : rowOf w.candidates row.candidateId with
    | none =>
      rw [hrow] at hfenced
      cases hfenced
    | some c =>
      simp only [hrow,Option.any_some,Bool.and_eq_true,decide_eq_true_eq] at hfenced
      exact ⟨c,rfl,hfenced.2⟩
  | commits i =>
    refine h.commits fun row ha hused m hm hkey => ?_
    simp only [Gate.fenced,ha,Bool.or_eq_true,decide_eq_true_eq] at hfenced
    rcases hfenced with hblank | hall
    · exact absurd hblank hused
    · simpa [hkey] using List.all_eq_true.mp hall m hm
  | returns i => exact h.returns i
  | finalize i => exact h.finalize i
  | stops i => exact h.endApproval i
  | crash => exact h.crash
  | reject candidateId expectedRevision => exact h.reject candidateId expectedRevision
  | repairBlocked candidateId expectedRevision confirm =>
    exact h.repairBlocked candidateId expectedRevision confirm
  | finishBlocked j =>
    refine h.finishBlocked fun current expectedRevision found hp hfree hrow hstatus hrevision => ?_
    simp only [Gate.fenced,hp,hfree,hrow,Option.all_some,hstatus,hrevision,decide_true,
      Bool.and_self,Bool.not_true,Bool.false_or] at hfenced
    intro m hm
    simpa using List.all_eq_true.mp hfenced m hm
  | repairApproval candidateId expectedRevision memoryId tokenHash =>
    exact h.repairApproval candidateId expectedRevision memoryId tokenHash
  | finishApproval j => exact h.finishApproval j
  | stopsRepair j => exact h.endRepair j
  | otherWrite content idempotencyKey source => exact h.otherWrite content idempotencyKey source

/-- The candidates after a step: the same, one more, or those of one transaction. -/
inductive CandidatesAfter (w : Gate) (event : GateEvent) : List Candidate → Prop
  | same : CandidatesAfter w event w.candidates
  | staged (new : Candidate) (hnew : ∀ c ∈ w.candidates, c.candidateId ≠ new.candidateId) :
      CandidatesAfter w event (w.candidates++[new])
  | transacted (id : String) (t : Transition)
      (hleaves : t.allowed .approving = true →
        (t.nextStatus = .approved ∧ event.finalizes) ∨ (t.nextStatus = .blocked ∧ event.blocks)) :
      CandidatesAfter w event (w.transact id t).candidates

lemma transact_candidates (w : Gate) (id : String) (t : Transition) : (w.transact id t).candidates =
      match transition id t w.candidates with
      | .error _ => w.candidates
      | .ok (rows,_) => rows := by
  unfold Gate.transact
  split <;> simp [*]

lemma claim_after (w : Gate) (i : ℕ) (tokenHash : String) :
    CandidatesAfter w (.claim i tokenHash) (w.claim i tokenHash).candidates := by
  unfold Gate.claim
  cases w.approvals[i]? with
  | none => exact .same
  | some a =>
    cases a with
    | loaded current expectedRevision content =>
      dsimp only
      cases corrected current content with
      | error message => exact .same
      | ok pair =>
        have hmoved : CandidatesAfter w (.claim i tokenHash) (w.transact current.candidateId
            (claimApproval expectedRevision tokenHash pair.1 pair.2)).candidates :=
          .transacted _ _ fun hallowed => by cases hallowed
        rw [transact_candidates] at hmoved
        dsimp only
        cases hresult : transition current.candidateId
            (claimApproval expectedRevision tokenHash pair.1 pair.2) w.candidates with
        | error message => exact .same
        | ok result =>
          rw [hresult] at hmoved
          exact hmoved
    | _ => exact .same

lemma candidates_after (w : Gate) (event : GateEvent) :
    CandidatesAfter w event (w.step event).candidates := by
  cases event with
  | stage candidateId candidateKey content metadata sessionId source =>
    rcases mem_stageCandidate candidateId candidateKey content metadata sessionId source
      w.candidates with hsame | ⟨new,hstatus,hnew,hadded⟩
    · rw [Gate.step,hsame]
      exact .same
    · rw [Gate.step,hadded]
      exact .staged new hnew
  | claim i tokenHash => exact claim_after w i tokenHash
  | block i reasonCode =>
    rw [Gate.step,Gate.block]
    split
    · exact .transacted _ _ fun _ => .inr ⟨rfl,i,.inl ⟨reasonCode,rfl⟩⟩
    · exact .same
  | finalize i =>
    rw [Gate.step,Gate.finalize]
    split
    · exact .transacted _ _ fun _ => .inl ⟨rfl,i,.inl rfl⟩
    · exact .same
  | reject candidateId expectedRevision =>
    exact .transacted _ _ fun hallowed => by cases hallowed
  | finishBlocked j =>
    rw [Gate.step,Gate.finishBlocked]
    split
    · split
      · exact .transacted _ _ fun _ => .inr ⟨rfl,j,.inr rfl⟩
      · exact .same
    · exact .same
  | finishApproval j =>
    rw [Gate.step,Gate.finishApproval]
    split
    · split
      · split
        · exact .same
        · split
          · exact .transacted _ _ fun _ => .inl ⟨rfl,j,.inr rfl⟩
          · exact .same
      · exact .same
    · exact .same
  | approve candidateId expectedRevision content =>
    rw [Gate.step,Gate.approve]
    split
    · exact .same
    · split
      · exact .same
      · split <;> exact .same
  | beginWrite i =>
    rw [Gate.step,Gate.beginWrite]
    split
    · split <;> exact .same
    · exact .same
  | commits i =>
    rw [Gate.step,Gate.commits]
    split <;> exact .same
  | returns i =>
    rw [Gate.step,Gate.returns]
    split <;> exact .same
  | repairBlocked candidateId expectedRevision confirm =>
    rw [Gate.step,Gate.repairBlocked]
    split
    · exact .same
    · split <;> exact .same
  | repairApproval candidateId expectedRevision memoryId tokenHash =>
    rw [Gate.step,Gate.repairApproval]
    split
    · exact .same
    · split <;> exact .same
  | stops | crash | stopsRepair | otherWrite => exact .same

lemma Gate.Sound.leavesBy (h : w.Sound) (event : GateEvent) : w.LeavesBy event := by
  intro c hc happroving c' hc' hid hleft
  have hafter := candidates_after w event
  have hkept : c' ∈ w.candidates → False := by
    intro hmem
    obtain rfl := RowTable.eq_of_key_eq h.ids hmem hc hid
    exact hleft happroving
  generalize (w.step event).candidates = rows at hafter hc'
  cases hafter with
  | same => exact (hkept hc').elim
  | staged new hnew =>
    rcases List.mem_append.mp hc' with hmem | hmem
    · exact (hkept hmem).elim
    · rw [List.mem_singleton.mp hmem] at hid
      exact absurd hid.symm (hnew c hc)
  | transacted id t hleaves =>
    rw [transact_candidates] at hc'
    have heffect := transition_effect id t w.candidates
    cases hresult : transition id t w.candidates with
    | error message =>
      rw [hresult] at hc'
      exact (hkept hc').elim
    | ok pair =>
      rw [hresult] at heffect hc'
      cases heffect with
      | unchanged current hrow hstatus hterminal => exact (hkept hc').elim
      | changed current hrow hopen hrevision hallowed htoken =>
        rcases mem_changed hc' with ⟨hmem,-⟩ | rfl
        · exact (hkept hmem).elim
        · -- the changed row is the one that was approving
          obtain rfl := RowTable.eq_of_key_eq h.ids (rowOf_mem hrow).1 hc hid
          rw [happroving] at hallowed
          exact hleaves hallowed

theorem approvals_accounted (events : List GateEvent)
    (hfenced : Along Gate.step (fun w event => w.fenced event = true) {} events) :
    (events.foldl Gate.step {}).Accounted ∧
      ∀ event, (events.foldl Gate.step {}).LeavesBy event := by
  have hsound : (events.foldl Gate.step {}).Sound :=
    along_invariant (fun _ _ hfenced h => h.step hfenced) Gate.sound_empty hfenced
  exact ⟨hsound.accounted,hsound.leavesBy⟩

def sampleSource : SourceCorrelation := ⟨1,"digest",1,"fence"⟩

def sampleStage : GateEvent :=
  .stage "qc_1" "key" "likes tea" {} "s" (some sampleSource)

/-- A candidate is blocked once and then approved; a second one is rejected. -/
def approvedRun : List GateEvent := [sampleStage,
  .approve "qc_1" 1 none,.claim 0 "t1",.block 0 "grounding_judge_failed",
  .approve "qc_1" 3 (some " likes green tea "),.claim 1 "t2",.beginWrite 1,.commits 1,
  .repairBlocked "qc_1" 4 true,.returns 1,.finalize 1,.finishBlocked 0,
  .stage "qc_2" "other" "likes rain" {} "s" none,.reject "qc_2" 1]

theorem approvals_accounted_sample :
    (approvedRun.foldl Gate.step {}).candidates.map (·.status) = [.approved,.rejected] ∧
      (approvedRun.foldl Gate.step {}).Accounted :=
  ⟨by decide +kernel,(approvals_accounted approvedRun (by decide +kernel)).1⟩

def Gate.truthful (w : Gate) : GateEvent → Bool
  | .repairBlocked candidateId _ confirmCanonicalAbsent =>
    !confirmCanonicalAbsent || w.memories.all fun m => m.candidateId ≠ some candidateId
  | _ => true

/-- The candidate is blocked while its approval waits for the judge; the approval writes. -/
def lostClaimRun : List GateEvent := [sampleStage, .approve "qc_1" 1 none,.claim 0 "t1",
  .repairBlocked "qc_1" 2 true,.finishBlocked 0, .beginWrite 0,.commits 0,.returns 0,.finalize 0]

theorem blocked_with_memory : Along Gate.step (fun w event => w.truthful event = true)
    {} lostClaimRun ∧
      ¬(lostClaimRun.foldl Gate.step {}).Accounted := by
  refine ⟨by decide +kernel,fun h => ?_⟩
  have hblocked : ∃ c ∈ (lostClaimRun.foldl Gate.step {}).candidates, c.status = .blocked ∧
      ∃ m ∈ (lostClaimRun.foldl Gate.step {}).memories, m.candidateId = some c.candidateId := by
    decide +kernel
  obtain ⟨c,hc,hstatus,m,hm,hown⟩ := hblocked
  exact h.closed c hc (.inr hstatus) m hm hown

end Memora.Quality

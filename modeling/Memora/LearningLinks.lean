import Memora.LearningRuns
import Memora.LearningWeightHash

/-! The state at every moment of a run, in memory and on disk. -/
namespace Memora.Learning

variable {F γ : Type*} {env : SystemEnv F γ} {w : World F γ}

/-- One claim at most; the pointer names the one active publication; its ancestors are
superseded and no two are the same; a tombstone and a rollback name a publication of their
candidate. -/
structure Payload.Linked (p : Payload F) : Prop where
  one_claim : p.operationClaims.entries.length ≤ 1
  active : ∀ r q, p.publications.get? r = some q →
    (q.status = .active ↔ p.activePublicationRevision = some r)
  named : ∀ r, p.activePublicationRevision = some r → ∃ q, p.publications.get? r = some q
  chain : ∃ rs, p.Lineage p.activePublicationRevision rs ∧ rs.Nodup ∧
    ∀ r ∈ rs.tail, ∀ q, p.publications.get? r = some q → q.status = .superseded
  tombstones : ∀ k t, p.tombstones.get? k = some t →
    (p.candidates.get? t.candidateId).isSome = true ∧
      ∃ q, p.publications.get? t.publicationRevision = some q ∧ q.candidateId = t.candidateId
  rollbacks : ∀ k i, p.publishIntents.get? k = some i → i.action = .rollback →
    (p.candidates.get? i.candidateId).isSome = true ∧
      ∀ q, p.publications.get? i.publicationRevision = some q → q.candidateId = i.candidateId

lemma Payload.Sound.linked {o : Origin F} {p : Payload F} (h : p.Sound o) : p.Linked where
  one_claim := h.one_claim
  active := h.active
  named := fun _ hr => h.known hr
  chain := h.chain
  tombstones := by
    intro k t ht
    obtain ⟨q,hq,hcand⟩ := h.tombstones k t ht
    have hknown := (h.publications _ q hq).2.2
    rw [hcand] at hknown
    exact ⟨hknown,q,hq,hcand⟩
  rollbacks := by
    intro k i hi _
    obtain ⟨-,⟨i₀,hi₀,hcand,-⟩,hknown⟩ := h.intents k i hi
    refine ⟨hknown,fun q hq => ?_⟩
    obtain ⟨hkey,⟨j₀,hj₀,hqcand,-⟩,-⟩ := h.publications _ q hq
    -- the revision was drawn once, for one candidate
    rw [hkey,hi₀] at hj₀
    obtain rfl := Option.some.inj hj₀
    rw [hqcand,hcand]

structure World.Starting (w : World F γ) : Prop where
  managers : ∀ i, (w.managers i).toPayload = {}
  files : w.shared.files.Initial
  tasks : w.tasks = []
  origin : w.origin = {}
  writes : w.writes = []

lemma World.Starting.all {P : Payload F → Prop} (h : w.Starting) (hP : P {}) : w.All P where
  managers := by
    intro i
    rw [h.managers i]
    exact hP
  files := by
    intro revision payload hp
    obtain ⟨hbackup,hprimary⟩ := h.files
    rcases hp with hp | hp
    · rcases hprimary with hnone | ⟨l,r,hlegacy⟩
      · exact absurd (hnone.symm.trans hp) (by simp)
      · exact absurd (hlegacy.symm.trans hp) (by simp)
    · exact absurd (hbackup.symm.trans hp) (by simp)

lemma World.Starting.sound (h : w.Starting) : w.Sound :=
  (h.all (Payload.sound_empty w.origin)).sound (World.Quiet.refl w)

variable [DecidableEq F] [DecidableEq γ]

/-- Any number of managers publish, roll back, rebuild, reset, record reloads, are cancelled,
crash and load over the same files: what they remember and what is on disk stays linked, if
a rollback only falls back on an unconfirmed publish while no publication of another
candidate is active. -/
theorem learning_state_linked (env : SystemEnv F γ) (steps : List (LearningStep F γ))
    (hstart : w.Starting) (hok : RunLaws.Along (World.step env) (StepOk env) w steps) :
    (∀ i, ((w.run env steps).managers i).toPayload.Linked) ∧
      (w.run env steps).shared.files.Holds Payload.Linked := by
  have hrun : (w.run env steps).Sound :=
    RunLaws.along_invariant (fun _ _ hok h => sound_step hok h) hstart.sound hok
  exact ⟨fun i => (hrun.managers i).linked,
    fun revision payload hp => (hrun.files revision payload hp).linked⟩

/-- A port that hashes the weights as the domain does. -/
def sampleSystem : SystemEnv (Fin 11) (Weights (Fin 11)) where
  toLearningEnv := sampleLearning
  store := ⟨fun _ _ => none,fun revision => revision⟩
  read := fun w => (sampleLearning.weightSnapshotHash w).map fun hash =>
    { revision := weightsText tenths w, weights := w, configHash := sampleLearning.configHash w,
      weightHash := hash }

def sampleStart : World (Fin 11) (Weights (Fin 11)) := { config := sevenThree }

lemma sampleStart_starting : sampleStart.Starting :=
  ⟨fun _ => rfl,⟨rfl,.inl rfl⟩,rfl,rfl,rfl⟩

/-- A candidate that passed its gate, built from the aggregation of this revision. -/
def sampleCandidate (aggregation : String) (baseline target : Weights (Fin 11)) :
    Candidate (Fin 11) where
  candidateId := ""
  binding := { aggregationRevision := aggregation, sourceConfigRevision :=
    weightsText tenths baseline }
  baselineSnapshotHash := (sampleLearning.weightSnapshotHash baseline).getD ""
  targetSnapshotHash := (sampleLearning.weightSnapshotHash target).getD ""
  proposed := target
  status := .readyForReview
  reasonCode := "ready_for_review"
  createdAt := ""

def candidateA : String := "candidate-of-the-first"
def candidateB : String := "candidate-of-the-second"
def publicationA : String := "publication-of-the-first"
def publicationB : String := "publication-of-the-second"

def crossedRollback : List (LearningStep (Fin 11) (Weights (Fin 11))) :=
  [{ call := .rebuild 0 (sampleCandidate "first" ⟨7,3⟩ ⟨6,4⟩) false
     draw := { candidateId := candidateA, stateRevision := "state-revision-number-1" } },
   { call := .publish 0 candidateA (weightsText tenths ⟨7,3⟩) ⟨7,3⟩ true true
     draw := { operationId := "first-publish-operation", publicationRevision := publicationA,
               stateRevision := "state-revision-number-2" } },
   { call := .cancel "first-publish-operation" ⟨7,3⟩
     draw := { recoveryRevision := "recovery-of-first-publish",
               stateRevision := "state-revision-number-3" } },
   { call := .configure ⟨8,2⟩ },
   { call := .rebuild 0 (sampleCandidate "second" ⟨8,2⟩ ⟨5,5⟩) false
     draw := { candidateId := candidateB, stateRevision := "state-revision-number-4" } },
   { call := .publish 0 candidateB (weightsText tenths ⟨8,2⟩) ⟨8,2⟩ true true
     draw := { operationId := "second-publish-operation", publicationRevision := publicationB,
               stateRevision := "state-revision-number-5" } },
   { call := .write "second-publish-operation" (.done (weightsText tenths ⟨5,5⟩) weightPaths) ⟨5,5⟩ true },
   { call := .finish "second-publish-operation"
     draw := { stateRevision := "state-revision-number-6" } },
   { call := .configure ⟨6,4⟩ },
   { call := .rollback 0 candidateA (weightsText tenths ⟨6,4⟩) ⟨6,4⟩
     draw := { operationId := "first-rollback-operation", stateRevision := "state-revision-number-7" } },
   { call := .write "first-rollback-operation" (.done (weightsText tenths ⟨8,2⟩) weightPaths) ⟨8,2⟩ true },
   { call := .finish "first-rollback-operation"
     draw := { tombstoneId := "tombstone-of-a-rollback", stateRevision := "state-revision-number-8" } }]

/-- A tombstone then pairs the first candidate with the publication of the second. -/
theorem crossed_rollback_unlinked : sampleStart.Starting ∧
      ¬ ((sampleStart.run sampleSystem crossedRollback).managers 0).toPayload.Linked := by
  refine ⟨sampleStart_starting,fun h => ?_⟩
  have htomb : ((sampleStart.run sampleSystem crossedRollback).managers 0).tombstones.get?
      "tombstone-of-a-rollback" =
        some ⟨"tombstone-of-a-rollback","first-rollback-operation",candidateA,publicationB,""⟩ := by
    decide +kernel
  have hpub : (((sampleStart.run sampleSystem crossedRollback).managers 0).publications.get?
      publicationB).map (·.candidateId) =
        some candidateB := by
    decide +kernel
  obtain ⟨-,q,hq,hcand⟩ := h.tombstones _ _ htomb
  rw [hq] at hpub
  exact absurd (hcand.symm.trans (Option.some.inj hpub)) (by decide)

def plainRollback : List (LearningStep (Fin 11) (Weights (Fin 11))) :=
  [{ call := .rebuild 0 (sampleCandidate "first" ⟨7,3⟩ ⟨6,4⟩) false
     draw := { candidateId := candidateA, stateRevision := "state-revision-number-1" } },
   { call := .publish 0 candidateA (weightsText tenths ⟨7,3⟩) ⟨7,3⟩ true true
     draw := { operationId := "first-publish-operation", publicationRevision := publicationA,
               stateRevision := "state-revision-number-2" } },
   { call := .write "first-publish-operation" (.done (weightsText tenths ⟨6,4⟩) weightPaths) ⟨6,4⟩ true },
   { call := .finish "first-publish-operation"
     draw := { stateRevision := "state-revision-number-3" } },
   { call := .rollback 0 candidateA (weightsText tenths ⟨6,4⟩) ⟨6,4⟩
     draw := { operationId := "first-rollback-operation", stateRevision := "state-revision-number-4" } },
   { call := .write "first-rollback-operation" (.done (weightsText tenths ⟨7,3⟩) weightPaths) ⟨7,3⟩ true },
   { call := .finish "first-rollback-operation"
     draw := { tombstoneId := "tombstone-of-a-rollback", stateRevision := "state-revision-number-5" } }]

lemma along_plainRollback : RunLaws.Along (World.step sampleSystem) (StepOk sampleSystem)
    sampleStart plainRollback := by
  refine ⟨trivial,⟨rfl,rfl⟩,trivial,trivial,⟨?_,?_⟩,trivial,trivial,trivial⟩
  · decide +kernel
  intro p j s hp _ _ _
  have hactive : (((sampleStart.run sampleSystem
      (plainRollback.take 4)).managers 0).activePublication).map (·.candidateId) =
        some candidateA := by
    decide +kernel
  have hcand := congrArg (Option.map (·.candidateId)) hp
  exact Option.some.inj (hcand.symm.trans hactive)

theorem learning_state_linked_sample :
    ((sampleStart.run sampleSystem plainRollback).managers 0).toPayload.Linked ∧
      ((sampleStart.run sampleSystem plainRollback).managers 0).tombstones.get? "tombstone-of-a-rollback" =
          some ⟨"tombstone-of-a-rollback","first-rollback-operation",candidateA,publicationA,""⟩ :=
  ⟨(learning_state_linked sampleSystem plainRollback sampleStart_starting along_plainRollback).1 0,
    by decide +kernel⟩

end Memora.Learning

import Memora.ReconsolidationMoves

/-! Time stamps are new for their memory, so a revision that was ever recorded names one row for
good. A call that has compared a row under a recorded revision therefore writes over that row or
not at all. -/
namespace Memora.Reconsolidation
open Engine
open Canonical (pythonStrip)

variable {env : Env}

def Job.writes (j : Job) : Bool :=
  match j.stage with
  | .writing _ => true
  | _ => false

def Job.document? (j : Job) : Option MemoryRow :=
  match j.stage with
  | .loading _ (.stamps d) => some d
  | _ => none

def Fresh (env : Env) (s : System) : Step → Prop
  | .edit memoryId _ updatedAt =>
    ∀ e ∈ s.held, e.1 = memoryId → e.2.revision env ≠ updatedAt.text
  | .advance i x => ∀ j ∈ s.jobs[i]?, j.writes = true →
    ∀ e ∈ s.held, e.1 = j.candidate.memoryId → e.2.revision env ≠ x.updatedAt.text
  | .stage _ _ _ _ candidateId => s.world.store.getCandidate candidateId = none
  | _ => True

def Untorn (s : System) : Step → Prop
  | .advance i _ => ∀ j ∈ s.jobs[i]?, ∀ d ∈ j.document?,
    ∀ m ∈ s.world.memories.get? j.candidate.memoryId, m = d
  | _ => True

instance decidableFresh (s : System) : (a : Step) → Decidable (Fresh env s a)
  | .edit memoryId _ updatedAt => inferInstanceAs (Decidable
      (∀ e ∈ s.held, e.1 = memoryId → e.2.revision env ≠ updatedAt.text))
  | .advance i x => inferInstanceAs (Decidable (∀ j ∈ s.jobs[i]?, j.writes = true →
      ∀ e ∈ s.held, e.1 = j.candidate.memoryId → e.2.revision env ≠ x.updatedAt.text))
  | .stage _ _ _ _ candidateId => inferInstanceAs (Decidable (s.world.store.getCandidate candidateId = none))
  | .remove _ | .propose _ | .load .. | .apply .. | .rollback _ | .reject .. | .recoverApply _
  | .recoverRollback _ | .die _ | .crash => isTrue trivial

instance decidableUntorn (s : System) : (a : Step) → Decidable (Untorn s a)
  | .advance i _ => inferInstanceAs (Decidable (∀ j ∈ s.jobs[i]?, ∀ d ∈ j.document?,
      ∀ m ∈ s.world.memories.get? j.candidate.memoryId, m = d))
  | .edit .. | .stage .. | .remove _ | .propose _ | .load .. | .apply .. | .rollback _
  | .reject .. | .recoverApply _ | .recoverRollback _ | .die _ | .crash => isTrue trivial

def System.Revised (env : Env) (s : System) (k : ℕ) (r : String) : Prop :=
  ∃ m, (k,m) ∈ s.held ∧ m.revision env = r

/-- A row read earlier is still there, or the row that is there has a newer stamp than `r`. -/
def System.Since (s : System) (k : ℕ) (d : MemoryRow) (r : String) : Prop :=
  (k,d) ∈ s.held ∧ ∀ m ∈ s.world.memories.get? k, m = d ∨ ∃ t : Stamp, m.updatedAt = some t.text ∧
  t.text ≠ r

def System.Passed (s : System) (k : ℕ) (r : String) : Prop :=
  ∀ m ∈ s.world.memories.get? k, ∃ t : Stamp, m.updatedAt = some t.text ∧ t.text ≠ r

def System.Dated (env : Env) (s : System) (k : ℕ) : Prop :=
  ∀ m ∈ s.world.memories.get? k, m.revision env ≠ ""

/-- What a step may do to the rows: nothing, a removal, or a write under a new stamp. -/
structure System.Extends (env : Env) (s s' : System) : Prop where
  held : s.held ⊆ s'.held
  memories : ∀ k, ∀ m' ∈ s'.world.memories.get? k, m' ∈ s.world.memories.get? k ∨
    ∃ t : Stamp, m'.updatedAt = some t.text ∧ ¬s.Revised env k t.text

variable {s s' : System} {k : ℕ} {d m : MemoryRow} {r : String} {id : String}

lemma System.Extends.of_rows (hh : s'.held = s.held)
    (hm : s'.world.memories = s.world.memories) : s.Extends env s' := by
  refine ⟨by rw [hh]; exact List.Subset.refl _,fun k m hk => .inl ?_⟩
  rwa [hm] at hk

lemma System.Revised.mono (h : s.Revised env k r) (he : s.Extends env s') :
    s'.Revised env k r := by
  obtain ⟨m,hm,hr⟩ := h
  exact ⟨m,he.held hm,hr⟩

lemma System.Since.mono (h : s.Since k d r) (he : s.Extends env s')
    (hr : r ≠ "" → s.Revised env k r) : s'.Since k d r := by
  refine ⟨he.held h.1,fun m hm => ?_⟩
  rcases he.memories k m hm with hold | ⟨t,ht,hnew⟩
  · exact h.2 m hold
  · refine .inr ⟨t,ht,fun heq => ?_⟩
    by_cases hne : r = ""
    · exact t.strip.2 (heq.trans hne)
    · exact hnew (heq ▸ hr hne)

lemma System.Passed.mono (h : s.Passed k r) (he : s.Extends env s')
    (hr : s.Revised env k r) : s'.Passed k r := by
  intro m hm
  rcases he.memories k m hm with hold | ⟨t,ht,hnew⟩
  · exact h m hold
  · exact ⟨t,ht,fun heq => hnew (heq ▸ hr)⟩

lemma System.Dated.mono (h : s.Dated env k) (he : s.Extends env s') : s'.Dated env k := by
  intro m hm
  rcases he.memories k m hm with hold | ⟨t,ht,-⟩
  · exact h m hold
  · rw [revision_of_stamp ht]
    exact t.strip.2

theorem System.Since.loaded (env : Env) (h : s.Since k d r) :
    stampedBy d (s.world.memories.get? k) = d ∨
      ∃ m t, s.world.memories.get? k = some m ∧ m.updatedAt = some (Stamp.text t) ∧ t.text ≠ r ∧
        (stampedBy d (s.world.memories.get? k)).revision env = t.text := by
  cases hm : s.world.memories.get? k with
  | none => exact .inl rfl
  | some m =>
    rcases h.2 m hm with rfl | ⟨t,ht,hne⟩
    · exact .inl rfl
    · refine .inr ⟨m,t,rfl,ht,hne,?_⟩
      exact revision_of_stamp (m := stampedBy d (some m)) ht

lemma System.Since.loaded_eq (h : s.Since k d r)
    (hr : (stampedBy d (s.world.memories.get? k)).revision env = r) :
    stampedBy d (s.world.memories.get? k) = d ∧ d.revision env = r := by
  rcases h.loaded env with heq | ⟨m,t,-,-,hne,hrev⟩
  · exact ⟨heq,by rwa [heq] at hr⟩
  · exact absurd (hrev.symm.trans hr) hne

lemma revision_of_unchangedSince (h : m.unchangedSince r = true) (hr : r ≠ "") :
    m.revision env = r := by
  simp only [MemoryRow.unchangedSince,Bool.and_eq_true,decide_eq_true_eq] at h
  obtain ⟨hstrip,hcolumn⟩ := h
  cases hu : m.updatedAt with
  | some u =>
    obtain rfl : u = r := by simpa [hu] using hcolumn
    have hu' : pythonStrip u = u := by simpa [hu,hr,Option.filter] using hstrip
    rw [MemoryRow.revision,revisionOf,hu,token,Option.map_some,hu']
    simp [Option.filter,hr]
  | none =>
    have hc : m.createdAt = some r := by simpa [hu] using hcolumn
    have hc' : pythonStrip r = r := by simpa [hu,hc,Option.filter] using hstrip
    rw [MemoryRow.revision,revisionOf,hu,hc]
    simp [token,Option.filter,hc',hr]

lemma revision_strip (m : MemoryRow) : pythonStrip (m.revision env) = m.revision env := by
  have htoken : ∀ o : Option String, ∀ t ∈ token o, pythonStrip t = t := by
    intro o t ht
    obtain ⟨v,-,hv⟩ := Option.map_eq_some_iff.mp (Option.filter_eq_some_iff.mp ht).1
    rw [← hv]
    exact Canonical.stripWhere_stripWhere _ _
  have hgetD : ∀ o : Option String, (∀ t ∈ o, pythonStrip t = t) → pythonStrip (o.getD "") = o.getD "" := by
    intro o ho
    cases o with
    | none => rfl
    | some t => exact ho t rfl
  apply hgetD
  intro t ht
  simp only [Option.mem_def,Option.or_eq_some_iff] at ht
  rcases ht with hu | ⟨-,hc | ⟨-,hstored⟩⟩
  · exact htoken _ t hu
  · exact htoken _ t hc
  · split at hstored
    · cases hstored
    · cases hstored
    · exact htoken _ t hstored

namespace Job

def known (j : Job) : String :=
  if j.purpose.applies then j.candidate.sourceRevision
  else pythonStrip (j.candidate.appliedRevision.getD "")

def intent (j : Job) : Option (Bool × String) :=
  match j.purpose, j.stage with
  | .rollback, .loading .visit _ | .rollback, .beginning => none
  | p, _ => some (p.applies,j.id)

def armed (j : Job) : Prop :=
  match j.stage with
  | .beginning | .loading .update _ | .writing _ => True
  | _ => False

/-- A row as the record has it: the old row for an application that is tried again, the row of
the application for a rollback. -/
def Recorded (env : Env) (j : Job) (d : MemoryRow) : Prop :=
  d.revision env = j.known ∧
    if j.purpose.applies then
      d.text = j.candidate.oldContent ∧ metadataMatches d.metadata j.candidate.oldMetadata = true
    else d.text = j.candidate.proposedContent ∧
      ∃ a ∈ j.candidate.appliedMetadata, metadataMatches d.metadata a = true

def past (j : Job) : Prop :=
  match j.stage with
  | .loading .visit .document | .loading .verify _ => True
  | .loading .visit (.stamps d) =>
    ∃ t : Stamp, d.updatedAt = some t.text ∧ t.text ≠ j.candidate.sourceRevision
  | .closing (.approve ..) | .closing .recoveryRequired | .closing (.blockApply _) => True
  | _ => False

end Job

def Closing.applies : Closing → Bool
  | .reject _ | .approve .. | .recoveryRequired | .blockApply _ => true
  | .cancel | .blockRollback _ | .complete => false

/-- The row an approval records; with `u` it has the proposed text as well. -/
def System.Approves (env : Env) (u : Prop) (s : System) (c : Candidate) (r : String) : Prop :=
  ∃ m, (c.memoryId,m) ∈ s.held ∧ m.revision env = r ∧ (u → m.text = c.proposedContent)

structure Job.Follows (s : Store) (j : Job) : Prop where
  candidate : ∃ c, s.getCandidate j.id = some c ∧ j.candidate.Same c ∧
    (j.purpose.applies = false → c.status ≠ .pending ∧
      c.appliedRevision = j.candidate.appliedRevision)
  intent : ∀ e ∈ j.intent, s.Opened e

/-- What holds of a call at every stop; with `u` loads are not torn. -/
structure JobInv (env : Env) (u : Prop) (s : System) (j : Job) : Prop where
  follows : j.Follows s.world.store
  known : j.known ≠ "" → s.Revised env j.candidate.memoryId j.known
  since : ∀ reading d, j.stage = .loading reading (.stamps d) →
    s.Since j.candidate.memoryId d j.known
  dated : ∀ reading d, j.stage = .loading reading (.stamps d) → d.revision env ≠ ""
  beginning : j.stage = .beginning → j.purpose = .rollback
  armed : j.armed → j.expected = j.known ∧ (j.purpose ≠ .apply →
    ∃ d, (j.candidate.memoryId,d) ∈ s.held ∧ j.Recorded env d)
  writing : ∀ g, j.stage = .writing g → j.expected ≠ ""
  visiting : j.purpose.recovers = true → j.purpose.applies = true →
    j.expected = j.candidate.sourceRevision
  refreshing : j.stage = .refreshing → j.purpose.applies = false
  closing : ∀ c, j.stage = .closing c → c.applies = j.purpose.applies
  approving : ∀ reason r a, j.stage = .closing (.approve reason r a) →
    r ≠ "" ∧ pythonStrip r = r ∧ s.Approves env u j.candidate r
  cancelling : j.stage = .closing .cancel → j.purpose = .rollback
  committed : j.id ∈ s.committed → j.purpose.applies = true → j.past

def ProposalInv (env : Env) (s : System) (p : Proposal) : Prop :=
  match p.progress with
  | .document | .loaded none => True
  | .stamps d => s.Since p.memoryId d ""
  | .loaded (some m) => s.Revised env p.memoryId (m.revision env) ∧
    (m.revision env ≠ "" → s.Dated env p.memoryId)

structure CandidateInv (env : Env) (u : Prop) (s : System) (c : Candidate) : Prop where
  staged : s.Revised env c.memoryId c.sourceRevision
  dated : s.Dated env c.memoryId
  applied : ∀ r, c.appliedRevision = some r → s.Approves env u c r

structure Inv (env : Env) (u : Prop) (s : System) : Prop where
  current : ∀ k m, s.world.memories.get? k = some m → (k,m) ∈ s.held
  unique : ∀ k m m', (k,m) ∈ s.held → (k,m') ∈ s.held → m.revision env = m'.revision env →
    m = m'
  sound : ∀ id, (s.world.store.view id).Sound
  candidates : ∀ id c, s.world.store.getCandidate id = some c → CandidateInv env u s c
  proposals : ∀ p ∈ s.proposals, ProposalInv env s p
  jobs : ∀ j ∈ s.jobs, JobInv env u s j
  distinct : (s.jobs.filterMap Job.intent).Nodup
  committed : ∀ id ∈ s.committed, ∃ c, s.world.store.getCandidate id = some c ∧
    c.status ≠ .rejected ∧ (c.status = .pending → (s.world.store.applyOps.get? id).isSome) ∧
    s.Passed c.memoryId c.sourceRevision

variable {u : Prop} {j : Job} {c : Candidate} {p : Proposal} {st st' : Store}

lemma System.Approves.mono (h : s.Approves env u c r) (he : s.Extends env s') :
    s'.Approves env u c r := by
  obtain ⟨m,hm,hr,ht⟩ := h
  exact ⟨m,he.held hm,hr,ht⟩

lemma CandidateInv.mono (h : CandidateInv env u s c) (he : s.Extends env s') :
    CandidateInv env u s' c :=
  ⟨h.staged.mono he,h.dated.mono he,fun r hr => (h.applied r hr).mono he⟩

lemma ProposalInv.mono (h : ProposalInv env s p) (he : s.Extends env s') :
    ProposalInv env s' p := by
  unfold ProposalInv at h ⊢
  split
  · trivial
  · trivial
  · rename_i d hd
    rw [hd] at h
    exact h.mono he fun hne => absurd rfl hne
  · rename_i m hm
    rw [hm] at h
    exact ⟨h.1.mono he,fun hne => (h.2 hne).mono he⟩

theorem JobInv.frame (h : JobInv env u s j) (he : s.Extends env s')
    (hf : j.Follows s'.world.store) (hc : j.id ∈ s'.committed → j.id ∈ s.committed) :
    JobInv env u s' j where
  follows := hf
  known hne := (h.known hne).mono he
  since reading d hd := (h.since reading d hd).mono he h.known
  dated := h.dated
  beginning := h.beginning
  armed ha := by
    obtain ⟨hexpected,hrow⟩ := h.armed ha
    refine ⟨hexpected,fun hne => ?_⟩
    obtain ⟨d,hd,hrec⟩ := hrow hne
    exact ⟨d,he.held hd,hrec⟩
  writing := h.writing
  visiting := h.visiting
  refreshing := h.refreshing
  closing := h.closing
  approving reason r a hstage :=
    let ⟨hne,hstrip,happ⟩ := h.approving reason r a hstage
    ⟨hne,hstrip,happ.mono he⟩
  cancelling := h.cancelling
  committed hid := h.committed (hc hid)

theorem Job.Follows.move (h : j.Follows st) (hm : MovesAt id st st')
    (hopen : ∀ e ∈ j.intent, st'.Opened e) : j.Follows st' := by
  obtain ⟨c,hc,hsame,hstatus⟩ := h.candidate
  refine ⟨?_,hopen⟩
  by_cases hid : j.id = id
  · subst hid
    obtain ⟨c',hc',hsame',hkeep⟩ := hm.move.candidate hc
    refine ⟨c',hc',⟨?_,?_,?_,?_,?_⟩,fun hp => ?_⟩
    · rw [hsame'.memoryId,hsame.memoryId]
    · rw [hsame'.sourceRevision,hsame.sourceRevision]
    · rw [hsame'.oldContent,hsame.oldContent]
    · rw [hsame'.oldMetadata,hsame.oldMetadata]
    · rw [hsame'.proposedContent,hsame.proposedContent]
    · obtain ⟨hne,happlied⟩ := hstatus hp
      obtain ⟨happlied',-,hne'⟩ := hkeep hne
      exact ⟨hne',happlied'.trans happlied⟩
  · have hview := congrArg View.candidate (hm.others j.id hid)
    exact ⟨c,hview.trans hc,hsame,hstatus⟩

theorem Job.Follows.other (h : j.Follows st) (hm : MovesAt id st st')
    (hne : ∀ e ∈ j.intent, e.2 ≠ id) : j.Follows st' :=
  h.move hm fun e he => (h.intent e he).other hm (hne e he)

lemma Inv.store_move (h : Inv env u s) (hm : MovesAt id s.world.store st) :
    (∀ id', (st.view id').Sound) ∧ ∀ id' c, id' ≠ id → st.getCandidate id' = some c →
      CandidateInv env u s c := by
  constructor
  · intro id'
    by_cases hid : id' = id
    · subst hid
      exact hm.move.sound (h.sound id')
    · rw [hm.others id' hid]
      exact h.sound id'
  · intro id' c hid hc
    have hview := congrArg View.candidate (hm.others id' hid)
    exact h.candidates id' c (hview.symm.trans hc)

lemma Inv.committed_move (h : Inv env u s) (hm : MovesAt id s.world.store st)
    (hclosed : id ∈ s.committed → ∀ (c : Candidate) reason, st.getCandidate id ≠ some (c.closed reason none)) :
    ∀ id' ∈ s.committed, ∃ c, st.getCandidate id' = some c ∧ c.status ≠ .rejected ∧
      (c.status = .pending → (st.applyOps.get? id').isSome) ∧ s.Passed c.memoryId c.sourceRevision := by
  intro id' hid'
  obtain ⟨c,hc,hstatus,hpending,hpassed⟩ := h.committed id' hid'
  by_cases hid : id' = id
  · subst hid
    obtain ⟨c',hc',hsame,hstatus',hpending'⟩ := hm.move.not_rejected hc hstatus hpending
      fun reason => hclosed hid' c reason
    refine ⟨c',hc',hstatus',hpending',?_⟩
    rw [hsame.memoryId,hsame.sourceRevision]
    exact hpassed
  · have hview := hm.others id' hid
    refine ⟨c,(congrArg View.candidate hview).trans hc,hstatus,fun hp => ?_,hpassed⟩
    have happ : st.applyOps.get? id' = s.world.store.applyOps.get? id' := congrArg View.application hview
    rw [happ]
    exact hpending hp

structure System.Rows (env : Env) (s : System) : Prop where
  current : ∀ k m, s.world.memories.get? k = some m → (k,m) ∈ s.held
  unique : ∀ k m m', (k,m) ∈ s.held → (k,m') ∈ s.held → m.revision env = m'.revision env →
    m = m'

lemma Inv.rows (h : Inv env u s) : s.Rows env := ⟨h.current,h.unique⟩

lemma System.Rows.setMemory (h : s.Rows env) {t : Stamp} (hm : m.updatedAt = some t.text)
    (hfresh : ∀ e ∈ s.held, e.1 = k → e.2.revision env ≠ t.text) :
    s.Extends env (s.setMemory k m) ∧ (s.setMemory k m).Rows env := by
  have hmem : ∀ k', (s.setMemory k m).world.memories.get? k' =
      if k' = k then some m else s.world.memories.get? k' := fun _ => Dict.get?_set
  have hheld : ∀ e, e ∈ (s.setMemory k m).held ↔ e ∈ s.held ∨ e = (k,m) := by
    intro e
    simp [System.setMemory]
  have hnew : ∀ m', (k,m') ∈ s.held → m'.revision env ≠ m.revision env := by
    intro m' hm'
    rw [revision_of_stamp hm]
    exact hfresh _ hm' rfl
  refine ⟨⟨fun e he => (hheld e).mpr (.inl he),fun k' m' hk => ?_⟩,fun k' m' hk => ?_,
    fun k' m₁ m₂ h₁ h₂ heq => ?_⟩
  · rw [hmem,Option.mem_def] at hk
    split at hk
    · rename_i hkk
      subst hkk
      cases hk
      refine .inr ⟨t,hm,?_⟩
      rintro ⟨m',hm',hr⟩
      exact hfresh _ hm' rfl hr
    · exact .inl hk
  · rw [hmem] at hk
    rw [hheld]
    split at hk
    · rename_i hkk
      exact .inr (by rw [hkk,Option.some.inj hk])
    · exact .inl (h.current k' m' hk)
  · rw [hheld] at h₁ h₂
    rcases h₁ with h₁ | h₁ <;> rcases h₂ with h₂ | h₂
    · exact h.unique k' m₁ m₂ h₁ h₂ heq
    · obtain ⟨rfl,rfl⟩ := Prod.mk.inj h₂
      exact absurd heq (hnew m₁ h₁)
    · obtain ⟨rfl,rfl⟩ := Prod.mk.inj h₁
      exact absurd heq.symm (hnew m₂ h₂)
    · rw [(Prod.mk.inj h₁).2,(Prod.mk.inj h₂).2]

lemma Inv.of_rows (h : Inv env u s) (he : s.Extends env s') (hr : s'.Rows env)
    (hstore : s'.world.store = s.world.store) (hproposals : s'.proposals = s.proposals)
    (hjobs : s'.jobs = s.jobs) (hcommitted : s'.committed = s.committed) : Inv env u s' where
  current := hr.current
  unique := hr.unique
  sound id := by
    rw [hstore]
    exact h.sound id
  candidates id c hc := by
    rw [hstore] at hc
    exact (h.candidates id c hc).mono he
  proposals p hp := by
    rw [hproposals] at hp
    exact (h.proposals p hp).mono he
  jobs j hj := by
    rw [hjobs] at hj
    refine (h.jobs j hj).frame he ?_ (by rw [hcommitted]; exact id)
    rw [hstore]
    exact (h.jobs j hj).follows
  distinct := by
    rw [hjobs]
    exact h.distinct
  committed id hid := by
    rw [hcommitted] at hid
    rw [hstore]
    obtain ⟨c,hc,hstatus,hpending,hpassed⟩ := h.committed id hid
    exact ⟨c,hc,hstatus,hpending,hpassed.mono he (h.candidates id c hc).staged⟩

lemma Inv.remove (h : Inv env u s) (memoryId : ℕ) : Inv env u (step env s (.remove memoryId)) := by
  have hmem : ∀ k m, (s.world.memories.pop memoryId).get? k = some m →
      s.world.memories.get? k = some m := fun k m hk => (Dict.get?_pop.mp hk).1
  refine h.of_rows ⟨List.Subset.refl _,fun k m hk => .inl (hmem k m hk)⟩ ?_ rfl rfl rfl rfl
  exact ⟨fun k m hk => h.current k m (hmem k m hk),h.unique⟩

lemma ProposalInv.load (h : ProposalInv env s p) (hr : s.Rows env) (x : Input) :
    ProposalInv env s (System.Proposal.load s.world x p) := by
  obtain ⟨memoryId,progress⟩ := p
  cases progress with
  | document =>
    unfold System.Proposal.load
    dsimp only
    cases hm : (if x.fails then none else s.world.memories.get? memoryId) with
    | none => trivial
    | some m =>
      have hcurrent : s.world.memories.get? memoryId = some m := by
        cases hfails : x.fails <;> simp [hfails] at hm
        exact hm
      refine ⟨hr.current _ _ hcurrent,fun m' hm' => .inl ?_⟩
      exact Option.some.inj (hm'.symm.trans hcurrent)
  | stamps d =>
    have hsince : s.Since memoryId d "" := h
    unfold System.Proposal.load
    cases hfails : x.fails with
    | true => trivial
    | false =>
      rcases hsince.loaded env with heq | ⟨m,t,hm,ht,-,hrev⟩
      · have hrevised : s.Revised env memoryId (d.revision env) := ⟨d,hsince.1,rfl⟩
        have hdated : d.revision env ≠ "" → s.Dated env memoryId := by
          intro hne m hm
          rcases hsince.2 m hm with rfl | ⟨t,ht,hne'⟩
          · exact hne
          · rw [revision_of_stamp ht]
            exact hne'
        simpa [ProposalInv,heq] using ⟨hrevised,hdated⟩
      · have hrevised : s.Revised env memoryId t.text := ⟨m,hr.current _ _ hm,revision_of_stamp ht⟩
        rw [← hrev] at hrevised
        have hdated : s.Dated env memoryId := by
          intro m' hm'
          obtain rfl := Option.some.inj (hm.symm.trans hm')
          rw [revision_of_stamp ht]
          exact t.strip.2
        simpa [ProposalInv] using ⟨hrevised,fun _ => hdated⟩
  | loaded memory => exact h

lemma System.extends_setStore : s.Extends env (s.setStore st) := .of_rows rfl rfl

lemma Inv.move (h : Inv env u s) (hm : MovesAt id s.world.store st)
    (hcandidate : ∀ c, st.getCandidate id = some c → CandidateInv env u s c)
    (hothers : ∀ j ∈ s.jobs, ∀ e ∈ j.intent, e.2 ≠ id)
    (hclosed : id ∈ s.committed → ∀ (c : Candidate) reason,
      st.getCandidate id ≠ some (c.closed reason none)) : Inv env u (s.setStore st) := by
  obtain ⟨hsound,hrest⟩ := h.store_move hm
  refine ⟨h.current,h.unique,hsound,fun id' c hc => ?_,fun p hp => ?_,fun j hj => ?_,
    h.distinct,fun id' hid' => h.committed_move hm hclosed id' hid'⟩
  · by_cases hid : id' = id
    · subst hid
      exact (hcandidate c hc).mono System.extends_setStore
    · exact (hrest id' c hid hc).mono System.extends_setStore
  · exact (h.proposals p hp).mono System.extends_setStore
  · exact (h.jobs j hj).frame System.extends_setStore
      ((h.jobs j hj).follows.other hm (hothers j hj)) (fun hid => hid)

lemma Inv.push (h : Inv env u s) (hj : JobInv env u s j)
    (hnew : ∀ e ∈ j.intent, ∀ j' ∈ s.jobs, j'.intent ≠ some e) :
    Inv env u { s with jobs := s.jobs++[j] } := by
  have he : s.Extends env { s with jobs := s.jobs++[j] } := .of_rows rfl rfl
  have hframe : ∀ j', JobInv env u s j' → JobInv env u { s with jobs := s.jobs++[j] } j' :=
    fun j' h' => h'.frame he h'.follows fun hid => hid
  refine ⟨h.current,h.unique,h.sound,fun id c hc => (h.candidates id c hc).mono he,
    fun p hp => (h.proposals p hp).mono he,fun j' hj' => ?_,?_,h.committed⟩
  · rcases List.mem_append.mp hj' with hold | hlast
    · exact hframe j' (h.jobs j' hold)
    · obtain rfl := List.mem_singleton.mp hlast
      exact hframe _ hj
  · rw [List.filterMap_append,List.nodup_append]
    refine ⟨h.distinct,?_,fun e he' e' hlast => ?_⟩
    · cases hi : j.intent <;> simp [hi]
    · obtain ⟨j',hj',hi'⟩ := List.mem_filterMap.mp he'
      rintro rfl
      have hi : j.intent = some e := by
        cases hi : j.intent <;> simp [hi] at hlast
        rw [hlast]
      exact hnew e hi j' hj' hi'

lemma Inv.of_sublist (h : Inv env u s) {jobs : List Job} (hj : jobs.Sublist s.jobs)
    {proposals : List Proposal} (hp : proposals.Sublist s.proposals) :
    Inv env u { s with jobs := jobs, proposals := proposals } := by
  have he : s.Extends env { s with jobs := jobs, proposals := proposals } := .of_rows rfl rfl
  refine ⟨h.current,h.unique,h.sound,fun id c hc => (h.candidates id c hc).mono he,
    fun p hp' => (h.proposals p (hp.subset hp')).mono he,fun j hj' => ?_,
    h.distinct.sublist (hj.filterMap _),h.committed⟩
  exact (h.jobs j (hj.subset hj')).frame he (h.jobs j (hj.subset hj')).follows fun hid => hid

lemma Inv.idle (h : Inv env u s) (hidle : ∀ e : Bool × String, s.world.store.Opened e → e.2 ≠ id) :
    ∀ j ∈ s.jobs, ∀ e ∈ j.intent, e.2 ≠ id :=
  fun j hj e he => hidle e ((h.jobs j hj).follows.intent e he)

lemma maybePropose_moves {cfg : Settings} {memory : Option MemoryRow} {context : String}
    {answer : Option String} {res : Store × String × Candidate} {memoryId : ℕ}
    (h : maybePropose env cfg st memoryId memory context answer id = some res)
    (hfresh : st.candidates.get? id = none) :
    ∃ m, memory = some m ∧ m.revision env ≠ "" ∧ (res.1 = st ∨ MovesAt id st res.1 ∧
      ∃ c, res.1.candidates.get? id = some c ∧ c.memoryId = memoryId ∧
        c.sourceRevision = m.revision env ∧ c.appliedRevision = none) := by
  unfold maybePropose at h
  cases memory with
  | none => simp at h
  | some m =>
    dsimp only at h
    split at h
    · cases h
    rename_i hchecks
    have hne : m.revision env ≠ "" := by
      rintro heq
      simp [heq] at hchecks
    refine ⟨m,rfl,hne,?_⟩
    cases hl : callLlm answer with
    | none => simp [hl] at h
    | some revised =>
      simp only [hl] at h
      split at h
      · cases h
      cases h
      exact stageCandidate_moves hfresh

lemma Inv.stage (h : Inv env u s) (i : ℕ) (cfg : Settings) (context : String)
    (answer : Option String) (hfresh : s.world.store.getCandidate id = none) :
    Inv env u (step env s (.stage i cfg context answer id)) := by
  rw [step]
  split
  · rename_i memoryId memory hp
    have hleft := h.of_sublist (List.Sublist.refl s.jobs) (s.proposals.eraseIdx_sublist i)
    have hprop := h.proposals _ (List.mem_of_getElem? hp)
    cases hres : maybePropose env cfg s.world.store memoryId memory context answer id with
    | none => exact hleft
    | some res =>
      obtain ⟨m,rfl,hne,hsame | ⟨hm,c,hc,hid,hrev,happlied⟩⟩ := maybePropose_moves hres hfresh
      · dsimp only
        rw [hsame]
        exact hleft
      · refine hleft.move hm (fun c' hc' => ?_) ?_ fun hid' => ?_
        · obtain rfl := Option.some.inj (hc.symm.trans hc')
          have hrevised : s.Revised env memoryId (m.revision env) := hprop.1
          have hdated : s.Dated env memoryId := hprop.2 hne
          exact ⟨by rw [hid,hrev]; exact hrevised,by rw [hid]; exact hdated,
            fun r hr => by simp [happlied] at hr⟩
        · refine hleft.idle fun e he heq => ?_
          obtain ⟨c',hc',-⟩ := he.status (h.sound e.2)
          rw [heq] at hc'
          exact absurd (hfresh.symm.trans hc') (by simp)
        · obtain ⟨c',hc',-⟩ := h.committed id hid'
          exact absurd (hfresh.symm.trans hc') (by simp)
  · exact h

lemma JobInv.of_loading {reading : Reading} (hstage : j.stage = .loading reading .document)
    (hf : j.Follows s.world.store) (hknown : j.known ≠ "" → s.Revised env j.candidate.memoryId j.known)
    (harmed : j.armed → j.expected = j.known ∧ (j.purpose ≠ .apply →
      ∃ d, (j.candidate.memoryId,d) ∈ s.held ∧ j.Recorded env d))
    (hvisiting : j.purpose.recovers = true → j.purpose.applies = true → j.expected = j.candidate.sourceRevision)
    (hcommitted : j.id ∈ s.committed → j.purpose.applies = true → j.past) : JobInv env u s j where
  follows := hf
  known := hknown
  since reading d hd := by simp [hstage] at hd
  dated reading d hd := by simp [hstage] at hd
  beginning hb := by simp [hstage] at hb
  armed := harmed
  writing g hg := by simp [hstage] at hg
  visiting := hvisiting
  refreshing hr := by simp [hstage] at hr
  closing cl hcl := by simp [hstage] at hcl
  approving reason r a hcl := by simp [hstage] at hcl
  cancelling hcl := by simp [hstage] at hcl
  committed := hcommitted

lemma View.Sound.pending_idle {e : Bool × String} (hs : ∀ id, (st.view id).Sound)
    (hc : st.candidates.get? id = some c) (hstatus : c.status = .pending)
    (hop : st.applyOps.get? id = none) (he : st.Opened e) : e.2 ≠ id := by
  rintro rfl
  obtain ⟨c',hc',hstatus'⟩ := he.status (hs e.2)
  obtain rfl := Option.some.inj (hc.symm.trans hc')
  obtain ⟨kind,id⟩ := e
  cases kind with
  | true =>
    obtain ⟨a,ha,-⟩ := he
    exact absurd (hop.symm.trans ha) (by simp)
  | false =>
    rw [hstatus] at hstatus'
    cases hstatus'

lemma Inv.apply (h : Inv env u s) (id : String) (now : ℚ) :
    Inv env u (s.startApply env id now) := by
  unfold System.startApply
  cases hstart : startApply env s.world.store id now with
  | error e => exact h
  | ok res =>
    obtain ⟨store,c,target⟩ := res
    unfold Reconsolidation.startApply at hstart
    cases hc : s.world.store.getCandidate id with
    | none => simp [hc] at hstart
    | some c₀ =>
      cases hp : buildApplyPayload env c₀.oldMetadata now with
      | none => simp [hc,hp] at hstart
      | some target₀ =>
        cases hb : s.world.store.beginApply id c₀.sourceRevision target₀ with
        | error e => simp [hc,hp,hb] at hstart
        | ok res =>
          obtain ⟨store₀,c₁⟩ := res
          simp only [hc,hp,hb,Except.ok.injEq,Prod.mk.injEq] at hstart
          obtain ⟨rfl,rfl,rfl⟩ := hstart
          obtain ⟨hm,hview,hstatus,-,hnew⟩ := beginApply_ok hb
          have hcand : s.world.store.candidates.get? id = some c₁ := congrArg View.candidate hview
          have hop : s.world.store.applyOps.get? id = none := congrArg View.application hview
          have hcand' : store₀.candidates.get? id = some c₁ := congrArg View.candidate hnew
          have hop' : store₀.applyOps.get? id =
              some { expectedRevision := c₀.sourceRevision, targetMetadata := target₀ } :=
            congrArg View.application hnew
          have hidle := h.idle fun e he =>
            View.Sound.pending_idle h.sound hcand hstatus hop he
          have huncommitted : id ∉ s.committed := by
            intro hid
            obtain ⟨c',hc',-,hpending,-⟩ := h.committed id hid
            obtain rfl := Option.some.inj (hcand.symm.trans hc')
            have hsome := hpending hstatus
            simp [hop] at hsome
          have hinv := h.candidates id c₁ hcand
          have hmoved : Inv env u (s.setStore store₀) := h.move hm (fun c' hc' => by
              obtain rfl := Option.some.inj (hcand'.symm.trans hc')
              exact hinv) hidle (fun hid => absurd hid huncommitted)
          refine hmoved.push ?_ fun e he j' hj' hj'e => ?_
          · have hfollows : ∀ e ∈ some (true,id), store₀.Opened e := by
              intro e he
              cases he
              exact ⟨_,hop',rfl⟩
            exact .of_loading rfl
              ⟨⟨c₁,hcand',.refl c₁,fun hno => absurd hno (by simp [Purpose.applies])⟩,hfollows⟩
              (fun _ => hinv.staged.mono System.extends_setStore) (fun _ => ⟨rfl,fun hne => absurd rfl hne⟩)
              (fun hrec => absurd hrec (by simp [Purpose.recovers])) (fun hid => absurd hid huncommitted)
          · cases he
            exact hidle j' hj' _ hj'e rfl

lemma CandidateInv.known (h : CandidateInv env u s j.candidate)
    (hp : j.purpose.applies = false) (hne : j.known ≠ "") :
    s.Revised env j.candidate.memoryId j.known := by
  rw [Job.known,hp] at hne ⊢
  cases hr : j.candidate.appliedRevision with
  | none =>
    refine absurd ?_ hne
    simp only [Bool.false_eq_true,if_false,hr]
    decide +kernel
  | some r =>
    obtain ⟨m,hm,hrev,-⟩ := h.applied r hr
    refine ⟨m,hm,?_⟩
    simp only [Bool.false_eq_true,if_false,Option.getD_some]
    rw [← hrev,revision_strip]

lemma Inv.rollback (h : Inv env u s) (id : String) : Inv env u (s.startRollback id) := by
  unfold System.startRollback
  cases hc : s.world.store.getCandidate id with
  | none => exact h
  | some c =>
    dsimp only
    split
    · exact h
    rename_i hstatus
    have hstatus : c.status = .approved := by simpa using hstatus
    have hinv := h.candidates id c hc
    refine h.push ?_ fun e he => absurd he (by simp [Job.intent])
    refine .of_loading rfl ⟨⟨c,hc,.refl c,fun _ => ⟨by simp [hstatus],rfl⟩⟩,fun e he => ?_⟩
      (hinv.known rfl) (fun harmed => absurd harmed (by simp [Job.armed]))
      (fun hrec => absurd hrec (by simp [Purpose.recovers]))
      (fun _ happ => absurd happ (by simp [Purpose.applies]))
    simp [Job.intent] at he

lemma Inv.candidate_moved (h : Inv env u s) (hm : MovesAt id s.world.store st) {c' : Candidate}
    (hc : s.world.store.getCandidate id = some c) (hc' : st.getCandidate id = some c')
    (happ : c'.appliedRevision = c.appliedRevision ∨ c'.appliedRevision = none) :
    CandidateInv env u s c' := by
  obtain ⟨c₁,hc₁,hsame,-⟩ := hm.move.candidate hc
  obtain rfl := Option.some.inj (hc₁.symm.trans hc')
  have hinv := h.candidates id c hc
  refine ⟨by rw [hsame.memoryId,hsame.sourceRevision]; exact hinv.staged,
    by rw [hsame.memoryId]; exact hinv.dated,fun r hr => ?_⟩
  rcases happ with heq | hnone
  · obtain ⟨m,hm',hrev,htext⟩ := hinv.applied r (heq ▸ hr)
    exact ⟨m,by rw [hsame.memoryId]; exact hm',hrev,by rw [hsame.proposedContent]; exact htext⟩
  · rw [hnone] at hr
    cases hr

lemma Inv.reject (h : Inv env u s) (id reason : String) : Inv env u (s.reject id reason) := by
  unfold System.reject
  cases hc : s.world.store.getCandidate id with
  | none => exact h
  | some c =>
    dsimp only
    split
    · exact h
    rename_i hstatus
    have hstatus : c.status = .pending := by simpa using hstatus
    cases ht : s.world.store.transition id .pending .rejected reason .reject with
    | error e => exact h
    | ok res =>
      obtain ⟨store,c'⟩ := res
      obtain ⟨hm,hop,hc',hrejected⟩ := transition_reject_ok ht
      have huncommitted : id ∉ s.committed := by
        intro hid
        obtain ⟨c₁,hc₁,-,hpending,-⟩ := h.committed id hid
        obtain rfl := Option.some.inj (hc.symm.trans hc₁)
        have hsome := hpending hstatus
        simp [hop] at hsome
      refine h.move hm (fun c₁ hc₁ => ?_) (h.idle fun e he => ?_) (fun hid => absurd hid huncommitted)
      · obtain rfl := Option.some.inj (hc'.symm.trans hc₁)
        have hnone : c'.appliedRevision = none :=
          (hm.move.sound (h.sound id)).unapplied c' hc' (by simp [hrejected]) (by simp [hrejected])
        exact h.candidate_moved hm hc hc' (.inr hnone)
      · exact View.Sound.pending_idle h.sound hc hstatus hop he

lemma find?_open {ν : Type*} {d : Dict String ν} {q : ν → Bool} {e : String × ν}
    (h : (d.entries.filter fun e => q e.2).find? (fun e => e.1 = id) = some e) :
    d.get? id = some e.2 ∧ q e.2 = true := by
  have hid : e.1 = id := by simpa using List.find?_some h
  have hmem := List.mem_of_find?_eq_some h
  rw [List.mem_filter] at hmem
  refine ⟨Dict.get?_eq_some.mpr ?_,hmem.2⟩
  rw [← hid]
  exact hmem.1

lemma Inv.recoverApply (h : Inv env u s) (id : String) (hidle : s.jobs.isEmpty = true) :
    Inv env u (s.startRecoverApply id) := by
  unfold System.startRecoverApply
  cases hf : s.world.store.listIncompleteApplies.find? fun e => e.1 = id with
  | none => exact h
  | some e =>
    obtain ⟨hop,hopen⟩ := find?_open (d := s.world.store.applyOps) (q := fun op => op.status = .pending) hf
    have hopen : e.2.status = .pending := by simpa using hopen
    cases hc : s.world.store.getCandidate id with
    | none => exact h
    | some c =>
      obtain ⟨c',hc',hexpected,-⟩ := (h.sound id).application _ hop
      obtain rfl := Option.some.inj (hc.symm.trans hc')
      have hempty : s.jobs = [] := List.isEmpty_iff.mp hidle
      refine h.push ?_ fun e' _ j' hj' => by simp [hempty] at hj'
      refine .of_loading rfl ⟨⟨c,hc,.refl c,fun hno => absurd hno (by simp [Purpose.applies])⟩,
        fun e' he' => ?_⟩ (fun _ => (h.candidates id c hc).staged)
        (fun harmed => absurd harmed (by simp [Job.armed])) (fun _ _ => hexpected)
        (fun _ _ => trivial)
      cases he'
      exact ⟨_,hop,hopen⟩

lemma Inv.recoverRollback (h : Inv env u s) (id : String) (hidle : s.jobs.isEmpty = true) :
    Inv env u (s.startRecoverRollback id) := by
  unfold System.startRecoverRollback
  cases hf : s.world.store.listIncompleteRollbacks.find? fun e => e.1 = id with
  | none => exact h
  | some e =>
    obtain ⟨hop,hopen⟩ := find?_open (d := s.world.store.rollbackOps) (q := fun op => op.status = .pending) hf
    have hopen : e.2.status = .pending := by simpa using hopen
    obtain ⟨c,hc,hstatus⟩ := (h.sound id).rollback _ hop
    have hget : s.world.store.getCandidate id = some c := hc
    rw [hget]
    have hempty : s.jobs = [] := List.isEmpty_iff.mp hidle
    refine h.push ?_ fun e' _ j' hj' => by simp [hempty] at hj'
    refine .of_loading rfl ⟨⟨c,hget,.refl c,fun _ => ⟨by simp [hstatus],rfl⟩⟩,fun e' he' => ?_⟩
      ((h.candidates id c hget).known rfl) (fun harmed => absurd harmed (by simp [Job.armed]))
      (fun _ happ => absurd happ (by simp [Purpose.applies]))
      (fun _ happ => absurd happ (by simp [Purpose.applies]))
    cases he'
    exact ⟨_,hop,hopen⟩

end Memora.Reconsolidation

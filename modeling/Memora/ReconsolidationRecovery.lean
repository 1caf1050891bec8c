import Memora.ReconsolidationRoundTrip
import Memora.ReconsolidationRuns

/-! An intent that recovery has closed or blocked stays so. A visit takes a bounded number of steps,
and it leaves the intent open in three cases only. -/
namespace Memora.Reconsolidation
open Engine
open Canonical (pythonStrip)

variable {env : Env} {u : Prop} {s : System} {j j' : Job} {x : Input} {i : ℕ}
  {st st' : Store} {id : String} {v v' : View} {cl : Closing} {kind : Bool}

def View.Settled (v : View) : Bool → Prop
  | true => (∃ a, v.application = some a ∧ a.status = .blocked) ∨
      (v.application = none ∧ ∃ c, v.candidate = some c ∧ c.status ≠ .pending)
  | false => (∃ r, v.rollback = some r ∧ r.status = .blocked) ∨
      (v.rollback = none ∧ ∃ c, v.candidate = some c ∧ c.status = .rolledBack)

lemma View.Settled.not_opened (h : (st.view id).Settled kind) : ¬st.Opened (kind,id) := by
  cases kind with
  | true =>
    rintro ⟨a,ha,hopen⟩
    rcases h with ⟨a',ha',hblocked⟩ | ⟨hnone,-⟩
    · obtain rfl := Option.some.inj (ha.symm.trans ha')
      exact absurd (hopen.symm.trans hblocked) (by simp)
    · exact absurd (ha.symm.trans hnone) (by simp)
  | false =>
    rintro ⟨r,hr,hopen⟩
    rcases h with ⟨r',hr',hblocked⟩ | ⟨hnone,-⟩
    · obtain rfl := Option.some.inj (hr.symm.trans hr')
      exact absurd (hopen.symm.trans hblocked) (by simp)
    · exact absurd (hr.symm.trans hnone) (by simp)

lemma Move.settled (h : Move v v') (hs : v.Settled kind) : v'.Settled kind := by
  obtain ⟨happ,hroll,hclosed,hback⟩ := h.never_reopens
  cases kind with
  | true =>
    rcases hs with ⟨a,ha,hblocked⟩ | ⟨hnone,c,hc,hstatus⟩
    · exact .inl (happ a ha hblocked)
    · obtain ⟨c',hc',-,hkeep⟩ := h.candidate hc
      exact .inr ⟨hclosed c hc hstatus hnone,c',hc',(hkeep hstatus).2.2⟩
  | false =>
    rcases hs with ⟨r,hr,hblocked⟩ | ⟨hnone,c,hc,hstatus⟩
    · exact .inl (hroll r hr hblocked)
    · obtain ⟨hc',hnone'⟩ := hback c hc hstatus
      exact .inr ⟨hnone' hnone,hc'⟩

def Store.Steps (st st' : Store) : Prop := st' = st ∨ ∃ id, MovesAt id st st'

lemma Store.Steps.settled (h : st.Steps st') (hs : (st.view id).Settled kind) :
    (st'.view id).Settled kind := by
  rcases h with rfl | ⟨id',hm⟩
  · exact hs
  · by_cases hid : id = id'
    · subst hid
      exact hm.move.settled hs
    · rw [hm.others id hid]
      exact hs

lemma startApply_steps (s : System) (id : String) (now : ℚ) :
    s.world.store.Steps (s.startApply env id now).world.store := by
  unfold System.startApply
  cases hstart : startApply env s.world.store id now with
  | error e => exact .inl rfl
  | ok res =>
    obtain ⟨store,c,target⟩ := res
    unfold Reconsolidation.startApply at hstart
    cases hc : s.world.store.getCandidate id with
    | none => simp [hc] at hstart
    | some c₀ =>
      cases hp : buildApplyPayload env c₀.oldMetadata now with
      | none => simp [hc,hp] at hstart
      | some target₀ =>
        cases hb : s.world.store.beginApply id c₀.sourceRevision target₀ with
        | error e => simp [hc,hp,hb] at hstart
        | ok res =>
          simp only [hc,hp,hb,Except.ok.injEq,Prod.mk.injEq] at hstart
          obtain ⟨rfl,-,-⟩ := hstart
          exact .inr ⟨id,(beginApply_ok hb).1⟩

lemma startRollback_store (s : System) (id : String) :
    (s.startRollback id).world.store = s.world.store := by
  unfold System.startRollback
  split
  · rfl
  · split <;> rfl

lemma reject_steps (s : System) (id reason : String) :
    s.world.store.Steps (s.reject id reason).world.store := by
  unfold System.reject
  split
  · exact .inl rfl
  split
  · exact .inl rfl
  cases ht : s.world.store.transition id .pending .rejected reason .reject with
  | error e => exact .inl rfl
  | ok res => exact .inr ⟨id,(transition_reject_ok ht).1⟩

lemma startRecoverApply_store (s : System) (id : String) :
    (s.startRecoverApply id).world.store = s.world.store := by
  unfold System.startRecoverApply
  split
  · rfl
  · split <;> rfl

lemma startRecoverRollback_steps (s : System) (id : String) :
    s.world.store.Steps (s.startRecoverRollback id).world.store := by
  unfold System.startRecoverRollback
  split
  · exact .inl rfl
  split
  · cases hb : s.world.store.markRollbackBlocked id "candidate_status_changed" with
    | error e => exact .inl rfl
    | ok st => exact .inr ⟨id,(markRollbackBlocked_ok hb).1⟩
  · exact .inl rfl

lemma Inv.advance_steps (h : Inv env u s) (hj : s.jobs[i]? = some j) :
    s.world.store.Steps (s.proceed i j (j.advance env s.world x)).world.store := by
  cases ho : j.advance env s.world x with
  | goes | wrote | ended => exact .inl rfl
  | stored st o =>
    rcases j.advance_stored ho with ⟨hstage,hb,rfl⟩ | ⟨cl,hstage,hrun,rfl⟩
    · exact .inr ⟨j.id,(h.begun hj hstage hb).1⟩
    · exact .inr ⟨j.id,(h.closed hj hstage hrun).1⟩

lemma Inv.step_steps (h : Inv env u s) (a : Step) (hfresh : Fresh env s a) :
    s.world.store.Steps (step env s a).world.store := by
  cases a with
  | edit | remove | propose | load | die | crash => exact .inl rfl
  | stage i cfg context answer candidateId =>
    rw [step]
    split
    · dsimp only
      cases hres : maybePropose env cfg s.world.store _ _ context answer candidateId with
      | none => exact .inl rfl
      | some res =>
        obtain ⟨m,-,-,hsame | ⟨hm,-⟩⟩ := maybePropose_moves hres hfresh
        · exact .inl hsame
        · exact .inr ⟨candidateId,hm⟩
    · exact .inl rfl
  | apply id now =>
    rw [step]
    split
    · exact startApply_steps s id now
    · exact .inl rfl
  | rollback id =>
    rw [step]
    split
    · exact .inl (startRollback_store s id)
    · exact .inl rfl
  | reject id reason =>
    rw [step]
    split
    · exact reject_steps s id reason
    · exact .inl rfl
  | recoverApply id =>
    rw [step]
    split
    · exact .inl (startRecoverApply_store s id)
    · exact .inl rfl
  | recoverRollback id =>
    rw [step]
    split
    · exact startRecoverRollback_steps s id
    · exact .inl rfl
  | advance i x =>
    rw [step]
    cases hj : s.jobs[i]? with
    | none => exact .inl rfl
    | some j => exact h.advance_steps hj

lemma Inv.stays_settled (h : Inv env False s) (hs : (s.world.store.view id).Settled kind)
    {later : List Step}
    (hfresh : RunLaws.Along (step env) (Fresh env) s later) :
    ¬(run env s later).world.store.Opened (kind,id) := by
  have hrun := RunLaws.along_invariant (P := fun s => Inv env False s ∧ (s.world.store.view id).Settled kind)
    (fun s a hf hp => ⟨step_inv hp.1 a hf fun no => no.elim,(hp.1.step_steps a hf).settled hp.2⟩)
    ⟨h,hs⟩ hfresh
  exact hrun.2.not_opened

lemma Closing.run_settles (h : cl.run st id = .ok st') (hrequired : cl ≠ .recoveryRequired)
    (hcancel : cl ≠ .cancel) : (st'.view id).Settled cl.applies := by
  cases cl with
  | reject | approve =>
    obtain ⟨c',h⟩ := map_fst_ok h
    obtain ⟨-,-,c,-,hview⟩ := completeApply_ok h
    rw [hview]
    exact .inr ⟨rfl,_,rfl,by simp [Candidate.closed]⟩
  | recoveryRequired => exact absurd rfl hrequired
  | blockApply reason =>
    obtain ⟨-,⟨a,hblocked,ha⟩,-⟩ := markApplyBlocked_ok h
    exact .inl ⟨a,ha,hblocked⟩
  | cancel => exact absurd rfl hcancel
  | blockRollback reason =>
    obtain ⟨-,⟨r,hblocked,hr⟩,-⟩ := markRollbackBlocked_ok h
    exact .inl ⟨r,hr,hblocked⟩
  | complete =>
    obtain ⟨c',h⟩ := map_fst_ok h
    obtain ⟨-,hstatus,hview⟩ := completeRollback_ok h
    rw [hview]
    exact .inr ⟨rfl,c',rfl,hstatus⟩

theorem Closing.run_total (hs : (st.view id).Sound) (hopen : st.Opened (cl.applies,id))
    (happ : ∀ reason r a, cl = .approve reason r a → blank r = false) :
    ∃ st', cl.run st id = .ok st' := by
  obtain ⟨c,hc,hstatus⟩ := hopen.status hs
  cases cl with
  | reject reason =>
    obtain ⟨a,ha,hpending⟩ := hopen
    have hstatus : c.status = .pending := hstatus
    simp [Closing.run,Store.completeApply,Store.applyPending,hc,ha,hpending,hstatus,Except.map]
  | approve reason r a =>
    obtain ⟨op,hop,hpending⟩ := hopen
    have hstatus : c.status = .pending := hstatus
    simp [Closing.run,Store.completeApply,Store.applyPending,hc,hop,hpending,hstatus,Except.map,
      happ reason r a rfl]
  | recoveryRequired =>
    obtain ⟨a,ha,hpending⟩ := hopen
    have hstatus : c.status = .pending := hstatus
    simp [Closing.run,Store.markApplyRecoveryRequired,hc,ha,hpending,hstatus]
  | blockApply reason =>
    obtain ⟨a,ha,hpending⟩ := hopen
    have hstatus : c.status = .pending := hstatus
    simp [Closing.run,Store.markApplyBlocked,hc,ha,hpending,hstatus]
  | cancel => exact ⟨_,rfl⟩
  | blockRollback reason =>
    obtain ⟨r,hr,hpending⟩ := hopen
    simp [Closing.run,Store.markRollbackBlocked,hr,hpending]
  | complete =>
    obtain ⟨r,hr,hpending⟩ := hopen
    have hstatus : c.status = .approved := hstatus
    simp [Closing.run,Store.completeRollback,hc,hr,hpending,hstatus,Except.map]

theorem Job.advance_ended {w : World} (h : j.advance env w x = .ended) :
    (∃ memory, j.visited env memory = none) ∨ j.stage = .beginning ∨
      (j.stage = .refreshing ∧ x.refreshes = false) ∨
      ∃ cl e, j.stage = .closing cl ∧ cl.run w.store j.id = .error e := by
  have hload : ∀ memory reading, j.loaded env x memory reading = .ended →
      ∃ memory, j.visited env memory = none := by
    intro memory reading hl
    rcases j.loaded_cases env x memory reading with ⟨-,hnone,-⟩ | ⟨j',hgo⟩
    · exact ⟨memory,hnone⟩
    · exact absurd (hl.symm.trans hgo) (by simp)
  unfold Job.advance at h
  cases hstage : j.stage with
  | loading reading l =>
    cases l with
    | document =>
      simp only [hstage] at h
      split at h
      · exact .inl (hload _ _ h)
      · cases h
    | stamps d =>
      simp only [hstage] at h
      exact .inl (hload _ _ h)
  | beginning => exact .inr (.inl rfl)
  | writing g =>
    simp only [hstage] at h
    split at h <;> cases h
  | refreshing =>
    simp only [hstage] at h
    split at h
    · cases h
    · rename_i hrefreshes
      exact .inr (.inr (.inl ⟨rfl,by simpa using hrefreshes⟩))
  | closing c =>
    simp only [hstage] at h
    cases hc : c.run w.store j.id with
    | error e => exact .inr (.inr (.inr ⟨c,e,rfl,hc⟩))
    | ok st => simp [hc] at h

def Stage.stops : Stage → ℕ
  | .loading .visit .document => 10
  | .loading .visit (.stamps _) => 9
  | .beginning => 8
  | .loading .update .document => 7
  | .loading .update (.stamps _) => 6
  | .writing _ => 5
  | .loading .verify .document => 4
  | .loading .verify (.stamps _) => 3
  | .refreshing => 2
  | .closing _ => 1

lemma Job.decided_stops (j : Job) (d : Decision) :
    (j.decided d).stage.stops ≤ 7 ∧ (j.decided d).id = j.id ∧
    (j.decided d).purpose = j.purpose := by
  cases d <;> simp [Job.decided,Stage.stops]

lemma Job.visited_stops {memory : Option MemoryRow} (h : j.visited env memory = some j') :
    j'.stage.stops ≤ 8 ∧ j'.id = j.id ∧ j'.purpose = j.purpose := by
  unfold Job.visited at h
  split at h
  · cases h
  · split at h
    · cases h
    · cases h
      simp [Stage.stops]
  · cases h
    have hd := j.decided_stops (recoverApplyDecision env j.candidate j.expected j.target memory)
    exact ⟨by omega,hd.2⟩
  · cases h
    have hd := j.decided_stops (recoverRollbackDecision env j.candidate j.expected memory)
    exact ⟨by omega,hd.2⟩

lemma Job.prepared_stops (env : Env) (j : Job) (now : ℚ) (memory : Option MemoryRow) :
    (j.prepared env now memory).stage.stops ≤ 5 ∧ (j.prepared env now memory).id = j.id ∧
      (j.prepared env now memory).purpose = j.purpose := by
  unfold Job.prepared
  split
  · simp [Stage.stops]
  · split <;> simp [Stage.stops]

lemma Job.verified_stops (env : Env) (j : Job) (memory : Option MemoryRow) :
    (j.verified env memory).stage.stops ≤ 2 ∧ (j.verified env memory).id = j.id ∧
      (j.verified env memory).purpose = j.purpose := by
  unfold Job.verified
  split
  · split <;> simp [Stage.stops]
  · split <;> simp [Stage.stops]

lemma Job.goes_stops {w : World} (h : j.advance env w x = .goes j') :
    j'.stage.stops < j.stage.stops ∧ j'.id = j.id ∧ j'.purpose = j.purpose := by
  have hload : ∀ memory reading l, j.stage = .loading reading l → j.loaded env x memory reading = .goes j' →
      j'.stage.stops < j.stage.stops ∧ j'.id = j.id ∧ j'.purpose = j.purpose := by
    intro memory reading l hstage hl
    cases reading with
    | visit =>
      unfold Job.loaded at hl
      cases hv : j.visited env memory with
      | none => simp [hv] at hl
      | some j₁ =>
        obtain rfl : j₁ = j' := by simpa [hv] using hl
        have hd := Job.visited_stops hv
        have hl : 9 ≤ j.stage.stops := by rw [hstage]; cases l <;> simp [Stage.stops]
        exact ⟨by omega,hd.2⟩
    | update =>
      obtain rfl := Outcome.goes.inj hl
      have hd := j.prepared_stops env x.now memory
      have hl : 6 ≤ j.stage.stops := by rw [hstage]; cases l <;> simp [Stage.stops]
      exact ⟨by omega,hd.2⟩
    | verify =>
      obtain rfl := Outcome.goes.inj hl
      have hd := j.verified_stops env memory
      have hl : 3 ≤ j.stage.stops := by rw [hstage]; cases l <;> simp [Stage.stops]
      exact ⟨by omega,hd.2⟩
  unfold Job.advance at h
  cases hstage : j.stage with
  | loading reading l =>
    rw [← hstage]
    cases l with
    | document =>
      simp only [hstage] at h
      split at h
      · exact hload _ _ _ hstage h
      · obtain rfl := Outcome.goes.inj h
        rw [hstage]
        cases reading <;> simp [Stage.stops]
    | stamps d =>
      simp only [hstage] at h
      exact hload _ _ _ hstage h
  | beginning =>
    simp only [hstage] at h
    cases hb : w.store.beginRollback j.id j.expected <;> simp [hb] at h
  | writing | refreshing =>
    simp only [hstage] at h
    split at h
    · obtain rfl := Outcome.goes.inj h
      simp [Stage.stops]
    · cases h
  | closing c =>
    simp only [hstage] at h
    cases hc : c.run w.store j.id <;> simp [hc] at h

def System.ApprovalsHeld (env : Env) (s : System) : Prop :=
  ∀ id c, s.world.store.getCandidate id = some c → c.status = .approved →
    ∃ r m, c.appliedRevision = some r ∧ (c.memoryId,m) ∈ s.held ∧ m.revision env = r ∧
      m.text = c.proposedContent

def System.WritesRecorded (env : Env) (s : System) : Prop :=
  ∀ (i : ℕ) (x : Input) (j : Job) (m : MemoryRow) (o : Option Job), s.jobs[i]? = some j →
    j.purpose ≠ .apply → j.advance env s.world x = .wrote m o →
    ∃ m₀, s.world.memories.get? j.candidate.memoryId = some m₀ ∧ j.Recorded env m₀

def System.CommitsKept (s : System) : Prop :=
  ∀ id ∈ s.committed, ∃ c, s.world.store.getCandidate id = some c ∧ c.status ≠ .rejected

def System.Closed (env : Env) (s : System) (e : Bool × String) : Prop :=
  ∀ later, RunLaws.Along (step env) (Fresh env) s later → ¬(run env s later).world.store.Opened e

/-- A visit of recovery goes on with fewer stops before it, or closes its intent for good; it
leaves it open where a retried application is not verified, the derived data do not follow, or
the update raises. -/
def System.VisitsEnd (env : Env) (s : System) : Prop :=
  ∀ (i : ℕ) (x : Input) (j : Job), s.jobs[i]? = some j → j.purpose.recovers = true →
    Fresh env s (.advance i x) → (∃ j', (step env s (.advance i x)).jobs[i]? = some j' ∧ j'.id = j.id ∧
      j'.purpose = j.purpose ∧ j'.stage.stops < j.stage.stops) ∨
    (step env s (.advance i x)).jobs = s.jobs.eraseIdx i ∧
      ((step env s (.advance i x)).Closed env (j.purpose.applies,j.id) ∨
        j.stage = .closing .recoveryRequired ∨ (j.stage = .refreshing ∧ x.refreshes = false) ∨
        (j.writes = true ∧ x.raises = true))

lemma Inv.approvals (h : Inv env True s) : s.ApprovalsHeld env := by
  intro id c hc hstatus
  have hsome := (h.sound id).approved c hc hstatus
  obtain ⟨r,hr⟩ := Option.isSome_iff_exists.mp hsome
  obtain ⟨m,hm,hrev,htext⟩ := (h.candidates id c hc).applied r hr
  exact ⟨r,m,hr,hm,hrev,htext trivial⟩

theorem Inv.recovery_ended (h : Inv env u s) (hj : s.jobs[i]? = some j)
    (hrec : j.purpose.recovers = true) (hended : j.advance env s.world x = .ended) :
    j.stage = .refreshing ∧ x.refreshes = false := by
  have hinv := h.jobs j (List.mem_of_getElem? hj)
  rcases j.advance_ended hended with ⟨memory,hnone⟩ | hbegin | hrefresh | ⟨cl,e,hstage,hrun⟩
  · unfold Job.visited at hnone
    cases hp : j.purpose with
    | apply | rollback => simp [hp,Purpose.recovers] at hrec
    | recoverApply | recoverRollback => simp [hp] at hnone
  · rw [hinv.beginning hbegin] at hrec
    exact absurd hrec (by simp [Purpose.recovers])
  · exact hrefresh
  · have hi : j.intent = some (j.purpose.applies,j.id) :=
      Job.intent_of_stage fun _ => ⟨fun l => by simp [hstage],by simp [hstage]⟩
    have hopened : s.world.store.Opened (cl.applies,j.id) := by
      rw [hinv.closing cl hstage]
      exact hinv.follows.intent _ hi
    obtain ⟨st,hok⟩ := Closing.run_total (h.sound j.id) hopened fun reason r a hcl => by
      obtain ⟨hne,hstrip,-⟩ := hinv.approving reason r a (hcl ▸ hstage)
      simp [blank,hstrip,hne]
    exact absurd (hok.symm.trans hrun) (by simp)

lemma Inv.visits_end (h : Inv env False s) : s.VisitsEnd env := by
  intro i x j hj hrec hfresh
  have hinv := h.jobs j (List.mem_of_getElem? hj)
  have hstep : step env s (.advance i x) = s.proceed i j (j.advance env s.world x) := by
    rw [step,hj]
  have hnext := step_inv h (.advance i x) hfresh fun no => no.elim
  have hlt : i < s.jobs.length := (List.getElem?_eq_some_iff.mp hj).1
  rw [hstep] at hnext ⊢
  cases ho : j.advance env s.world x with
  | goes j' =>
    have hgo := Job.goes_stops ho
    have hget : (s.jobs.set i j')[i]? = some j' := List.getElem?_set_self hlt
    exact .inl ⟨j',hget,hgo.2.1,hgo.2.2,hgo.1⟩
  | wrote m o =>
    obtain ⟨hwrites,-,-,-,-,rfl⟩ := Job.advance_wrote ho
    cases hraises : x.raises with
    | true => exact .inr ⟨rfl,.inr (.inr (.inr ⟨hwrites,rfl⟩))⟩
    | false =>
      have hget : (s.jobs.set i { j with stage := .loading .verify .document })[i]? =
        some { j with stage := .loading .verify .document } := List.getElem?_set_self hlt
      refine .inl ⟨_,hget,rfl,rfl,?_⟩
      unfold Job.writes at hwrites
      split at hwrites
      · rename_i g hstage
        simp [hstage,Stage.stops]
      · cases hwrites
  | stored st o =>
    rcases j.advance_stored ho with ⟨hstage,-,-⟩ | ⟨cl,hstage,hrun,rfl⟩
    · rw [hinv.beginning hstage] at hrec
      exact absurd hrec (by simp [Purpose.recovers])
    · refine .inr ⟨rfl,?_⟩
      by_cases hrequired : cl = .recoveryRequired
      · exact .inr (.inl (hrequired ▸ hstage))
      · have hcancel : cl ≠ .cancel := by
          rintro rfl
          rw [hinv.cancelling hstage] at hrec
          exact absurd hrec (by simp [Purpose.recovers])
        have hsettled := Closing.run_settles hrun hrequired hcancel
        rw [hinv.closing cl hstage] at hsettled
        rw [ho] at hnext
        exact .inl fun later hlater => hnext.stays_settled hsettled hlater
  | ended => exact .inr ⟨rfl,.inr (.inr (.inl (h.recovery_ended hj hrec ho)))⟩

/-- Over runs with edits and crashes anywhere: applications and rollbacks keep to their record,
and recovery closes what it visits. -/
theorem recovery_keeps_the_record (env : Env) (memories : Dict ℕ MemoryRow) (steps : List Step)
    (hfresh : RunLaws.Along (step env) (Fresh env) (.initial memories) steps) :
    (RunLaws.Along (step env) Untorn (.initial memories) steps →
      (run env (.initial memories) steps).ApprovalsHeld env) ∧
    (run env (.initial memories) steps).WritesRecorded env ∧
    (run env (.initial memories) steps).CommitsKept ∧
    (run env (.initial memories) steps).VisitsEnd env := by
  have hinv : Inv env False (run env (.initial memories) steps) := by
    refine run_inv (RunLaws.along_imp (P := fun _ => True) (fun _ _ _ _ => trivial)
      (fun s a hf _ => ⟨hf,fun no => no.elim⟩) trivial hfresh)
  refine ⟨fun huntorn => ?_,fun i x j m o hj hp hw => ?_,fun id hid => ?_,hinv.visits_end⟩
  · exact (run_inv (RunLaws.along_and hfresh (RunLaws.along_imp (P := fun _ => True)
      (fun _ _ _ _ => trivial) (fun s a hf _ _ => hf) trivial huntorn))).approvals
  · exact hinv.overwrites (List.mem_of_getElem? hj) hw hp
  · obtain ⟨c,hc,hstatus,-⟩ := hinv.committed id hid
    exact ⟨c,hc,hstatus⟩

def sampleInput (updatedAt : Stamp) : Input := { updatedAt }

def sampleTea : Input := sampleInput sampleCall.write.updatedAt

def sampleUndo : Input := sampleInput sampleBack.write.updatedAt

def sampleApplied : List Step :=
  [.propose 7,.load 0 sampleTea,.load 0 sampleTea,
    .stage 0 ⟨true,1⟩ "tea" (some "The user likes green tea.") "c",.apply "c" 0,
    .advance 0 sampleTea,.advance 0 sampleTea,.advance 0 sampleTea,.advance 0 sampleTea,
    .advance 0 sampleTea,.advance 0 sampleTea]

/-- Its rollback dies after the write, and recovery visits the intent. -/
def sampleVisited : List Step :=
  sampleApplied++[.rollback "c",.advance 0 sampleUndo,.advance 0 sampleUndo,
    .advance 0 sampleUndo,.advance 0 sampleUndo,.advance 0 sampleUndo,.advance 0 sampleUndo,
    .crash,.recoverRollback "c",.advance 0 sampleUndo,.advance 0 sampleUndo]

def sampleStart : System := .initial (Dict.set {} 7 revisedMemory)

/-- The derived data do not follow. -/
def sampleStale : Step := .advance 0 { sampleUndo with refreshes := false }

/-- A visit that ends with its intent open. -/
theorem recovery_leaves_open :
    RunLaws.Along (step sampleEnv) (Fresh sampleEnv) sampleStart (sampleVisited++[sampleStale]) ∧
      RunLaws.Along (step sampleEnv) Untorn sampleStart (sampleVisited++[sampleStale]) ∧
      ((run sampleEnv sampleStart sampleVisited).jobs.map fun j => (j.purpose,j.id)) =
        [(.recoverRollback,"c")] ∧
      (run sampleEnv sampleStart (sampleVisited++[sampleStale])).jobs.isEmpty = true ∧
      (run sampleEnv sampleStart (sampleVisited++[sampleStale])).world.store.Opened (false,"c") :=
  ⟨by decide +kernel,by decide +kernel,by decide +kernel,by decide +kernel,
    { expectedRevision := "r-8" },by decide +kernel,rfl⟩

theorem recovery_keeps_the_record_sample :
    ((run sampleEnv sampleStart sampleApplied).world.store.getCandidate "c").map
        Candidate.status = some .approved ∧
      ∃ m, (7,m) ∈ (run sampleEnv sampleStart sampleApplied).held ∧
        m.revision sampleEnv = "r-8" ∧ m.text = "The user likes green tea." := by
  have hstatus : ((run sampleEnv sampleStart sampleApplied).world.store.getCandidate "c").map
      (fun c => (c.status,c.memoryId,c.appliedRevision,c.proposedContent)) =
        some (.approved,7,some "r-8","The user likes green tea.") := by decide +kernel
  obtain ⟨c,hc,heq⟩ := Option.map_eq_some_iff.mp hstatus
  simp only [Prod.mk.injEq] at heq
  obtain ⟨happroved,hid,hrev,htext⟩ := heq
  have hheld := (recovery_keeps_the_record sampleEnv (Dict.set {} 7 revisedMemory) sampleApplied
    (by decide +kernel)).1 (by decide +kernel)
  obtain ⟨r,m,hr,hm,hmrev,hmtext⟩ := hheld "c" c hc happroved
  refine ⟨by rw [hc,Option.map_some,happroved],m,hid ▸ hm,?_,hmtext.trans htext⟩
  rw [hmrev]
  exact Option.some.inj (hr.symm.trans hrev)

end Memora.Reconsolidation

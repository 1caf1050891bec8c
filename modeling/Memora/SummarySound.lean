import Memora.SummaryChain

/-! Every job belongs to a session with an epoch row, so a job that is current after a call
was current before. -/
namespace Memora.Summary
open RowTable

variable {env : Env} {s t : Store}

def Rooted (s : Store) : Prop := ∀ j ∈ s.jobs, ∃ e ∈ s.epochs, e.sessionId = j.sessionId

lemma Moves.epochs_grow (h : Moves s t) {x : String} (hx : ∃ e ∈ s.epochs, e.sessionId = x) :
    ∃ e ∈ t.epochs, e.sessionId = x := by
  have hmodify : ∀ (rows : List EpochRow) (p : EpochRow → Bool) (f : EpochRow → EpochRow),
      (∀ e, (f e).sessionId = e.sessionId) → (∃ e ∈ rows, e.sessionId = x) →
      ∃ e ∈ modify p f rows, e.sessionId = x := by
    rintro rows p f hf ⟨e,he,rfl⟩
    refine ⟨_,mem_modify.mpr ⟨e,he,rfl⟩,?_⟩
    split
    · exact hf e
    · rfl
  induction h with
  | refl => exact hx
  | tail _ h ih =>
    rcases h with h | h
    · cases h with
      | register created hc hn hf =>
        obtain ⟨e,he,hex⟩ := ih
        exact ⟨e,List.mem_append_left _ he,hex⟩
      | fence p now => exact hmodify _ _ _ (by intro e; rfl) ih
      | record _ c h hj =>
        obtain ⟨rfl,-,-⟩ := Store.insertCandidate_eq h
        exact ih
      | _ => exact ih
    · cases h
      exact hmodify _ _ _ (by intro e; rfl) ih

lemma Rooted.moves (hr : Rooted s) (h : Moves s t)
    (hsrc : t.jobs.map Job.toJobSource = s.jobs.map Job.toJobSource) : Rooted t := by
  intro j hj
  have hmem : j.toJobSource ∈ s.jobs.map Job.toJobSource := hsrc ▸ List.mem_map.mpr ⟨j,hj,rfl⟩
  obtain ⟨x,hx,hxj⟩ := List.mem_map.mp hmem
  have hrow := hr x hx
  rw [hxj] at hrow
  exact h.epochs_grow hrow

lemma Moves.sources (h : Moves s t) : t.jobs.map Job.toJobSource = s.jobs.map Job.toJobSource := by
  induction h with
  | refl => rfl
  | tail _ h ih =>
    rcases h with h | h
    · exact h.sources.trans ih
    · rw [h.jobs]
      exact ih

lemma Store.ensureEpoch_row (s : Store) (session : String) (now : Time) :
    ∃ e ∈ (s.ensureEpoch session now).1.epochs, e.sessionId = session := by
  unfold Store.ensureEpoch
  split
  · rename_i e he
    exact ⟨e,List.mem_of_find?_eq_some he,Store.epochRow?_session he⟩
  · exact ⟨⟨session,1,0,none,none,now⟩,by simp,rfl⟩

lemma Rooted.step (hr : Rooted s) (env : Env) (call : Call) : Rooted (step env s call) := by
  rcases step_cases env s call with ⟨c,observedEnd,now,h⟩ | ⟨snapshot,hop⟩ | ⟨_,h⟩
  · generalize Memora.Summary.step env s call = s' at h
    cases h with
    | refused => exact hr
    | enqueued sessions s₃ new frontier hcur hfront hstop hnew hbound hranges =>
      have hst : Stills s { (s.ensureEpoch c.sessionId now).1 with sessions := sessions } :=
        (s.ensureEpoch_stills c.sessionId now).tail (.source _ _ _ sessions)
      have hr₁ := hr.moves (Stills.moves hst) (Stills.sources hst)
      have hrow := s.ensureEpoch_row c.sessionId now
      have hr₃ : Rooted s₃ := by
        rw [hnew.eq]
        intro j hj
        rcases List.mem_append.mp hj with hj | hj
        · exact hr₁ j hj
        · obtain ⟨id,start,stop,digest,complete,rfl,_⟩ := hnew.planned j hj
          exact hrow
      have hadv : Moves s₃ (s₃.advanceCursor c.sessionId c.sessionEpoch now) := .single (.inr (.cursor _ _ _ _))
      exact hr₃.moves hadv hadv.sources
  · simp only [Memora.Summary.step,hop]
    have h := s.reconcileStartupCandidates_moves snapshot call.now
    exact hr.moves h h.sources
  · exact hr.moves h.moves h.moves.sources

lemma isCurrent_iff (hk : Keyed s) {x : String} {e : ℕ} :
    s.isCurrent x e = true ↔ ∃ r ∈ s.epochs, r.sessionId = x ∧ (s.getSummaryEpoch x).1 = e := by
  have hrow : ∀ r ∈ s.epochs, s.epochRow? r.sessionId = some r := fun r hr =>
    find?_key hk.epochs hr
  simp only [Store.isCurrent,List.any_eq_true,Bool.and_eq_true,decide_eq_true_eq]
  constructor
  · rintro ⟨r,hr,rfl,rfl⟩
    exact ⟨r,hr,rfl,by simp [Store.getSummaryEpoch,hrow r hr]⟩
  · rintro ⟨r,hr,rfl,he⟩
    refine ⟨r,hr,rfl,?_⟩
    rw [← he]
    simp [Store.getSummaryEpoch,hrow r hr]

structure Sound (s : Store) : Prop where
  keyed : Keyed s
  chained : ∀ x, Chained s x
  rooted : Rooted s

lemma Sound.empty : Sound Store.empty :=
  ⟨Keyed.empty,Chained.empty,by simp [Rooted,Store.empty]⟩

lemma Sound.step (h : Sound s) (env : Env) (call : Call) : Sound (step env s call) :=
  ⟨h.keyed.step env call,fun x => (Chained.moments h.keyed h.chained env call x).2,
    h.rooted.step env call⟩

lemma Sound.run (h : Sound s) (env : Env) (calls : List Call) : Sound (run env s calls) :=
  RunLaws.foldl_invariant (fun _ call h => h.step env call) h calls

lemma Sound.isCurrent_back (h : Sound s) {call : Call} {j : Job} (hj : j ∈ s.jobs)
    (hcur : (Memora.Summary.step env s call).isCurrent j.sessionId j.sessionEpoch = true) :
    s.isCurrent j.sessionId j.sessionEpoch = true := by
  obtain ⟨_,_,_,he⟩ := (isCurrent_iff (h.step env call).keyed).mp hcur
  obtain ⟨r,hr,hrs⟩ := h.rooted j hj
  have hlatest := (h.chained j.sessionId).latest j hj rfl
  have hmono := cursor_le_step h.keyed h.chained env call j.sessionId
  have hepoch : (s.getSummaryEpoch j.sessionId).1 ≤
      ((Memora.Summary.step env s call).getSummaryEpoch j.sessionId).1 := by
    rcases Prod.Lex.toLex_le_toLex.mp hmono with hlt | ⟨heq,_⟩
    · exact hlt.le
    · exact heq.le
  exact (isCurrent_iff h.keyed).mpr ⟨r,hr,hrs,by omega⟩

end Memora.Summary

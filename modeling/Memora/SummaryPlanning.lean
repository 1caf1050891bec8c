import Memora.RangeChain
import Memora.SummaryMoves

/-! Planning either changes nothing or appends windows cut from the frontier on and then
advances the cursor. -/
namespace Memora.Summary
open RowTable RangeChain

def Job.range (j : Job) : ℕ × ℕ := (j.startSeq,j.endSeq)

/-- The windows `new` were appended to the jobs of `s`, each planned from the context. -/
structure Enqueued (env : Env) (c : SummaryWindowContext) (now : Time) (s s' : Store)
    (new : List Job) : Prop where
  eq : s' = { s with jobs := s.jobs++new }
  planned : ∀ j ∈ new, ∃ id start stop digest complete,
    j = c.job id start stop digest complete now ∧ j.checks env = true
  fresh : ∀ j ∈ new, ∀ x ∈ s.jobs, x.jobId ≠ j.jobId
  nodup : (new.map fun j => j.jobId).Nodup

variable {env : Env} {c : SummaryWindowContext} {jobIds : ℕ → String} {now : Time} {new : List Job}

lemma Enqueued.nil (s : Store) : Enqueued env c now s s [] := by
  constructor <;> simp

lemma Enqueued.cons {s s₁ s₂ : Store} {j : Job}
    (h : Enqueued env c now s s₁ [j]) (h' : Enqueued env c now s₁ s₂ new) :
    Enqueued env c now s s₂ (j::new) := by
  have h₁ := h.eq
  subst h₁
  refine ⟨?_,?_,?_,?_⟩
  · rw [h'.eq]
    simp
  · intro x hx
    rcases List.mem_cons.mp hx with rfl | hx
    · exact h.planned x (by simp)
    · exact h'.planned x hx
  · intro x hx y hy
    rcases List.mem_cons.mp hx with rfl | hx
    · exact h.fresh x (by simp) y hy
    · exact h'.fresh x hx y (by simp [hy])
  · rw [List.map_cons,List.nodup_cons]
    refine ⟨?_,h'.nodup⟩
    intro hmem
    obtain ⟨x,hx,he⟩ := List.mem_map.mp hmem
    exact h'.fresh x hx j (by simp) he.symm

variable {s s' : Store} {t t' : PlanTally}

lemma insertJob_enqueued {id digest : String} {start stop : ℕ} {complete : Bool}
    (h : s.insertJob env (c.job id start stop digest complete now) = some s') :
    Enqueued env c now s s' [c.job id start stop digest complete now] := by
  obtain ⟨rfl,hc,hf⟩ := Store.insertJob_eq h
  refine ⟨rfl,?_,?_,by simp⟩
  · intro j hj
    obtain rfl := List.mem_singleton.mp hj
    exact ⟨id,start,stop,digest,complete,rfl,hc⟩
  · intro j hj
    obtain rfl := List.mem_singleton.mp hj
    exact hf

lemma enqueueWindow_cases {r : ℕ × ℕ} (h : Store.enqueueWindow env c jobIds now (s,t) r =
    some (s',t')) :
    (s' = s ∧ ∃ j ∈ s.epochJobs c.sessionId c.sessionEpoch, j.startSeq < r.2 ∧ r.1 < j.endSeq) ∨
      ∃ j, Enqueued env c now s s' [j] ∧ j.range = r := by
  simp only [Store.enqueueWindow] at h
  split at h
  · rename_i ho
    cases h
    simp only [List.any_eq_true,Bool.and_eq_true,decide_eq_true_eq] at ho
    exact .inl ⟨rfl,ho⟩
  split at h
  · obtain ⟨digest,_,h⟩ := Option.bind_eq_some_iff.mp h
    obtain ⟨s₁,hs,h⟩ := Option.bind_eq_some_iff.mp h
    cases h
    exact .inr ⟨_,insertJob_enqueued hs,rfl⟩
  · obtain ⟨s₁,hs,h⟩ := Option.bind_eq_some_iff.mp h
    cases h
    exact .inr ⟨_,insertJob_enqueued hs,rfl⟩

lemma Enqueued.epochJobs (h : Enqueued env c now s s' new) :
    s'.epochJobs c.sessionId c.sessionEpoch = s.epochJobs c.sessionId c.sessionEpoch++new := by
  have hall : new.filter (fun j => j.sessionId = c.sessionId && j.sessionEpoch = c.sessionEpoch) =
      new := by
    rw [List.filter_eq_self]
    intro j hj
    obtain ⟨id,start,stop,digest,complete,rfl,_⟩ := h.planned j hj
    simp [SummaryWindowContext.job]
  rw [h.eq]
  simp [Store.epochJobs,hall]

lemma enqueueWindows_spec {ranges : List (ℕ × ℕ)}
    (h : ranges.foldlM (Store.enqueueWindow env c jobIds now) (s,t) = some (s',t')) :
    ∃ new, Enqueued env c now s s' new ∧ (new.map Job.range).Sublist ranges ∧
      (ranges.Pairwise (fun r u => r.2 ≤ u.1) →
        (∀ j ∈ s.epochJobs c.sessionId c.sessionEpoch, ∀ r ∈ ranges, j.endSeq ≤ r.1) →
        new.map Job.range = ranges) := by
  induction ranges generalizing s t with
  | nil =>
    obtain ⟨rfl,-⟩ := Prod.mk.inj (Option.some.inj h)
    exact ⟨[],.nil s,by simp,by simp⟩
  | cons r ranges ih =>
    obtain ⟨⟨s₁,t₁⟩,h1,h⟩ := Option.bind_eq_some_iff.mp h
    obtain ⟨new,he,hsub,hall⟩ := ih h
    rcases enqueueWindow_cases h1 with ⟨rfl,j,hj,_,hlt⟩ | ⟨j,hj,hr⟩
    · refine ⟨new,he,hsub.trans (List.sublist_cons_self _ _),?_⟩
      intro _ hend
      exact absurd (hend j hj r (by simp)) (by omega)
    · refine ⟨j::new,hj.cons he,?_,?_⟩
      · rw [List.map_cons,hr]
        exact hsub.cons_cons r
      · intro hp hend
        rw [List.pairwise_cons] at hp
        rw [List.map_cons,hr,hall hp.2 ?_]
        intro x hx u hu
        rw [hj.epochJobs] at hx
        rcases List.mem_append.mp hx with hx | hx
        · exact hend x hx u (by simp [hu])
        · obtain rfl := List.mem_singleton.mp hx
          have hle := hp.1 u hu
          rw [← hr] at hle
          exact hle

lemma planRanges_tiles {size : ℕ} (hs : 2 ≤ size) (stop rounds start : ℕ) :
    (∃ e, Tiles start (planRanges size stop rounds start) e) ∧
      ∀ r ∈ planRanges size stop rounds start, r.2 ≤ stop := by
  induction rounds generalizing start with
  | zero => exact ⟨⟨start,rfl⟩,by simp [planRanges]⟩
  | succ rounds ih =>
    unfold planRanges
    split
    · rename_i hle
      obtain ⟨⟨e,he⟩,hb⟩ := ih (start+size)
      refine ⟨⟨e,rfl,by simp only; omega,he⟩,?_⟩
      intro r hr
      rcases List.mem_cons.mp hr with rfl | hr
      · exact hle
      · exact hb r hr
    split
    · exact ⟨⟨stop,rfl,by simp only; omega,rfl⟩,by simp⟩
    · exact ⟨⟨start,rfl⟩,by simp⟩

inductive PlanStep (env : Env) (c : SummaryWindowContext) (observedEnd : ℤ) (now : Time)
    (s : Store) : Store → Prop
  | refused : PlanStep env c observedEnd now s s
  | enqueued (sessions : List Session) (s₃ : Store) (new : List Job) (frontier : ℕ)
      (hcur : s.getSummaryEpoch c.sessionId = (c.sessionEpoch,c.startSeq))
      (hfront : s.validatedFrontier c.sessionId c.sessionEpoch c.startSeq = some frontier)
      (hstop : (frontier : ℤ) ≤ observedEnd)
      (hnew : Enqueued env c now { (s.ensureEpoch c.sessionId now).1 with sessions := sessions }
        s₃ new)
      (hbound : ∀ j ∈ new, (j.endSeq : ℤ) ≤ observedEnd)
      (hranges : (∀ j ∈ s.epochJobs c.sessionId c.sessionEpoch, j.endSeq ≤ frontier) →
        c.startSeq ≤ frontier → ∃ e, Tiles frontier (new.map Job.range) e) :
      PlanStep env c observedEnd now s (s₃.advanceCursor c.sessionId c.sessionEpoch now)

lemma ensureEpoch_current (s : Store) (session : String) (now : Time) :
    (s.ensureEpoch session now).2 = s.getSummaryEpoch session := by
  unfold Store.ensureEpoch Store.getSummaryEpoch
  split <;> simp

lemma ensureEpoch_jobs (s : Store) (session : String) (now : Time) :
    (s.ensureEpoch session now).1.jobs = s.jobs := by
  unfold Store.ensureEpoch
  split <;> rfl

lemma persistScopeSnapshot_eq (h : s.persistScopeSnapshot c = some s') :
    ∃ sessions, s' = { s with sessions := sessions } := by
  unfold Store.persistScopeSnapshot at h
  split at h
  · exact ⟨s.sessions,(Option.some.inj h).symm⟩
  split at h
  · exact ⟨s.sessions,(Option.some.inj h).symm⟩
  split at h
  · cases h
  · exact ⟨_,(Option.some.inj h).symm⟩

lemma planAndEnqueueWindows_step (s : Store) (observedEnd : ℤ) (strict : Bool) (clock : Time) :
    PlanStep env c observedEnd now s (s.planAndEnqueueWindows env c observedEnd jobIds strict now clock).1 := by
  unfold Store.planAndEnqueueWindows
  split
  · exact .refused
  have hcur := ensureEpoch_current s c.sessionId now
  have hjobs := ensureEpoch_jobs s c.sessionId now
  obtain ⟨⟨s₁,epoch,cursor⟩,hens⟩ : ∃ r, s.ensureEpoch c.sessionId now = r := ⟨_,rfl⟩
  simp only [hens] at hcur hjobs ⊢
  split
  · exact .refused
  rename_i hfenced
  obtain ⟨rfl,rfl⟩ : epoch = c.sessionEpoch ∧ cursor = c.startSeq := by simpa using hfenced
  split
  · exact .refused
  rename_i s₂ hscope
  obtain ⟨sessions,rfl⟩ := persistScopeSnapshot_eq hscope
  split
  · exact .refused
  split
  · exact .refused
  rename_i frontier hfront
  split
  · exact .refused
  split
  · exact .refused
  rename_i s₃ tally hfold
  obtain ⟨new,hnew,hsub,hall⟩ := enqueueWindows_spec hfold
  have hep : Store.epochJobs { s₁ with sessions := sessions } c.sessionId c.sessionEpoch =
      s.epochJobs c.sessionId c.sessionEpoch := by simp [Store.epochJobs,hjobs]
  obtain ⟨⟨e,htiles⟩,hstop⟩ := planRanges_tiles (le_max_left 2 c.windowSize)
    observedEnd.toNat (observedEnd.toNat+1) (max frontier c.startSeq)
  refine .enqueued sessions s₃ new frontier hcur.symm ?_ (by omega) (by rw [hens]; exact hnew) ?_ ?_
  · unfold Store.validatedFrontier at hfront ⊢
    rwa [hep] at hfront
  · intro j hj
    have hh := hstop j.range (hsub.subset (List.mem_map.mpr ⟨j,hj,rfl⟩))
    simp only [Job.range] at hh
    omega
  · intro hend hstart
    rw [max_eq_left hstart] at htiles hall
    refine ⟨e,?_⟩
    rw [hall htiles.pairwise ?_]
    · exact htiles
    · intro j hj r hr
      rw [hep] at hj
      exact (hend j hj).trans (htiles.bounds hr).1

lemma Keyed.enqueue (hk : Keyed s) (h : Enqueued env c now s s' new) :
    Keyed s' := by
  rw [h.eq]
  refine ⟨nodup_append hk.jobs h.nodup h.fresh,hk.slots,hk.epochs,?_,?_⟩
  · intro x hx
    obtain ⟨j,hj,he⟩ := hk.owned x hx
    exact ⟨j,by simp [hj],he⟩
  · intro x hx
    obtain ⟨j,hj,he⟩ := hk.counted x hx
    exact ⟨j,by simp [hj],he⟩

lemma Keyed.plan {observedEnd : ℤ} (hk : Keyed s) (h : PlanStep env c observedEnd now s s') :
    Keyed s' := by
  cases h with
  | refused => exact hk
  | enqueued sessions s₃ new frontier hcur hfront hstop hnew hbound hranges =>
    have hst : Stills s { (s.ensureEpoch c.sessionId now).1 with sessions := sessions } :=
      (s.ensureEpoch_stills c.sessionId now).tail (.source _ _ _ sessions)
    exact ((hk.moves (Stills.moves hst)).enqueue hnew).advance (.cursor _ _ _ _)

lemma step_cases (env : Env) (s : Store) (call : Call) :
    (∃ c observedEnd now, PlanStep env c observedEnd now s (step env s call)) ∨
      (∃ snapshot, call.op = .reconcileStartupCandidates snapshot) ∨
      (¬call.op.special ∧ Closing s (step env s call)) := by
  by_cases hs : call.op.special
  · cases hop : call.op <;> simp only [hop,Op.special] at hs
    · left
      simp only [step,hop]
      exact ⟨_,_,_,planAndEnqueueWindows_step s _ _ call.clock⟩
    · exact .inr (.inl ⟨_,rfl⟩)
  · exact .inr (.inr ⟨hs,step_closing env s call hs⟩)

theorem Keyed.step (hk : Keyed s) (env : Env) (call : Call) : Keyed (step env s call) := by
  rcases step_cases env s call with ⟨c,observedEnd,now,h⟩ | ⟨snapshot,hop⟩ | ⟨_,h⟩
  · exact hk.plan h
  · simp only [Memora.Summary.step,hop]
    exact hk.moves (s.reconcileStartupCandidates_moves _ _)
  · exact hk.moves h.moves

lemma Keyed.run (hk : Keyed s) (env : Env) (calls : List Call) : Keyed (run env s calls) :=
  RunLaws.foldl_invariant (fun _ call h => h.step env call) hk calls

end Memora.Summary

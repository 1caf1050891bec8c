import Memora.SummaryPlanning

/-! The windows of a session's current epoch tile `[0, frontier)`, the cursor stands at one
of their ends, and it only ever walks over closed windows. -/
namespace Memora.Summary
open RowTable RangeChain

namespace Store

variable (s : Store)

lemma epochRow?_updateEpochs {p : EpochRow → Bool} {f : EpochRow → EpochRow}
    (hf : ∀ e, (f e).sessionId = e.sessionId) (session : String) :
    (s.updateEpochs p f).epochRow? session =
      (s.epochRow? session).map fun e => if p e then f e else e :=
  find?_modify session p f s.epochs hf

lemma epochRow?_fenceEpochs (p : EpochRow → Bool) (now : Time) (session : String) :
    (s.fenceEpochs p now).epochRow? session = (s.epochRow? session).map fun e =>
      if p e then { e with
        epoch := e.epoch+1
        cursorSeq := 0
        pendingSummary := none
        tombstonedAt := some now
        updatedAt := now } else e :=
  s.epochRow?_updateEpochs (by intro e; rfl) session

lemma epochRow?_advanceCursor (target : String) (epoch : ℕ) (now : Time) (session : String) :
    (s.advanceCursor target epoch now).epochRow? session = (s.epochRow? session).map fun e =>
      if e.sessionId = target && e.epoch = epoch then { e with
        cursorSeq := s.advancedCursor target epoch
        pendingSummary := s.firstPending target epoch (s.advancedCursor target epoch)
        updatedAt := now } else e :=
  s.epochRow?_updateEpochs (by intro e; rfl) session

lemma cursorAt_eq {s : Store} (hk : Keyed s) {session : String} {e : EpochRow}
    (he : s.epochRow? session = some e) : s.cursorAt session e.epoch = e.cursorSeq := by
  unfold cursorAt
  rw [find?_key_and hk.epochs session fun r => r.epoch = e.epoch]
  unfold epochRow? at he
  simp [he,Option.filter]

lemma getSummaryEpoch_register {created : List EpochRow}
    (hc : ∀ e ∈ created, e.epoch = 1 ∧ e.cursorSeq = 0) (session : String) :
    getSummaryEpoch { s with epochs := s.epochs++created } session =
      s.getSummaryEpoch session := by
  have hrow : epochRow? { s with epochs := s.epochs++created } session =
      (s.epochRow? session).or (created.find? fun e => e.sessionId = session) :=
    List.find?_append
  unfold getSummaryEpoch
  rw [hrow]
  cases hs : s.epochRow? session with
  | some e => rfl
  | none =>
    cases hcr : created.find? fun e => e.sessionId = session with
    | none => rfl
    | some e =>
      obtain ⟨h1,h2⟩ := hc e (List.mem_of_find?_eq_some hcr)
      simp [h1,h2]

lemma getSummaryEpoch_ensureEpoch (session : String) (now : Time) (x : String) :
    (s.ensureEpoch session now).1.getSummaryEpoch x = s.getSummaryEpoch x := by
  unfold ensureEpoch
  split
  · rfl
  · exact s.getSummaryEpoch_register (by simp) x

lemma epochRow?_session {s : Store} {session : String} {e : EpochRow}
    (he : s.epochRow? session = some e) : e.sessionId = session := by
  simpa using List.find?_some he

lemma nextTerminal_some {s : Store} {session : String} {epoch current e : ℕ}
    (h : s.nextTerminal session epoch current = some e) :
    ∃ j ∈ s.epochJobs session epoch, j.startSeq = current ∧ j.status.terminal = true ∧
    j.endSeq = e := by
  obtain ⟨j,hj,rfl⟩ := List.mem_map.mp (List.min?_mem h)
  obtain ⟨hm,hc⟩ := List.mem_filter.mp hj
  simp only [Bool.and_eq_true,decide_eq_true_eq] at hc
  exact ⟨j,hm,hc.1,hc.2,rfl⟩

theorem walkCursor_path (session : String) (epoch rounds current : ℕ) :
    ∃ path : List Job, (∀ j ∈ path, j ∈ s.epochJobs session epoch ∧ j.status.terminal = true) ∧
      Tiles current (path.map Job.range) (s.walkCursor session epoch rounds current) := by
  induction rounds generalizing current with
  | zero => exact ⟨[],by simp,rfl⟩
  | succ rounds ih =>
    unfold walkCursor
    split
    · exact ⟨[],by simp,rfl⟩
    rename_i e he
    split
    · exact ⟨[],by simp,rfl⟩
    obtain ⟨j,hj,hs,ht,rfl⟩ := nextTerminal_some he
    obtain ⟨path,hp,htiles⟩ := ih j.endSeq
    refine ⟨j::path,?_,hs,by simp only [Job.range]; omega,htiles⟩
    intro x hx
    rcases List.mem_cons.mp hx with rfl | hx
    · exact ⟨hj,ht⟩
    · exact hp x hx

end Store

variable {s t : Store}

theorem Still.epoch (h : Still s t) (session : String) :
    t.getSummaryEpoch session = s.getSummaryEpoch session ∨
      ((s.getSummaryEpoch session).1 < (t.getSummaryEpoch session).1 ∧ (t.getSummaryEpoch session).2 = 0) := by
  cases h with
  | register created hc hn hf => exact .inl (s.getSummaryEpoch_register hc session)
  | fence p now =>
    unfold Store.getSummaryEpoch
    rw [Store.epochRow?_fenceEpochs]
    cases hs : s.epochRow? session with
    | none => exact .inl rfl
    | some e =>
      by_cases hp : p e = true
      · right
        simp [hp]
      · left
        simp [hp]
  | record _ c h hj =>
    obtain ⟨rfl,-,-⟩ := Store.insertCandidate_eq h
    exact .inl rfl
  | _ => exact .inl rfl

lemma Stills.epoch (h : Stills s t) (session : String) :
    t.getSummaryEpoch session = s.getSummaryEpoch session ∨
      ((s.getSummaryEpoch session).1 < (t.getSummaryEpoch session).1 ∧ (t.getSummaryEpoch session).2 = 0) := by
  induction h with
  | refl => exact .inl rfl
  | tail _ h ih =>
    rcases h.epoch session with he | ⟨h1,h2⟩
    · rw [he]
      exact ih
    · right
      refine ⟨?_,h2⟩
      rcases ih with ih | ih
      · rwa [ih] at h1
      · exact ih.1.trans h1

theorem Advance.path (hk : Keyed s) (h : Advance s t) (session : String) :
    (t.getSummaryEpoch session).1 = (s.getSummaryEpoch session).1 ∧
      ∃ path : List Job, (∀ j ∈ path, j ∈ s.epochJobs session (s.getSummaryEpoch session).1 ∧
          j.status.terminal = true) ∧
        Tiles (s.getSummaryEpoch session).2 (path.map Job.range) (t.getSummaryEpoch session).2 := by
  cases h with
  | cursor target epoch now =>
    unfold Store.getSummaryEpoch
    rw [Store.epochRow?_advanceCursor]
    cases hs : s.epochRow? session with
    | none => exact ⟨rfl,[],by simp,rfl⟩
    | some e =>
      by_cases hp : e.sessionId = target ∧ e.epoch = epoch
      · obtain ⟨rfl,rfl⟩ := hp
        have hse := Store.epochRow?_session hs
        rw [← hse] at hs ⊢
        have hcur := Store.cursorAt_eq hk hs
        have hw := s.walkCursor_path e.sessionId e.epoch s.jobs.length e.cursorSeq
        exact ⟨by simp,by simpa [Store.advancedCursor,hcur] using hw⟩
      · refine ⟨by simp [hp],[],by simp,?_⟩
        simp [hp]

lemma Advances.path (hk : Keyed s) (h : Advances s t) (session : String) :
    (t.getSummaryEpoch session).1 = (s.getSummaryEpoch session).1 ∧
      ∃ path : List Job, (∀ j ∈ path, j ∈ s.epochJobs session (s.getSummaryEpoch session).1 ∧
          j.status.terminal = true) ∧
        Tiles (s.getSummaryEpoch session).2 (path.map Job.range) (t.getSummaryEpoch session).2 := by
  induction h with
  | refl => exact ⟨rfl,[],by simp,rfl⟩
  | @tail m t hsm hmt ih =>
    obtain ⟨he,p₁,hp₁,ht₁⟩ := ih
    have hkm : Keyed m := hk.moves (Closing.moves ⟨s,.refl,hsm⟩)
    obtain ⟨he',p₂,hp₂,ht₂⟩ := hmt.path hkm session
    have hjobs : m.jobs = s.jobs := Advances.jobs hsm
    refine ⟨he'.trans he,p₁++p₂,?_,?_⟩
    · intro j hj
      rcases List.mem_append.mp hj with hj | hj
      · exact hp₁ j hj
      · have hh := hp₂ j hj
        rwa [he,Store.epochJobs,hjobs] at hh
    · rw [List.map_append]
      exact tiles_append.mpr ⟨_,ht₁,ht₂⟩

lemma frontierFrom_skip {cursor frontier : ℕ} {l₁ l₂ : List (ℕ × ℕ)} (h : ∀ r ∈ l₁, r.2 ≤ cursor) :
    frontierFrom cursor frontier (l₁++l₂) = frontierFrom cursor frontier l₂ := by
  induction l₁ with
  | nil => rfl
  | cons r l₁ ih =>
    rw [List.cons_append,frontierFrom,if_pos (h r (by simp))]
    exact ih fun x hx => h x (by simp [hx])

lemma frontierFrom_tiles {cursor a b : ℕ} {l : List (ℕ × ℕ)} (h : Tiles a l b)
    (ha : cursor ≤ a) : frontierFrom cursor a l = some b := by
  induction l generalizing a with
  | nil => rw [frontierFrom,h]
  | cons r l ih =>
    obtain ⟨rfl,hlt,h⟩ := h
    have hskip : ¬r.2 ≤ cursor := by omega
    have hgap : ¬(r.1 < cursor || r.1 ≠ r.1 || r.2 ≤ r.1) = true := by
      simp
      omega
    rw [frontierFrom,if_neg hskip,if_neg hgap]
    exact ih h (by omega)

lemma sortByRange_tiles {a b : ℕ} {jobs : List Job} (h : Tiles a (jobs.map Job.range) b) :
    sortByRange jobs = jobs := by
  refine List.Pairwise.insertionSort_eq ?_
  refine (List.pairwise_map.mp h.pairwise).imp_of_mem ?_
  intro x y hx hy hxy
  have hlt := (h.bounds (List.mem_map.mpr ⟨x,hx,rfl⟩)).2.1
  refine le_of_lt (Prod.Lex.toLex_lt_toLex.mpr (.inl ?_))
  exact hlt.trans_le hxy

namespace Store

def epochRanges (s : Store) (session : String) (epoch : ℕ) : List (ℕ × ℕ) :=
  (s.epochJobs session epoch).map Job.range

lemma epochRanges_of_sources {s t : Store}
    (h : t.jobs.map Job.toJobSource = s.jobs.map Job.toJobSource) (session : String)
    (epoch : ℕ) : t.epochRanges session epoch = s.epochRanges session epoch := by
  have key : ∀ u : Store, u.epochRanges session epoch = ((u.jobs.map Job.toJobSource).filter fun j =>
        j.sessionId = session && j.sessionEpoch = epoch).map fun j => (j.startSeq,j.endSeq) := by
    intro u
    rw [List.filter_map,List.map_map]
    rfl
  rw [key,key,h]

theorem validatedFrontier_tiles {s : Store} {session : String} {epoch cursor frontier : ℕ}
    (h : Tiles 0 (s.epochRanges session epoch) frontier)
    (hc : cursor = 0 ∨ ∃ r ∈ s.epochRanges session epoch, r.2 = cursor) :
    s.validatedFrontier session epoch cursor = some frontier := by
  obtain ⟨l₁,l₂,hl,h₁,h₂⟩ := h.split hc
  have hmap : (s.epochJobs session epoch).map (fun j => (j.startSeq,j.endSeq)) = l₁++l₂ := hl
  rw [validatedFrontier,sortByRange_tiles h,hmap, frontierFrom_skip fun r hr => (h₁.bounds hr).2.2]
  exact frontierFrom_tiles h₂ le_rfl

end Store

structure Chained (s : Store) (session : String) : Prop where
  tiles : ∃ frontier, Tiles 0 (s.epochRanges session (s.getSummaryEpoch session).1) frontier
  boundary : (s.getSummaryEpoch session).2 = 0 ∨
    ∃ r ∈ s.epochRanges session (s.getSummaryEpoch session).1, r.2 = (s.getSummaryEpoch session).2
  latest : ∀ j ∈ s.jobs, j.sessionId = session → j.sessionEpoch ≤ (s.getSummaryEpoch session).1

lemma Chained.empty (session : String) : Chained Store.empty session := by
  refine ⟨⟨0,?_⟩,.inl ?_,?_⟩
  · rfl
  · rfl
  · simp [Store.empty]

variable {session : String}

lemma Chained.congr (h : Chained s session) (hj :
    t.jobs.map Job.toJobSource = s.jobs.map Job.toJobSource)
    (he : t.getSummaryEpoch session = s.getSummaryEpoch session) : Chained t session := by
  refine ⟨?_,?_,?_⟩
  · rw [he,Store.epochRanges_of_sources hj]
    exact h.tiles
  · rw [he,Store.epochRanges_of_sources hj]
    exact h.boundary
  · intro j hjm hs
    have hmem : j.toJobSource ∈ s.jobs.map Job.toJobSource := hj ▸ List.mem_map.mpr ⟨j,hjm,rfl⟩
    obtain ⟨x,hx,hxj⟩ := List.mem_map.mp hmem
    rw [he,← hxj]
    exact h.latest x hx (by rw [hxj]; exact hs)

lemma Chained.latest_lt (h : Chained s session)
    (hj : t.jobs.map Job.toJobSource = s.jobs.map Job.toJobSource)
    (hlt : (s.getSummaryEpoch session).1 < (t.getSummaryEpoch session).1) :
    ∀ j ∈ t.jobs, j.sessionId = session → j.sessionEpoch < (t.getSummaryEpoch session).1 := by
  intro j hjm hs
  have hmem : j.toJobSource ∈ s.jobs.map Job.toJobSource := hj ▸ List.mem_map.mpr ⟨j,hjm,rfl⟩
  obtain ⟨x,hx,hxj⟩ := List.mem_map.mp hmem
  have hle := h.latest x hx (by rw [hxj]; exact hs)
  rw [hxj] at hle
  exact hle.trans_lt hlt

lemma Chained.epochJobs_nil (h : Chained s session)
    (hj : t.jobs.map Job.toJobSource = s.jobs.map Job.toJobSource)
    (hlt : (s.getSummaryEpoch session).1 < (t.getSummaryEpoch session).1) :
    t.epochJobs session (t.getSummaryEpoch session).1 = [] := by
  rw [Store.epochJobs,List.filter_eq_nil_iff]
  intro j hjm hcond
  simp only [Bool.and_eq_true,decide_eq_true_eq] at hcond
  exact absurd hcond.2 (h.latest_lt hj hlt j hjm hcond.1).ne

lemma Chained.renew (h : Chained s session) (hj :
    t.jobs.map Job.toJobSource = s.jobs.map Job.toJobSource)
    (hlt : (s.getSummaryEpoch session).1 < (t.getSummaryEpoch session).1)
    (h0 : (t.getSummaryEpoch session).2 = 0) : Chained t session :=
  ⟨⟨0,by simp [Store.epochRanges,h.epochJobs_nil hj hlt]⟩,.inl h0,
    fun j hjm hs => (h.latest_lt hj hlt j hjm hs).le⟩

lemma Chained.stills (h : Chained s session) (hst : Stills s t) : Chained t session := by
  rcases Stills.epoch hst session with he | ⟨hlt,h0⟩
  · exact h.congr (Stills.sources hst) he
  · exact h.renew (Stills.sources hst) hlt h0

lemma Chained.advances (h : Chained s session) (hk : Keyed s) (hst : Advances s t) :
    Chained t session := by
  have hjobs : t.jobs = s.jobs := Advances.jobs hst
  obtain ⟨he,path,hp,htiles⟩ := Advances.path hk hst session
  have hranges : t.epochRanges session = s.epochRanges session := by
    unfold Store.epochRanges Store.epochJobs
    rw [hjobs]
  refine ⟨by rw [he,hranges]; exact h.tiles,?_,by rw [he,hjobs]; exact h.latest⟩
  rw [he,hranges]
  rcases htiles.end_mem with heq | ⟨r,hr,heq⟩
  · rw [heq]
    exact h.boundary
  · obtain ⟨j,hj,rfl⟩ := List.mem_map.mp hr
    exact .inr ⟨_,List.mem_map.mpr ⟨j,(hp j hj).1,rfl⟩,heq⟩

lemma Chained.closing (h : Chained s session) (hk : Keyed s) (hst : Closing s t) :
    Chained t session := by
  obtain ⟨m,h₁,h₂⟩ := hst
  exact (h.stills h₁).advances (hk.moves (Stills.moves h₁)) h₂

lemma Enqueued.epochJobs_of_ne {env : Env} {c : SummaryWindowContext} {now : Time} {s s' : Store}
    {new : List Job} (h : Enqueued env c now s s' new) (hne : session ≠ c.sessionId) (epoch : ℕ) :
    s'.epochJobs session epoch = s.epochJobs session epoch := by
  have hnone : new.filter (fun j => j.sessionId = session && j.sessionEpoch = epoch) = [] := by
    rw [List.filter_eq_nil_iff]
    intro j hj
    obtain ⟨id,start,stop,digest,complete,rfl,_⟩ := h.planned j hj
    simp [SummaryWindowContext.job,hne.symm]
  rw [h.eq]
  simp [Store.epochJobs,hnone]

section Plan

variable {env : Env} {c : SummaryWindowContext} {observedEnd : ℤ} {now : Time} {s s' : Store}

theorem PlanStep.chained (h : PlanStep env c observedEnd now s s') {session : String}
    (hc : Chained s session) (hown : Chained s c.sessionId) (hk : Keyed s) :
    ∃ t, Keyed t ∧ Chained t session ∧ t.getSummaryEpoch session = s.getSummaryEpoch session ∧
      Advances t s' := by
  cases h with
  | refused => exact ⟨s,hk,hc,rfl,.refl⟩
  | enqueued sessions s₃ new frontier hcur hfront hstop hnew hbound hranges =>
    set s₁ : Store := { (s.ensureEpoch c.sessionId now).1 with sessions := sessions } with hs₁
    have hst : Stills s s₁ := (s.ensureEpoch_stills c.sessionId now).tail (.source _ _ _ sessions)
    have hk₃ : Keyed s₃ := (hk.moves (Stills.moves hst)).enqueue hnew
    have hep₁ : ∀ x, s₁.getSummaryEpoch x = s.getSummaryEpoch x := s.getSummaryEpoch_ensureEpoch c.sessionId now
    have hep : ∀ x, s₃.getSummaryEpoch x = s.getSummaryEpoch x := by
      intro x
      rw [← hep₁ x,hnew.eq]
      rfl
    have hc₁ : Chained s₁ session := hc.stills hst
    refine ⟨s₃,hk₃,?_,hep session,.single (.cursor _ _ _ _)⟩
    by_cases hses : session = c.sessionId
    · subst hses
      have hranges₁ : s₁.epochRanges c.sessionId = s.epochRanges c.sessionId :=
        funext fun e => Store.epochRanges_of_sources (Stills.sources hst) _ _
      obtain ⟨e,htiles⟩ := hown.tiles
      have hb := hown.boundary
      rw [hcur] at htiles hb
      -- the frontier planning starts from is the end of the chain
      obtain rfl : frontier = e := by
        rw [Store.validatedFrontier_tiles htiles hb] at hfront
        exact (Option.some.inj hfront).symm
      have hend : ∀ j ∈ s.epochJobs c.sessionId c.sessionEpoch, j.endSeq ≤ frontier :=
        fun j hj => (htiles.bounds (List.mem_map.mpr ⟨j,hj,rfl⟩)).2.2
      have hle : c.startSeq ≤ frontier := by
        rcases hb with h0 | ⟨r,hr,h0⟩
        · simp only at h0
          omega
        · have hle := (htiles.bounds hr).2.2
          omega
      obtain ⟨e',htiles'⟩ := hranges hend hle
      have happ : s₃.epochRanges c.sessionId c.sessionEpoch =
          s.epochRanges c.sessionId c.sessionEpoch++new.map Job.range := by
        rw [← hranges₁,Store.epochRanges,hnew.epochJobs,List.map_append]
        rfl
      refine ⟨⟨e',?_⟩,?_,?_⟩
      · rw [hep,hcur,happ]
        exact tiles_append.mpr ⟨_,htiles,htiles'⟩
      · rw [hep,hcur,happ]
        exact hb.imp id fun ⟨r,hr,h⟩ => ⟨r,List.mem_append_left _ hr,h⟩
      · intro j hj hsid
        rw [hep]
        rw [hnew.eq] at hj
        rcases List.mem_append.mp hj with hj | hj
        · exact hep₁ c.sessionId ▸ hc₁.latest j hj hsid
        · obtain ⟨id,start,stop,digest,complete,rfl,_⟩ := hnew.planned j hj
          rw [hcur]
          exact le_rfl
    · have hsame : ∀ e, s₃.epochRanges session e = s₁.epochRanges session e := fun e => by
        rw [Store.epochRanges,hnew.epochJobs_of_ne hses,Store.epochRanges]
      have hep' : s₃.getSummaryEpoch session = s₁.getSummaryEpoch session := by rw [hep,hep₁]
      refine ⟨?_,?_,?_⟩
      · rw [hep',hsame]
        exact hc₁.tiles
      · rw [hep',hsame]
        exact hc₁.boundary
      · intro j hj hsid
        rw [hep']
        rw [hnew.eq] at hj
        rcases List.mem_append.mp hj with hj | hj
        · exact hc₁.latest j hj hsid
        · obtain ⟨id,start,stop,digest,complete,rfl,_⟩ := hnew.planned j hj
          exact absurd hsid.symm hses

lemma Chained.plan {session : String} (hc : Chained s session) (hown : Chained s c.sessionId)
    (hk : Keyed s) (h : PlanStep env c observedEnd now s s') : Chained s' session := by
  obtain ⟨t,hkt,hct,_,hadv⟩ := h.chained hc hown hk
  exact hct.advances hkt hadv

end Plan

/-- Between the two moments the cursor of the session moved, if at all, over windows that
are closed at the second one; in a new epoch it starts at zero. -/
structure Passes (session : String) (a b : Store) : Prop where
  epoch : (a.getSummaryEpoch session).1 ≤ (b.getSummaryEpoch session).1
  renewed : (a.getSummaryEpoch session).1 < (b.getSummaryEpoch session).1 →
    (b.getSummaryEpoch session).2 = 0
  forward : (a.getSummaryEpoch session).1 = (b.getSummaryEpoch session).1 →
    (a.getSummaryEpoch session).2 ≤ (b.getSummaryEpoch session).2
  closed : (a.getSummaryEpoch session).1 = (b.getSummaryEpoch session).1 →
    ∀ j ∈ b.epochJobs session (b.getSummaryEpoch session).1,
      (a.getSummaryEpoch session).2 < j.endSeq → j.startSeq < (b.getSummaryEpoch session).2 →
      j.status.terminal = true

lemma Chained.not_inside (h : Chained s session) {j : Job}
    (hj : j ∈ s.epochJobs session (s.getSummaryEpoch session).1)
    (h1 : (s.getSummaryEpoch session).2 < j.endSeq)
    (h2 : j.startSeq < (s.getSummaryEpoch session).2) : False := by
  obtain ⟨frontier,htiles⟩ := h.tiles
  rcases htiles.boundary_outside h.boundary (List.mem_map.mpr ⟨j,hj,rfl⟩) with hle | hle <;>
    simp only [Job.range] at hle <;> omega

lemma Passes.advances {a s t : Store} (hk : Keyed s) (hc : Chained s session)
    (ha : a.getSummaryEpoch session = s.getSummaryEpoch session) (h : Advances s t) :
    Passes session a t := by
  obtain ⟨he,path,hp,htiles⟩ := Advances.path hk h session
  have hjobs : t.epochJobs session = s.epochJobs session := by
    unfold Store.epochJobs
    rw [Advances.jobs h]
  rw [← ha] at he htiles
  refine ⟨he.ge,fun hlt => absurd hlt (by omega),fun _ => htiles.le,?_⟩
  intro _ j hj h1 h2
  rw [hjobs,he,ha] at hj
  rcases htiles.le.eq_or_lt with heq | hlt
  · rw [← heq,ha] at h2
    rw [ha] at h1
    exact (hc.not_inside hj h1 h2).elim
  · obtain ⟨frontier,hall⟩ := hc.tiles
    have hlt' := (hall.bounds (List.mem_map.mpr ⟨j,hj,rfl⟩)).2.1
    have hmem : j ∈ path := htiles.mem_of_meets (fun x hx => ha ▸ (hp x hx).1) hall.pairwise hj hlt' h2 h1 hlt
    exact (hp j hmem).2

lemma Passes.closing (hk : Keyed s) (hc : Chained s session) (h : Closing s t) :
    Passes session s t := by
  obtain ⟨m,h₁,h₂⟩ := h
  have hkm : Keyed m := hk.moves (Stills.moves h₁)
  have hcm : Chained m session := hc.stills h₁
  rcases Stills.epoch h₁ session with he | ⟨hlt,h0⟩
  · exact .advances hkm hcm he.symm h₂
  · obtain ⟨hep,path,hp,htiles⟩ := Advances.path hkm h₂ session
    obtain rfl : path = [] := by
      rw [List.eq_nil_iff_forall_not_mem]
      intro j hj
      have hmem := (hp j hj).1
      rw [hc.epochJobs_nil (Stills.sources h₁) hlt] at hmem
      simp at hmem
    rw [← hep] at hlt
    have hzero : (t.getSummaryEpoch session).2 = 0 := htiles.symm.trans h0
    exact ⟨hlt.le,fun _ => hzero,fun heq => absurd heq hlt.ne,fun heq => absurd heq hlt.ne⟩

lemma Passes.plan {env : Env} {c : SummaryWindowContext} {observedEnd : ℤ} {now : Time}
    {s s' : Store} (hk : Keyed s) (hc : Chained s session) (hown : Chained s c.sessionId)
    (h : PlanStep env c observedEnd now s s') :
    Passes session s s' := by
  obtain ⟨t,hkt,hct,he,hadv⟩ := h.chained hc hown hk
  exact .advances hkt hct he.symm hadv

/-! ## Moments of a call
A cursor moves at the end of a call, except in the start-up pass, which moves it after
each job it completes. -/

def Store.startupMoments (now : Time) : Store × ℕ → List ScannedJob → Option (List Store)
  | _, [] => some []
  | st, scan::rest => do
    let st' ← startupJob now st scan
    let later ← Store.startupMoments now st' rest
    return st'.1::later

def moments (env : Env) (s : Store) (call : Call) : List Store :=
  (match call.op with
    | .reconcileStartupCandidates snapshot =>
      (Store.startupMoments call.now (s,0) snapshot.jobs).getD []
    | _ => [])++[step env s call]

lemma startupMoments_closing (now : Time) (scans : List ScannedJob) (st : Store × ℕ) :
    (∀ st', scans.foldlM (Store.startupJob now) st = some st' →
      ∃ l, Store.startupMoments now st scans = some l ∧ (st.1::(l++[st'.1])).IsChain Closing) ∧
      (scans.foldlM (Store.startupJob now) st = none → Store.startupMoments now st scans = none) := by
  induction scans generalizing st with
  | nil =>
    refine ⟨?_,fun h => absurd h (by simp)⟩
    intro st' h
    obtain rfl : st = st' := by simpa using h
    exact ⟨[],rfl,by simpa using Stills.closing .refl⟩
  | cons scan scans ih =>
    rw [List.foldlM_cons]
    cases h1 : Store.startupJob now st scan with
    | none => simp [Store.startupMoments,h1]
    | some st₁ =>
      obtain ⟨ih1,ih2⟩ := ih st₁
      refine ⟨?_,?_⟩
      · intro st' h
        obtain ⟨l,hl,hchain⟩ := ih1 st' h
        refine ⟨st₁.1::l,by simp [Store.startupMoments,h1,hl],?_⟩
        exact hchain.cons_cons (Store.startupJob_closing h1)
      · intro h
        simp [Store.startupMoments,h1,ih2 h]

lemma moments_closing (env : Env) (s : Store) (call : Call)
    (h : Closing s (step env s call) ∨ ∃ snapshot, call.op = .reconcileStartupCandidates snapshot) :
    (s::moments env s call).IsChain Closing := by
  unfold moments
  split
  · rename_i snapshot hop
    obtain ⟨h1,h2⟩ := startupMoments_closing call.now snapshot.jobs (s,0)
    cases hf : snapshot.jobs.foldlM (Store.startupJob call.now) (s,0) with
    | none =>
      have hs : step env s call = s := by
        simp [step,hop,Store.reconcileStartupCandidates,hf]
      rw [h2 hf,hs]
      simpa using Stills.closing .refl
    | some st' =>
      obtain ⟨l,hl,hchain⟩ := h1 st' hf
      have hs : step env s call = st'.1 := by
        simp [step,hop,Store.reconcileStartupCandidates,hf]
      rw [hl,hs]
      exact hchain
  · rename_i hop
    rcases h with h | ⟨snapshot,h⟩
    · simpa using h
    · exact absurd h (hop snapshot)

lemma Passes.chain (hk : Keyed s) (hc : Chained s session) {l : List Store}
    (h : (s::l).IsChain Closing) :
    (s::l).IsChain (Passes session) ∧ Chained ((s::l).getLast (by simp)) session := by
  induction l generalizing s with
  | nil => exact ⟨by simp,hc⟩
  | cons t l ih =>
    rw [List.isChain_cons_cons] at h ⊢
    obtain ⟨h1,h2⟩ := ih (hk.moves h.1.moves) (hc.closing hk h.1) h.2
    exact ⟨⟨.closing hk hc h.1,h1⟩,by simpa using h2⟩

lemma Chained.moments (hk : Keyed s) (hc : ∀ x, Chained s x) (env : Env) (call : Call)
    (session : String) :
    (s::moments env s call).IsChain (Passes session) ∧ Chained (step env s call) session := by
  have hlast : ∀ h, (s::Memora.Summary.moments env s call).getLast h = step env s call := by
    intro h
    simp [Memora.Summary.moments]
  have hclosing := fun h => Passes.chain hk (hc session) (moments_closing env s call h)
  rcases step_cases env s call with ⟨c,observedEnd,now,h⟩ | ⟨snapshot,hop⟩ | ⟨_,h⟩
  · by_cases hop : ∃ snapshot, call.op = .reconcileStartupCandidates snapshot
    · simpa [hlast] using hclosing (.inr hop)
    · have hm : Memora.Summary.moments env s call = [step env s call] := by
        unfold Memora.Summary.moments
        split
        · exact absurd ⟨_,‹_›⟩ hop
        · rfl
      rw [hm]
      exact ⟨by simpa using Passes.plan hk (hc session) (hc c.sessionId) h,
        (hc session).plan (hc c.sessionId) hk h⟩
  · simpa [hlast] using hclosing (.inr ⟨snapshot,hop⟩)
  · simpa [hlast] using hclosing (.inl h)

lemma Chained.run (hk : Keyed s) (hc : ∀ x, Chained s x) (env : Env) (calls : List Call) :
    ∀ x, Chained (run env s calls) x :=
  (RunLaws.foldl_invariant (P := fun s => Keyed s ∧ ∀ x, Chained s x)
    (fun _ call h => ⟨h.1.step env call,fun x => (Chained.moments h.1 h.2 env call x).2⟩)
    ⟨hk,hc⟩ calls).2

lemma Passes.cursor_le {a b : Store} (h : Passes session a b) :
    toLex (a.getSummaryEpoch session) ≤ toLex (b.getSummaryEpoch session) := by
  rcases h.epoch.lt_or_eq with hlt | heq
  · exact le_of_lt (Prod.Lex.toLex_lt_toLex.mpr (.inl hlt))
  · exact Prod.Lex.toLex_le_toLex.mpr (.inr ⟨heq,h.forward heq⟩)

lemma cursor_le_step (hk : Keyed s) (hc : ∀ x, Chained s x) (env : Env) (call : Call)
    (session : String) :
    toLex (s.getSummaryEpoch session) ≤ toLex ((step env s call).getSummaryEpoch session) := by
  let le (a b : Store) : Prop := toLex (a.getSummaryEpoch session) ≤
    toLex (b.getSummaryEpoch session)
  have hchain : (s::moments env s call).IsChain le :=
    (Chained.moments hk hc env call session).1.imp fun _ _ h => h.cursor_le
  exact hchain.rel_cons (by simp [moments])

lemma cursor_le_run (hk : Keyed s) (hc : ∀ x, Chained s x) (env : Env) (calls : List Call)
    (session : String) :
    toLex (s.getSummaryEpoch session) ≤ toLex ((run env s calls).getSummaryEpoch session) :=
  RunLaws.foldl_relation (P := fun s => Keyed s ∧ ∀ x, Chained s x)
    (R := fun a b => toLex (a.getSummaryEpoch session) ≤ toLex (b.getSummaryEpoch session))
    (fun _ => le_rfl) (fun h1 h2 => h1.trans h2)
    (fun _ call h => ⟨h.1.step env call,fun x => (Chained.moments h.1 h.2 env call x).2⟩)
    (fun _ call h => cursor_le_step h.1 h.2 env call session) ⟨hk,hc⟩ calls

/-- In every run the windows of the current epoch are one chain without overlap, the
frontier is its end, the cursor is on a boundary of it and never goes back, and whenever
it moves it passes only windows that are closed at that moment. -/
theorem summary_windows_chain (env : Env) (calls : List Call) (session : String) :
    let s := run env Store.empty calls
    let epoch := (s.getSummaryEpoch session).1
    let cursor := (s.getSummaryEpoch session).2
    let windows := s.epochJobs session epoch
    windows.Pairwise (fun a b => a.endSeq ≤ b.startSeq) ∧
      (∃ frontier, Tiles 0 (windows.map Job.range) frontier ∧
        s.validatedFrontier session epoch cursor = some frontier) ∧
      (cursor = 0 ∨ ∃ j ∈ windows, j.endSeq = cursor) ∧
      (∀ later, toLex (epoch,cursor) ≤ toLex ((run env s later).getSummaryEpoch session)) ∧
      ∀ call, (s::moments env s call).IsChain (Passes session) := by
  intro s epoch cursor windows
  have hk : Keyed s := Keyed.empty.run env calls
  have hc : ∀ x, Chained s x := Chained.run .empty Chained.empty env calls
  obtain ⟨frontier,htiles⟩ := (hc session).tiles
  refine ⟨List.pairwise_map.mp htiles.pairwise,⟨frontier,htiles,?_⟩,?_,?_,?_⟩
  · exact Store.validatedFrontier_tiles htiles (hc session).boundary
  · refine (hc session).boundary.imp id ?_
    rintro ⟨r,hr,hend⟩
    obtain ⟨j,hj,rfl⟩ := List.mem_map.mp hr
    exact ⟨j,hj,hend⟩
  · intro later
    exact cursor_le_run hk hc env later session
  · intro call
    exact (Chained.moments hk hc env call session).1

end Memora.Summary

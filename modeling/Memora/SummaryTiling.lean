import Memora.SummaryChain

/-! A frontier is valid when the windows past the cursor tile the range up to it. From there on
planning tiles the messages up to the observed end, and planning again adds nothing. -/
namespace Memora.Summary
open RowTable RangeChain

theorem frontierFrom_eq_some {cursor a b : ℕ} {l : List (ℕ × ℕ)} (ha : cursor ≤ a) :
    frontierFrom cursor a l = some b ↔ Tiles a (l.filter fun r => cursor < r.2) b := by
  induction l generalizing a with
  | nil => simp [frontierFrom]
  | cons r l ih =>
    obtain ⟨start,stop⟩ := r
    rw [frontierFrom]
    by_cases hskip : stop ≤ cursor
    · rw [if_pos hskip,ih ha,List.filter_cons_of_neg (by simpa using hskip)]
    · rw [if_neg hskip,List.filter_cons_of_pos (by simpa using hskip),tiles_cons]
      by_cases hgap : (start < cursor || start ≠ a || stop ≤ start) = true
      · rw [if_pos hgap]
        simp only [Bool.or_eq_true,decide_eq_true_eq] at hgap
        constructor
        · intro h
          cases h
        · rintro ⟨h1,h2,-⟩
          omega
      · rw [if_neg hgap,ih (by omega)]
        simp only [Bool.or_eq_true,decide_eq_true_eq,not_or,not_not] at hgap
        constructor
        · intro h
          exact ⟨hgap.1.2,by simp only; omega,h⟩
        · rintro ⟨-,-,h⟩
          exact h

def Store.past (s : Store) (session : String) (epoch cursor : ℕ) : List Job :=
  (s.epochJobs session epoch).filter fun j => cursor < j.endSeq

lemma sortByRange_ranges (jobs : List Job) :
    ((sortByRange jobs).map Job.range).Pairwise fun r t => toLex r ≤ toLex t := by
  rw [List.pairwise_map]
  have hsorted : (sortByRange jobs).Pairwise fun a b => a.rangeKey ≤ b.rangeKey :=
    List.pairwise_insertionSort _ _
  refine hsorted.imp ?_
  intro a b h
  rcases Prod.Lex.toLex_le_toLex.mp h with hlt | ⟨heq,hle⟩
  · exact Prod.Lex.toLex_le_toLex.mpr (.inl hlt)
  · refine Prod.Lex.toLex_le_toLex.mpr (.inr ⟨heq,?_⟩)
    rcases Prod.Lex.toLex_le_toLex.mp hle with hlt | ⟨heq',-⟩
    · exact le_of_lt hlt
    · exact le_of_eq heq'

variable {s : Store} {session : String} {start stop : ℕ} {j : Job}

lemma validatedFrontier_iff {epoch cursor frontier : ℕ} :
    s.validatedFrontier session epoch cursor = some frontier ↔
      ∃ chain : List Job, chain.Perm (s.past session epoch cursor) ∧
        Tiles cursor (chain.map Job.range) frontier := by
  have hfilter : ((sortByRange (s.epochJobs session epoch)).map fun j =>
      (j.startSeq,j.endSeq)).filter (fun r => cursor < r.2) =
        ((sortByRange (s.epochJobs session epoch)).filter fun j => cursor < j.endSeq).map
          Job.range := by
    rw [List.filter_map]
    rfl
  unfold Store.validatedFrontier
  rw [frontierFrom_eq_some le_rfl,hfilter]
  constructor
  · intro h
    exact ⟨_,(List.perm_insertionSort _ _).filter _,h⟩
  · rintro ⟨chain,hperm,htiles⟩
    have hsame : ((sortByRange (s.epochJobs session epoch)).filter fun j => cursor < j.endSeq).map
        Job.range = chain.map Job.range := by
      have hp : (((sortByRange (s.epochJobs session epoch)).filter fun j =>
          cursor < j.endSeq).map Job.range).Perm (chain.map Job.range) :=
        (((List.perm_insertionSort _ _).filter _).trans hperm.symm).map _
      have hsorted : (((sortByRange (s.epochJobs session epoch)).filter fun j =>
          cursor < j.endSeq).map Job.range).Pairwise fun r t => toLex r ≤ toLex t :=
        (sortByRange_ranges _).sublist (List.filter_sublist.map _)
      refine hp.eq_of_pairwise ?_ hsorted ?_
      · intro r t _ _ h1 h2
        exact toLex.injective (le_antisymm h1 h2)
      · refine htiles.pairwise.imp_of_mem ?_
        intro r t hr ht hle
        have hlt := (htiles.bounds hr).2.1
        exact Prod.Lex.toLex_le_toLex.mpr (.inl (by omega))
    rw [hsame]
    exact htiles

lemma Store.mem_past {epoch cursor : ℕ} :
    j ∈ s.past session epoch cursor ↔ j ∈ s.epochJobs session epoch ∧ cursor < j.endSeq := by
  simp [Store.past]

lemma frontier_bounds {epoch cursor frontier : ℕ}
    (h : s.validatedFrontier session epoch cursor = some frontier) :
    cursor ≤ frontier ∧ ∀ j ∈ s.epochJobs session epoch, j.endSeq ≤ frontier := by
  obtain ⟨chain,hperm,htiles⟩ := validatedFrontier_iff.mp h
  refine ⟨htiles.le,?_⟩
  intro j hj
  by_cases hpast : cursor < j.endSeq
  · have hmem : j ∈ chain := hperm.mem_iff.mpr (Store.mem_past.mpr ⟨hj,hpast⟩)
    exact (htiles.bounds (List.mem_map_of_mem (f := Job.range) hmem)).2.2
  · have hle := htiles.le
    omega

theorem frontier_append {s s' : Store} {epoch cursor frontier stop : ℕ} {new : List Job}
    (h : s.validatedFrontier session epoch cursor = some frontier)
    (hjobs : s'.epochJobs session epoch = s.epochJobs session epoch++new)
    (hnew : Tiles frontier (new.map Job.range) stop) :
    s'.validatedFrontier session epoch cursor = some stop := by
  obtain ⟨chain,hperm,htiles⟩ := validatedFrontier_iff.mp h
  have hall : new.filter (fun j => cursor < j.endSeq) = new := by
    rw [List.filter_eq_self]
    intro j hj
    have hb := hnew.bounds (List.mem_map_of_mem (f := Job.range) hj)
    have hle := htiles.le
    simp only [Job.range] at hb
    simp only [decide_eq_true_eq]
    omega
  refine validatedFrontier_iff.mpr ⟨chain++new,?_,?_⟩
  · unfold Store.past
    rw [hjobs,List.filter_append,hall]
    exact hperm.append_right new
  · rw [List.map_append]
    exact tiles_append.mpr ⟨frontier,htiles,hnew⟩

lemma frontier_moved {epoch cursor cursor' frontier : ℕ}
    (h : s.validatedFrontier session epoch cursor = some frontier) {path : List Job}
    (hpath : ∀ j ∈ path, j ∈ s.epochJobs session epoch)
    (htiles : Tiles cursor (path.map Job.range) cursor') :
    s.validatedFrontier session epoch cursor' = some frontier := by
  obtain ⟨chain,hperm,hchain⟩ := validatedFrontier_iff.mp h
  have hboundary : cursor' = cursor ∨ ∃ r ∈ chain.map Job.range, r.2 = cursor' := by
    rcases htiles.end_mem with heq | ⟨r,hr,hend⟩
    · exact .inl heq
    · obtain ⟨j,hj,rfl⟩ := List.mem_map.mp hr
      have hb := htiles.bounds hr
      have hpast : cursor < j.endSeq := lt_of_le_of_lt hb.1 hb.2.1
      exact .inr ⟨j.range,List.mem_map_of_mem (hperm.mem_iff.mpr (Store.mem_past.mpr ⟨hpath j hj,hpast⟩)),hend⟩
  obtain ⟨l₁,l₂,hsplit,h₁,h₂⟩ := hchain.split hboundary
  obtain ⟨done,rest,rfl,rfl,rfl⟩ := List.map_eq_append_iff.mp hsplit
  refine validatedFrontier_iff.mpr ⟨rest,?_,h₂⟩
  -- what ends past the new cursor is what was past the old one, without the windows passed
  have hpast : s.past session epoch cursor' =
      (s.past session epoch cursor).filter fun j => cursor' < j.endSeq := by
    unfold Store.past
    rw [List.filter_filter]
    apply List.filter_congr
    intro j _
    have hle := htiles.le
    by_cases hj : cursor' < j.endSeq
    · have hold : cursor < j.endSeq := by omega
      simp [hold]
    · simp [hj]
  have hdone : done.filter (fun j => cursor' < j.endSeq) = [] := by
    rw [List.filter_eq_nil_iff]
    intro j hj
    have hb := (h₁.bounds (List.mem_map_of_mem (f := Job.range) hj)).2.2
    simp only [Job.range] at hb
    simp only [decide_eq_true_eq]
    omega
  have hrest : rest.filter (fun j => cursor' < j.endSeq) = rest := by
    rw [List.filter_eq_self]
    intro j hj
    have hb := h₂.bounds (List.mem_map_of_mem (f := Job.range) hj)
    simp only [Job.range] at hb
    simp only [decide_eq_true_eq]
    omega
  have hfiltered := hperm.filter fun j => decide (cursor' < j.endSeq)
  rw [List.filter_append,hdone,hrest,List.nil_append] at hfiltered
  rw [hpast]
  exact hfiltered

/-- The planned ranges leave at most one message, and none is shorter than two messages or
longer than the window. -/
theorem planRanges_spec {size : ℕ} (hs : 2 ≤ size) (stop rounds start : ℕ)
    (hrounds : stop < start+rounds) (hstart : start ≤ stop) :
    ∃ g, Tiles start (planRanges size stop rounds start) g ∧ g ≤ stop ∧ stop ≤ g+1 ∧
      ∀ r ∈ planRanges size stop rounds start, 2 ≤ r.2 - r.1 ∧ r.2 - r.1 ≤ size := by
  induction rounds generalizing start with
  | zero => omega
  | succ rounds ih =>
    unfold planRanges
    by_cases hfull : start+size ≤ stop
    · rw [if_pos hfull]
      obtain ⟨g,hg,hle,hone,hlen⟩ := ih (start+size) (by omega) hfull
      refine ⟨g,⟨rfl,by simp only; omega,hg⟩,hle,hone,?_⟩
      intro r hr
      rcases List.mem_cons.mp hr with rfl | hr
      · simp only
        omega
      · exact hlen r hr
    · rw [if_neg hfull]
      by_cases hrest : start+2 ≤ stop
      · rw [if_pos hrest]
        refine ⟨stop,⟨rfl,by simp only; omega,rfl⟩,le_rfl,by omega,?_⟩
        intro r hr
        rw [List.mem_singleton.mp hr]
        omega
      · rw [if_neg hrest]
        exact ⟨start,rfl,hstart,by omega,by simp⟩

/-- `uq_messages_session_seq`: no two messages of a session share a sequence number. -/
def UniqueSeqs (s : Store) : Prop :=
  s.messages.Pairwise fun m m' =>
    m.sessionId = m'.sessionId → m.messageSeq = m'.messageSeq → m.messageSeq = none

def SourcePresent (s : Store) (session : String) (start stop : ℕ) : Prop :=
  ∀ k, start < k → k ≤ stop → ∃ m ∈ s.messages, m.sessionId = session ∧ m.messageSeq = some k

lemma mem_sourceRows {m : Message} : m ∈ s.sourceRows session start stop ↔
      m ∈ s.messages ∧ m.sessionId = session ∧ ∃ k, m.messageSeq = some k ∧ start < k ∧ k ≤ stop := by
  unfold Store.sourceRows Store.sessionMessages
  rw [List.mem_insertionSort,List.mem_filter,List.mem_filter]
  cases m.messageSeq <;> simp [and_assoc]

lemma sourceRows_seqs_nodup (h : UniqueSeqs s) (session : String) (start stop : ℕ) :
    ((s.sourceRows session start stop).map fun m => m.messageSeq.getD 0).Nodup := by
  have hrows : ((s.sessionMessages session).filter fun m =>
      m.messageSeq.any fun q => start < q && q ≤ stop).Pairwise
        fun m m' => m.messageSeq.getD 0 ≠ m'.messageSeq.getD 0 := by
    unfold Store.sessionMessages
    rw [List.filter_filter]
    refine (h.filter _).imp_of_mem ?_
    intro m m' hm hm' hne heq
    simp only [List.mem_filter,Bool.and_eq_true,decide_eq_true_eq,Option.any_eq_true] at hm hm'
    obtain ⟨-,⟨q,hq,-⟩,hsession⟩ := hm
    obtain ⟨-,⟨q',hq',-⟩,hsession'⟩ := hm'
    rw [hq,hq'] at heq
    have hseq : m.messageSeq = m'.messageSeq := by
      rw [hq,hq']
      simpa using heq
    have := hne (hsession.trans hsession'.symm) hseq
    rw [hq] at this
    cases this
  unfold Store.sourceRows List.Nodup
  rw [List.pairwise_map]
  refine ((List.perm_insertionSort _ _).symm.pairwise_iff ?_).mp hrows
  intro a b hab
  exact hab.symm

lemma sourceComplete_iff (h : UniqueSeqs s) (session : String) (start stop : ℕ) :
    sourceComplete (s.sourceRows session start stop) start stop = true ↔
      SourcePresent s session start stop := by
  unfold sourceComplete
  rw [decide_eq_true_eq]
  constructor
  · intro heq k hstart hstop
    have hmem : k ∈ (s.sourceRows session start stop).map fun m => m.messageSeq.getD 0 := by
      rw [heq,List.mem_range'_1]
      omega
    obtain ⟨m,hm,hk⟩ := List.mem_map.mp hmem
    obtain ⟨hmessages,hsession,q,hq,-,-⟩ := mem_sourceRows.mp hm
    rw [hq] at hk
    exact ⟨m,hmessages,hsession,by rw [hq]; exact congrArg some hk⟩
  · intro hpresent
    have hperm : ((s.sourceRows session start stop).map fun m => m.messageSeq.getD 0).Perm
        (List.range' (start+1) (stop - start)) := by
      rw [List.perm_ext_iff_of_nodup (sourceRows_seqs_nodup h session start stop) List.nodup_range']
      intro k
      rw [List.mem_map,List.mem_range'_1]
      constructor
      · rintro ⟨m,hm,rfl⟩
        obtain ⟨-,-,q,hq,hlow,hhigh⟩ := mem_sourceRows.mp hm
        rw [hq]
        simp only [Option.getD_some]
        omega
      · rintro ⟨hlow,hhigh⟩
        obtain ⟨m,hm,hsession,hk⟩ := hpresent k (by omega) (by omega)
        exact ⟨m,mem_sourceRows.mpr ⟨hm,hsession,k,hk,by omega,by omega⟩,by rw [hk]; rfl⟩
    have hrows : ((s.sourceRows session start stop).map fun m =>
        m.messageSeq.getD 0).Pairwise (· ≤ ·) := by
      rw [List.pairwise_map]
      exact List.pairwise_insertionSort _ _
    have hrange : (List.range' (start+1) (stop - start)).Pairwise (· ≤ ·) :=
      (List.pairwise_lt_range' (s := start+1) (n := stop - start)).imp fun h => le_of_lt h
    exact hperm.eq_of_pairwise' hrows hrange

variable {env : Env} {c : SummaryWindowContext} {jobIds : ℕ → String} {now : Time}
    {ranges : List (ℕ × ℕ)}
  {t t' : PlanTally}

/-- A window planned for the messages stored in `s`: queued with their digest when none is
missing, blocked otherwise. -/
structure PlannedFrom (env : Env) (c : SummaryWindowContext) (jobIds : ℕ → String) (s : Store)
    (j : Job) : Prop where
  id : j.jobId = jobIds j.startSeq
  session : j.sessionId = c.sessionId
  epoch : j.sessionEpoch = c.sessionEpoch
  status : j.status = if sourceComplete (s.sourceRows c.sessionId j.startSeq j.endSeq)
    j.startSeq j.endSeq = true then .queued else .blocked
  digest : j.status = .queued →
    env.sourceWindowDigest (s.sourceRows c.sessionId j.startSeq j.endSeq) = some j.sourceDigest

lemma sourceRows_of_messages {s t : Store} (h : t.messages = s.messages) (session : String)
    (start stop : ℕ) : t.sourceRows session start stop = s.sourceRows session start stop := by
  unfold Store.sourceRows Store.sessionMessages
  rw [h]

lemma PlannedFrom.of_messages {s t : Store} (h : PlannedFrom env c jobIds s j)
    (hm : t.messages = s.messages) : PlannedFrom env c jobIds t j := by
  refine ⟨h.id,h.session,h.epoch,?_,?_⟩
  · rw [sourceRows_of_messages hm]
    exact h.status
  · rw [sourceRows_of_messages hm]
    exact h.digest

lemma enqueueWindow_planned {s s' : Store} {r : ℕ × ℕ}
    (h : Store.enqueueWindow env c jobIds now (s,t) r = some (s',t'))
    (hend : ∀ j ∈ s.epochJobs c.sessionId c.sessionEpoch, j.endSeq ≤ r.1) :
    ∃ j, Enqueued env c now s s' [j] ∧ j.range = r ∧ PlannedFrom env c jobIds s j := by
  obtain ⟨start,stop⟩ := r
  have hfree : ¬((s.epochJobs c.sessionId c.sessionEpoch).any fun j =>
      j.startSeq < stop && start < j.endSeq) = true := by
    simp only [List.any_eq_true,Bool.and_eq_true,decide_eq_true_eq,not_exists,not_and]
    intro j hj _
    have hle := hend j hj
    omega
  simp only [Store.enqueueWindow] at h
  rw [if_neg hfree] at h
  by_cases hcomplete : sourceComplete (s.sourceRows c.sessionId start stop) start stop = true
  · rw [if_pos hcomplete] at h
    obtain ⟨digest,hdigest,h⟩ := Option.bind_eq_some_iff.mp h
    obtain ⟨s₁,hs,h⟩ := Option.bind_eq_some_iff.mp h
    cases h
    refine ⟨_,insertJob_enqueued hs,rfl,rfl,rfl,rfl,?_,?_⟩
    · exact (if_pos hcomplete).symm
    · intro _
      exact hdigest
  · rw [if_neg hcomplete] at h
    obtain ⟨s₁,hs,h⟩ := Option.bind_eq_some_iff.mp h
    cases h
    refine ⟨_,insertJob_enqueued hs,rfl,rfl,rfl,rfl,?_,?_⟩
    · exact (if_neg hcomplete).symm
    · intro hqueued
      cases hqueued

lemma enqueueWindows_planned {s s' : Store}
    {a b : ℕ} (htiles : Tiles a ranges b)
    (hend : ∀ j ∈ s.epochJobs c.sessionId c.sessionEpoch, j.endSeq ≤ a)
    (h : ranges.foldlM (Store.enqueueWindow env c jobIds now) (s,t) = some (s',t')) :
    ∃ new, Enqueued env c now s s' new ∧ new.map Job.range = ranges ∧
      ∀ j ∈ new, PlannedFrom env c jobIds s j := by
  induction ranges generalizing a s t with
  | nil =>
    obtain ⟨rfl,-⟩ := Prod.mk.inj (Option.some.inj h)
    exact ⟨[],.nil s,rfl,by simp⟩
  | cons r ranges ih =>
    obtain ⟨rfl,hlt,htiles⟩ := htiles
    obtain ⟨⟨s₁,t₁⟩,h1,h2⟩ := Option.bind_eq_some_iff.mp h
    obtain ⟨j,hj,rfl,hplanned⟩ := enqueueWindow_planned h1 hend
    have hend₁ : ∀ x ∈ s₁.epochJobs c.sessionId c.sessionEpoch, x.endSeq ≤ j.range.2 := by
      intro x hx
      rw [hj.epochJobs] at hx
      rcases List.mem_append.mp hx with hx | hx
      · exact (hend x hx).trans hlt.le
      · rw [List.mem_singleton.mp hx]
        exact le_rfl
    obtain ⟨new,hnew,hranges,hall⟩ := ih htiles hend₁ h2
    refine ⟨j::new,hj.cons hnew,by rw [List.map_cons,hranges],?_⟩
    intro x hx
    rcases List.mem_cons.mp hx with rfl | hx
    · exact hplanned
    · refine (hall x hx).of_messages ?_
      rw [hj.eq]

/-- What the statements of a planning call from `low` on rely on: the columns of the context
pass the CHECK clauses, digests exist and fit their column, and the identifiers are new. -/
structure Insertable (env : Env) (c : SummaryWindowContext) (jobIds : ℕ → String) (s : Store)
    (low : ℕ) : Prop where
  columns : (c.job "" 0 1 "-" true 0).checks env = true
  complete : ∀ start stop, SourcePresent s c.sessionId start stop → ∃ digest,
    env.sourceWindowDigest (s.sourceRows c.sessionId start stop) = some digest ∧
      0 < digest.length ∧ digest.length ≤ 128
  incomplete : ∀ start stop, 0 < (env.incompleteDigest c.sessionId start stop).length ∧
    (env.incompleteDigest c.sessionId start stop).length ≤ 128
  fresh : ∀ start, low ≤ start → ∀ j ∈ s.jobs, j.jobId ≠ jobIds start
  distinct : Function.Injective jobIds

theorem job_checks {id digest : String} {complete : Bool}
    (h : (c.job "" 0 1 "-" true 0).checks env = true) (hlt : start < stop)
    (hstop : stop < 2 ^ 63) (hdigest : 0 < digest.length ∧ digest.length ≤ 128) :
    (c.job id start stop digest complete now).checks env = true := by
  simp only [JobSource.checks,Bool.and_eq_true,decide_eq_true_eq,sqlInt] at h ⊢
  obtain ⟨⟨⟨⟨⟨⟨⟨⟨⟨⟨hepoch,-⟩,-⟩,-⟩,-⟩,hgate⟩,hjson⟩,htriggered⟩,hkey⟩,hprivacy⟩,hresolver⟩ := h
  exact ⟨⟨⟨⟨⟨⟨⟨⟨⟨⟨hepoch,hlt⟩,rfl⟩,hstop⟩,hdigest⟩,hgate⟩,hjson⟩,htriggered⟩,hkey⟩,
    hprivacy⟩,hresolver⟩

lemma insertJob_some {new : Job} (hchecks : new.checks env = true)
    (hlt : new.startSeq < new.endSeq) (hfresh : ∀ j ∈ s.jobs, j.jobId ≠ new.jobId)
    (hend : ∀ j ∈ s.epochJobs new.sessionId new.sessionEpoch, j.endSeq ≤ new.startSeq) :
    ∃ s', s.insertJob env new = some s' := by
  unfold Store.insertJob
  rw [if_pos]
  · exact ⟨_,rfl⟩
  rw [Bool.and_eq_true]
  refine ⟨hchecks,?_⟩
  rw [List.all_eq_true]
  intro j hj
  have hid := hfresh j hj
  have hnew : ¬(j.sessionId = new.sessionId ∧ j.sessionEpoch = new.sessionEpoch ∧
      j.startSeq = new.startSeq ∧ j.endSeq = new.endSeq) := by
    rintro ⟨hsession,hepoch,-,hstop⟩
    have hle := hend j (List.mem_filter.mpr ⟨hj,by simp [hsession,hepoch]⟩)
    omega
  simp only [not_and_or] at hnew
  simpa [hid,or_assoc] using hnew

lemma enqueueWindow_some {t : PlanTally} (hu : UniqueSeqs s)
    (hi : Insertable env c jobIds s start) (hlt : start < stop) (hstop : stop < 2 ^ 63)
    (hend : ∀ j ∈ s.epochJobs c.sessionId c.sessionEpoch, j.endSeq ≤ start) :
    ∃ s' t', Store.enqueueWindow env c jobIds now (s,t) (start,stop) = some (s',t') := by
  have hinsert : ∀ digest complete, 0 < digest.length ∧ digest.length ≤ 128 →
      ∃ s', s.insertJob env (c.job (jobIds start) start stop digest complete now) = some s' := by
    intro digest complete hdigest
    exact insertJob_some (job_checks hi.columns hlt hstop hdigest) hlt (hi.fresh start le_rfl) hend
  simp only [Store.enqueueWindow]
  by_cases hover : ((s.epochJobs c.sessionId c.sessionEpoch).any fun j =>
      j.startSeq < stop && start < j.endSeq) = true
  · rw [if_pos hover]
    exact ⟨_,_,rfl⟩
  rw [if_neg hover]
  by_cases hsource : sourceComplete (s.sourceRows c.sessionId start stop) start stop = true
  · rw [if_pos hsource]
    obtain ⟨digest,hdigest,hlen⟩ := hi.complete start stop ((sourceComplete_iff hu _ _ _).mp hsource)
    obtain ⟨s',hs⟩ := hinsert digest true hlen
    rw [hdigest,Option.bind_eq_bind,Option.bind_some,hs]
    exact ⟨_,_,rfl⟩
  · rw [if_neg hsource]
    obtain ⟨s',hs⟩ := hinsert _ false (hi.incomplete start stop)
    rw [hs]
    exact ⟨_,_,rfl⟩

lemma UniqueSeqs.of_messages {s t : Store} (h : UniqueSeqs s) (hm : t.messages = s.messages) :
    UniqueSeqs t := by
  unfold UniqueSeqs
  rw [hm]
  exact h

lemma Insertable.of_rows {s t : Store} {low : ℕ} (h : Insertable env c jobIds s low)
    (hm : t.messages = s.messages) (hj : t.jobs = s.jobs) : Insertable env c jobIds t low := by
  refine ⟨h.columns,?_,h.incomplete,?_,h.distinct⟩
  · intro start stop hpresent
    rw [sourceRows_of_messages hm]
    unfold SourcePresent at hpresent
    rw [hm] at hpresent
    exact h.complete start stop hpresent
  · intro start hle j hmem
    rw [hj] at hmem
    exact h.fresh start hle j hmem

lemma Insertable.next {s s' : Store} {low : ℕ} (hi : Insertable env c jobIds s low)
    (hj : s' = { s with jobs := s.jobs++[j] }) (hid : j.jobId = jobIds low) {high : ℕ}
    (hlt : low < high) : Insertable env c jobIds s' high := by
  subst hj
  refine ⟨hi.columns,hi.complete,hi.incomplete,?_,hi.distinct⟩
  intro start hstart x hx
  rcases List.mem_append.mp hx with hx | hx
  · exact hi.fresh start (by omega) x hx
  · rw [List.mem_singleton.mp hx,hid]
    intro heq
    have := hi.distinct heq
    omega

lemma enqueueWindows_some {t : PlanTally} {a b : ℕ} (hu : UniqueSeqs s)
    (hi : Insertable env c jobIds s a) (htiles : Tiles a ranges b) (hb : b < 2 ^ 63)
    (hend : ∀ j ∈ s.epochJobs c.sessionId c.sessionEpoch, j.endSeq ≤ a) :
    ∃ s' t', ranges.foldlM (Store.enqueueWindow env c jobIds now) (s,t) = some (s',t') := by
  induction ranges generalizing a s t with
  | nil => exact ⟨s,t,rfl⟩
  | cons r ranges ih =>
    obtain ⟨start,stop⟩ := r
    obtain ⟨rfl,hlt,htiles⟩ := htiles
    have hle := htiles.le
    obtain ⟨s₁,t₁,hs⟩ : ∃ s₁ t₁, Store.enqueueWindow env c jobIds now (s,t) (start,stop) =
        some (s₁,t₁) := enqueueWindow_some hu hi hlt (by omega) hend
    obtain ⟨j,hj,hrange,hplanned⟩ := enqueueWindow_planned hs hend
    have hu₁ : UniqueSeqs s₁ := hu.of_messages (by rw [hj.eq])
    have hend₁ : ∀ x ∈ s₁.epochJobs c.sessionId c.sessionEpoch, x.endSeq ≤ stop := by
      intro x hx
      rw [hj.epochJobs] at hx
      rcases List.mem_append.mp hx with hx | hx
      · exact (hend x hx).trans hlt.le
      · rw [List.mem_singleton.mp hx]
        exact le_of_eq (congrArg Prod.snd hrange)
    have hid : j.jobId = jobIds start := by
      rw [hplanned.id]
      exact congrArg jobIds (congrArg Prod.fst hrange)
    have hi₁ : Insertable env c jobIds s₁ stop := hi.next hj.eq hid hlt
    rw [List.foldlM_cons,hs]
    exact ih hu₁ hi₁ htiles hend₁

/-- The call planned: it was neither refused nor rolled back. -/
def Planned (r : Except String SummaryEnqueueResult) : Prop :=
  ∃ result, r = .ok result ∧ (result.accepted = true ∨ result.reasonCode = .noWindow)

structure PlannedTo (env : Env) (c : SummaryWindowContext) (jobIds : ℕ → String)
    (observedEnd : ℤ) (now : Time) (s : Store) (low high : ℕ) (s' : Store) : Prop where
  current : s.getSummaryEpoch c.sessionId = (c.sessionEpoch,c.startSeq)
  bounds : (high : ℤ) ≤ observedEnd ∧ observedEnd ≤ high+1
  store : ∃ sessions s₃ new,
    Enqueued env c now { (s.ensureEpoch c.sessionId now).1 with sessions := sessions } s₃ new ∧
      Tiles low (new.map Job.range) high ∧
      (∀ r ∈ new.map Job.range, 2 ≤ r.2 - r.1 ∧ r.2 - r.1 ≤ max 2 c.windowSize) ∧
      (∀ j ∈ new, PlannedFrom env c jobIds s j) ∧
      s' = s₃.advanceCursor c.sessionId c.sessionEpoch now

/-- What a planning call relies on from the frontier `low` on: the context is current, no
statement or check refuses it, and the observed end is a number SQLite stores. -/
structure Plannable (env : Env) (c : SummaryWindowContext) (jobIds : ℕ → String)
    (observedEnd : ℤ) (s : Store) (low : ℕ) : Prop where
  current : s.getSummaryEpoch c.sessionId = (c.sessionEpoch,c.startSeq)
  scope : s.persistScopeSnapshot c ≠ none
  blocker : s.manualBlocker c c.sessionEpoch = none
  observed : (low : ℤ) ≤ observedEnd ∧ observedEnd < 2 ^ 63
  insertable : Insertable env c jobIds s low

lemma ensureEpoch_messages (s : Store) (session : String) (now : Time) :
    (s.ensureEpoch session now).1.messages = s.messages := by
  unfold Store.ensureEpoch
  split <;> rfl

lemma ensureEpoch_sessions (s : Store) (session : String) (now : Time) :
    (s.ensureEpoch session now).1.sessions = s.sessions := by
  unfold Store.ensureEpoch
  split <;> rfl

variable {reason : SummaryReasonCode}

lemma planFailure_not_planned {strict : Bool} (h : reason ≠ .noWindow) :
    ¬Planned (planFailure strict reason) := by
  rintro ⟨result,heq,hor⟩
  cases strict with
  | true => cases heq
  | false =>
    injection heq with heq
    subst heq
    rcases hor with hor | hor
    · cases hor
    · exact h hor

lemma refused_not_planned (h : reason ≠ .noWindow) :
    ¬Planned (.ok { accepted := false, reasonCode := reason }) := by
  rintro ⟨result,heq,hor⟩
  injection heq with heq
  subst heq
  rcases hor with hor | hor
  · cases hor
  · exact h hor

lemma tally_planned (t : PlanTally) (active target : ℕ) :
    Planned (.ok { accepted := t.queued ≠ 0 || t.duplicates ≠ 0 || t.blocked,
                   queued := t.queued, duplicates := t.duplicates, activeParallelism := active,
                   targetParallelism := target, reasonCode := t.reason }) := by
  refine ⟨_,rfl,?_⟩
  unfold PlanTally.reason
  by_cases hq : t.queued = 0
  · by_cases hd : t.duplicates = 0
    · cases hb : t.blocked <;> simp [hq,hd]
    · simp [hd]
  · simp [hq]

lemma manualBlocker_reason {epoch : ℕ} (h : s.manualBlocker c epoch = some reason) :
    reason ≠ .noWindow := by
  unfold Store.manualBlocker at h
  by_cases hm : c.triggeredBy ≠ "manual"
  · rw [if_pos hm] at h
    cases h
  rw [if_neg hm] at h
  by_cases hu : ((s.epochJobs c.sessionId epoch).any fun j => j.status = .unknown) = true
  · rw [if_pos hu] at h
    cases h
    decide
  rw [if_neg hu] at h
  by_cases hb : ((s.epochJobs c.sessionId epoch).any fun j => j.status = .blocked) = true
  · rw [if_pos hb] at h
    cases h
    decide
  · rw [if_neg hb] at h
    cases h

lemma manualBlocker_of_jobs {s t : Store} (h : t.jobs = s.jobs) (epoch : ℕ) :
    t.manualBlocker c epoch = s.manualBlocker c epoch := by
  unfold Store.manualBlocker Store.epochJobs
  rw [h]

lemma persistScopeSnapshot_none {s t : Store} (h : t.sessions = s.sessions)
    (hs : s.persistScopeSnapshot c = none) : t.persistScopeSnapshot c = none := by
  unfold Store.persistScopeSnapshot at hs ⊢
  rw [h]
  split at hs
  · cases hs
  rename_i havailable
  rw [if_neg havailable]
  split at hs
  · cases hs
  split at hs
  · rename_i hconflict
    rw [if_pos hconflict]
  · cases hs

variable (env c jobIds now) in
lemma plan_cases (s : Store) (hu : UniqueSeqs s) (observedEnd : ℤ) (strict : Bool)
    (clock : Time) {frontier : ℕ} (hf : s.validatedFrontier c.sessionId
      (s.getSummaryEpoch c.sessionId).1 (s.getSummaryEpoch c.sessionId).2 = some frontier) :
    (Planned (s.planAndEnqueueWindows env c observedEnd jobIds strict now clock).2 ∧
      ∃ high, PlannedTo env c jobIds observedEnd now s frontier high
        (s.planAndEnqueueWindows env c observedEnd jobIds strict now clock).1) ∨
      (¬Planned (s.planAndEnqueueWindows env c observedEnd jobIds strict now clock).2 ∧
        (s.planAndEnqueueWindows env c observedEnd jobIds strict now clock).1 = s ∧
        ¬Plannable env c jobIds observedEnd s frontier) := by
  unfold Store.planAndEnqueueWindows
  split
  · rename_i hneg
    right
    refine ⟨refused_not_planned (by decide),rfl,?_⟩
    intro hp
    have := hp.observed.1
    omega
  have hcur := ensureEpoch_current s c.sessionId now
  have hjobs := ensureEpoch_jobs s c.sessionId now
  have hmessages := ensureEpoch_messages s c.sessionId now
  have hsessions := ensureEpoch_sessions s c.sessionId now
  obtain ⟨⟨s₁,epoch,cursor⟩,hens⟩ : ∃ r, s.ensureEpoch c.sessionId now = r := ⟨_,rfl⟩
  simp only [hens] at hcur hjobs hmessages hsessions ⊢
  rw [← hcur] at hf
  split
  · rename_i hfenced
    right
    refine ⟨refused_not_planned (by decide),rfl,?_⟩
    intro hp
    rw [hp.current] at hcur
    simp only [Prod.mk.injEq] at hcur
    simp [hcur.1,hcur.2] at hfenced
  rename_i hfenced
  obtain ⟨rfl,rfl⟩ : epoch = c.sessionEpoch ∧ cursor = c.startSeq := by simpa using hfenced
  split
  · rename_i hscope
    right
    refine ⟨planFailure_not_planned (by decide),rfl,?_⟩
    intro hp
    exact hp.scope (persistScopeSnapshot_none hsessions.symm hscope)
  rename_i s₂ hscope
  obtain ⟨sessions,rfl⟩ := persistScopeSnapshot_eq hscope
  have hep : Store.epochJobs { s₁ with sessions := sessions } c.sessionId c.sessionEpoch =
      s.epochJobs c.sessionId c.sessionEpoch := by simp [Store.epochJobs,hjobs]
  have hfront : Store.validatedFrontier { s₁ with sessions := sessions } c.sessionId
      c.sessionEpoch c.startSeq = some frontier := by
    unfold Store.validatedFrontier at hf ⊢
    rwa [hep]
  obtain ⟨hstart,hend⟩ := frontier_bounds hfront
  split
  · rename_i reason hblock
    right
    refine ⟨refused_not_planned (manualBlocker_reason hblock),rfl,?_⟩
    intro hp
    have hnone := hp.blocker
    rw [← manualBlocker_of_jobs (t := { s₁ with sessions := sessions }) hjobs,hblock] at hnone
    cases hnone
  rw [hfront]
  simp only
  split
  · rename_i hbehind
    right
    refine ⟨planFailure_not_planned (by decide),rfl,?_⟩
    intro hp
    have := hp.observed.1
    omega
  rw [max_eq_left hstart]
  obtain ⟨high,htiles,hhigh,hone,hlengths⟩ := planRanges_spec (le_max_left 2 c.windowSize)
    observedEnd.toNat (observedEnd.toNat+1) frontier (by omega) (by omega)
  split
  · rename_i hfold
    right
    refine ⟨planFailure_not_planned (by decide),rfl,?_⟩
    intro hp
    have hobserved := hp.observed.2
    have hi : Insertable env c jobIds { s₁ with sessions := sessions } frontier :=
      hp.insertable.of_rows hmessages hjobs
    have hu₂ : UniqueSeqs { s₁ with sessions := sessions } := hu.of_messages hmessages
    obtain ⟨s₃,t₃,hsome⟩ := enqueueWindows_some hu₂ hi htiles (by omega) hend
    exact absurd (hfold.symm.trans hsome) (by simp)
  · rename_i s₃ tally hfold
    left
    obtain ⟨new,hnew,hranges,hplanned⟩ := enqueueWindows_planned htiles hend hfold
    refine ⟨tally_planned _ _ _,high,hcur.symm,by omega,sessions,s₃,new,?_,?_,?_,?_,rfl⟩
    · rw [hens]
      exact hnew
    · rw [hranges]
      exact htiles
    · rw [hranges]
      exact hlengths
    · intro j hj
      exact (hplanned j hj).of_messages hmessages.symm

section PlannedTo

variable {s s' : Store} {observedEnd : ℤ} {low high : ℕ}

lemma PlannedTo.jobs (h : PlannedTo env c jobIds observedEnd now s low high s') :
    ∃ new, s'.jobs = s.jobs++new ∧ Tiles low (new.map Job.range) high ∧
      (∀ r ∈ new.map Job.range, 2 ≤ r.2 - r.1 ∧ r.2 - r.1 ≤ max 2 c.windowSize) ∧
      ∀ j ∈ new, PlannedFrom env c jobIds s j := by
  obtain ⟨sessions,s₃,new,hnew,htiles,hlengths,hplanned,rfl⟩ := h.store
  refine ⟨new,?_,htiles,hlengths,hplanned⟩
  rw [Store.advanceCursor,Store.updateEpochs_jobs,hnew.eq]
  exact congrArg (·++new) (ensureEpoch_jobs s c.sessionId now)

lemma PlannedTo.messages (h : PlannedTo env c jobIds observedEnd now s low high s') :
    s'.messages = s.messages := by
  obtain ⟨sessions,s₃,new,hnew,-,-,-,rfl⟩ := h.store
  rw [hnew.eq]
  exact ensureEpoch_messages s c.sessionId now

theorem PlannedTo.frontier (h : PlannedTo env c jobIds observedEnd now s low high s')
    (hk : Keyed s) (hf : s.validatedFrontier c.sessionId (s.getSummaryEpoch c.sessionId).1
      (s.getSummaryEpoch c.sessionId).2 = some low) :
    s'.validatedFrontier c.sessionId (s'.getSummaryEpoch c.sessionId).1
      (s'.getSummaryEpoch c.sessionId).2 = some high := by
  obtain ⟨sessions,s₃,new,hnew,htiles,-,-,rfl⟩ := h.store
  have hst : Stills s { (s.ensureEpoch c.sessionId now).1 with sessions := sessions } :=
    (s.ensureEpoch_stills c.sessionId now).tail (.source _ _ _ sessions)
  have hk₃ : Keyed s₃ := (hk.moves (Stills.moves hst)).enqueue hnew
  have hepoch : s₃.getSummaryEpoch c.sessionId = s.getSummaryEpoch c.sessionId := by
    rw [hnew.eq]
    exact s.getSummaryEpoch_ensureEpoch c.sessionId now c.sessionId
  have hjobs : s₃.epochJobs c.sessionId (s₃.getSummaryEpoch c.sessionId).1 =
      s.epochJobs c.sessionId (s₃.getSummaryEpoch c.sessionId).1++new := by
    rw [hepoch,h.current,hnew.epochJobs]
    refine congrArg (·++new) ?_
    unfold Store.epochJobs
    rw [show ({ (s.ensureEpoch c.sessionId now).1 with sessions := sessions } : Store).jobs = s.jobs
      from ensureEpoch_jobs s c.sessionId now]
  rw [← hepoch] at hf
  have hhigh := frontier_append hf hjobs htiles
  obtain ⟨hsame,path,hpath,hmoved⟩ := (Advance.cursor s₃ c.sessionId c.sessionEpoch now).path hk₃
    c.sessionId
  rw [hsame]
  exact frontier_moved hhigh (fun j hj => (hpath j hj).1) hmoved

theorem PlannedTo.unchanged (h : PlannedTo env c jobIds observedEnd now s low high s')
    (hclose : observedEnd ≤ low+1) : s'.jobs = s.jobs := by
  obtain ⟨new,hjobs,htiles,hlengths,-⟩ := h.jobs
  cases new with
  | nil => rw [hjobs,List.append_nil]
  | cons j new =>
    have hlength := (hlengths j.range (by simp)).1
    obtain ⟨hstart,-,hrest⟩ := htiles
    have hle := hrest.le
    have hbound := h.bounds.1
    omega

end PlannedTo

/-- Planning from a valid frontier cuts the messages up to the observed end into adjacent
windows that leave at most one of them over, queues those whose messages are all stored, and
does nothing when it is called again. -/
theorem plan_tiles_frontier (env : Env) (s : Store) (c : SummaryWindowContext)
    (jobIds : ℕ → String) (observedEnd : ℤ) (strict : Bool) (now clock : Time) (frontier : ℕ)
    (hk : Keyed s) (hu : UniqueSeqs s) (hf : s.validatedFrontier c.sessionId (s.getSummaryEpoch c.sessionId).1
      (s.getSummaryEpoch c.sessionId).2 = some frontier) :
    let out := s.planAndEnqueueWindows env c observedEnd jobIds strict now clock
    (Plannable env c jobIds observedEnd s frontier → Planned out.2) ∧ (¬Planned out.2 → out.1 = s) ∧
      (Planned out.2 → ∃ new high, out.1.jobs = s.jobs++new ∧ Tiles frontier (new.map Job.range) high ∧
        (high : ℤ) ≤ observedEnd ∧ observedEnd ≤ high+1 ∧
        ∀ j ∈ new, j.sessionId = c.sessionId ∧ j.sessionEpoch = (s.getSummaryEpoch c.sessionId).1 ∧
          2 ≤ j.endSeq - j.startSeq ∧ j.endSeq - j.startSeq ≤ max 2 c.windowSize ∧
          (j.status = .queued ↔ SourcePresent s c.sessionId j.startSeq j.endSeq) ∧
          (j.status = .queued → env.sourceWindowDigest
            (s.sourceRows c.sessionId j.startSeq j.endSeq) = some j.sourceDigest)) ∧
      (Planned out.2 → ∀ (again : SummaryWindowContext) (ids : ℕ → String) (observedAgain : ℤ)
        (strict' : Bool) (now' clock' : Time), again.sessionId = c.sessionId → observedAgain ≤ observedEnd →
          (out.1.planAndEnqueueWindows env again observedAgain ids strict' now' clock').1.jobs =
            out.1.jobs) := by
  intro out
  rcases plan_cases env c jobIds now s hu observedEnd strict clock hf
    with ⟨hplanned,high,hto⟩ | ⟨hrefused,hsame,hnot⟩
  · refine ⟨fun _ => hplanned,fun h => absurd hplanned h,fun _ => ?_,fun _ => ?_⟩
    · obtain ⟨new,hjobs,htiles,hlengths,hall⟩ := hto.jobs
      refine ⟨new,high,hjobs,htiles,hto.bounds.1,hto.bounds.2,?_⟩
      intro j hj
      have hp := hall j hj
      have hlength := hlengths j.range (List.mem_map_of_mem hj)
      refine ⟨hp.session,?_,hlength.1,hlength.2,?_,hp.digest⟩
      · rw [hp.epoch,hto.current]
      · rw [hp.status,← sourceComplete_iff hu]
        by_cases hcomplete : sourceComplete (s.sourceRows c.sessionId j.startSeq j.endSeq)
            j.startSeq j.endSeq = true
        · simp
        · simp
    · intro again ids observedAgain strict' now' clock' hsession hend
      have hfrontier := hto.frontier hk hf
      have hbound := hto.bounds.2
      rw [← hsession] at hfrontier
      rcases plan_cases env again ids now' out.1 (hu.of_messages hto.messages) observedAgain
        strict' clock' hfrontier with
        ⟨-,high',hto'⟩ | ⟨-,hsame',-⟩
      · exact hto'.unchanged (by omega)
      · rw [hsame']
  · refine ⟨fun h => absurd h hnot,fun _ => hsame,fun h => absurd h hrefused,
      fun h => absurd h hrefused⟩

def threeMessages : Store :=
  run sampleEnv Store.empty [(sampleMessage "a").at 1,(sampleMessage "a").at 1,
    (sampleMessage "a").at 1]

theorem plan_tiles_frontier_sample :
    (threeMessages.planAndEnqueueWindows sampleEnv (sampleContext "a" 1 0) 3 (fun _ => "j") false
      2 2).1.jobs.map Job.range = [(0,2)] ∧
    ((threeMessages.planAndEnqueueWindows sampleEnv (sampleContext "a" 1 0) 3 (fun _ => "j") false
      2 2).1.planAndEnqueueWindows sampleEnv (sampleContext "a" 1 0) 3 (fun _ => "k") false
        3 3).1.jobs.map Job.range = [(0,2)] := by
  have hranges : (threeMessages.planAndEnqueueWindows sampleEnv (sampleContext "a" 1 0) 3
      (fun _ => "j") false 2 2).1.jobs.map Job.range = [(0,2)] := by decide +kernel
  have hplanned : Planned (threeMessages.planAndEnqueueWindows sampleEnv (sampleContext "a" 1 0) 3
      (fun _ => "j") false 2 2).2 := ⟨_,rfl,.inl (by decide +kernel)⟩
  have hu : UniqueSeqs threeMessages := by
    unfold UniqueSeqs
    decide +kernel
  have h := plan_tiles_frontier sampleEnv threeMessages (sampleContext "a" 1 0) (fun _ => "j") 3
    false 2 2 0 (Keyed.empty.run _ _) hu (by decide +kernel)
  refine ⟨hranges,?_⟩
  rw [h.2.2.2 hplanned (sampleContext "a" 1 0) (fun _ => "k") 3 false 3 3 rfl le_rfl]
  exact hranges

end Memora.Summary

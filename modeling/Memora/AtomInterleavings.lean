import Memora.AtomRuns

/-! Any number of callers run operations statement by statement, and any statement may fail. The
tables stay consistent, a failure takes back what is not committed, and reinforcements are
counted where none commits what another has overtaken. -/
namespace Memora.Atoms
open LockedTransactions RunLaws

variable {ι : Type*} [DecidableEq ι] {lang : Language} {config : AtomConfig}

abbrev AtomWorld (ι : Type*) := World AtomTables AtomCall ι

/-- A caller whose next statement commits a reinforcement has read the stored count. -/
def CommitsCurrent (s : AtomTables) : Caller AtomTables AtomCall → Prop
  | .inside call _ seen _ .commit _ => call.Current seen s
  | _ => True

def Undisturbed (w : AtomWorld ι) : Event AtomCall ι → Prop
  | .call _ call => call.Fresh
  | .step i => CommitsCurrent w.committed (w.callers i)
  | .fail _ => True

def strengthenings (id : ℕ) (commits : List (Commit ι AtomCall)) : ℕ :=
  commits.countP fun c => c.call.target = some id

structure Steady (lang : Language) (config : AtomConfig) (w : AtomWorld ι) : Prop where
  isolated : w.Isolated (atomProgram lang config)
  recorded : w.Recorded
  consistent : w.committed.Consistent
  fresh : ∀ i call n seen, (w.callers i).view = some (call,n,seen) → call.Fresh

variable {w : AtomWorld ι} {e : Event AtomCall ι} {seen : List AtomTables} {call : AtomCall}

lemma Steady.start {s : AtomTables} (hs : s.Consistent) :
    Steady lang config (World.start s : AtomWorld ι) :=
  ⟨.start s,.start s,hs,fun _ _ _ _ h => by cases h⟩

lemma Steady.fresh_next (h : Steady lang config w) (hgood : Undisturbed w e) {i : ι}
    {n : ℕ}
    (hview : ((w.next (atomProgram lang config) e).callers i).view = some (call,n,seen)) :
    call.Fresh := by
  have hmoves : w.ViewMoves (atomProgram lang config) e i (some (call,n,seen)) :=
    hview ▸ w.next_view e i
  generalize hsome : some (call,n,seen) = view at hmoves
  cases hmoves with
  | same => exact h.fresh i call n seen hsome.symm
  | ends => cases hsome
  | begins a he _ =>
    cases hsome
    subst he
    exact hgood
  | reads a m earlier k _ hc =>
    cases hsome
    exact h.fresh i call n earlier (by rw [hc]; rfl)
  | commits a m earlier working rest _ hc _ =>
    cases hsome
    exact h.fresh i call m seen (by rw [hc]; rfl)

lemma Steady.next (h : Steady lang config w) (hgood : Undisturbed w e) :
    Steady lang config (w.next (atomProgram lang config) e) := by
  obtain ⟨hisolated,hmoves⟩ := h.isolated.next e
  refine ⟨hisolated,h.recorded.next h.isolated e,?_,fun i call n seen hview =>
    h.fresh_next hgood hview⟩
  cases hmoves with
  | still hcommitted _ => exact hcommitted.symm ▸ h.consistent
  | commit i call n seen working t rest _ hc hresidual hrun _ =>
    exact (lands hresidual hrun).consistent (h.fresh i call n seen (by rw [hc]; rfl)) h.consistent

lemma Steady.counts (h : Steady lang config w) (hgood : Undisturbed w e) {id : ℕ}
    (hid : id ≤ w.committed.lastId) : ∃ new, (w.next (atomProgram lang config) e).commits =
    w.commits++new ∧
        Kept id (fun n => n+strengthenings id new) w.committed
          (w.next (atomProgram lang config) e).committed := by
  cases (h.isolated.next e).2 with
  | still hcommitted hcommits =>
    refine ⟨[],by rw [hcommits,List.append_nil],?_⟩
    rw [hcommitted]
    exact ⟨le_rfl,fun _ hnone => hnone,fun row hrow => .inr ⟨row,hrow,by simp [strengthenings]⟩⟩
  | commit i call n seen working t rest he hc hresidual hrun hcommits =>
    refine ⟨[⟨i,call,n⟩],hcommits,?_⟩
    have hlands := lands hresidual hrun
    by_cases htarget : call.target = some id
    · have hcurrent : call.Current seen w.committed := by
        subst he
        change CommitsCurrent w.committed (w.callers i) at hgood
        rw [hc] at hgood
        exact hgood
      simpa [strengthenings,htarget] using hlands.kept_target htarget hcurrent
    · simpa [strengthenings,htarget] using hlands.kept htarget hid

lemma Steady.run_counts (h : Steady lang config w) {events : List (Event AtomCall ι)}
    (hgood : Along (World.next (atomProgram lang config)) Undisturbed w events) {id : ℕ}
    (hid : id ≤ w.committed.lastId) : ∃ new,
      (events.foldl (World.next (atomProgram lang config)) w).commits = w.commits++new ∧
        Kept id (fun n => n+strengthenings id new) w.committed
          (events.foldl (World.next (atomProgram lang config)) w).committed := by
  induction events generalizing w with
  | nil =>
    exact ⟨[],(List.append_nil _).symm,le_rfl,fun _ hnone => hnone,
      fun row hrow => .inr ⟨row,hrow,by simp [strengthenings]⟩⟩
  | cons e events ih =>
    obtain ⟨first,hfirst,hkept⟩ := h.counts hgood.1 hid
    obtain ⟨rest,hrest,hkept'⟩ := ih (h.next hgood.1) hgood.2 (hid.trans hkept.lastId)
    refine ⟨first++rest,?_,?_⟩
    · rw [List.foldl_cons,hrest,hfirst,List.append_assoc]
    · have hboth := hkept.trans hkept' hid
      have hsum : (fun n : ℤ => n+strengthenings id (first++rest)) =
          (fun n : ℤ => n+strengthenings id rest) ∘ fun n : ℤ => n+strengthenings id first := by
        funext n
        simp only [strengthenings,List.countP_append,Function.comp_apply]
        push_cast
        ring
      rw [hsum]
      exact hboth

def runStore (lang : Language) (config : AtomConfig) (s : AtomTables)
    (events : List (Event AtomCall ι)) : AtomWorld ι :=
  events.foldl (World.next (atomProgram lang config)) (World.start s)

structure Settled (lang : Language) (config : AtomConfig) (call : AtomCall) (n : ℕ)
    (seen : List AtomTables) (s s' : AtomTables) : Prop where
  lands : Lands lang config n seen s s' call
  inserted : ∀ atoms, call = .insertMany atoms → ∃ batch rows, (batches atoms)[n]? = some batch ∧
    prepareRows lang config batch = .ok rows ∧ Appended rows s s'
  replaced : ∀ parent atoms, call = .replaceByParent parent atoms → ∃ rows,
    prepareRows lang config atoms = .ok rows ∧ Replaced parent rows s s'

lemma Lands.settled {n : ℕ} {s s' : AtomTables} (h : Lands lang config n seen s s' call)
    (hs : s.Consistent) :
    Settled lang config call n seen s s' := by
  refine ⟨h,?_,?_⟩
  · rintro atoms rfl
    obtain ⟨batch,rows,hbatch,hrows,rfl⟩ := h
    exact ⟨batch,rows,hbatch,hrows,appended_addAtoms rows s⟩
  · rintro parent atoms rfl
    obtain ⟨-,hparent,rows,hrows,rfl⟩ := h
    exact ⟨rows,hrows,replaced_addAtoms hs hparent hrows⟩

/-- Whatever is called, however the callers interleave and wherever they fail: the tables are
consistent, the commits of a call under way are its transactions in order, an event changes
nothing or commits the next one as a whole, and the count of a stored atom has grown by the
reinforcements committed in between. -/
theorem undisturbed_runs (lang : Language) (config : AtomConfig) {s : AtomTables}
    (hs : s.Consistent) (earlier later : List (Event AtomCall ι))
    (hgood : Along (World.next (atomProgram lang config)) Undisturbed (World.start s) (earlier++later)) :
    (runStore lang config s earlier).committed.Consistent ∧
    (runStore lang config s earlier).Recorded ∧
      (∀ e, ((runStore lang config s (earlier++[e])).committed = (runStore lang config s earlier).committed ∧
          (runStore lang config s (earlier++[e])).commits = (runStore lang config s earlier).commits) ∨
        ∃ i call n seen, e = .step i ∧ ((runStore lang config s earlier).callers i).view = some (call,n,seen) ∧
          (runStore lang config s (earlier++[e])).commits =
            (runStore lang config s earlier).commits++[⟨i,call,n⟩] ∧
          Settled lang config call n seen (runStore lang config s earlier).committed
            (runStore lang config s (earlier++[e])).committed) ∧
      ∀ id row row', (runStore lang config s earlier).committed.row? id = some row →
        (runStore lang config s (earlier++later)).committed.row? id = some row' →
        row'.reinforcementCount = row.reinforcementCount +
          strengthenings id ((runStore lang config s (earlier++later)).commits.drop
            (runStore lang config s earlier).commits.length) := by
  obtain ⟨hearlier,hlater⟩ := along_append.mp hgood
  have hsteady : Steady lang config (runStore lang config s earlier) :=
    along_invariant (P := Steady lang config) (fun _ _ hgood h => h.next hgood) (.start hs) hearlier
  refine ⟨hsteady.consistent,hsteady.recorded,?_,?_⟩
  · intro e
    have hnext : runStore lang config s (earlier++[e]) =
        (runStore lang config s earlier).next (atomProgram lang config) e := by
      simp [runStore]
    rw [hnext]
    cases (hsteady.isolated.next e).2 with
    | still hcommitted hcommits => exact .inl ⟨hcommitted,hcommits⟩
    | commit i call n seen working t rest he hc hresidual hrun hcommits =>
      have hsettled := (lands hresidual hrun).settled hsteady.consistent
      exact .inr ⟨i,call,n,seen,he,by rw [hc]; rfl,hcommits,hsettled⟩
  · intro id row row' hrow hrow'
    have hid := hsteady.consistent.le_lastId hrow
    obtain ⟨new,hnew,hkept⟩ := hsteady.run_counts hlater hid
    have happend : runStore lang config s (earlier++later) =
        later.foldl (World.next (atomProgram lang config)) (runStore lang config s earlier) :=
      List.foldl_append
    rw [happend] at hrow' ⊢
    rw [hnew,List.drop_left]
    rcases hkept.stays row hrow with hnone | ⟨after,hafter,hcount⟩
    · cases hnone.symm.trans hrow'
    · cases hafter.symm.trans hrow'
      exact hcount

/-- What a call sweeps, in batches of which size, and what becomes of it. -/
def AtomCall.sweep : AtomCall → Option ((ℕ × AtomRow → Bool) × ℤ ×
    (List ℕ → AtomTables → AtomTables))
  | .cleanupForgotten now olderThanDays batchSize =>
    some (stale .forgotten (now - olderThanDays * 86400),batchSize,AtomTables.removeIds)
  | .forgetExpiredAtoms now olderThanDays batchSize =>
    some (stale .expired (now - olderThanDays * 86400),batchSize,AtomTables.forgetIds)
  | .deleteByParent parent batchSize =>
    some (fun e => e.2.parentMemoryId = parent,batchSize,AtomTables.removeIds)
  | _ => none

/-- However the callers interleave: a sweep that commits takes the rows it selected at the outset
and those to be swept by then, and of these no row is left. -/
theorem sweeps_leave_nothing (lang : Language) (config : AtomConfig) (s : AtomTables)
    (events : List (Event AtomCall ι)) (e : Event AtomCall ι) {i : ι} {n : ℕ}
    {p : ℕ × AtomRow → Bool}
    {limit : ℤ} {take : List ℕ → AtomTables → AtomTables}
    (hsweep : call.sweep = some (p,limit,take))
    (hcommit : (runStore lang config s (events++[e])).commits =
      (runStore lang config s events).commits++[⟨i,call,n⟩]) :
    ∃ before ids, ((runStore lang config s events).callers i).view = some (call,n,[before]) ∧
      (runStore lang config s (events++[e])).committed = take ids (runStore lang config s events).committed ∧
      Swept p limit before ids (runStore lang config s events).committed
        (runStore lang config s (events++[e])).committed := by
  have hisolated : (runStore lang config s events).Isolated (atomProgram lang config) :=
    List.foldlRecOn events _ (.start s) fun _ h e _ => (h.next e).1
  have hnext : runStore lang config s (events++[e]) =
      (runStore lang config s events).next (atomProgram lang config) e := by
    simp [runStore]
  rw [hnext] at hcommit ⊢
  cases (hisolated.next e).2 with
  | still _ hcommits => simp [hcommits] at hcommit
  | commit j a m seen working t rest he hc hresidual hrun hcommits =>
    cases List.append_cancel_left (hcommits.symm.trans hcommit)
    rw [hc]
    cases call with
    | cleanupForgotten | deleteByParent =>
      cases hsweep
      obtain ⟨before,ids,rfl,hswept⟩ := swept removeIds_nil removeIds_removeIds removeIds_left hresidual hrun
      exact ⟨before,ids,rfl,hswept⟩
    | forgetExpiredAtoms =>
      cases hsweep
      obtain ⟨before,ids,rfl,hswept⟩ := swept forgetIds_nil forgetIds_forgetIds forgetIds_left hresidual hrun
      exact ⟨before,ids,rfl,hswept⟩
    | insertMany | replaceByParent | reinforce | expireStaleAtoms | migrateToCold => cases hsweep

instance : (call : AtomCall) → Decidable call.Fresh
  | .insertMany atoms => inferInstanceAs (Decidable (∀ a ∈ atoms, a.2.status ≠ .forgotten))
  | .replaceByParent _ atoms => inferInstanceAs (Decidable (∀ a ∈ atoms, a.2.status ≠ .forgotten))
  | .reinforce .. | .expireStaleAtoms _ | .cleanupForgotten .. | .forgetExpiredAtoms ..
  | .migrateToCold .. | .deleteByParent .. => .isTrue trivial

instance (seen : List AtomTables) (s : AtomTables) : (call : AtomCall) →
    Decidable (call.Current seen s)
  | .reinforce id _ _ => inferInstanceAs (Decidable (∀ before ∈ seen, ∀ row ∈ before.row? id,
      ∀ row' ∈ s.row? id, row'.reinforcementCount = row.reinforcementCount))
  | .insertMany _ | .replaceByParent .. | .expireStaleAtoms _ | .cleanupForgotten ..
  | .forgetExpiredAtoms .. | .migrateToCold .. | .deleteByParent .. => .isTrue trivial

instance (s : AtomTables) : (c : Caller AtomTables AtomCall) → Decidable (CommitsCurrent s c)
  | .inside call _ seen _ .commit _ => inferInstanceAs (Decidable (call.Current seen s))
  | .inside _ _ _ _ .raise _ | .inside _ _ _ _ (.select _) _ | .inside _ _ _ _ (.change ..) _
  | .idle | .outside .. => .isTrue trivial

instance (w : AtomWorld ι) : (e : Event AtomCall ι) → Decidable (Undisturbed w e)
  | .call _ call => inferInstanceAs (Decidable call.Fresh)
  | .step i => inferInstanceAs (Decidable (CommitsCurrent w.committed (w.callers i)))
  | .fail _ => .isTrue trivial

def plainLanguage : Language := ⟨fun _ => none,fun _ => none,fun _ => ""⟩

def sampleTables : AtomTables where
  rows := [(1,MemoryAtom.row
    { parentMemoryId := 7, content := "likes tea", createdAt := 0, lastAccessedAt := 0 })]
  fts := [(1,"likes tea")]
  lastId := 1

lemma sampleTables_consistent : sampleTables.Consistent :=
  ⟨by decide +kernel,by decide,by decide⟩

/-- The second reinforcement follows on the first one; a deletion fails in between. -/
def sampleOrder : List (Event AtomCall Bool) :=
  [.call false (.reinforce 1 10 none),.step false,.step false,.step false,.step false,
    .call false (.deleteByParent 7 500),.step false,.step false,.step false,.fail false,
    .call true (.reinforce 1 20 none),.step true,.step true,.step true,.step true]

theorem undisturbed_runs_sample : ∃ row,
    (runStore plainLanguage {} sampleTables sampleOrder).committed.row? 1 = some row ∧
      row.reinforcementCount = 2 := by
  have h := undisturbed_runs plainLanguage {} sampleTables_consistent [] sampleOrder
    (by decide +kernel)
  have hrow : (runStore plainLanguage {} sampleTables sampleOrder).committed.row? 1 ≠ none := by
    decide +kernel
  obtain ⟨row,hrow⟩ := Option.ne_none_iff_exists'.mp hrow
  exact ⟨row,hrow,h.2.2.2 1 _ row rfl hrow⟩

def overtakenOrder : List (Event AtomCall Bool) :=
  [.call false (.reinforce 1 10 none),.call true (.reinforce 1 10 none),.step false,.step true,
    .step false,.step false,.step false,.step true,.step true,.step true]

/-- Two reinforcements are committed, and the count has grown by one. -/
theorem overtaken_reinforcement :
    strengthenings 1 (runStore plainLanguage {} sampleTables overtakenOrder).commits = 2 ∧
      (sampleTables.row? 1).map AtomRow.reinforcementCount = some 0 ∧
      ((runStore plainLanguage {} sampleTables overtakenOrder).committed.row? 1).map
        AtomRow.reinforcementCount = some 1 := by
  decide +kernel

def atomOf (parent : ℕ) (content : String) : AtomRow :=
  MemoryAtom.row { parentMemoryId := parent, content, createdAt := 0, lastAccessedAt := 0 }

def sweptTables : AtomTables where
  rows := [(1,atomOf 7 "likes tea"),(2,atomOf 8 "has a cat"),(3,atomOf 7 "lives in Rome")]
  fts := [(1,"likes tea"),(2,"has a cat"),(3,"lives in Rome")]
  lastId := 3

/-- A deletion in batches of one, which another caller waits for. -/
def sweepOrder : List (Event AtomCall Bool) :=
  [.call false (.deleteByParent 7 1),.call true (.reinforce 2 10 none),.step true,.step false]++
    List.replicate 8 (.step false)

theorem sweeps_leave_nothing_sample :
    (runStore plainLanguage {} sweptTables (sweepOrder++[.step false])).committed.childIds
    7 = [] := by
  have hsweep : (AtomCall.deleteByParent 7 1).sweep = some _ := rfl
  obtain ⟨_,_,-,-,hswept⟩ := sweeps_leave_nothing plainLanguage {} sweptTables sweepOrder
    (.step false) hsweep rfl
  exact List.map_eq_nil_iff.mpr hswept.left

end Memora.Atoms

import Memora.AtomTransactions
import Memora.ListLaws
import Memora.RunLaws

/-! Any number of callers, interleaved statement by statement and failing anywhere. The tables stay
consistent, every commit is one whole step of its operation, and reinforcements are counted
where no two of them on the same atom overlap. -/
namespace Memora.Atoms
open LockedTransactions RunLaws

variable {lang : Language} {config : AtomConfig} {s s' : AtomTables}

/-- What the commit of an operation makes of the tables, given the commits it made before and
the states it has read. -/
def Lands (lang : Language) (config : AtomConfig) (n : ℕ) (seen : List AtomTables)
    (s s' : AtomTables) : AtomCall → Prop
  | .insertMany atoms => ∃ batch rows, (batches atoms)[n]? = some batch ∧
      prepareRows lang config batch = .ok rows ∧ s' = s.addAtoms rows
  | .replaceByParent parent atoms => n = 0 ∧ (∀ a ∈ atoms, a.2.parentMemoryId = parent) ∧
      ∃ rows, prepareRows lang config atoms = .ok rows ∧ s' = (s.removeIds (s.childIds parent)).addAtoms rows
  | .reinforce id now newConfidence => n = 0 ∧ ∃ before row u, seen = [before] ∧
      before.row? id = some row ∧ reinforced lang config now newConfidence row = .ok u ∧
      s' = s.updateRows (fun e => e.1 = id) (·.reinforce u)
  | .expireStaleAtoms now => n = 0 ∧ s' = s.updateRows (stale .active now) (·.setStatus .expired)
  | .cleanupForgotten _ _ _ => n = 0 ∧ ∃ ids, s' = s.removeIds ids
  | .forgetExpiredAtoms _ _ _ => n = 0 ∧ ∃ ids, s' = s.forgetIds ids
  | .migrateToCold now coldDaysThreshold maxImportance => n = 0 ∧
      s' = s.updateRows (coldCandidate (now - coldDaysThreshold * 86400) maxImportance) (·.setStatus .cold)
  | .deleteByParent _ _ => n = 0 ∧ ∃ ids, s' = s.removeIds ids

variable {seen : List AtomTables} {rest : Program AtomTables} {n : ℕ} {t : Transaction AtomTables}

lemma residual_insertBatches {l : List (List TimedAtom)}
    (h : Residual (insertBatches lang config l) n seen (.write t rest)) :
    ∃ batch, l[n]? = some batch ∧ t = insertBatch lang config batch := by
  induction l generalizing n with
  | nil => cases (residual_done h).2.2
  | cons batch l ih =>
    rcases residual_write h with ⟨rfl,-,hq⟩ | ⟨m,rfl,hm⟩
    · cases hq
      exact ⟨batch,rfl,rfl⟩
    · simpa using ih hm

lemma residual_single {t t' : Transaction AtomTables}
    (h : Residual (.write t .done) n seen (.write t' rest)) : n = 0 ∧ seen = [] ∧ t' = t := by
  rcases residual_write h with ⟨rfl,rfl,hq⟩ | ⟨m,-,hm⟩
  · cases hq
    exact ⟨rfl,rfl,rfl⟩
  · cases (residual_done hm).2.2

variable {id : ℕ} {newConfidence : Option ℚ} {now : ℚ}

lemma residual_reinforce
    (h : Residual (reinforceProgram lang config id now newConfidence) n seen (.write t rest)) :
    n = 0 ∧ rest = .done ∧ ∃ before row u, seen = [before] ∧ before.row? id = some row ∧
      reinforced lang config now newConfidence row = .ok u ∧
      t = .change (·.updateRows (fun e => e.1 = id) (·.reinforce u)) .commit := by
  rcases residual_read h with ⟨-,-,hq⟩ | ⟨before,later,rfl,hlater⟩
  · cases hq
  · cases hrow : before.row? id with
    | none =>
      rw [hrow] at hlater
      cases (residual_done hlater).2.2
    | some row =>
      rw [hrow] at hlater
      cases hu : reinforced lang config now newConfidence row with
      | error e =>
        simp only [hu] at hlater
        cases (residual_raise hlater).2.2
      | ok u =>
        simp only [hu] at hlater
        rcases residual_write hlater with ⟨rfl,rfl,hq⟩ | ⟨m,-,hm⟩
        · cases hq
          exact ⟨rfl,rfl,before,row,u,rfl,hrow,hu,rfl⟩
        · cases (residual_done hm).2.2

variable {call : AtomCall} {row : AtomRow} {atoms : List TimedAtom}

lemma lands (h : Residual (atomProgram lang config call) n seen (.write t rest))
    (hrun : t.run s = some s') : Lands lang config n seen s s' call := by
  cases call with
  | insertMany atoms =>
    obtain ⟨batch,hbatch,rfl⟩ := residual_insertBatches h
    obtain ⟨rows,hrows,hs'⟩ := run_insertBatch hrun
    exact ⟨batch,rows,hbatch,hrows,hs'⟩
  | replaceByParent parent atoms =>
    obtain ⟨hn,-,rfl⟩ := residual_single h
    exact ⟨hn,run_replaceTransaction hrun⟩
  | reinforce id now newConfidence =>
    obtain ⟨hn,-,before,row,u,hseen,hrow,hu,rfl⟩ := residual_reinforce h
    exact ⟨hn,before,row,u,hseen,hrow,hu,(Option.some.inj hrun).symm⟩
  | expireStaleAtoms | migrateToCold =>
    obtain ⟨hn,-,rfl⟩ := residual_single h
    exact ⟨hn,(Option.some.inj hrun).symm⟩
  | cleanupForgotten | deleteByParent =>
    exact run_sweep removeIds_nil removeIds_removeIds h hrun
  | forgetExpiredAtoms now olderThanDays batchSize =>
    exact run_sweep forgetIds_nil forgetIds_forgetIds h hrun

def AtomCall.Fresh : AtomCall → Prop
  | .insertMany atoms => ∀ a ∈ atoms, a.2.status ≠ .forgotten
  | .replaceByParent _ atoms => ∀ a ∈ atoms, a.2.status ≠ .forgotten
  | _ => True

lemma insertedRow_fields {a : MemoryAtom} (h : insertedRow lang config now a = .ok row) :
    row.status = a.status ∧ row.parentMemoryId = a.parentMemoryId := by
  unfold insertedRow at h
  cases hprepared : prepareAtomForInsert lang config now a with
  | error e => rw [hprepared] at h; cases h
  | ok prepared =>
    rw [hprepared] at h
    cases h
    unfold prepareAtomForInsert at hprepared
    split at hprepared
    · cases hprepared
    · obtain ⟨personaModifier,-,hrest⟩ := ExceptLaws.bind_ok hprepared
      obtain ⟨emotionalIntensity,-,hrest⟩ := ExceptLaws.bind_ok hrest
      cases hrest
      exact ⟨rfl,rfl⟩

lemma prepareRows_fresh {rows : List AtomRow}
    (h : prepareRows lang config atoms = .ok rows) (hfresh : ∀ a ∈ atoms, a.2.status ≠ .forgotten) :
    ∀ row ∈ rows, row.status ≠ .forgotten := by
  intro row hrow
  obtain ⟨a,ha,hinserted⟩ := ExceptLaws.mapM_ok h row hrow
  rw [(insertedRow_fields hinserted).1]
  exact hfresh a ha

lemma flatten_batches {β : Type*} (l : List β) : (batches l).flatten = l := by
  refine ListLaws.flatten_slices ?_
  unfold sqliteBatchSize
  omega

lemma Lands.consistent (h : Lands lang config n seen s s' call) (hfresh : call.Fresh)
    (hs : s.Consistent) :
    s'.Consistent := by
  cases call with
  | insertMany atoms =>
    obtain ⟨batch,rows,hbatch,hrows,rfl⟩ := h
    refine hs.addAtoms (prepareRows_fresh hrows fun a ha => hfresh a ?_)
    rw [← flatten_batches atoms]
    exact List.mem_flatten.mpr ⟨batch,List.mem_of_getElem? hbatch,ha⟩
  | replaceByParent parent atoms =>
    obtain ⟨-,-,rows,hrows,rfl⟩ := h
    exact (hs.removeIds _).addAtoms (prepareRows_fresh hrows hfresh)
  | reinforce id now newConfidence =>
    obtain ⟨-,before,row,u,-,-,-,rfl⟩ := h
    exact hs.updateRows (fun _ _ => rfl) fun _ => rfl
  | expireStaleAtoms now =>
    obtain ⟨-,rfl⟩ := h
    refine hs.updateRows ?_ fun _ => rfl
    intro e he
    have hactive : e.2.status = .active := of_decide_eq_true (Bool.and_eq_true_iff.mp he).1
    simp [searchable,AtomRow.setStatus,hactive]
  | cleanupForgotten | deleteByParent =>
    obtain ⟨-,ids,rfl⟩ := h
    exact hs.removeIds ids
  | forgetExpiredAtoms now olderThanDays batchSize =>
    obtain ⟨-,ids,rfl⟩ := h
    exact hs.forgetIds ids
  | migrateToCold now coldDaysThreshold maxImportance =>
    obtain ⟨-,rfl⟩ := h
    refine hs.updateRows ?_ fun _ => rfl
    intro e he
    have hactive : e.2.status = .active :=
      of_decide_eq_true (Bool.and_eq_true_iff.mp (Bool.and_eq_true_iff.mp he).1).1
    simp [searchable,AtomRow.setStatus,hactive]

variable (rows : List AtomRow)

def Appended (s s' : AtomTables) : Prop :=
  ∃ new, new.map Prod.snd = rows ∧ s'.rows = s.rows++new ∧ s'.fts = s.fts++new.map fun e =>
    (e.1,e.2.content)

lemma appended_addAtoms (s : AtomTables) : Appended rows s (s.addAtoms rows) := by
  induction rows generalizing s with
  | nil => exact ⟨[],rfl,(List.append_nil _).symm,(List.append_nil _).symm⟩
  | cons row rows ih =>
    obtain ⟨new,hnew,hrows,hfts⟩ := ih (s.addAtom row)
    refine ⟨(s.lastId+1,row)::new,by rw [List.map_cons,hnew],?_,?_⟩
    · exact hrows.trans (List.append_assoc _ _ _)
    · exact hfts.trans (List.append_assoc _ _ _)

structure Replaced (parent : ℕ) (rows : List AtomRow) (s s' : AtomTables) : Prop where
  children : (s'.rows.filter fun e => e.2.parentMemoryId = parent).map Prod.snd = rows
  others : (s'.rows.filter fun e => e.2.parentMemoryId ≠ parent) =
    s.rows.filter fun e => e.2.parentMemoryId ≠ parent

lemma removeIds_childIds (hs : s.Consistent) (parent : ℕ) :
    (s.removeIds (s.childIds parent)).rows = s.rows.filter fun e => e.2.parentMemoryId ≠ parent := by
  refine List.filter_congr ?_
  intro e he
  rw [decide_eq_decide,not_iff_not]
  constructor
  · intro hmem
    obtain ⟨e',he',hid⟩ := List.mem_map.mp hmem
    obtain ⟨hstored,hparent⟩ := List.mem_filter.mp he'
    obtain rfl : e' = e := List.inj_on_of_nodup_map hs.nodup hstored he hid
    exact of_decide_eq_true hparent
  · intro hparent
    exact List.mem_map_of_mem (List.mem_filter.mpr ⟨he,decide_eq_true hparent⟩)

lemma replaced_addAtoms {parent : ℕ} {rows : List AtomRow}
    (hs : s.Consistent) (hparent : ∀ a ∈ atoms, a.2.parentMemoryId = parent)
    (hrows : prepareRows lang config atoms = .ok rows) :
    Replaced parent rows s ((s.removeIds (s.childIds parent)).addAtoms rows) := by
  obtain ⟨new,hnew,hafter,-⟩ := appended_addAtoms rows (s.removeIds (s.childIds parent))
  have hchild : ∀ e ∈ new, e.2.parentMemoryId = parent := by
    intro e he
    have hrow : e.2 ∈ rows := hnew ▸ List.mem_map_of_mem he
    obtain ⟨a,ha,hinserted⟩ := ExceptLaws.mapM_ok hrows e.2 hrow
    rw [(insertedRow_fields hinserted).2]
    exact hparent a ha
  rw [removeIds_childIds hs] at hafter
  refine ⟨?_,?_⟩
  · rw [hafter,List.filter_append,List.filter_filter,← hnew]
    have hold : (s.rows.filter fun e => decide (e.2.parentMemoryId = parent) &&
        decide (e.2.parentMemoryId ≠ parent)) = [] := by
      rw [List.filter_eq_nil_iff]
      intro e _
      simp
    rw [hold,List.nil_append,List.filter_eq_self.mpr]
    intro e he
    exact decide_eq_true (hchild e he)
  · rw [hafter,List.filter_append,List.filter_filter]
    have hadded : (new.filter fun e => e.2.parentMemoryId ≠ parent) = [] := by
      rw [List.filter_eq_nil_iff]
      intro e he
      simp [hchild e he]
    rw [hadded,List.append_nil]
    simp

/-- The atom's count after a commit, where the atom is still stored. Ids that were given out do
not come back. -/
structure Kept (id : ℕ) (count : ℤ → ℤ) (s s' : AtomTables) : Prop where
  lastId : s.lastId ≤ s'.lastId
  gone : id ≤ s.lastId → s.row? id = none → s'.row? id = none
  stays : ∀ row, s.row? id = some row → s'.row? id = none ∨
    ∃ row', s'.row? id = some row' ∧ row'.reinforcementCount = count row.reinforcementCount

lemma Kept.trans {f g : ℤ → ℤ} {s₁ s₂ s₃ : AtomTables} (h : Kept id f s₁ s₂)
    (h' : Kept id g s₂ s₃) (hid : id ≤ s₁.lastId) : Kept id (g ∘ f) s₁ s₃ := by
  refine ⟨h.lastId.trans h'.lastId,?_,?_⟩
  · intro _ hnone
    exact h'.gone (hid.trans h.lastId) (h.gone hid hnone)
  · intro row hrow
    rcases h.stays row hrow with hnone | ⟨row',hrow',hcount⟩
    · exact .inl (h'.gone (hid.trans h.lastId) hnone)
    · rcases h'.stays row' hrow' with hnone | ⟨row'',hrow'',hcount'⟩
      · exact .inl hnone
      · exact .inr ⟨row'',hrow'',by rw [hcount',hcount,Function.comp_apply]⟩

lemma AtomTables.Consistent.le_lastId (hs : s.Consistent) (h : s.row? id = some row) :
    id ≤ s.lastId := by
  obtain ⟨e,he,-⟩ := Option.map_eq_some_iff.mp h
  have hid : e.1 = id := by simpa using List.find?_some he
  exact hid ▸ hs.bounded e (List.mem_of_find?_eq_some he)

lemma row?_insertRow (s : AtomTables) (row : AtomRow) (id : ℕ) :
    (s.addAtom row).row? id = (s.row? id).or (if s.lastId+1 = id then some row else none) := by
  unfold AtomTables.row? AtomTables.addAtom AtomTables.insertRow AtomTables.insertFts
  rw [List.find?_append]
  cases hfind : s.rows.find? fun e => e.1 = id with
  | some e => rfl
  | none => by_cases hid : s.lastId+1 = id <;> simp

lemma kept_addAtoms (s : AtomTables) (id : ℕ) : Kept id (fun n => n) s (s.addAtoms rows) := by
  induction rows generalizing s with
  | nil => exact ⟨le_rfl,fun _ h => h,fun row h => .inr ⟨row,h,rfl⟩⟩
  | cons row rows ih =>
    have hfirst : s.lastId ≤ (s.addAtom row).lastId := Nat.le_succ _
    have hrest := ih (s.addAtom row)
    refine ⟨hfirst.trans hrest.lastId,?_,?_⟩
    · intro hid hnone
      refine hrest.gone (hid.trans hfirst) ?_
      rw [row?_insertRow,hnone,if_neg (by omega)]
      rfl
    · intro old hold
      refine hrest.stays old ?_
      rw [row?_insertRow,hold]
      rfl

lemma kept_removeIds (ids : List ℕ) (s : AtomTables) (id : ℕ) :
    Kept id (fun n => n) s (s.removeIds ids) := by
  have hrow : (s.removeIds ids).row? id = if id ∈ ids then none else s.row? id := by
    unfold AtomTables.row? AtomTables.removeIds AtomTables.deleteRows AtomTables.deleteFts
    rw [List.find?_filter]
    by_cases hid : id ∈ ids
    · rw [if_pos hid,Option.map_eq_none_iff,List.find?_eq_none]
      intro e _ he
      have hboth := of_decide_eq_true he
      simp only [decide_eq_true_eq] at hboth
      exact hboth.1 (hboth.2 ▸ hid)
    · rw [if_neg hid]
      congr 2
      funext e
      by_cases he : e.1 = id <;> simp [he,hid]
  refine ⟨le_rfl,?_,?_⟩
  · intro _ hnone
    rw [hrow,hnone]
    split <;> rfl
  · intro row hsome
    rw [hrow,hsome]
    by_cases hid : id ∈ ids
    · exact .inl (if_pos hid)
    · exact .inr ⟨row,if_neg hid,rfl⟩

lemma row?_updateRows (s : AtomTables) (p : ℕ × AtomRow → Bool) (f : AtomRow → AtomRow) (id : ℕ) :
    (s.updateRows p f).row? id = (s.row? id).map fun row => if p (id,row) then f row else row := by
  unfold AtomTables.row? AtomTables.updateRows
  induction s.rows with
  | nil => rfl
  | cons e rows ih =>
    rw [List.map_cons,List.find?_cons,List.find?_cons]
    have hkey : (if p e then (e.1,f e.2) else e).1 = e.1 := by split <;> rfl
    rw [hkey]
    by_cases he : e.1 = id
    · subst he
      by_cases hp : p e = true <;> simp [hp]
    · simpa [he] using ih

lemma kept_updateRows {p : ℕ × AtomRow → Bool} {f : AtomRow → AtomRow} {count : ℤ → ℤ}
    (s : AtomTables)
    (h : ∀ row, (if p (id,row) then f row else row).reinforcementCount = count row.reinforcementCount) :
    Kept id count s (s.updateRows p f) := by
  refine ⟨le_rfl,?_,?_⟩
  · intro _ hnone
    rw [row?_updateRows,hnone]
    rfl
  · intro row hrow
    rw [row?_updateRows,hrow]
    exact .inr ⟨_,rfl,h row⟩

lemma reinforced_count {u : Reinforced}
    (h : reinforced lang config now newConfidence row = .ok u) :
    u.count = row.reinforcementCount+1 := by
  obtain ⟨personaModifier,-,hrest⟩ := ExceptLaws.bind_ok h
  obtain ⟨emotionalIntensity,-,hrest⟩ := ExceptLaws.bind_ok hrest
  cases hrest
  rfl

def AtomCall.target : AtomCall → Option ℕ
  | .reinforce id _ _ => some id
  | _ => none

theorem Lands.kept (h : Lands lang config n seen s s' call) (hid : call.target ≠ some id)
    (hle : id ≤ s.lastId) : Kept id (fun n => n) s s' := by
  have hstatus : ∀ (p : ℕ × AtomRow → Bool) (status : AtomStatus) (t : AtomTables),
      Kept id (fun n => n) t (t.updateRows p (·.setStatus status)) := by
    intro p status t
    refine kept_updateRows t ?_
    intro row
    split <;> rfl
  cases call with
  | insertMany atoms =>
    obtain ⟨batch,rows,-,-,rfl⟩ := h
    exact kept_addAtoms rows s id
  | replaceByParent parent atoms =>
    obtain ⟨-,-,rows,-,rfl⟩ := h
    have hremoved := kept_removeIds (s.childIds parent) s id
    have hadded := kept_addAtoms rows (s.removeIds (s.childIds parent)) id
    exact hremoved.trans hadded hle
  | reinforce target now newConfidence =>
    obtain ⟨-,before,row,u,-,-,-,rfl⟩ := h
    refine kept_updateRows s ?_
    intro row
    rw [if_neg]
    intro heq
    exact hid (congrArg some (of_decide_eq_true heq).symm)
  | expireStaleAtoms | migrateToCold =>
    obtain ⟨-,rfl⟩ := h
    exact hstatus _ _ s
  | cleanupForgotten | deleteByParent =>
    obtain ⟨-,ids,rfl⟩ := h
    exact kept_removeIds ids s id
  | forgetExpiredAtoms now olderThanDays batchSize =>
    obtain ⟨-,ids,rfl⟩ := h
    have hmarked := hstatus (fun e => e.1 ∈ ids) .forgotten (s.deleteFts ids)
    exact ⟨hmarked.lastId,hmarked.gone,hmarked.stays⟩

def AtomCall.Current (seen : List AtomTables) (s : AtomTables) : AtomCall → Prop
  | .reinforce id _ _ => ∀ before ∈ seen, ∀ row ∈ before.row? id, ∀ row' ∈ s.row? id,
      row'.reinforcementCount = row.reinforcementCount
  | _ => True

lemma Lands.counts_iff
    (h : Lands lang config n seen s s' (.reinforce id now newConfidence))
    (hrow : s.row? id = some row) :
    (∃ row', s'.row? id = some row' ∧ row'.reinforcementCount = row.reinforcementCount+1) ↔
      (AtomCall.reinforce id now newConfidence).Current seen s := by
  obtain ⟨-,before,old,u,rfl,hold,hu,rfl⟩ := h
  have hcount := reinforced_count hu
  have hafter : (s.updateRows (fun e => e.1 = id) (·.reinforce u)).row? id = some (row.reinforce u) := by
    rw [row?_updateRows,hrow,Option.map_some,if_pos (decide_eq_true rfl)]
  rw [hafter]
  constructor
  · rintro ⟨row',hrow',hgrown⟩ before' hbefore' old' hold' current hcurrent
    cases hrow'
    obtain rfl := List.mem_singleton.mp hbefore'
    cases hold.symm.trans hold'
    cases hrow.symm.trans hcurrent
    have hset : u.count = row.reinforcementCount+1 := hgrown
    omega
  · intro hcurrent
    have heq := hcurrent before (by simp) old hold row hrow
    refine ⟨_,rfl,?_⟩
    change u.count = _
    omega

lemma Lands.kept_target (h : Lands lang config n seen s s' call) (hid : call.target = some id)
    (hcurrent : call.Current seen s) : Kept id (fun n => n+1) s s' := by
  cases call with
  | reinforce target now newConfidence =>
    cases hid
    have hcounts : ∀ row, s.row? id = some row → ∃ row', s'.row? id = some row' ∧
        row'.reinforcementCount = row.reinforcementCount+1 :=
      fun row hrow => (Lands.counts_iff h hrow).mpr hcurrent
    obtain ⟨-,before,old,u,-,-,-,rfl⟩ := h
    refine ⟨le_rfl,?_,?_⟩
    · intro _ hnone
      rw [row?_updateRows,hnone]
      rfl
    · intro row hrow
      exact .inr (hcounts row hrow)
  | _ => cases hid

end Memora.Atoms

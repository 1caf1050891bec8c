import Memora.AtomTables

/-! Every transaction of the store adds atoms, removes or forgets atoms together with their
full-text rows, or updates columns. All of it keeps the tables consistent, and only a
reinforcement changes a count. -/
namespace Memora.Atoms
open LockedTransactions

variable {lang : Language} {config : AtomConfig} {s s' : AtomTables} {ids : List ℕ}

lemma AtomTables.Consistent.addAtom (h : s.Consistent) {row : AtomRow}
    (hrow : row.status ≠ .forgotten) : (s.addAtom row).Consistent := by
  have hsearch : searchable (s.lastId+1,row) = true := decide_eq_true hrow
  have hnew : s.lastId+1 ∉ s.rows.map Prod.fst := by
    intro hmem
    obtain ⟨e,he,hid⟩ := List.mem_map.mp hmem
    have hle := h.bounded e he
    omega
  refine ⟨?_,?_,?_⟩
  · simp [AtomTables.addAtom,AtomTables.insertRow,AtomTables.insertFts,h.fts_eq,hsearch]
  · simp only [AtomTables.addAtom,AtomTables.insertRow,AtomTables.insertFts,List.map_append,
      List.map_cons,List.map_nil]
    rw [List.nodup_append]
    refine ⟨h.nodup,List.nodup_singleton _,?_⟩
    intro a ha b hb hab
    rw [List.mem_singleton] at hb
    exact hnew (hb ▸ hab ▸ ha)
  · intro e he
    simp only [AtomTables.addAtom,AtomTables.insertRow,AtomTables.insertFts,List.mem_append,
      List.mem_singleton] at he ⊢
    rcases he with he | rfl
    · have hle := h.bounded e he
      omega
    · exact le_rfl

lemma AtomTables.Consistent.addAtoms (h : s.Consistent) {rows : List AtomRow}
    (hrows : ∀ row ∈ rows, row.status ≠ .forgotten) : (s.addAtoms rows).Consistent := by
  induction rows generalizing s with
  | nil => exact h
  | cons row rows ih =>
    exact ih (h.addAtom (hrows row (by simp))) fun r hr => hrows r (by simp [hr])

lemma AtomTables.Consistent.removeIds (h : s.Consistent) (ids : List ℕ) :
    (s.removeIds ids).Consistent := by
  refine ⟨?_,?_,?_⟩
  · simp only [AtomTables.removeIds,AtomTables.deleteFts,AtomTables.deleteRows,h.fts_eq,
      List.filter_map,List.filter_filter]
    congr 1
    refine List.filter_congr ?_
    intro e _
    rw [Bool.and_comm]
    rfl
  · exact h.nodup.sublist (List.filter_sublist.map _)
  · intro e he
    exact h.bounded e (List.mem_of_mem_filter he)

lemma updateRows_keys (s : AtomTables) (p : ℕ × AtomRow → Bool) (f : AtomRow → AtomRow) :
    (s.updateRows p f).rows.map Prod.fst = s.rows.map Prod.fst := by
  simp only [AtomTables.updateRows,List.map_map]
  refine List.map_congr_left ?_
  intro e _
  by_cases hp : p e = true <;> simp [hp]

variable {p : ℕ × AtomRow → Bool} {f : AtomRow → AtomRow}

theorem AtomTables.Consistent.of_update (h : s.Consistent) (fts : List (ℕ × String))
    (hfts : fts = ((s.updateRows p f).rows.filter searchable).map fun e => (e.1,e.2.content)) :
    ({ s.updateRows p f with fts := fts } : AtomTables).Consistent := by
  refine ⟨hfts,(updateRows_keys s p f).symm ▸ h.nodup,?_⟩
  intro e he
  have hmem : e.1 ∈ (s.updateRows p f).rows.map Prod.fst := List.mem_map_of_mem he
  rw [updateRows_keys] at hmem
  obtain ⟨e',he',hid⟩ := List.mem_map.mp hmem
  exact hid ▸ h.bounded e' he'

lemma AtomTables.Consistent.updateRows (h : s.Consistent)
    (hsearch : ∀ e, p e = true → searchable (e.1,f e.2) = searchable e)
    (hcontent : ∀ r, (f r).content = r.content) : (s.updateRows p f).Consistent := by
  refine h.of_update s.fts ?_
  rw [h.fts_eq]
  unfold AtomTables.updateRows
  induction s.rows with
  | nil => rfl
  | cons e rows ih =>
    rw [List.map_cons,List.filter_cons,List.filter_cons]
    by_cases hp : p e = true
    · rw [if_pos hp,hsearch e hp]
      by_cases he : searchable e = true <;> simp [he,ih,hcontent]
    · rw [if_neg hp]
      by_cases he : searchable e = true <;> simp [he,ih]

lemma AtomTables.Consistent.forgetIds (h : s.Consistent) (ids : List ℕ) :
    (s.forgetIds ids).Consistent := by
  refine h.of_update (p := fun e => e.1 ∈ ids) (f := (·.setStatus .forgotten)) _ ?_
  unfold AtomTables.deleteFts AtomTables.updateRows
  rw [h.fts_eq]
  induction s.rows with
  | nil => rfl
  | cons e rows ih =>
    rw [List.map_cons,List.filter_cons,List.filter_cons]
    by_cases hin : e.1 ∈ ids
    · have hout : searchable (e.1,e.2.setStatus .forgotten) = false := rfl
      rw [if_pos (decide_eq_true hin),hout]
      simp only [Bool.false_eq_true,if_false,← ih]
      by_cases he : searchable e = true <;> simp [he,hin]
    · have hsame : (if decide (e.1 ∈ ids) = true then (e.1,e.2.setStatus .forgotten) else e) = e :=
        if_neg (by simpa using hin)
      by_cases he : searchable e = true <;> simpa [he,hin] using ih

lemma run_insertRows (rows : List AtomRow) (s : AtomTables) :
    (insertRows rows).run s = some (s.addAtoms rows) := by
  induction rows generalizing s with
  | nil => rfl
  | cons row rows ih => exact ih _

lemma run_insertBatch {batch : List TimedAtom}
    (h : (insertBatch lang config batch).run s = some s') :
    ∃ rows, prepareRows lang config batch = .ok rows ∧ s' = s.addAtoms rows := by
  unfold insertBatch at h
  cases hrows : prepareRows lang config batch with
  | error e => rw [hrows] at h; cases h
  | ok rows =>
    rw [hrows] at h
    exact ⟨rows,rfl,(Option.some.inj ((run_insertRows rows s).symm.trans h)).symm⟩

lemma removeIds_nil (s : AtomTables) : s.removeIds [] = s := by
  simp [AtomTables.removeIds,AtomTables.deleteFts,AtomTables.deleteRows]

lemma forgetIds_nil (s : AtomTables) : s.forgetIds [] = s := by
  simp [AtomTables.forgetIds,AtomTables.deleteFts,AtomTables.markForgotten, AtomTables.updateRows]

lemma removeIds_removeIds (s : AtomTables) (l r : List ℕ) :
    (s.removeIds l).removeIds r = s.removeIds (l++r) := by
  simp [AtomTables.removeIds,AtomTables.deleteFts,AtomTables.deleteRows,List.filter_filter,
    not_or,Bool.and_comm]

lemma forgetIds_forgetIds (s : AtomTables) (l r : List ℕ) :
    (s.forgetIds l).forgetIds r = s.forgetIds (l++r) := by
  simp only [AtomTables.forgetIds,AtomTables.deleteFts,AtomTables.markForgotten,
    AtomTables.updateRows,List.filter_filter,List.map_map,AtomTables.mk.injEq]
  refine ⟨?_,?_,trivial⟩
  · refine List.map_congr_left ?_
    intro e _
    by_cases hl : e.1 ∈ l <;> by_cases hr : e.1 ∈ r <;> simp [hl,AtomRow.setStatus]
  · refine List.filter_congr ?_
    intro e _
    by_cases hl : e.1 ∈ l <;> simp [hl]

lemma run_replaceTransaction {parent : ℕ} {atoms : List TimedAtom}
    (h : (replaceTransaction lang config parent atoms).run s = some s') :
    (∀ a ∈ atoms, a.2.parentMemoryId = parent) ∧ ∃ rows, prepareRows lang config atoms = .ok rows ∧
      s' = (s.removeIds (s.childIds parent)).addAtoms rows := by
  have hrest : ∀ t, (insertReplacements lang config parent atoms).run t = some s' →
      (∀ a ∈ atoms, a.2.parentMemoryId = parent) ∧
        ∃ rows, prepareRows lang config atoms = .ok rows ∧ s' = t.addAtoms rows := by
    intro t ht
    unfold insertReplacements at ht
    split at ht
    · rename_i hall
      exact ⟨fun a ha => of_decide_eq_true (List.all_eq_true.mp hall a ha),run_insertBatch ht⟩
    · cases ht
  unfold replaceTransaction at h
  rw [Transaction.run] at h
  dsimp only at h
  split at h
  · rename_i hnone
    have hids : s.childIds parent = [] := hnone
    rw [hids,removeIds_nil]
    exact hrest s h
  · exact hrest _ h

variable {settle : List ℕ → AtomTables → AtomTables} {pick : AtomTables → List ℕ} {limit : ℤ}

lemma run_sweepLoop (hnil : ∀ s : AtomTables, settle [] (s.deleteFts []) = s)
    (happend : ∀ (s : AtomTables) (l r : List ℕ), settle r ((settle l (s.deleteFts l)).deleteFts r) =
      settle (l++r) (s.deleteFts (l++r))) {turns : ℕ}
    (h : (sweepLoop pick settle turns).run s = some s') :
    ∃ ids, s' = settle ids (s.deleteFts ids) := by
  induction turns generalizing s with
  | zero =>
    cases h
    exact ⟨[],(hnil _).symm⟩
  | succ turns ih =>
    rw [sweepLoop,Transaction.run] at h
    dsimp only at h
    split at h
    · cases h
      exact ⟨[],(hnil _).symm⟩
    · obtain ⟨ids,rfl⟩ := ih h
      exact ⟨_,happend _ _ ids⟩

lemma run_sweep (hnil : ∀ s : AtomTables, settle [] (s.deleteFts []) = s)
    (happend : ∀ (s : AtomTables) (l r : List ℕ), settle r ((settle l (s.deleteFts l)).deleteFts r) =
      settle (l++r) (s.deleteFts (l++r))) {n : ℕ} {seen : List AtomTables}
    {t : Transaction AtomTables} {rest : Program AtomTables}
    (hresidual : Residual (sweepProgram pick settle) n seen (.write t rest))
    (h : t.run s = some s') : n = 0 ∧ ∃ ids, s' = settle ids (s.deleteFts ids) := by
  rcases residual_read hresidual with ⟨-,-,hq⟩ | ⟨before,later,-,hlater⟩
  · cases hq
  · dsimp only at hlater
    split at hlater
    · cases (residual_done hlater).2.2
    · rcases residual_write hlater with ⟨rfl,-,hq⟩ | ⟨m,-,hm⟩
      · cases hq
        obtain ⟨ids,rfl⟩ := run_sweepLoop hnil happend h
        exact ⟨rfl,_,happend s (pick before) ids⟩
      · cases (residual_done hm).2.2

/-- A sweep took ids it had selected at the outset, or whose rows were to be swept; no such row is
left. -/
structure Swept (p : ℕ × AtomRow → Bool) (limit : ℤ) (before : AtomTables) (ids : List ℕ)
    (s s' : AtomTables) : Prop where
  taken : ∀ id ∈ ids, id ∈ before.selectIds p limit ∨ ∃ e ∈ s.rows.filter p, e.1 = id
  left : s'.rows.filter p = []

lemma mem_selectIds {id : ℕ} (h : id ∈ s.selectIds p limit) : ∃ e ∈ s.rows.filter p, e.1 = id := by
  refine List.mem_map.mp ?_
  unfold AtomTables.selectIds at h
  split at h
  · exact h
  · exact List.mem_of_mem_take h

lemma filter_eq_nil {before : AtomTables} (hsome : before.selectIds p limit ≠ [])
    (hnone : s.selectIds p limit = []) : s.rows.filter p = [] := by
  unfold AtomTables.selectIds at hsome hnone
  by_cases hlimit : limit < 0
  · rw [if_pos hlimit] at hnone
    exact List.map_eq_nil_iff.mp hnone
  · rw [if_neg hlimit] at hsome hnone
    rcases List.take_eq_nil_iff.mp hnone with hzero | hnil
    · rw [hzero] at hsome
      exact absurd rfl hsome
    · exact List.map_eq_nil_iff.mp hnil

section
variable (hnil : ∀ s : AtomTables, settle [] (s.deleteFts []) = s)
  (happend : ∀ (s : AtomTables) (l r : List ℕ), settle r ((settle l (s.deleteFts l)).deleteFts r) =
    settle (l++r) (s.deleteFts (l++r)))
  (hleft : ∀ (s : AtomTables) (ids : List ℕ), (settle ids (s.deleteFts ids)).rows.filter p =
    (s.rows.filter p).filter fun e => e.1 ∉ ids)
include hleft

lemma mem_left {id : ℕ} {ids : List ℕ} (h : ∃ e ∈ (settle ids (s.deleteFts ids)).rows.filter p,
    e.1 = id) :
    ∃ e ∈ s.rows.filter p, e.1 = id := by
  rw [hleft] at h
  obtain ⟨e,he,hkey⟩ := h
  exact ⟨e,List.mem_of_mem_filter he,hkey⟩

include hnil happend

lemma sweepLoop_swept {turns : ℕ} (hturns : (s.rows.filter p).length < turns)
    (h : (sweepLoop (·.selectIds p limit) settle turns).run s = some s') :
    s'.selectIds p limit = [] ∧
      ∃ ids, s' = settle ids (s.deleteFts ids) ∧ ∀ id ∈ ids, ∃ e ∈ s.rows.filter p, e.1 = id := by
  induction turns generalizing s with
  | zero => omega
  | succ turns ih =>
    rw [sweepLoop,Transaction.run] at h
    dsimp only at h
    split at h
    · rename_i hnone
      cases h
      exact ⟨hnone,[],(hnil _).symm,by simp⟩
    · rename_i hsome
      obtain ⟨id,hid⟩ := List.exists_mem_of_ne_nil _ hsome
      obtain ⟨e,he,rfl⟩ := mem_selectIds hid
      have hless : ((s.rows.filter p).filter fun e => e.1 ∉ s.selectIds p limit).length <
          (s.rows.filter p).length := by
        rw [List.length_filter_lt_length_iff_exists]
        exact ⟨e,he,by simp [hid]⟩
      obtain ⟨hnone,ids,rfl,hids⟩ := ih (by rw [hleft]; omega) h
      refine ⟨hnone,_,happend _ _ ids,?_⟩
      intro id hid
      rcases List.mem_append.mp hid with hfirst | hlater
      · exact mem_selectIds hfirst
      · exact mem_left hleft (hids id hlater)

lemma swept {n : ℕ} {seen : List AtomTables} {t : Transaction AtomTables}
    {rest : Program AtomTables}
    (hresidual : Residual (sweepProgram (·.selectIds p limit) settle) n seen (.write t rest))
    (h : t.run s = some s') : ∃ before ids, seen = [before] ∧ s' = settle ids (s.deleteFts ids) ∧
      Swept p limit before ids s s' := by
  rcases residual_read hresidual with ⟨-,-,hq⟩ | ⟨before,later,rfl,hlater⟩
  · cases hq
  · dsimp only at hlater
    split at hlater
    · cases (residual_done hlater).2.2
    · rename_i hsome
      rcases residual_write hlater with ⟨rfl,rfl,hq⟩ | ⟨m,-,hm⟩
      · cases hq
        obtain ⟨hnone,ids,rfl,hids⟩ := sweepLoop_swept hnil happend hleft
          (Nat.lt_succ_of_le (List.length_filter_le _ _)) h
        refine ⟨before,_,rfl,happend s _ ids,?_,filter_eq_nil hsome hnone⟩
        intro id hid
        exact (List.mem_append.mp hid).imp_right fun hlater => mem_left hleft (hids id hlater)
      · cases (residual_done hm).2.2

end

lemma removeIds_left (s : AtomTables) (ids : List ℕ) :
    (s.removeIds ids).rows.filter p = (s.rows.filter p).filter fun e => e.1 ∉ ids :=
  List.filter_comm _ _ _

lemma forgetIds_left {cutoff : ℚ} (s : AtomTables) (ids : List ℕ) :
    (s.forgetIds ids).rows.filter (stale .expired cutoff) =
      (s.rows.filter (stale .expired cutoff)).filter fun e => e.1 ∉ ids := by
  unfold AtomTables.forgetIds AtomTables.markForgotten AtomTables.updateRows AtomTables.deleteFts
  induction s.rows with
  | nil => rfl
  | cons e rows ih =>
    have hgone : stale .expired cutoff (e.1,e.2.setStatus .forgotten) = false := rfl
    by_cases hin : e.1 ∈ ids <;> by_cases hp : stale .expired cutoff e = true <;>
      simpa [hin,hp,hgone] using ih

end Memora.Atoms

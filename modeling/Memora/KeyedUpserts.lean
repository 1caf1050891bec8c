import Memora.ExceptLaws
import Memora.RowTable

/-! A table has a primary id and a unique key. A pass writes a list of items one after the other: an
item whose key is stored rewrites the rows under it, any other is inserted, which is refused where
its id is taken. A pass goes through exactly when its new items have ids of their own, and the
same pass over what it wrote rewrites rows and inserts none. -/
namespace Memora.KeyedUpserts

variable {R I K J O : Type}

/-- How the items of a pass become rows; a rewriting keeps the key and the id. -/
structure Scheme (R I K J : Type) where
  key : R → K
  id : R → J
  keyOf : I → K
  idOf : I → J
  fresh : I → R
  rewrite : I → R → R
  key_fresh : ∀ i, key (fresh i) = keyOf i
  id_fresh : ∀ i, id (fresh i) = idOf i
  key_rewrite : ∀ i r, key (rewrite i r) = key r
  id_rewrite : ∀ i r, id (rewrite i r) = id r

variable [DecidableEq K] [DecidableEq J] (s : Scheme R I K J) {rows rows' : List R} {i : I}
  {items : List I}

namespace Scheme

/-- `INSERT ... ON CONFLICT(key) DO UPDATE`. -/
def write (rows : List R) (i : I) : Except String (List R) :=
  if rows.any fun r => s.key r = s.keyOf i then
    .ok (RowTable.modify (fun r => s.key r = s.keyOf i) (s.rewrite i) rows)
  else if rows.any fun r => s.id r = s.idOf i then .error "UNIQUE constraint failed"
  else .ok (rows++[s.fresh i])

structure Fits (rows : List R) (items : List I) : Prop where
  free : ∀ i ∈ items, s.keyOf i ∉ rows.map s.key → s.idOf i ∉ rows.map s.id
  distinct : ((items.filter fun i => s.keyOf i ∉ rows.map s.key).map s.idOf).Nodup

def storedId (rows : List R) (i : I) : Option J :=
  (rows.find? fun r => s.key r = s.keyOf i).map s.id

end Scheme

variable {s}

open Scheme

omit [DecidableEq J] in
lemma any_key : (rows.any fun r => s.key r = s.keyOf i) = true ↔ s.keyOf i ∈ rows.map s.key := by
  simp

lemma write_stored (h : s.keyOf i ∈ rows.map s.key) :
    s.write rows i = .ok (RowTable.modify (fun r => s.key r = s.keyOf i) (s.rewrite i) rows) := by
  rw [write,if_pos (any_key.mpr h)]

lemma write_taken (h : s.keyOf i ∉ rows.map s.key) (hid : s.idOf i ∈ rows.map s.id) :
    s.write rows i = .error "UNIQUE constraint failed" := by
  have hany : (rows.any fun r => s.id r = s.idOf i) = true := by simpa using hid
  rw [write,if_neg (fun hk => h (any_key.mp hk)),if_pos hany]

lemma write_new (h : s.keyOf i ∉ rows.map s.key) (hid : s.idOf i ∉ rows.map s.id) :
    s.write rows i = .ok (rows++[s.fresh i]) := by
  have hany : ¬(rows.any fun r => s.id r = s.idOf i) = true := by simpa using hid
  rw [write,if_neg (fun hk => h (any_key.mp hk)),if_neg hany]

lemma write_cases (h : s.write rows i = .ok rows') : (s.keyOf i ∈ rows.map s.key ∧
        rows' = RowTable.modify (fun r => s.key r = s.keyOf i) (s.rewrite i) rows) ∨
      (s.keyOf i ∉ rows.map s.key ∧ s.idOf i ∉ rows.map s.id ∧ rows' = rows++[s.fresh i]) := by
  by_cases hk : s.keyOf i ∈ rows.map s.key
  · rw [write_stored hk] at h
    exact .inl ⟨hk,(Except.ok.inj h).symm⟩
  by_cases hid : s.idOf i ∈ rows.map s.id
  · rw [write_taken hk hid] at h
    cases h
  · rw [write_new hk hid] at h
    exact .inr ⟨hk,hid,(Except.ok.inj h).symm⟩

omit [DecidableEq J] in
lemma keys_rewritten (rows : List R) (i : I) :
    (RowTable.modify (fun r => s.key r = s.keyOf i) (s.rewrite i) rows).map s.key =
    rows.map s.key :=
  RowTable.map_modify _ _ _ _ fun r _ _ => s.key_rewrite i r

omit [DecidableEq J] in
lemma ids_rewritten (rows : List R) (i : I) :
    (RowTable.modify (fun r => s.key r = s.keyOf i) (s.rewrite i) rows).map s.id = rows.map s.id :=
  RowTable.map_modify _ _ _ _ fun r _ _ => s.id_rewrite i r

lemma key_written (h : s.write rows i = .ok rows') : s.keyOf i ∈ rows'.map s.key := by
  rcases write_cases h with ⟨hk,rfl⟩ | ⟨-,-,rfl⟩
  · rw [keys_rewritten]
    exact hk
  · simp [s.key_fresh]

lemma keys_stay (h : s.write rows i = .ok rows') {k : K} (hk : k ∈ rows.map s.key) :
    k ∈ rows'.map s.key := by
  rcases write_cases h with ⟨-,rfl⟩ | ⟨-,-,rfl⟩
  · rw [keys_rewritten]
    exact hk
  · rw [List.map_append]
    exact List.mem_append_left _ hk

lemma nodup_written (h : s.write rows i = .ok rows') (hids : (rows.map s.id).Nodup) :
    (rows'.map s.id).Nodup := by
  rcases write_cases h with ⟨-,rfl⟩ | ⟨-,hid,rfl⟩
  · rw [ids_rewritten]
    exact hids
  · apply RowTable.nodup_append hids (by simp)
    intro x hx r hr heq
    rw [List.mem_singleton.mp hx,s.id_fresh] at heq
    exact hid (List.mem_map.mpr ⟨r,hr,heq⟩)

lemma others_stay (h : s.write rows i = .ok rows') {k : K} (hne : s.keyOf i ≠ k) {r : R}
    (hk : s.key r = k) : r ∈ rows' ↔ r ∈ rows := by
  rcases write_cases h with ⟨-,rfl⟩ | ⟨-,-,rfl⟩
  · rw [RowTable.mem_modify]
    constructor
    · rintro ⟨x,hx,rfl⟩
      by_cases hxi : s.key x = s.keyOf i
      · rw [if_pos (by simpa using hxi),s.key_rewrite,hxi] at hk
        exact absurd hk hne
      · rw [if_neg (by simpa using hxi)]
        exact hx
    · intro hr
      refine ⟨r,hr,if_neg ?_⟩
      simp only [decide_eq_true_eq]
      exact fun hri => hne (hri.symm.trans hk)
  · rw [List.mem_append,List.mem_singleton]
    constructor
    · rintro (hr | rfl)
      · exact hr
      · rw [s.key_fresh] at hk
        exact absurd hk hne
    · exact .inl

lemma rows_written (h : s.write rows i = .ok rows') {r : R} (hr : r ∈ rows')
    (hk : s.key r = s.keyOf i) : (∃ x, r = s.rewrite i x) ∨ r = s.fresh i := by
  rcases write_cases h with ⟨-,rfl⟩ | ⟨hnew,-,rfl⟩
  · obtain ⟨x,-,rfl⟩ := RowTable.mem_modify.mp hr
    by_cases hxi : s.key x = s.keyOf i
    · rw [if_pos (by simpa using hxi)]
      exact .inl ⟨x,rfl⟩
    · rw [if_neg (by simpa using hxi)] at hk
      exact absurd hk hxi
  · rcases List.mem_append.mp hr with hr | hr
    · exact absurd (List.mem_map.mpr ⟨r,hr,hk⟩) hnew
    · exact .inr (List.mem_singleton.mp hr)

omit [DecidableEq J] in
lemma storedId_eq_none : s.storedId rows i = none ↔ s.keyOf i ∉ rows.map s.key := by
  simp [storedId]

omit [DecidableEq J] in
lemma storedId_rewritten (rows : List R) (i j : I) :
    s.storedId (RowTable.modify (fun r => s.key r = s.keyOf i) (s.rewrite i) rows) j =
      s.storedId rows j := by
  unfold storedId
  rw [RowTable.find?_modify _ _ _ _ (s.key_rewrite i),Option.map_map]
  congr 1
  funext r
  simp only [Function.comp_apply]
  split
  · exact s.id_rewrite i r
  · rfl

lemma storedId_stays (h : s.write rows i = .ok rows') {j : I} {id : J}
    (hj : s.storedId rows j = some id) : s.storedId rows' j = some id := by
  rcases write_cases h with ⟨-,rfl⟩ | ⟨-,-,rfl⟩
  · rw [storedId_rewritten]
    exact hj
  · unfold storedId at hj ⊢
    obtain ⟨r,hr,rfl⟩ := Option.map_eq_some_iff.mp hj
    rw [List.find?_append,hr,Option.some_or,Option.map_some]

lemma storedId_written (h : s.write rows i = .ok rows') :
    s.storedId rows' i = some ((s.storedId rows i).getD (s.idOf i)) := by
  cases hi : s.storedId rows i with
  | some id => exact storedId_stays h hi
  | none =>
    rcases write_cases h with ⟨hk,-⟩ | ⟨hk,-,rfl⟩
    · exact absurd hk (storedId_eq_none.mp hi)
    · unfold storedId at hi ⊢
      rw [List.find?_append,Option.map_eq_none_iff.mp hi,Option.none_or,
        List.find?_cons_of_pos (by simp [s.key_fresh]),Option.map_some,s.id_fresh]
      rfl

omit [DecidableEq J] in
lemma storedId_injective (hids : (rows.map s.id).Nodup) {i j : I} {id : J}
    (hi : s.storedId rows i = some id) (hj : s.storedId rows j = some id) :
    s.keyOf i = s.keyOf j := by
  obtain ⟨r,hr,rfl⟩ := Option.map_eq_some_iff.mp hi
  obtain ⟨x,hx,heq⟩ := Option.map_eq_some_iff.mp hj
  have hsame : x = r :=
    RowTable.eq_of_key_eq hids (List.mem_of_find?_eq_some hx) (List.mem_of_find?_eq_some hr) heq
  have hki : s.key r = s.keyOf i := by simpa using List.find?_some hr
  have hkj : s.key x = s.keyOf j := by simpa using List.find?_some hx
  rw [← hki,← hkj,hsame]

omit [DecidableEq J] in
lemma fits_stored (keyed : s.keyOf i ∈ rows.map s.key)
    (hrows : rows'.map s.key = rows.map s.key) (hids : rows'.map s.id = rows.map s.id) :
    s.Fits rows (i::items) ↔ s.Fits rows' items := by
  have hfilter : ((i::items).filter fun j => s.keyOf j ∉ rows.map s.key) =
      items.filter fun j => s.keyOf j ∉ rows'.map s.key := by
    rw [List.filter_cons_of_neg (by simpa using keyed),hrows]
  constructor
  · intro h
    refine ⟨fun j hj hk => ?_,?_⟩
    · rw [hids]
      rw [hrows] at hk
      exact h.free j (List.mem_cons_of_mem _ hj) hk
    · rw [← hfilter]
      exact h.distinct
  · intro h
    refine ⟨fun j hj hk => ?_,?_⟩
    · rcases List.mem_cons.mp hj with rfl | hj
      · exact absurd keyed hk
      · rw [← hids]
        rw [← hrows] at hk
        exact h.free j hj hk
    · rw [hfilter]
      exact h.distinct

omit [DecidableEq J] in
lemma fits_new (hk : s.keyOf i ∉ rows.map s.key) (hid : s.idOf i ∉ rows.map s.id)
    (hkeys : s.keyOf i ∉ items.map s.keyOf) : s.Fits rows (i::items) ↔
    s.Fits (rows++[s.fresh i]) items := by
  have hstored : ∀ j ∈ items, (s.keyOf j ∉ (rows++[s.fresh i]).map s.key ↔ s.keyOf j ∉ rows.map s.key) := by
    intro j hj
    have hne : s.keyOf j ≠ s.keyOf i := fun heq => hkeys (List.mem_map.mpr ⟨j,hj,heq⟩)
    rw [List.map_append,List.mem_append,not_or,List.map_singleton,List.mem_singleton,s.key_fresh]
    exact ⟨And.left,fun h => ⟨h,hne⟩⟩
  have hfilter : (items.filter fun j => s.keyOf j ∉ (rows++[s.fresh i]).map s.key) =
      items.filter fun j => s.keyOf j ∉ rows.map s.key := by
    apply List.filter_congr
    intro j hj
    simpa using hstored j hj
  have hcons : ((i::items).filter fun j => s.keyOf j ∉ rows.map s.key) =
      i::items.filter fun j => s.keyOf j ∉ rows.map s.key :=
    List.filter_cons_of_pos (by simpa using hk)
  constructor
  · intro h
    have hdistinct := h.distinct
    rw [hcons,List.map_cons,List.nodup_cons] at hdistinct
    refine ⟨fun j hj hjk => ?_,?_⟩
    · have hjk' := (hstored j hj).mp hjk
      rw [List.map_append,List.mem_append,not_or,List.map_singleton,List.mem_singleton,s.id_fresh]
      refine ⟨h.free j (List.mem_cons_of_mem _ hj) hjk',fun heq => hdistinct.1 ?_⟩
      rw [← heq]
      exact List.mem_map_of_mem (List.mem_filter.mpr ⟨hj,by simpa using hjk'⟩)
    · rw [hfilter]
      exact hdistinct.2
  · intro h
    have hdistinct := h.distinct
    rw [hfilter] at hdistinct
    have hfree : ∀ j ∈ items, s.keyOf j ∉ rows.map s.key → s.idOf j ∉ rows.map s.id ∧ s.idOf j ≠ s.idOf i := by
      intro j hj hjk
      have hjid := h.free j hj ((hstored j hj).mpr hjk)
      rw [List.map_append,List.mem_append,not_or,List.map_singleton,List.mem_singleton, s.id_fresh] at hjid
      exact hjid
    refine ⟨fun j hj hjk => ?_,?_⟩
    · rcases List.mem_cons.mp hj with rfl | hj
      · exact hid
      · exact (hfree j hj hjk).1
    · rw [hcons,List.map_cons,List.nodup_cons]
      refine ⟨fun hmem => ?_,hdistinct⟩
      obtain ⟨j,hj,heq⟩ := List.mem_map.mp hmem
      obtain ⟨hj,hjk⟩ := List.mem_filter.mp hj
      exact (hfree j hj (by simpa using hjk)).2 heq

theorem writes_ok_iff (hkeys : (items.map s.keyOf).Nodup) :
    (∃ rows', items.foldlM s.write rows = .ok rows') ↔ s.Fits rows items := by
  induction items generalizing rows with
  | nil => exact ⟨fun _ => ⟨by simp,by simp⟩,fun _ => ⟨rows,rfl⟩⟩
  | cons i items ih =>
    rw [List.map_cons,List.nodup_cons] at hkeys
    rw [List.foldlM_cons]
    by_cases hk : s.keyOf i ∈ rows.map s.key
    · rw [write_stored hk,fits_stored hk (keys_rewritten rows i) (ids_rewritten rows i)]
      exact ih hkeys.2
    by_cases hid : s.idOf i ∈ rows.map s.id
    · rw [write_taken hk hid]
      constructor
      · rintro ⟨_,h⟩
        exact absurd h (by simp [bind,Except.bind])
      · intro h
        exact absurd hid (h.free i (List.mem_cons_self ..) hk)
    · rw [write_new hk hid,fits_new hk hid hkeys.1]
      exact ih hkeys.2

/-- Every item of a pass stands in the table: its key is stored, by a row that it wrote. -/
theorem writes_stand (hkeys : (items.map s.keyOf).Nodup)
    (h : items.foldlM s.write rows = .ok rows') :
    ∀ i ∈ items, s.keyOf i ∈ rows'.map s.key ∧
      ∀ r ∈ rows', s.key r = s.keyOf i → (∃ x, r = s.rewrite i x) ∨ r = s.fresh i := by
  induction items generalizing rows with
  | nil => simp
  | cons i items ih =>
    rw [List.map_cons,List.nodup_cons] at hkeys
    obtain ⟨rows₁,hfirst,hrest⟩ := ExceptLaws.bind_ok h
    intro j hj
    rcases List.mem_cons.mp hj with rfl | hj
    · -- the later items have other keys
      have hother : ∀ i ∈ items, s.keyOf i ≠ s.keyOf j := fun i hi heq =>
        hkeys.1 (List.mem_map.mpr ⟨i,hi,heq⟩)
      have hkey : s.keyOf j ∈ rows'.map s.key :=
        ExceptLaws.foldlM_invariant (P := fun rows : List R => s.keyOf j ∈ rows.map s.key)
          (fun _ _ _ _ hi hk => keys_stay hi hk) (key_written hfirst) hrest
      refine ⟨hkey,fun r hr hk => rows_written hfirst ?_ hk⟩
      have hback : ∀ r ∈ rows', s.key r = s.keyOf j → r ∈ rows₁ := ExceptLaws.foldlM_invariant
          (P := fun rows : List R => ∀ r ∈ rows, s.key r = s.keyOf j → r ∈ rows₁)
          (fun _ i hi _ hw hkept r hr hk => hkept r ((others_stay hw (hother i hi) hk).mp hr) hk)
          (fun _ hr _ => hr) hrest
      exact hback r hr hk
    · exact ih hkeys.2 hrest j hj

/-- Items whose rows look as if they had been written already change nothing that is seen. -/
theorem writes_again (see : R → O) (hkeys : (items.map s.keyOf).Nodup)
    (hstand : ∀ i ∈ items, s.keyOf i ∈ rows.map s.key ∧
      ∀ r ∈ rows, s.key r = s.keyOf i → see (s.rewrite i r) = see r) :
    ∃ rows', items.foldlM s.write rows = .ok rows' ∧ rows'.map see = rows.map see ∧
      ∀ j, s.storedId rows' j = s.storedId rows j := by
  induction items generalizing rows with
  | nil => exact ⟨rows,rfl,rfl,fun _ => rfl⟩
  | cons i items ih =>
    rw [List.map_cons,List.nodup_cons] at hkeys
    obtain ⟨hk,hsame⟩ := hstand i (List.mem_cons_self ..)
    have hwrite := write_stored hk
    have hkept : ∀ j ∈ items,
        s.keyOf j ∈ (RowTable.modify (fun r => s.key r = s.keyOf i) (s.rewrite i) rows).map s.key ∧
        ∀ r ∈ RowTable.modify (fun r => s.key r = s.keyOf i) (s.rewrite i) rows,
          s.key r = s.keyOf j → see (s.rewrite j r) = see r := by
      intro j hj
      have hne : s.keyOf i ≠ s.keyOf j := fun heq => hkeys.1 (List.mem_map.mpr ⟨j,hj,heq.symm⟩)
      obtain ⟨hjk,hjsame⟩ := hstand j (List.mem_cons_of_mem _ hj)
      refine ⟨keys_stay hwrite hjk,fun r hr hrk => ?_⟩
      exact hjsame r ((others_stay hwrite hne hrk).mp hr) hrk
    obtain ⟨rows',hrest,hsee,hstored⟩ := ih hkeys.2 hkept
    refine ⟨rows',?_,?_,?_⟩
    · rw [List.foldlM_cons,hwrite]
      exact hrest
    · rw [hsee]
      apply RowTable.map_modify
      intro r hr hri
      exact hsame r hr (by simpa using hri)
    · intro j
      rw [hstored j,storedId_rewritten]

end Memora.KeyedUpserts

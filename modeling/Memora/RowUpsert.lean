import Memora.RowTable

/-! `upsert key k rewrite fresh` is `INSERT ... ON CONFLICT(key) DO UPDATE`: the row under the key
is rewritten, and a fresh row is added when no row has the key. Of several writes under one key the
last one stands. A maximum kept while rows are written is the maximum of the rows that stand once
each value that was written over is reached by one of them. -/
namespace Memora.RowTable

variable {α β κ : Type*} [DecidableEq κ]

def upsert (key : α → κ) (k : κ) (rewrite : α → α) (fresh : α) (rows : List α) : List α :=
  if rows.any fun r => key r = k then modify (fun r => key r = k) rewrite rows else rows++[fresh]

section Upsert

variable {key : α → κ} {k : κ} {rewrite : α → α} {fresh : α} {rows : List α}

lemma upsert_of_none (h : ∀ r ∈ rows, key r ≠ k) :
    upsert key k rewrite fresh rows = rows++[fresh] := by
  have hnone : ¬(rows.any fun r => key r = k) = true := by simpa using h
  rw [upsert,if_neg hnone]

lemma upsert_of_mem {r : α} (hr : r ∈ rows) (hk : key r = k) :
    upsert key k rewrite fresh rows = modify (fun r => key r = k) rewrite rows := by
  have hany : (rows.any fun r => key r = k) = true := by simpa using ⟨r,hr,hk⟩
  rw [upsert,if_pos hany]

/-- A column that the rewriting keeps has, after the upsert, at most the value of the fresh row
besides those it had. -/
theorem map_upsert (key : α → κ) (k : κ) (rewrite : α → α) (fresh : α) (g : α → β)
    (hg : ∀ r ∈ rows, key r = k → g (rewrite r) = g r) :
    (upsert key k rewrite fresh rows).map g = rows.map g ∨
      (∀ r ∈ rows, key r ≠ k) ∧ (upsert key k rewrite fresh rows).map g = rows.map g++[g fresh] := by
  by_cases h : ∃ r ∈ rows, key r = k
  · obtain ⟨r,hr,hk⟩ := h
    left
    rw [upsert_of_mem hr hk]
    apply map_modify
    intro x hx hxk
    exact hg x hx (by simpa using hxk)
  · have hnone : ∀ r ∈ rows, key r ≠ k := fun r hr hk => h ⟨r,hr,hk⟩
    right
    exact ⟨hnone,by rw [upsert_of_none hnone,List.map_append,List.map_singleton]⟩

lemma nodup_upsert (h : (rows.map key).Nodup) (hrewrite : ∀ r, key (rewrite r) = key r)
    (hfresh : key fresh = k) : ((upsert key k rewrite fresh rows).map key).Nodup := by
  obtain heq | ⟨hnone,heq⟩ := map_upsert key k rewrite fresh key (fun r _ _ => hrewrite r)
  · rw [heq]
    exact h
  · rw [heq,List.nodup_append]
    refine ⟨h,List.nodup_singleton _,?_⟩
    intro a ha b hb hab
    obtain ⟨r,hr,rfl⟩ := List.mem_map.mp ha
    rw [List.mem_singleton] at hb
    exact hnone r hr (by rw [hab,hb,hfresh])

/-- The row that is found under the key after an upsert: the one that was there, rewritten, or the
fresh one. The rows under the other keys stay. -/
theorem upsert_row (h : (rows.map key).Nodup) {row : α}
    (hrow : (upsert key k rewrite fresh rows).find? (fun r => key r = k) = some row)
    (hrewrite : ∀ r, key (rewrite r) = key r) (hfresh : key fresh = k) :
    (∀ x, x ∈ upsert key k rewrite fresh rows ↔ (x ∈ rows ∧ key x ≠ k) ∨ x = row) ∧
      ((∃ r ∈ rows, key r = k ∧ row = rewrite r) ∨ (∀ r ∈ rows, key r ≠ k) ∧ row = fresh) := by
  cases hf : rows.find? fun r => key r = k with
  | none =>
    have hnone : ∀ r ∈ rows, key r ≠ k := by simpa [List.find?_eq_none] using hf
    rw [upsert_of_none hnone,List.find?_append,hf,Option.none_or,
      List.find?_cons_of_pos (by simpa using hfresh)] at hrow
    cases hrow
    refine ⟨?_,.inr ⟨hnone,rfl⟩⟩
    intro x
    rw [upsert_of_none hnone,List.mem_append,List.mem_singleton]
    constructor
    · rintro (hx | hx)
      · exact .inl ⟨hx,hnone x hx⟩
      · exact .inr hx
    · rintro (⟨hx,-⟩ | hx)
      · exact .inl hx
      · exact .inr hx
  | some r =>
    have hr := List.mem_of_find?_eq_some hf
    have hk : key r = k := by simpa using List.find?_some hf
    rw [upsert_of_mem hr hk,find?_modify _ _ _ _ hrewrite,hf,Option.map_some,
      if_pos (by simpa using hk)] at hrow
    cases hrow
    refine ⟨?_,.inl ⟨r,hr,hk,rfl⟩⟩
    intro x
    rw [upsert_of_mem hr hk,mem_modify]
    constructor
    · rintro ⟨y,hy,rfl⟩
      by_cases hyk : key y = k
      · obtain rfl : y = r := eq_of_key_eq h hy hr (hyk.trans hk.symm)
        simp [hk]
      · simp [hyk,hy]
    · rintro (⟨hx,hxk⟩ | rfl)
      · exact ⟨x,hx,by simp [hxk]⟩
      · exact ⟨r,hr,by simp [hk]⟩

lemma upsert_stays (key : α → κ) (k : κ) (rewrite : α → α) (fresh : α) (g : α → β)
    (hg : ∀ r, g (rewrite r) = g r) :
    ∀ r ∈ rows, ∃ r' ∈ upsert key k rewrite fresh rows, g r' = g r := by
  intro r hr
  have hmem : g r ∈ (upsert key k rewrite fresh rows).map g := by
    obtain heq | ⟨-,heq⟩ := map_upsert key k rewrite fresh g (fun r _ _ => hg r)
    · rw [heq]
      exact List.mem_map_of_mem hr
    · rw [heq]
      exact List.mem_append_left _ (List.mem_map_of_mem hr)
  obtain ⟨r',hr',heq⟩ := List.mem_map.mp hmem
  exact ⟨r',hr',heq⟩

end Upsert

theorem modify_perm {key : α → κ} {rows : List α} (h : (rows.map key).Nodup) {r : α} (hr : r ∈ rows)
    (f : α → α) : (modify (fun x => key x = key r) f rows).Perm
      (rows.filter (fun x => key x ≠ key r)++[f r]) := by
  induction rows with
  | nil => simp at hr
  | cons x rows ih =>
    have hcons : key x ∉ rows.map key ∧ (rows.map key).Nodup := List.nodup_cons.mp h
    rcases List.mem_cons.mp hr with rfl | hr'
    · have hother : ∀ y ∈ rows, key y ≠ key r := fun y hy hk =>
        hcons.1 (List.mem_map.mpr ⟨y,hy,hk⟩)
      have hsame : modify (fun x => key x = key r) f rows = rows :=
        modify_of_none fun y hy => by simpa using hother y hy
      have hkept : rows.filter (fun x => key x ≠ key r) = rows :=
        List.filter_eq_self.mpr fun y hy => by simpa using hother y hy
      have hhead : modify (fun x => key x = key r) f (r::rows) = f r::rows := by
        rw [modify,List.map_cons,if_pos (by simp)]
        exact congrArg _ hsame
      have hrest : (r::rows).filter (fun x => key x ≠ key r) = rows := by
        rw [List.filter_cons_of_neg (by simp),hkept]
      rw [hhead,hrest]
      exact (List.perm_append_singleton (f r) rows).symm
    · have hne : key x ≠ key r := fun hk => hcons.1 (List.mem_map.mpr ⟨r,hr',hk.symm⟩)
      have hhead : modify (fun y => key y = key r) f (x::rows) = x::modify (fun y => key y = key r) f rows := by
        rw [modify,List.map_cons,if_neg (by simpa using hne)]
        rfl
      rw [hhead,List.filter_cons_of_pos (by simpa using hne)]
      exact (ih hcons.2 hr').cons x

/-- The rows of a table with an `AUTOINCREMENT` column: `last` is the last number given out. -/
structure Numbered (id : α → ℕ) (last : ℕ) (rows : List α) : Prop where
  nodup : (rows.map id).Nodup
  le_last : ∀ r ∈ rows, id r ≤ last

section Numbered

variable {id : α → ℕ} {last : ℕ} {rows : List α}

omit [DecidableEq κ] in
lemma Numbered.nil : Numbered id last [] := ⟨List.nodup_nil,by simp⟩

lemma Numbered.sublist (h : Numbered id last rows) {rows' : List α} (hsub : rows'.Sublist rows) :
    Numbered id last rows' :=
  ⟨h.nodup.sublist (hsub.map id),fun r hr => h.le_last r (hsub.subset hr)⟩

lemma Numbered.modify (h : Numbered id last rows) {p : α → Bool} {f : α → α}
    (hf : ∀ r, id (f r) = id r) : Numbered id last (modify p f rows) where
  nodup := by
    rw [map_modify id p f rows fun r _ _ => hf r]
    exact h.nodup
  le_last := fun r hr => by
    obtain ⟨x,hx,rfl⟩ := mem_modify.mp hr
    split
    · rw [hf]
      exact h.le_last x hx
    · exact h.le_last x hx

lemma Numbered.append (h : Numbered id last rows) {fresh : α} (hfresh : id fresh = last+1) :
    Numbered id (last+1) (rows++[fresh]) where
  nodup := by
    apply nodup_append h.nodup (by simp)
    intro x hx r hr
    rw [List.mem_singleton.mp hx,hfresh]
    have := h.le_last r hr
    omega
  le_last := fun r hr => by
    rcases List.mem_append.mp hr with hr | hr
    · have := h.le_last r hr
      omega
    · rw [List.mem_singleton.mp hr,hfresh]

lemma Numbered.upsert (h : Numbered id last rows) {key : α → κ} {k : κ} {rewrite : α → α}
    {fresh row : α} (hkeys : (rows.map key).Nodup) (hfresh : id fresh = last+1)
    (hid : ∀ r, id (rewrite r) = id r) (hkey : key fresh = k)
    (hrewrite : ∀ r, key (rewrite r) = key r)
    (hrow : (RowTable.upsert key k rewrite fresh rows).find? (fun r => key r = k) = some row) :
    Numbered id (max last (id row)) (RowTable.upsert key k rewrite fresh rows) := by
  obtain ⟨-,⟨r,hr,hk,rfl⟩ | ⟨hnone,rfl⟩⟩ := upsert_row hkeys hrow hrewrite hkey
  · rw [upsert_of_mem hr hk,hid,max_eq_left (h.le_last r hr)]
    exact h.modify hid
  · rw [upsert_of_none hnone,hfresh,max_eq_right (Nat.le_succ last)]
    exact h.append hfresh

end Numbered

def lastWrites (key : α → κ) : List α → List α
  | [] => []
  | w::rest =>
    if rest.any fun w' => key w' = key w then lastWrites key rest else w::lastWrites key rest

lemma lastWrites_congr {μ : Type*} [DecidableEq μ] {key : α → κ} {key' : α → μ} {writes : List α}
    (h : ∀ w ∈ writes, ∀ w' ∈ writes, key w' = key w ↔ key' w' = key' w) :
    lastWrites key writes = lastWrites key' writes := by
  induction writes with
  | nil => rfl
  | cons w rest ih =>
    have hrest : lastWrites key rest = lastWrites key' rest :=
      ih fun x hx y hy => h x (List.mem_cons_of_mem _ hx) y (List.mem_cons_of_mem _ hy)
    have hany : (rest.any fun w' => key w' = key w) = rest.any fun w' => key' w' = key' w := by
      rw [Bool.eq_iff_iff,List.any_eq_true,List.any_eq_true]
      refine exists_congr fun w' => and_congr_right fun hw' => ?_
      rw [decide_eq_true_eq,decide_eq_true_eq]
      exact h w List.mem_cons_self w' (List.mem_cons_of_mem _ hw')
    rw [lastWrites,lastWrites,hany,hrest]

lemma isGreatest_of_reached [PartialOrder β] {values part : Set β} {m : β}
    (h : IsGreatest values m) (hsub : part ⊆ values)
    (hreach : ∀ v ∈ values, ∃ w ∈ part, v ≤ w) : IsGreatest part m := by
  obtain ⟨w,hw,hmw⟩ := hreach m h.1
  have heq : m = w := le_antisymm hmw (h.2 (hsub hw))
  exact ⟨heq ▸ hw,fun v hv => h.2 (hsub hv)⟩

end Memora.RowTable

import Mathlib

/-! `modify p f` is `UPDATE ... SET f WHERE p` and `countP p` its row count. A table is
keyed by `key` when the keys of its rows are pairwise distinct. -/
namespace Memora.RowTable

variable {α κ : Type*} {rows : List α} {key : α → κ} {p : α → Bool} {r : α}

def modify (p : α → Bool) (f : α → α) (rows : List α) : List α :=
  rows.map fun r => if p r then f r else r

lemma mem_modify {f : α → α} : r ∈ modify p f rows ↔ ∃ x ∈ rows, (if p x then f x else x) = r := by
  simp [modify]

theorem map_modify {β : Type*} (g : α → β) (p : α → Bool) (f : α → α) (rows : List α)
    (h : ∀ r ∈ rows, p r = true → g (f r) = g r) : (modify p f rows).map g = rows.map g := by
  simp only [modify,List.map_map]
  apply List.map_congr_left
  intro r hr
  simp only [Function.comp_apply]
  split
  · exact h r hr ‹_›
  · rfl

lemma modify_of_none {f : α → α} (h : ∀ r ∈ rows, p r = false) : modify p f rows = rows := by
  conv_rhs => rw [← List.map_id rows]
  apply List.map_congr_left
  intro r hr
  simp [h r hr]

lemma modify_congr {p q : α → Bool} {f g : α → α}
    (h : ∀ r ∈ rows, (if p r then f r else r) = if q r then g r else r) :
    modify p f rows = modify q g rows := List.map_congr_left h

lemma modify_modify (p q : α → Bool) (f g : α → α) (rows : List α) : modify q g (modify p f rows) =
      rows.map fun r => let r' := if p r then f r else r; if q r' then g r' else r' := by
  simp [modify]

lemma filter_modify [DecidableEq κ] (key : α → κ) (k : κ) (p : α → Bool) (f : α → α)
    (rows : List α) (hf : ∀ r, key (f r) = key r) : (modify p f rows).filter (fun r => key r = k) =
      modify p f (rows.filter fun r => key r = k) := by
  induction rows with
  | nil => rfl
  | cons r rows ih =>
    have hk : key (if p r then f r else r) = key r := by split <;> simp [hf]
    simp only [modify,List.map_cons,List.filter_cons,hk] at ih ⊢
    split <;> simp [ih]

lemma eq_of_key_eq (h : (rows.map key).Nodup)
    {x y : α} (hx : x ∈ rows) (hy : y ∈ rows) (hk : key x = key y) : x = y :=
  List.inj_on_of_nodup_map h hx hy hk

/-- At most one row of a keyed table satisfies a condition that fixes the key. -/
theorem countP_le_one (h : (rows.map key).Nodup)
    {k : κ} (hp : ∀ r ∈ rows, p r = true → key r = k) :
    rows.countP p ≤ 1 := by
  induction rows with
  | nil => simp
  | cons r rows ih =>
    simp only [List.map_cons,List.nodup_cons] at h
    have ih := ih h.2 fun x hx => hp x (List.mem_cons_of_mem _ hx)
    by_cases hr : p r = true
    · have hz : rows.countP p = 0 := by
        rw [List.countP_eq_zero]
        intro x hx hpx
        have he := (hp r (by simp) hr).trans (hp x (by simp [hx]) hpx).symm
        exact h.1 (List.mem_map.mpr ⟨x,hx,he.symm⟩)
      simp [hr,hz]
    · simpa [hr] using ih

/-- A keyed table has exactly one row for a condition it meets that fixes the key. -/
theorem countP_eq_one (h : (rows.map key).Nodup)
    {k : κ} (hp : ∀ r ∈ rows, p r = true → key r = k)
    (hr : r ∈ rows) (hpr : p r = true) : rows.countP p = 1 := by
  have hle := countP_le_one h hp
  have hpos : 0 < rows.countP p := List.countP_pos_iff.mpr ⟨r,hr,hpr⟩
  omega

lemma find?_key [DecidableEq κ] (h : (rows.map key).Nodup)
    (hr : r ∈ rows) : rows.find? (fun x => key x = key r) = some r := by
  induction rows with
  | nil => simp at hr
  | cons x rows ih =>
    simp only [List.map_cons,List.nodup_cons] at h
    rcases List.mem_cons.mp hr with rfl | hr'
    · simp
    · have hne : key x ≠ key r := fun he => h.1 (List.mem_map.mpr ⟨r,hr',he.symm⟩)
      simp [hne,ih h.2 hr']

lemma exists_of_countP_eq_one (h : rows.countP p = 1) :
    ∃ r ∈ rows, p r = true :=
  List.countP_pos_iff.mp (by omega)

theorem find?_modify [DecidableEq κ] (k : κ) (p : α → Bool) (f : α → α)
    (rows : List α) (hf : ∀ r, key (f r) = key r) : (modify p f rows).find? (fun r => key r = k) =
      (rows.find? fun r => key r = k).map fun r => if p r then f r else r := by
  induction rows with
  | nil => rfl
  | cons r rows ih =>
    have hk : key (if p r then f r else r) = key r := by split <;> simp [hf]
    simp only [modify,List.map_cons,List.find?_cons,hk] at ih ⊢
    by_cases h : key r = k <;> simp [h,ih]

theorem find?_key_and [DecidableEq κ] (h : (rows.map key).Nodup) (k : κ) (q : α → Bool) :
    rows.find? (fun r => key r = k && q r) = (rows.find? fun r => key r = k).filter q := by
  induction rows with
  | nil => rfl
  | cons r rows ih =>
    simp only [List.map_cons,List.nodup_cons] at h
    by_cases hk : key r = k
    · by_cases hq : q r = true
      · simp [hk,hq,Option.filter]
      · have hnone : rows.find? (fun r => key r = k && q r) = none := by
          rw [List.find?_eq_none]
          intro x hx hh
          simp only [Bool.and_eq_true,decide_eq_true_eq] at hh
          exact h.1 (List.mem_map.mpr ⟨x,hx,hh.1.trans hk.symm⟩)
        simp [hk,hq,hnone,Option.filter]
    · simp [hk,ih h.2]

theorem nodup_append {rows new : List α} (h : (rows.map key).Nodup)
    (hn : (new.map key).Nodup) (hd : ∀ x ∈ new, ∀ r ∈ rows, key r ≠ key x) :
    ((rows++new).map key).Nodup := by
  rw [List.map_append,List.nodup_append]
  refine ⟨h,hn,?_⟩
  intro a ha b hb
  obtain ⟨r,hr,rfl⟩ := List.mem_map.mp ha
  obtain ⟨x,hx,rfl⟩ := List.mem_map.mp hb
  exact hd x hx r hr

theorem countP_of_same_keys {β : Type*} {key' : β → κ}
    {rows' : List β} (h : (rows.map key).Nodup) (h' : (rows'.map key').Nodup)
    (hsame : ∀ k, k ∈ rows.map key ↔ k ∈ rows'.map key') (p : κ → Bool) :
    rows.countP (fun r => p (key r)) = rows'.countP fun r => p (key' r) := by
  have hperm : (rows.map key).Perm (rows'.map key') := (List.perm_ext_iff_of_nodup h h').mpr hsame
  have hcount := hperm.countP_eq p
  rw [List.countP_map,List.countP_map] at hcount
  exact hcount

theorem countP_le_of_forall₂ {R : α → α → Prop} {rows rows' : List α}
    (h : List.Forall₂ R rows rows') (hp : ∀ a b, R a b → p a = true → p b = true) :
    rows.countP p ≤ rows'.countP p := by
  induction h with
  | nil => exact le_rfl
  | @cons a b _ _ hab _ ih =>
    rw [List.countP_cons,List.countP_cons]
    have hone : (if p a = true then 1 else 0) ≤ if p b = true then 1 else 0 := by
      by_cases ha : p a = true
      · simp [ha,hp a b hab ha]
      · simp [ha]
    omega

end Memora.RowTable

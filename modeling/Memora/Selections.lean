import Mathlib

/-! Choosing some items of a list, in any order, and appending the others: nothing is lost and
nothing twice, whatever the choice was. -/
namespace Memora.Selections

variable {α κ : Type*} {a : α}

/-- The slice `l[:k]`. -/
def takeTo (k : ℤ) (l : List α) : List α :=
  if 0 ≤ k then l.take k.toNat else l.take (l.length - k.natAbs)

lemma takeTo_sublist (k : ℤ) (l : List α) : (takeTo k l).Sublist l := by
  unfold takeTo
  by_cases hk : 0 ≤ k
  · rw [if_pos hk]
    exact List.take_sublist _ l
  · rw [if_neg hk]
    exact List.take_sublist _ l

section Backfill

variable [DecidableEq κ] {key : α → κ} {chosen items : List α}

def backfill (key : α → κ) (chosen items : List α) : List α :=
  chosen++items.filter fun a => key a ∉ chosen.map key

lemma mem_backfill (h : chosen.Subperm items) : a ∈ backfill key chosen items → a ∈ items := by
  intro ha
  rcases List.mem_append.mp ha with ha | ha
  · exact h.subset ha
  · exact (List.mem_filter.mp ha).1

lemma mem_backfill_of_mem (hkeys : (items.map key).Nodup) (h : chosen.Subperm items)
    (ha : a ∈ items) : a ∈ backfill key chosen items := by
  by_cases hchosen : key a ∈ chosen.map key
  · obtain ⟨b,hb,hkey⟩ := List.mem_map.mp hchosen
    have hsame : b = a := List.inj_on_of_nodup_map hkeys (h.subset hb) ha hkey
    exact List.mem_append_left _ (hsame ▸ hb)
  · exact List.mem_append_right _ (List.mem_filter.mpr ⟨ha,decide_eq_true hchosen⟩)

lemma nodup_backfill (hnodup : items.Nodup) (h : chosen.Subperm items) :
    (backfill key chosen items).Nodup := by
  obtain ⟨l,hperm,hsub⟩ := h
  have hchosen : chosen.Nodup := hperm.nodup_iff.mp (hnodup.sublist hsub)
  refine List.Nodup.append hchosen (hnodup.filter _) ?_
  intro a ha hrest
  have hout := of_decide_eq_true (List.mem_filter.mp hrest).2
  exact hout (List.mem_map.mpr ⟨a,ha,rfl⟩)

lemma backfill_perm (hkeys : (items.map key).Nodup) (h : chosen.Subperm items) :
    (backfill key chosen items).Perm items := by
  have hnodup : items.Nodup := hkeys.of_map
  rw [List.perm_ext_iff_of_nodup (nodup_backfill hnodup h) hnodup]
  exact fun a => ⟨mem_backfill h,mem_backfill_of_mem hkeys h⟩

end Backfill

theorem append_eraseIdx_perm (chosen : List α) {rest : List α} {i : ℕ}
    (h : rest[i]? = some a) : (chosen++[a]++rest.eraseIdx i).Perm (chosen++rest) := by
  obtain ⟨hi,rfl⟩ := List.getElem?_eq_some_iff.mp h
  rw [List.append_assoc]
  exact (List.getElem_cons_eraseIdx_perm hi).append_left chosen

/-- Items that are dealt out by a key, to different keys, are dealt out once. -/
theorem flatMap_filter_subperm [DecidableEq κ] (key : α → κ) {keys : List κ} (hkeys : keys.Nodup)
    (items : List α) : (keys.flatMap fun k => items.filter fun a => key a = k).Subperm items := by
  induction keys generalizing items with
  | nil => exact List.nil_subperm
  | cons k keys ih =>
    obtain ⟨hk,hkeys⟩ := List.nodup_cons.mp hkeys
    have hothers : (keys.flatMap fun k => items.filter fun a => key a = k) =
        keys.flatMap fun k' => (items.filter fun a => ¬ key a = k).filter fun a => key a = k' := by
      refine List.flatMap_congr fun k' hk' => ?_
      rw [List.filter_filter]
      refine List.filter_congr fun a _ => ?_
      grind
    rw [List.flatMap_cons,hothers]
    refine ((List.Subperm.refl _).append (ih hkeys _)).trans ?_
    simpa using (List.filter_append_perm (fun a => decide (key a = k)) items).subperm

end Memora.Selections

import Memora.RestoreDisk

/-! The plans of a disk by operation. The steps of a restore write one plan of it and leave the
others alone. -/
namespace Memora.Backup
open Restore

variable {C : Type}

abbrev Ledger := List (String × Option RestorePlan)

def Disk.plans (d : Disk C) : Ledger := d.operations.map fun o => (o.operationId,o.plan)

namespace Ledger

def set (L : Ledger) (q : RestorePlan) : Ledger :=
  RowTable.modify (fun e => e.1 = q.operationId) (fun e => (e.1,some q)) L

def Idle (L : Ledger) : Prop := ∀ id q, (id,some q) ∈ L → q.blocking = false

def Settled (L : Ledger) : Prop :=
  ∀ id q, (id,some q) ∈ L → q.status = .validating ∨ q.blocking = false

def Kept (L L' : Ledger) : Prop :=
  ∀ id q, (id,some q) ∈ L → q.blocking = false → (id,some q) ∈ L'

/-- Every plan stands under its own id, at most one blocks, and none is left in the middle of a
rollback. -/
structure Orderly (L : Ledger) : Prop where
  ids : (L.map Prod.fst).Nodup
  own : ∀ id q, (id,some q) ∈ L → q.operationId = id
  handled : ∀ id q, (id,some q) ∈ L → q.status ≠ .rollingBack
  single : ∀ id q id' q', (id,some q) ∈ L → (id',some q') ∈ L → q.blocking = true →
    q'.blocking = true → id = id'

variable {L L' L₀ : Ledger} {id : String} {p q : RestorePlan}

lemma Kept.refl (L : Ledger) : L.Kept L := fun _ _ h _ => h

lemma blocking_of_rollingBack (h : q.status = .rollingBack) : q.blocking = true := by
  rw [RestorePlan.blocking,h]
  rfl

lemma Idle.settled (h : L.Idle) : L.Settled := fun id q hq => .inr (h id q hq)

lemma mem_set {entry : String × Option RestorePlan} : entry ∈ L.set q ↔
      (entry.1 ∈ L.map Prod.fst ∧ entry = (q.operationId,some q)) ∨ (entry ∈ L ∧ entry.1 ≠ q.operationId) := by
  unfold set
  rw [RowTable.mem_modify]
  constructor
  · rintro ⟨old,hold,rfl⟩
    by_cases hid : old.1 = q.operationId
    · have hp : decide (old.1 = q.operationId) = true := by simpa using hid
      rw [if_pos hp]
      exact .inl ⟨List.mem_map.mpr ⟨old,hold,rfl⟩,by rw [hid]⟩
    · have hp : ¬decide (old.1 = q.operationId) = true := by simpa using hid
      rw [if_neg hp]
      exact .inr ⟨hold,hid⟩
  · rintro (⟨hmem,rfl⟩ | ⟨hmem,hid⟩)
    · obtain ⟨old,hold,hkey⟩ := List.mem_map.mp hmem
      refine ⟨old,hold,?_⟩
      have hp : decide (old.1 = q.operationId) = true := by simpa using hkey
      rw [if_pos hp,hkey]
    · refine ⟨entry,hmem,?_⟩
      have hp : ¬decide (entry.1 = q.operationId) = true := by simpa using hid
      rw [if_neg hp]

lemma ids_set : (L.set q).map Prod.fst = L.map Prod.fst :=
  RowTable.map_modify Prod.fst _ _ L fun _ _ _ => rfl

lemma set_set (h : p.operationId = q.operationId) : (L.set p).set q = L.set q := by
  unfold set
  rw [RowTable.modify_modify]
  apply List.map_congr_left
  intro e _
  by_cases hid : e.1 = q.operationId <;> simp [hid,h]

lemma Orderly.set_eq (h : L.Orderly) (hq : (id,some q) ∈ L) : L.set q = L := by
  have hid := h.own id q hq
  have hsame : ∀ e ∈ L, (if e.1 = q.operationId then (e.1,some q) else e) = e := by
    intro e he
    by_cases hkey : e.1 = q.operationId
    · have heq : e = (id,some q) := RowTable.eq_of_key_eq h.ids he hq (hkey.trans hid)
      rw [heq,if_pos hid.symm]
    · rw [if_neg hkey]
  conv_rhs => rw [← List.map_id L]
  apply List.map_congr_left
  intro e he
  simpa using hsame e he

structure Opened (L₀ L : Ledger) (id : String) : Prop where
  ids : (L.map Prod.fst).Nodup
  mem : id ∈ L.map Prod.fst
  others : ∀ id' q, (id',some q) ∈ L → id' ≠ id → q.operationId = id' ∧ q.blocking = false
  kept : ∀ id' q, (id',some q) ∈ L₀ → q.blocking = false → (id',some q) ∈ L ∧ id' ≠ id

namespace Opened

lemma kept_set (h : L₀.Opened L id) (hq : q.operationId = id) : L₀.Kept (L.set q) := by
  intro id' p hp hidle
  obtain ⟨hmem,hne⟩ := h.kept id' p hp hidle
  exact mem_set.mpr (.inr ⟨hmem,hq ▸ hne⟩)

lemma entry (h : L₀.Opened L id) (hq : q.operationId = id) {id' : String}
    (hp : (id',some p) ∈ L.set q) :
    (id' = id ∧ p = q) ∨ (p.operationId = id' ∧ p.blocking = false) := by
  rcases mem_set.mp hp with ⟨-,heq⟩ | ⟨hmem,hne⟩
  · obtain ⟨hid,hplan⟩ := Prod.mk.inj heq
    exact .inl ⟨hid.trans hq,Option.some.inj hplan⟩
  · exact .inr (h.others id' p hmem (hq ▸ hne))

lemma orderly_set (h : L₀.Opened L id) (hq : q.operationId = id)
    (hstatus : q.status ≠ .rollingBack) : (L.set q).Orderly where
  ids := by
    rw [ids_set]
    exact h.ids
  own := by
    intro id' p hp
    rcases h.entry hq hp with ⟨hid,rfl⟩ | ⟨hown,-⟩
    · exact hq.trans hid.symm
    · exact hown
  handled := by
    intro id' p hp
    rcases h.entry hq hp with ⟨-,rfl⟩ | ⟨-,hidle⟩
    · exact hstatus
    · intro hrolling
      rw [blocking_of_rollingBack hrolling] at hidle
      cases hidle
  single := by
    intro id₁ p₁ id₂ p₂ h₁ h₂ hb₁ hb₂
    rcases h.entry hq h₁ with ⟨hid₁,-⟩ | ⟨-,hidle⟩
    · rcases h.entry hq h₂ with ⟨hid₂,-⟩ | ⟨-,hidle⟩
      · exact hid₁.trans hid₂.symm
      · rw [hb₂] at hidle
        cases hidle
    · rw [hb₁] at hidle
      cases hidle

lemma settled_set (h : L₀.Opened L id) (hq : q.operationId = id)
    (hstatus : q.status = .validating ∨ q.blocking = false) : (L.set q).Settled := by
  intro id' p hp
  rcases h.entry hq hp with ⟨-,rfl⟩ | ⟨-,hidle⟩
  · exact hstatus
  · exact .inr hidle

lemma idle_set (h : L₀.Opened L id) (hq : q.operationId = id) (hidle : q.blocking = false) :
    (L.set q).Idle := by
  intro id' p hp
  rcases h.entry hq hp with ⟨-,rfl⟩ | ⟨-,hother⟩
  · exact hidle
  · exact hother

end Opened

lemma Orderly.opened (h : L.Orderly) (hq : (id,some q) ∈ L) (hblocking : q.blocking = true) :
    L.Opened L id where
  ids := h.ids
  mem := List.mem_map.mpr ⟨_,hq,rfl⟩
  others := by
    intro id' p hp hne
    refine ⟨h.own id' p hp,?_⟩
    by_contra hother
    exact hne (h.single id' p id q hp hq (by simpa using hother) hblocking)
  kept := by
    intro id' p hp hidle
    refine ⟨hp,?_⟩
    rintro rfl
    have heq := RowTable.eq_of_key_eq h.ids hp hq rfl
    rw [Option.some.inj (Prod.mk.inj heq).2,hblocking] at hidle
    cases hidle

/-- The same plans; operations without a plan may have come or gone. -/
structure SamePlans (L L' : Ledger) : Prop where
  ids : (L'.map Prod.fst).Nodup
  mem : ∀ id q, (id,some q) ∈ L' ↔ (id,some q) ∈ L

namespace SamePlans

lemma orderly (h : L.SamePlans L') (hL : L.Orderly) : L'.Orderly where
  ids := h.ids
  own := fun id q hq => hL.own id q ((h.mem id q).mp hq)
  handled := fun id q hq => hL.handled id q ((h.mem id q).mp hq)
  single := fun id q id' q' hq hq' =>
    hL.single id q id' q' ((h.mem id q).mp hq) ((h.mem id' q').mp hq')

lemma kept (h : L.SamePlans L') : L.Kept L' := fun id q hq _ => (h.mem id q).mpr hq

lemma idle (h : L.SamePlans L') (hL : L.Idle) : L'.Idle :=
  fun id q hq => hL id q ((h.mem id q).mp hq)

theorem opened (h : L.SamePlans L') (hL : L.Orderly) (hidle : L.Idle)
    (hmem : id ∈ L'.map Prod.fst) (hfresh : ∀ q, (id,some q) ∉ L) : L.Opened L' id where
  ids := h.ids
  mem := hmem
  others := fun id' q hq _ =>
    have hold := (h.mem id' q).mp hq
    ⟨hL.own id' q hold,hidle id' q hold⟩
  kept := by
    intro id' q hq _
    refine ⟨(h.mem id' q).mpr hq,?_⟩
    rintro rfl
    exact hfresh q hq

end SamePlans

end Ledger

variable {d : Disk C} {id name : String} {q : RestorePlan}

@[simp] lemma plans_writePlan : (d.writePlan q).plans = d.plans.set q := by
  unfold Disk.plans Disk.writePlan Disk.modifyOperation Ledger.set RowTable.modify
  simp only [List.map_map]
  apply List.map_congr_left
  intro o _
  by_cases hid : o.operationId = q.operationId <;> simp [hid]

lemma plans_modifyOperation {f : Operation C → Operation C}
    (hid : ∀ o, (f o).operationId = o.operationId) (hplan : ∀ o, (f o).plan = o.plan) :
    (d.modifyOperation id f).plans = d.plans := by
  refine RowTable.map_modify _ _ f d.operations fun o _ _ => ?_
  rw [hid,hplan]

@[simp] lemma plans_moveToPrevious : (moveToPrevious id name d).plans = d.plans := by
  exact plans_modifyOperation (fun _ => rfl) fun _ => rfl

@[simp] lemma plans_installPayload : (installPayload id name d).plans = d.plans := by
  unfold installPayload
  cases d.operation? id with
  | none => rfl
  | some operation =>
    exact plans_modifyOperation (fun _ => rfl) fun _ => rfl

@[simp] lemma plans_moveBack : (moveBack id name d).plans = d.plans := by
  unfold moveBack
  cases d.operation? id with
  | none => rfl
  | some operation =>
    exact plans_modifyOperation (fun _ => rfl) fun _ => rfl

@[simp] lemma plans_unlinkLive : (unlinkLive name d).plans = d.plans := rfl

@[simp] lemma plans_moveLegacy : (moveLegacy id name d).plans = d.plans := by
  exact plans_modifyOperation (fun _ => rfl) fun _ => rfl

@[simp] lemma plans_copyPayload (file : String × C) : (copyPayload id file d).plans = d.plans := by
  exact plans_modifyOperation (fun _ => rfl) fun _ => rfl

lemma samePlans_newOperation (hids : (d.plans.map Prod.fst).Nodup)
    (hfresh : d.operation? id = none) :
    d.plans.SamePlans (newOperation id d).plans ∧ id ∈ (newOperation id d).plans.map Prod.fst ∧
      ∀ q, (id,some q) ∉ d.plans := by
  have hperm : (newOperation id d).plans.Perm ((id,none)::d.plans) :=
    (List.perm_orderedInsert _ _ d.operations).map _
  have hnot : ∀ o ∈ d.operations, o.operationId ≠ id := by
    simpa using List.find?_eq_none.mp hfresh
  have hfst : id ∉ d.plans.map Prod.fst := by
    intro hmem
    rw [Disk.plans,List.map_map] at hmem
    obtain ⟨o,ho,hid⟩ := List.mem_map.mp hmem
    exact hnot o ho hid
  refine ⟨⟨?_,fun id' q => ?_⟩,?_,fun q hq => hfst (List.mem_map.mpr ⟨_,hq,rfl⟩)⟩
  · have hperm := hperm.map Prod.fst
    exact hperm.nodup_iff.mpr (List.nodup_cons.mpr ⟨hfst,hids⟩)
  · rw [hperm.mem_iff,List.mem_cons]
    constructor
    · rintro (heq | hmem)
      · cases (Prod.mk.inj heq).2
      · exact hmem
    · exact .inr
  · exact (hperm.map Prod.fst).mem_iff.mpr List.mem_cons_self

lemma samePlans_removeOperation (hids : (d.plans.map Prod.fst).Nodup)
    (hfresh : ∀ q, (id,some q) ∉ d.plans) : d.plans.SamePlans (removeOperation id d).plans := by
  have hplans : (removeOperation id d).plans = d.plans.filter fun e => e.1 ≠ id := by
    unfold Disk.plans removeOperation
    rw [List.filter_map]
    rfl
  refine ⟨?_,fun id' q => ?_⟩
  · rw [hplans]
    exact hids.sublist (List.filter_sublist.map Prod.fst)
  · rw [hplans,List.mem_filter]
    constructor
    · exact fun h => h.1
    · intro h
      refine ⟨h,?_⟩
      have hne : id' ≠ id := by
        rintro rfl
        exact hfresh q h
      simpa using hne

lemma planOf_mem (h : d.planOf id = some q) : (id,some q) ∈ d.plans := by
  obtain ⟨o,ho,hplan⟩ := planOf_some h
  have hid : o.operationId = id := by simpa using List.find?_some ho
  exact List.mem_map.mpr ⟨o,List.mem_of_find?_eq_some ho,by rw [hid,hplan]⟩

lemma planOf_eq (hids : (d.plans.map Prod.fst).Nodup) (h : (id,some q) ∈ d.plans) :
    d.planOf id = some q := by
  obtain ⟨o,ho,heq⟩ := List.mem_map.mp h
  obtain ⟨rfl,hplan⟩ := Prod.mk.inj heq
  have hnodup : (d.operations.map fun o => o.operationId).Nodup := by
    rw [Disk.plans,List.map_map] at hids
    exact hids
  have hfound : d.operation? o.operationId = some o := RowTable.find?_key hnodup ho
  rw [Disk.planOf,hfound,Option.bind_some,hplan]

lemma mem_plans : q ∈ d.operations.filterMap (·.plan) ↔ ∃ id, (id,some q) ∈ d.plans := by
  constructor
  · intro h
    obtain ⟨o,ho,hplan⟩ := List.mem_filterMap.mp h
    exact ⟨o.operationId,List.mem_map.mpr ⟨o,ho,by rw [hplan]⟩⟩
  · rintro ⟨id,h⟩
    obtain ⟨o,ho,heq⟩ := List.mem_map.mp h
    exact List.mem_filterMap.mpr ⟨o,ho,(Prod.mk.inj heq).2⟩

lemma readPlan_cases (d : Disk C) : (d.readPlan = none ∧ ∀ id q, (id,some q) ∉ d.plans) ∨
      ∃ id q, d.readPlan = some q ∧ (id,some q) ∈ d.plans ∧ (q.blocking = true ∨ d.plans.Idle) := by
  unfold Disk.readPlan
  cases hfound : (d.operations.filterMap (·.plan)).find? RestorePlan.blocking with
  | some q =>
    obtain ⟨id,hq⟩ := mem_plans.mp (List.mem_of_find?_eq_some hfound)
    exact .inr ⟨id,q,by simp [hfound],hq,.inl (List.find?_some hfound)⟩
  | none =>
    have hidle : d.plans.Idle := by
      intro id q hq
      simpa using List.find?_eq_none.mp hfound q (mem_plans.mpr ⟨id,hq⟩)
    cases hlast : (d.operations.filterMap (·.plan)).getLast? with
    | none =>
      refine .inl ⟨by simp [hfound,hlast],fun id q hq => ?_⟩
      have hmem := mem_plans.mpr ⟨id,hq⟩
      rw [List.getLast?_eq_none_iff.mp hlast] at hmem
      cases hmem
    | some q =>
      obtain ⟨id,hq⟩ := mem_plans.mp (List.mem_of_getLast? hlast)
      exact .inr ⟨id,q,by simp [hfound,hlast],hq,.inr hidle⟩

/-- `get_maintenance_state` reports a block. -/
def Disk.blocked (d : Disk C) : Bool := d.readPlan.any RestorePlan.blocking

lemma blocked_eq_false : d.blocked = false ↔ d.plans.Idle := by
  unfold Disk.blocked
  rcases readPlan_cases d with ⟨hnone,hempty⟩ | ⟨id,q,hread,hq,hcase⟩
  · rw [hnone]
    exact ⟨fun _ id q hq => absurd hq (hempty id q),fun _ => rfl⟩
  · rw [hread,Option.any_some]
    constructor
    · intro hidle
      rcases hcase with hblocking | hall
      · rw [hblocking] at hidle
        cases hidle
      · exact hall
    · exact fun hidle => hidle id q hq

end Memora.Backup

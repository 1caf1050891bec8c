import Memora.RestoreTransaction

/-! For one operation: its plan, the live directory, the payload and the previous files after each
operation on the disk. -/
namespace Memora.Backup
open Restore

variable {C : Type} {d : Disk C} {id other name n : String} {o : Operation C}

lemma operation?_modify (f : Operation C → Operation C)
    (hf : ∀ o, (f o).operationId = o.operationId) (hid : id = other) :
    (d.modifyOperation id f).operation? other = (d.operation? other).map f := by
  subst hid
  unfold Disk.modifyOperation Disk.operation?
  rw [RowTable.find?_modify id _ f d.operations hf]
  cases hfound : d.operations.find? fun o => o.operationId = id with
  | none => rfl
  | some o =>
    have hkey : o.operationId = id := by simpa using List.find?_some hfound
    simp [hkey]

lemma operation?_modify_of_ne (f : Operation C → Operation C)
    (hf : ∀ o, (f o).operationId = o.operationId) (hid : other ≠ id) :
    (d.modifyOperation id f).operation? other = d.operation? other := by
  unfold Disk.modifyOperation Disk.operation?
  rw [RowTable.find?_modify other _ f d.operations hf]
  cases hfound : d.operations.find? fun o => o.operationId = other with
  | none => rfl
  | some o =>
    have hkey : o.operationId = other := by simpa using List.find?_some hfound
    simp [hkey,hid]

lemma planOf_some {plan : RestorePlan} (h : d.planOf id = some plan) :
    ∃ o, d.operation? id = some o ∧ o.plan = some plan := by
  exact Option.bind_eq_some_iff.mp h

lemma payloadOf_eq (h : d.operation? id = some o) : payloadOf d id = o.payload := by
  simp [payloadOf,h]

lemma previousOf_eq (h : d.operation? id = some o) : previousOf d id = o.previous := by
  simp [previousOf,h]

lemma planOf_writePlan {plan old : RestorePlan} (h : d.planOf plan.operationId = some old) :
    (d.writePlan plan).planOf plan.operationId = some plan := by
  obtain ⟨o,ho,-⟩ := planOf_some h
  rw [Disk.planOf,Disk.writePlan,operation?_modify _ ?_ rfl,ho]
  · rfl
  · exact fun _ => rfl

variable (plan : RestorePlan)

@[simp] lemma live_writePlan : (d.writePlan plan).live = d.live := rfl

@[simp] lemma payloadOf_writePlan : payloadOf (d.writePlan plan) id = payloadOf d id := by
  unfold payloadOf Disk.writePlan
  by_cases hid : plan.operationId = id
  · rw [operation?_modify _ ?_ hid,Option.map_map]
    · rfl
    · exact fun _ => rfl
  · rw [operation?_modify_of_ne _ ?_ (Ne.symm hid)]
    exact fun _ => rfl

@[simp] lemma previousOf_writePlan : previousOf (d.writePlan plan) id = previousOf d id := by
  unfold previousOf Disk.writePlan
  by_cases hid : plan.operationId = id
  · rw [operation?_modify _ ?_ hid,Option.map_map]
    · rfl
    · exact fun _ => rfl
  · rw [operation?_modify_of_ne _ ?_ (Ne.symm hid)]
    exact fun _ => rfl

lemma moveToPrevious_live : (moveToPrevious id name d).live = d.live.put name none := rfl

section
variable {o : Operation C} (ho : d.operation? id = some o)
include ho

lemma moveToPrevious_operation : (moveToPrevious id name d).operation? id =
      some { o with previous := o.previous.put name (d.live name) } := by
  change (d.modifyOperation id _).operation? id = _
  rw [operation?_modify _ ?_ rfl,ho]
  · rfl
  · exact fun _ => rfl

lemma installPayload_operation : (installPayload id name d).operation? id =
      some { o with payload := o.payload.put name none } := by
  simp only [installPayload,ho]
  change (d.modifyOperation id _).operation? id = _
  rw [operation?_modify _ ?_ rfl,ho]
  · rfl
  · exact fun _ => rfl

lemma installPayload_live : (installPayload id name d).live = d.live.put name (o.payload name) := by
  simp only [installPayload,ho]

lemma moveBack_operation : (moveBack id name d).operation? id =
      some { o with previous := o.previous.put name none } := by
  simp only [moveBack,ho]
  change (d.modifyOperation id _).operation? id = _
  rw [operation?_modify _ ?_ rfl,ho]
  · rfl
  · exact fun _ => rfl

lemma moveBack_live : (moveBack id name d).live = d.live.put name (o.previous name) := by
  simp only [moveBack,ho]

end

lemma isDatabaseName_ne_walName {m : String} (h : isDatabaseName m = true) (n : String) :
    m ≠ walName n := by
  rintro rfl
  have hlast : (walName n).toList.getLast? = some 'l' := by
    simp [walName]
  unfold isDatabaseName endsIn at h
  simp only [Bool.or_eq_true,List.isSuffixOf_iff_suffix] at h
  rcases h with ⟨part,hpart⟩ | ⟨part,hpart⟩ <;> rw [← hpart] at hlast <;> simp at hlast

variable {sqlite : Sqlite C} {dir : Directory C}

/-- A database whose log replays nothing stays as it is. -/
theorem settled_same (hinert : ∀ c, sqlite.settle c (dir.content? (walName name)) = c) :
    sqlite.settled dir name name = dir name := by
  unfold Sqlite.settled
  cases hentry : dir name with
  | none => exact hentry
  | some entry =>
    cases entry with
    | symlink target => exact hentry
    | file content =>
      change Directory.put _ name _ name = _
      rw [Directory.put_same,hinert]

lemma settled_cases (sqlite : Sqlite C) (dir : Directory C) (name : String) :
    sqlite.settled dir name = dir ∨ ∃ content,
      sqlite.settled dir name = (dir.put (walName name) none).put name (some (.file content)) := by
  unfold Sqlite.settled
  split
  · exact .inr ⟨_,rfl⟩
  · exact .inl rfl

lemma settled_other (hname : n ≠ name) (hwal : n ≠ walName name) :
    sqlite.settled dir name n = dir n := by
  rcases settled_cases sqlite dir name with hsame | ⟨content,hsettled⟩
  · rw [hsame]
  · rw [hsettled,Directory.put_of_ne _ _ hname,Directory.put_of_ne _ _ hwal]

lemma settled_log (dir : Directory C) (hname : walName n ≠ name) :
    (sqlite.settled dir name).content? (walName n) = none ∨
      (sqlite.settled dir name).content? (walName n) = dir.content? (walName n) := by
  unfold Directory.content?
  rcases settled_cases sqlite dir name with hsame | ⟨content,hsettled⟩
  · rw [hsame]
    exact .inr rfl
  · rw [hsettled,Directory.put_of_ne _ _ hname]
    by_cases hwal : walName n = walName name
    · rw [hwal,Directory.put_same]
      exact .inl rfl
    · rw [Directory.put_of_ne _ _ hwal]
      exact .inr rfl

end Memora.Backup

import Memora.RepresentationPlans
import Memora.ExceptLaws

/-! What a plan that was read satisfies, and which plans are read back as they were written. -/
namespace Memora.Representation
open Canonical ExceptLaws

structure MigrationPlanItem.Valid (item : MigrationPlanItem) : Prop where
  id : 1 ≤ item.memoryId
  revision : blank item.expectedRevision = false
  stripped : pythonStrip item.expectedRevision = item.expectedRevision
  owner : match item.action with
    | .representationRewrite => item.ownerMemoryId = none ∧ item.ownerExpectedRevision = none
    | .ownerReinforce => ∃ id revision, item.ownerMemoryId = some id ∧ 1 ≤ id ∧
        item.ownerExpectedRevision = some revision ∧ blank revision = false ∧
        pythonStrip revision = revision

structure MigrationPlan.Valid (codec : Codec) (plan : MigrationPlan) : Prop where
  confirmation : blank plan.operatorConfirmation = false
  stripped : pythonStrip plan.operatorConfirmation = plan.operatorConfirmation
  nonempty : plan.items ≠ []
  items : ∀ item ∈ plan.items, item.Valid
  distinct : (plan.items.map MigrationPlanItem.memoryId).Nodup
  sorted : plan.items.Pairwise fun a b => a.memoryId ≤ b.memoryId
  fingerprint : plan.fingerprint = planFingerprint codec plan.items

lemma pythonStrip_pythonStrip (s : String) : pythonStrip (pythonStrip s) = pythonStrip s :=
  stripWhere_stripWhere _ _

lemma blank_pythonStrip (s : String) : blank (pythonStrip s) = blank s := by
  unfold blank
  rw [pythonStrip_pythonStrip]

variable {value : Option Json} {item : MigrationPlanItem} {s : String} {plan : MigrationPlan}

lemma readId_ok {n : ℤ} (h : readId value = .ok n) : 1 ≤ n := by
  unfold readId at h
  split at h
  · split at h
    · cases h
    · rename_i hn
      cases h
      omega
  · cases h

lemma readRevision_ok (h : readRevision value = .ok s) : blank s = false ∧ pythonStrip s = s := by
  unfold readRevision at h
  split at h
  · split at h
    · cases h
    · rename_i s' hs
      obtain rfl := Except.ok.inj h
      exact ⟨by simpa [blank_pythonStrip] using hs,pythonStrip_pythonStrip s'⟩
  · cases h

lemma parsePlanItem_ok {entry : Json} (h : parsePlanItem entry = .ok item) : item.Valid := by
  unfold parsePlanItem at h
  split at h
  · obtain ⟨_,-,h⟩ := bind_ok h
    obtain ⟨memoryId,hid,h⟩ := bind_ok h
    obtain ⟨action,-,h⟩ := bind_ok h
    obtain ⟨revision,hrevision,h⟩ := bind_ok h
    have hone := readId_ok hid
    obtain ⟨hblank,hstrip⟩ := readRevision_ok hrevision
    cases action with
    | ownerReinforce =>
      obtain ⟨ownerId,howner,h⟩ := bind_ok h
      obtain ⟨ownerRevision,hownerRevision,h⟩ := bind_ok h
      cases h
      obtain ⟨hownerBlank,hownerStrip⟩ := readRevision_ok hownerRevision
      exact ⟨hone,hblank,hstrip,ownerId,ownerRevision,rfl,readId_ok howner,rfl,hownerBlank, hownerStrip⟩
    | representationRewrite =>
      obtain ⟨_,-,h⟩ := bind_ok h
      cases h
      exact ⟨hone,hblank,hstrip,rfl,rfl⟩
  · cases h

lemma readItems_ok {items : List MigrationPlanItem} (h : readItems value = .ok items) :
    items ≠ [] ∧ ∀ item ∈ items, item.Valid := by
  unfold readItems at h
  split at h
  · cases h
  · rename_i entries hentries
    refine ⟨?_,fun item hitem => ?_⟩
    · rintro rfl
      cases entries with
      | nil => exact hentries rfl
      | cons entry entries =>
        rw [List.mapM_cons] at h
        obtain ⟨_,-,h⟩ := bind_ok h
        obtain ⟨_,-,h⟩ := bind_ok h
        cases Except.ok.inj h
    · obtain ⟨entry,-,hentry⟩ := mapM_ok h item hitem
      exact parsePlanItem_ok hentry
  · cases h

lemma readConfirmation_ok (h : readConfirmation value = .ok s) :
    blank s = false ∧ pythonStrip s = s := by
  unfold readConfirmation at h
  split at h
  · split at h
    · cases h
    · rename_i s' hs
      obtain rfl := Except.ok.inj h
      exact ⟨by simpa [blank_pythonStrip] using hs,pythonStrip_pythonStrip s'⟩
  · cases h

lemma refuseIf_ok {bad : Bool} {error : PlanError} {u : Unit} (h : refuseIf bad error = .ok u) :
    bad = false := by
  cases bad with
  | false => rfl
  | true => cases h

lemma sortItems_perm (items : List MigrationPlanItem) : (sortItems items).Perm items :=
  List.mergeSort_perm items _

lemma sortItems_sorted (items : List MigrationPlanItem) :
    (sortItems items).Pairwise fun a b => a.memoryId ≤ b.memoryId := by
  have h : (sortItems items).Pairwise fun a b => decide (a.memoryId ≤ b.memoryId) = true :=
    List.pairwise_mergeSort (fun a b c hab hbc => by simp only [decide_eq_true_eq] at *; omega)
      (fun a b => by simp only [Bool.or_eq_true,decide_eq_true_eq]; omega) items
  exact h.imp fun hab => by simpa using hab

lemma parse_valid {codec : Codec} {payload : Payload}
    (h : MigrationPlan.parse codec payload = .ok plan) : plan.Valid codec := by
  obtain ⟨document,-,h⟩ := bind_ok h
  obtain ⟨_,-,h⟩ := bind_ok h
  obtain ⟨_,-,h⟩ := bind_ok h
  obtain ⟨_,-,h⟩ := bind_ok h
  obtain ⟨confirmation,hconfirmation,h⟩ := bind_ok h
  obtain ⟨items,hitems,h⟩ := bind_ok h
  obtain ⟨_,hdistinct,h⟩ := bind_ok h
  cases h
  obtain ⟨hblank,hstrip⟩ := readConfirmation_ok hconfirmation
  obtain ⟨hnonempty,hvalid⟩ := readItems_ok hitems
  have hnodup : (items.map MigrationPlanItem.memoryId).Nodup := by
    simpa using refuseIf_ok hdistinct
  have hperm := sortItems_perm items
  exact {
    confirmation := hblank
    stripped := hstrip
    nonempty := fun hnil => hnonempty (List.Perm.nil_eq (hnil ▸ hperm)).symm
    items := fun item hitem => hvalid item (hperm.mem_iff.mp hitem)
    distinct := (hperm.map _).nodup_iff.mpr hnodup
    sorted := sortItems_sorted items
    fingerprint := rfl }

lemma readRevision_str (hblank : blank s = false) (hstrip : pythonStrip s = s) :
    readRevision (some (.str s)) = .ok s := by
  simp [readRevision,hblank,hstrip]

lemma readId_int {n : ℤ} (h : 1 ≤ n) : readId (some (.int n)) = .ok n := by
  have hn : ¬n < 1 := by omega
  simp [readId,hn]

lemma parsePlanItem_toPayload (h : item.Valid) : parsePlanItem item.toPayload = .ok item := by
  obtain ⟨memoryId,action,revision,ownerId,ownerRevision⟩ := item
  obtain ⟨hid,hblank,hstrip,howner⟩ := h
  have hread := readRevision_str hblank hstrip
  have hkey := readId_int hid
  cases action with
  | representationRewrite =>
    obtain ⟨rfl,rfl⟩ := howner
    simp [parsePlanItem,MigrationPlanItem.toPayload,lookup,planItemKeys,refuseIf,readAction,
      Action.text,isNone,hkey,hread,bind,Except.bind,pure,Except.pure]
  | ownerReinforce =>
    obtain ⟨id,own,rfl,hone,rfl,hownBlank,hownStrip⟩ := howner
    have hownKey := readId_int hone
    have hownRead := readRevision_str hownBlank hownStrip
    simp [parsePlanItem,MigrationPlanItem.toPayload,lookup,planItemKeys,refuseIf,readAction,
      Action.text,hkey,hread,hownKey,hownRead,bind,Except.bind,pure,Except.pure]

/-- A well-formed plan is read back from what it is written as. -/
theorem parse_payload {codec : Codec} (h : plan.Valid codec) :
    MigrationPlan.parse codec (.mapping plan.payload) = .ok plan := by
  obtain ⟨confirmation,items,fingerprint⟩ := plan
  obtain ⟨hblank,hstrip,hnonempty,hvalid,hdistinct,hsorted,hfingerprint⟩ := h
  have hitems : (items.map MigrationPlanItem.toPayload).mapM parsePlanItem = .ok items :=
    mapM_map_ok fun item hitem => parsePlanItem_toPayload (hvalid item hitem)
  have hread : readItems (some (.arr (items.map MigrationPlanItem.toPayload))) = .ok items := by
    cases items with
    | nil => exact absurd rfl hnonempty
    | cons item items => exact hitems
  have hconfirmation : readConfirmation (some (.str confirmation)) = .ok confirmation := by
    simp only [readConfirmation,hblank,hstrip]
    rfl
  have hsort : sortItems items = items :=
    List.mergeSort_of_pairwise (hsorted.imp fun hab => by simpa using hab)
  have hsame : planFingerprint codec items = fingerprint := hfingerprint.symm
  simp only [MigrationPlan.parse,loadJsonPayload,MigrationPlan.payload]
  simp [lookup,planKeys,isText,refuseIf,hconfirmation,hread,hdistinct,hsort,hsame,bind,
    Except.bind,pure,Except.pure]

end Memora.Representation

import Memora.CleanupModels
import Memora.RunLaws

/-! A pass acts on what a scan has collected, some time after it. Where the others leave the status
of the collected memories alone, every memory moves one stage, from the status that it has. -/
namespace Memora.Lifecycle
open Canonical RunLaws

def World.pending (w : World) : List ℕ :=
  w.collected .dormant++w.collected .archived++w.collected .deleted

def moves (acts : List Act) (collected : Collected) (id : ℕ) : ℕ :=
  (acts.map Act.id).count id+(collected .dormant).count id+(collected .archived).count id +
    (collected .deleted).count id

/-- The table and the lists of a pass: a collected memory that is still there has the status that
it was collected with. -/
structure Sound (rows : List Row) (acts : List Act) (collected : Collected) : Prop where
  ids : (rows.map Row.id).Nodup
  source : ∀ stage, ∀ r ∈ rows, r.id ∈ collected stage → r.status = stage.source
  once : ∀ id, moves acts collected id ≤ 1
  proper : ∀ act ∈ acts, act.status = act.stage.source

def Phase.Unread (phase : Phase) (rows : List Row) (acts : List Act) (collected : Collected) :
    Prop :=
  match phase with
  | .counting => acts = [] ∧ ∀ stage, collected stage = []
  | .scanning offset _ => acts = [] ∧ ∀ r ∈ rows.drop offset, ∀ stage, r.id ∉ collected stage
  | _ => True

structure World.Sound (w : World) : Prop where
  lists : Lifecycle.Sound w.rows w.acts w.collected
  unread : w.phase.Unread w.rows w.acts w.collected

variable {stage : Stage} {settings : Settings} {clock : ℕ → ℚ} {fields : Fields}

lemma classify_source {clock : ℚ}
    (h : classify settings clock fields = some stage) : effectiveStatus fields = stage.source := by
  unfold classify at h
  simp only at h
  split at h
  · rename_i hold
    cases h
    exact hold.1
  · split at h
    · rename_i hold
      cases h
      exact hold.1
    · split at h
      · rename_i hold
        cases h
        exact hold.1
      · cases h

lemma Row.status_scanned {row : Row} (h : row.metadata.scanned = some fields) :
    row.status = effectiveStatus fields := by
  unfold Row.status
  cases hcolumn : row.metadata with
  | object own =>
    rw [hcolumn] at h
    rw [Option.some.inj h]
  | blank | invalid =>
    rw [hcolumn] at h
    cases h
    rfl
  | other =>
    rw [hcolumn] at h
    cases h

lemma collect_adds {docs : List Row}
    {collected result : Collected} (h : collect settings clock docs collected = some result) :
    ∃ added : Stage → List Row, (∀ stage, result stage = collected stage++(added stage).map Row.id) ∧
      (∀ stage, ∀ r ∈ added stage, r ∈ docs ∧ r.status = stage.source) ∧
      ∀ id, ((added .dormant).map Row.id).count id+((added .archived).map Row.id).count id +
        ((added .deleted).map Row.id).count id ≤ (docs.map Row.id).count id := by
  induction docs generalizing collected with
  | nil =>
    cases h
    exact ⟨fun _ => [],by simp,by simp,by simp⟩
  | cons doc docs ih =>
    rw [collect] at h
    cases hscan : doc.metadata.scanned with
    | none =>
      rw [hscan] at h
      cases h
    | some fields =>
      rw [hscan] at h
      simp only at h
      cases hclass : classify settings (clock doc.id) fields with
      | none =>
        rw [hclass] at h
        obtain ⟨added,hlists,hmem,hcount⟩ := ih h
        refine ⟨added,hlists,fun stage r hr => ?_,fun id => ?_⟩
        · exact ⟨List.mem_cons_of_mem doc (hmem stage r hr).1,(hmem stage r hr).2⟩
        · have hrest := hcount id
          rw [List.map_cons,List.count_cons]
          omega
      | some stage =>
        rw [hclass] at h
        obtain ⟨added,hlists,hmem,hcount⟩ := ih h
        have hsource : doc.status = stage.source := (Row.status_scanned hscan).trans (classify_source hclass)
        refine ⟨Function.update added stage (doc::added stage),fun other => ?_,
          fun other r hr => ?_,fun id => ?_⟩
        · rw [hlists other]
          by_cases hother : other = stage
          · subst hother
            simp
          · simp [hother]
        · by_cases hother : other = stage
          · subst hother
            rw [Function.update_self] at hr
            rcases List.mem_cons.mp hr with rfl | hr
            · exact ⟨List.mem_cons_self,hsource⟩
            · exact ⟨List.mem_cons_of_mem doc (hmem other r hr).1,(hmem other r hr).2⟩
          · rw [Function.update_of_ne hother] at hr
            exact ⟨List.mem_cons_of_mem doc (hmem other r hr).1,(hmem other r hr).2⟩
        · have hrest := hcount id
          cases stage <;> simp only [Function.update_self,ne_eq,reduceCtorEq,not_false_eq_true,
              Function.update_of_ne,List.map_cons,List.count_cons] <;>
            omega

variable {rows : List Row}

lemma count_le_one (h : (rows.map Row.id).Nodup) (id : ℕ) :
    (rows.map Row.id).count id ≤ 1 := List.nodup_iff_count_le_one.mp h id

lemma Sound.collect {rows docs : List Row}
    {collected result : Collected} (h : Sound rows [] collected) (hdocs : docs.Sublist rows)
    (hnew : ∀ r ∈ docs, ∀ stage, r.id ∉ collected stage)
    (hcollect : collect settings clock docs collected = some result) :
    Sound rows [] result ∧
      ∀ r ∈ rows, r.id ∉ docs.map Row.id → (∀ stage, r.id ∉ collected stage) →
        ∀ stage, r.id ∉ result stage := by
  obtain ⟨added,hlists,hmem,hcount⟩ := collect_adds hcollect
  refine ⟨⟨h.ids,fun stage r hr hid => ?_,fun id => ?_,h.proper⟩,fun r _ hout hold stage => ?_⟩
  · rw [hlists stage] at hid
    rcases List.mem_append.mp hid with hid | hid
    · exact h.source stage r hr hid
    · obtain ⟨own,hown,heq⟩ := List.mem_map.mp hid
      obtain ⟨hdoc,hstatus⟩ := hmem stage own hown
      have hsame : own = r := RowTable.eq_of_key_eq h.ids (hdocs.subset hdoc) hr heq
      exact hsame ▸ hstatus
  · have hadded := hcount id
    have hold := h.once id
    unfold moves at hold ⊢
    simp only [hlists,List.count_append]
    by_cases hid : id ∈ docs.map Row.id
    · obtain ⟨r,hr,rfl⟩ := List.mem_map.mp hid
      have hzero : ∀ stage, (collected stage).count r.id = 0 :=
        fun stage => List.count_eq_zero.mpr (hnew r hr stage)
      have hone := count_le_one (h.ids.sublist (hdocs.map Row.id)) r.id
      have hd := hzero .dormant
      have ha := hzero .archived
      have hx := hzero .deleted
      simp only [List.map_nil,List.count_nil]
      omega
    · have hzero : (docs.map Row.id).count id = 0 := List.count_eq_zero.mpr hid
      omega
  · rw [hlists stage]
    intro hid
    rcases List.mem_append.mp hid with hid | hid
    · exact hold stage hid
    · obtain ⟨own,hown,heq⟩ := List.mem_map.mp hid
      exact hout (heq ▸ List.mem_map_of_mem (hmem stage own hown).1)

variable {w : World}

lemma readPage_sound {offset total : ℕ} (h : w.Sound)
    (hphase : w.phase = .scanning offset total) : (w.readPage clock offset total).Sound := by
  obtain ⟨hlists,hunread⟩ := h
  rw [hphase] at hunread
  obtain ⟨hacts,hunread⟩ := hunread
  have hdone : ∀ phase : Phase, (∀ rows acts collected, phase.Unread rows acts collected) →
      World.Sound { w with phase } := fun _ hfree => ⟨hlists,hfree _ _ _⟩
  unfold World.readPage
  by_cases hlt : offset < total
  · rw [if_pos hlt]
    by_cases hempty : (w.rows.drop offset).take batchSize = []
    · rw [if_pos hempty]
      exact hdone _ fun _ _ _ => trivial
    rw [if_neg hempty]
    cases hcollect : collect w.settings clock ((w.rows.drop offset).take batchSize) w.collected with
    | none => exact hdone _ fun _ _ _ => trivial
    | some result =>
      have hpage : ((w.rows.drop offset).take batchSize).Sublist w.rows :=
        (List.take_sublist _ _).trans (List.drop_sublist _ _)
      have hnew : ∀ r ∈ (w.rows.drop offset).take batchSize, ∀ stage, r.id ∉ w.collected stage :=
        fun r hr => hunread r (List.mem_of_mem_take hr)
      have hbefore : Sound w.rows [] w.collected := hacts ▸ hlists
      obtain ⟨hsound,hrest⟩ := hbefore.collect hpage hnew hcollect
      by_cases hshort : ((w.rows.drop offset).take batchSize).length < batchSize
      · simp only [if_pos hshort]
        exact ⟨hacts ▸ hsound,trivial⟩
      · simp only [if_neg hshort]
        refine ⟨hacts ▸ hsound,hacts,fun r hr => ?_⟩
        have hlen : ((w.rows.drop offset).take batchSize).length = batchSize := by
          have hle := List.length_take_le batchSize (w.rows.drop offset)
          omega
        rw [hlen,← List.drop_drop] at hr
        refine hrest r ?_ ?_ ?_
        · exact List.mem_of_mem_drop (List.mem_of_mem_drop hr)
        · -- the pages that follow hold other memories
          have hids : ((w.rows.drop offset).map Row.id).Nodup :=
            hlists.ids.sublist ((List.drop_sublist _ _).map _)
          have hapart := List.disjoint_take_drop hids (le_refl batchSize)
          rw [List.map_take]
          intro hmem
          refine hapart hmem ?_
          rw [← List.map_drop]
          exact List.mem_map_of_mem hr
        · exact hunread r (List.mem_of_mem_drop hr)
  · rw [if_neg hlt]
    exact hdone _ fun _ _ _ => trivial

variable {acts : List Act}

lemma Sound.shrink {collected result : Collected} (h : Sound rows acts collected)
    (hsub : ∀ stage, (result stage).Sublist (collected stage)) : Sound rows acts result where
  ids := h.ids
  source := fun stage r hr hid => h.source stage r hr ((hsub stage).subset hid)
  once := by
    intro id
    have hold := h.once id
    have hdormant := (hsub .dormant).count_le id
    have harchived := (hsub .archived).count_le id
    have hdeleted := (hsub .deleted).count_le id
    unfold moves at hold ⊢
    omega
  proper := h.proper

variable {collected : Collected} {rest : List ℕ} {change : Change}

lemma sublist_update (h : rest.Sublist (collected stage)) (other : Stage) :
    (Function.update collected stage rest other).Sublist (collected other) := by
  by_cases hother : other = stage
  · subst hother
    rw [Function.update_self]
    exact h
  · rw [Function.update_of_ne hother]

lemma Sound.move {row : Row} {metadata : Column} (h : Sound rows acts collected)
    (hrow : row ∈ rows) (hstage : collected stage = row.id::rest) :
    Sound (RowTable.modify (fun r => r.id = row.id) (fun r => { r with metadata }) rows)
      (acts++[⟨stage,row.id,row.status⟩]) (Function.update collected stage rest) := by
  have honce : ∀ id, moves (acts++[⟨stage,row.id,row.status⟩])
      (Function.update collected stage rest) id = moves acts collected id := by
    intro id
    unfold moves
    rw [List.map_append,List.count_append,List.map_cons,List.map_nil,List.count_singleton]
    cases stage <;> simp only [Function.update_self,ne_eq,reduceCtorEq,not_false_eq_true,
        Function.update_of_ne,hstage,List.count_cons] <;>
      omega
  have hleft : ∀ other, row.id ∉ Function.update collected stage rest other := by
    intro other hmem
    have hmoves := h.once row.id
    rw [← honce row.id] at hmoves
    have hcount := List.count_pos_iff.mpr hmem
    unfold moves at hmoves
    rw [List.map_append,List.count_append,List.map_cons,List.map_nil, List.count_singleton_self] at hmoves
    cases other <;> omega
  refine ⟨?_,fun other r hr hid => ?_,fun id => ?_,fun act hact => ?_⟩
  · have hkeys := RowTable.map_modify Row.id (fun r => r.id = row.id)
      (fun r => { r with metadata }) rows fun _ _ _ => rfl
    rw [hkeys]
    exact h.ids
  · obtain ⟨before,hbefore,rfl⟩ := RowTable.mem_modify.mp hr
    by_cases hsame : before.id = row.id
    · rw [if_pos (by simpa using hsame)] at hid
      exact absurd (hsame ▸ hid) (hleft other)
    · rw [if_neg (by simpa using hsame)] at hid ⊢
      exact h.source other before hbefore ((sublist_update (by simp [hstage]) other).subset hid)
  · rw [honce id]
    exact h.once id
  · rcases List.mem_append.mp hact with hact | hact
    · exact h.proper act hact
    · obtain rfl := List.mem_singleton.mp hact
      exact h.source stage row hrow (by simp [hstage])

lemma updateStatus_sound {id : ℕ} (timestamp : ℚ) (fails : ℕ → Bool)
    (h : Sound rows acts collected) (hstage : collected stage = id::rest) :
    Sound (updateStatus stage timestamp fails (rows,acts) id).1
      (updateStatus stage timestamp fails (rows,acts) id).2 (Function.update collected stage rest) := by
  have hskip : Sound rows acts (Function.update collected stage rest) :=
    h.shrink (sublist_update (by simp [hstage]))
  unfold updateStatus
  cases hfound : rows.find? fun r => r.id = id with
  | none => exact hskip
  | some row =>
    have hid : row.id = id := by simpa using List.find?_some hfound
    subst hid
    cases hloaded : row.metadata.loaded with
    | none => simpa only [hloaded] using hskip
    | some fields =>
      simp only [hloaded]
      split
      · exact hskip
      · exact h.move (List.mem_of_find?_eq_some hfound) hstage

lemma batch_sound (timestamp : ℚ) (fails : ℕ → Bool) (h : Sound rows acts collected) :
    Sound ((collected stage).foldl (updateStatus stage timestamp fails) (rows,acts)).1
      ((collected stage).foldl (updateStatus stage timestamp fails) (rows,acts)).2
      (Function.update collected stage []) := by
  induction hlist : collected stage generalizing rows acts collected with
  | nil => exact h.shrink (sublist_update (by simp))
  | cons id rest ih =>
    have hnext := updateStatus_sound timestamp fails h hlist
    have hrest := ih hnext (Function.update_self ..)
    rw [Function.update_idem] at hrest
    exact hrest

lemma deleteBatch_sound (h : Sound w.rows w.acts w.collected) :
    Sound w.deleteBatch.rows w.deleteBatch.acts w.deleteBatch.collected := by
  have hbatch : (w.collected .deleted).take 200++(w.collected .deleted).drop 200 =
      w.collected .deleted := List.take_append_drop 200 _
  refine ⟨?_,fun stage r hr hid => ?_,fun id => ?_,fun act hact => ?_⟩
  · exact h.ids.sublist (List.filter_sublist.map Row.id)
  · have hsub := sublist_update (List.drop_sublist 200 (w.collected .deleted)) stage
    exact h.source stage r (List.mem_of_mem_filter hr) (hsub.subset hid)
  · have hold := h.once id
    have hsplit : (w.collected .deleted).count id = ((w.collected .deleted).take 200).count id +
        ((w.collected .deleted).drop 200).count id := by rw [← List.count_append,hbatch]
    have hdeleted : (((w.rows.filter fun r => r.id ∈ (w.collected .deleted).take 200).map
        fun r => (⟨.deleted,r.id,r.status⟩ : Act)).map Act.id).count id ≤
          ((w.collected .deleted).take 200).count id := by
      rw [List.map_map]
      by_cases hid : id ∈ (w.collected .deleted).take 200
      · have hpos := List.count_pos_iff.mpr hid
        have hone : ((w.rows.filter fun r => r.id ∈ (w.collected .deleted).take 200).map Row.id).count id ≤ 1 :=
          count_le_one (h.ids.sublist (List.filter_sublist.map Row.id)) id
        exact hone.trans hpos
      · refine (List.count_eq_zero.mpr ?_).le.trans (Nat.zero_le _)
        intro hmem
        obtain ⟨r,hr,rfl⟩ := List.mem_map.mp hmem
        exact hid (by simpa using (List.mem_filter.mp hr).2)
    have hleft : w.deleteBatch.collected =
        Function.update w.collected .deleted ((w.collected .deleted).drop 200) := rfl
    have hacts : w.deleteBatch.acts = w.acts ++
        (w.rows.filter fun r => r.id ∈ (w.collected .deleted).take 200).map
          fun r => ⟨.deleted,r.id,r.status⟩ := rfl
    unfold moves at hold ⊢
    rw [hleft,hacts,List.map_append,List.count_append,Function.update_self,
      Function.update_of_ne (show Stage.dormant ≠ .deleted by decide),
      Function.update_of_ne (show Stage.archived ≠ .deleted by decide)]
    omega
  · rcases List.mem_append.mp hact with hact | hact
    · exact h.proper act hact
    · obtain ⟨r,hr,rfl⟩ := List.mem_map.mp hact
      obtain ⟨hrow,hid⟩ := List.mem_filter.mp hr
      exact h.source .deleted r hrow (List.mem_of_mem_take (by simpa using hid))

/-- The condition on a step: what others do leaves the status of the collected memories that are
still there, and puts no memory under the id of one that is not. -/
def World.Leaves (w : World) : Event → Prop
  | .other change => ∀ r ∈ change.apply w.rows, r.id ∈ w.pending →
      ∃ old ∈ w.rows, old.id = r.id ∧ old.status = r.status
  | _ => True

lemma mem_pending {id : ℕ} : id ∈ w.pending ↔ ∃ stage, id ∈ w.collected stage := by
  unfold World.pending
  simp only [List.mem_append]
  constructor
  · rintro ((h | h) | h)
    · exact ⟨.dormant,h⟩
    · exact ⟨.archived,h⟩
    · exact ⟨.deleted,h⟩
  · rintro ⟨stage,h⟩
    cases stage with
    | dormant => exact .inl (.inl h)
    | archived => exact .inl (.inr h)
    | deleted => exact .inr h

lemma Change.apply_ids (change : Change) (h : (rows.map Row.id).Nodup) :
    ((change.apply rows).map Row.id).Nodup := by
  cases change with
  | update id metadata =>
    have hkeys := RowTable.map_modify Row.id (fun r => r.id = id)
      (fun r => { r with metadata }) rows fun _ _ _ => rfl
    rw [Change.apply,hkeys]
    exact h
  | remove id => exact h.sublist (List.filter_sublist.map Row.id)
  | insert id metadata =>
    by_cases hpresent : ∃ r ∈ rows, r.id = id
    · rw [Change.apply,if_pos hpresent]
      exact h
    · rw [Change.apply,if_neg hpresent,List.map_append,List.nodup_append]
      refine ⟨h,List.nodup_singleton _,?_⟩
      intro id' hid other hother heq
      obtain ⟨r,hr,rfl⟩ := List.mem_map.mp hid
      exact hpresent ⟨r,hr,heq.trans (List.mem_singleton.mp hother)⟩

lemma Change.apply_drop {offset : ℕ} {r : Row} (hr : r ∈ (change.apply rows).drop offset) :
    (∃ old ∈ rows.drop offset, old.id = r.id) ∨ ∀ old ∈ rows, old.id ≠ r.id := by
  cases change with
  | update id metadata =>
    have hdrop : (Change.apply rows (.update id metadata)).drop offset =
        RowTable.modify (fun r => r.id = id) (fun r => { r with metadata }) (rows.drop offset) :=
      (List.map_drop ..).symm
    rw [hdrop] at hr
    obtain ⟨old,hold,rfl⟩ := RowTable.mem_modify.mp hr
    refine .inl ⟨old,hold,?_⟩
    split <;> rfl
  | remove id =>
    have hsub : ((rows.filter fun r => r.id ≠ id).drop offset).Sublist (rows.drop offset) :=
      List.Sublist.drop List.filter_sublist offset
    exact .inl ⟨r,hsub.subset hr,rfl⟩
  | insert id metadata =>
    by_cases hpresent : ∃ r ∈ rows, r.id = id
    · rw [Change.apply,if_pos hpresent] at hr
      exact .inl ⟨r,hr,rfl⟩
    · rw [Change.apply,if_neg hpresent,List.drop_append] at hr
      rcases List.mem_append.mp hr with hr | hr
      · exact .inl ⟨r,hr,rfl⟩
      · obtain rfl := List.mem_singleton.mp (List.mem_of_mem_drop hr)
        exact .inr fun old hold hid => hpresent ⟨old,hold,hid⟩

lemma other_sound (h : w.Sound) (hleaves : w.Leaves (.other change)) :
    (w.step (.other change)).Sound := by
  obtain ⟨hlists,hunread⟩ := h
  refine ⟨⟨change.apply_ids hlists.ids,?_,hlists.once,hlists.proper⟩,?_⟩
  · intro stage r hr hid
    obtain ⟨old,hold,hsame,hstatus⟩ := hleaves r hr (mem_pending.mpr ⟨stage,hid⟩)
    rw [← hstatus]
    exact hlists.source stage old hold (hsame ▸ hid)
  · change w.phase.Unread (change.apply w.rows) w.acts w.collected
    cases hphase : w.phase with
    | counting =>
      rw [hphase] at hunread
      exact hunread
    | scanning offset total =>
      rw [hphase] at hunread
      refine ⟨hunread.1,fun r hr stage hid => ?_⟩
      rcases Change.apply_drop hr with ⟨old,hold,hsame⟩ | hnew
      · exact hunread.2 old hold stage (hsame ▸ hid)
      · obtain ⟨old,hold,hsame,-⟩ := hleaves r (List.mem_of_mem_drop hr) (mem_pending.mpr ⟨stage,hid⟩)
        exact hnew old hold hsame
    | writing | done => trivial

lemma advance_sound (h : w.Sound) (clock : ℕ → ℚ) (fails : ℕ → Bool) :
    (w.advance clock fails).Sound := by
  obtain ⟨hlists,hunread⟩ := h
  unfold World.advance
  cases hphase : w.phase with
  | counting =>
    rw [hphase] at hunread
    simp only
    split
    · exact ⟨hlists,trivial⟩
    · refine ⟨hlists,hunread.1,fun r _ stage hid => ?_⟩
      rw [hunread.2 stage] at hid
      cases hid
  | scanning offset total => exact readPage_sound ⟨hlists,hunread⟩ hphase
  | writing stage =>
    cases stage with
    | dormant | archived => exact ⟨batch_sound w.settings.now fails hlists,trivial⟩
    | deleted =>
      simp only
      split
      · exact ⟨hlists,trivial⟩
      · refine ⟨deleteBatch_sound hlists,?_⟩
        change w.phase.Unread _ _ _
        rw [hphase]
        trivial
  | done => exact ⟨hlists,hunread⟩

lemma step_sound {event : Event} (hleaves : w.Leaves event) (h : w.Sound) :
    (w.step event).Sound := by
  cases event with
  | advance clock fails => exact advance_sound h clock fails
  | stop => exact ⟨h.lists,trivial⟩
  | other change => exact other_sound h hleaves

/-- Where the others leave the collected memories alone, a pass moves each memory at most once,
and from the status that it has at that moment. -/
theorem cleanup_moves_once (rows : List Row) (hids : (rows.map Row.id).Nodup) (settings : Settings)
    (events : List Event) (hleaves : Along World.step World.Leaves { rows, settings } events) :
    let last := events.foldl World.step { rows, settings }
    (∀ act ∈ last.acts, act.status = act.stage.source) ∧ (last.acts.map Act.id).Nodup := by
  intro last
  have hbegin : World.Sound { rows, settings } :=
    ⟨⟨hids,by simp,by simp [moves],by simp⟩,rfl,fun _ => rfl⟩
  have hsound : last.Sound := along_invariant (fun _ _ hl h => step_sound hl h) hbegin hleaves
  refine ⟨hsound.lists.proper,List.nodup_iff_count_le_one.mpr fun id => ?_⟩
  have hmoves := hsound.lists.once id
  unfold moves at hmoves
  omega

instance (w : World) : (event : Event) → Decidable (w.Leaves event)
  | .other change => inferInstanceAs (Decidable (∀ r ∈ change.apply w.rows, r.id ∈ w.pending →
      ∃ old ∈ w.rows, old.id = r.id ∧ old.status = r.status))
  | .advance .. | .stop => isTrue trivial

/-- Thirty days, an importance of 0.3, and a clock of 10^9 seconds. -/
def sampleSettings : Settings := ⟨30,3 / 10,10 ^ 9⟩

def oldMemory (id : ℕ) (status : String) : Row :=
  ⟨id,.object {
    memoryStatus := some (.text status), status := some (.text status)
    createTime := some 1, statusChangedAt := some 1, importance := some (1 / 10) }⟩

def nextStep : Event := .advance (fun _ => 10 ^ 9) fun _ => false

/-- One memory for each stage; another caller edits the active one and removes the dormant one
after the scan. -/
def editedRun : List Event := [
  nextStep,nextStep,.other (.update 1 (.object { status := some (.text "active") })),
  .other (.remove 2),nextStep,nextStep,nextStep,nextStep]

theorem cleanup_moves_once_sample :
    let rows := [oldMemory 1 "active",oldMemory 2 "dormant",oldMemory 3 "archived"]
    let last := editedRun.foldl World.step { rows, settings := sampleSettings }
    last.acts.map (fun act => (act.stage,act.id)) = [(.dormant,1),(.deleted,3)] ∧
      (∀ act ∈ last.acts, act.status = act.stage.source) ∧ (last.acts.map Act.id).Nodup := by
  intro rows last
  have hids : (rows.map Row.id).Nodup := by decide
  exact ⟨by decide +kernel, cleanup_moves_once rows hids sampleSettings editedRun
    (by decide +kernel)⟩

def restoredRun : List Event := [nextStep,nextStep, .other (.update 1 (.object {
    memoryStatus := some (.text "active"), status := some (.text "active")
    statusChangedAt := some (10 ^ 9) })),
  nextStep,nextStep,nextStep]

theorem restored_deleted :
    let last := restoredRun.foldl World.step
      { rows := [oldMemory 1 "archived"], settings := sampleSettings }
    last.rows = [] ∧ ¬∀ act ∈ last.acts, act.status = act.stage.source := by
  decide +kernel

end Memora.Lifecycle

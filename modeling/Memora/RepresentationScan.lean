import Memora.RepresentationFacts
import Memora.RepresentationRuns

/-! The items that a scan lists, and the table that a run of their plan leaves behind. -/
namespace Memora.Representation
open Canonical

variable {table : Table} {r : Row} {codec : Codec} {confirmation : String}

lemma token_stripped {value : Option String} {t : String} (h : token value = some t) :
    pythonStrip t = t := by
  obtain ⟨hmap,-⟩ := Option.filter_eq_some_iff.mp h
  obtain ⟨s,-,rfl⟩ := Option.map_eq_some_iff.mp hmap
  exact pythonStrip_pythonStrip s

lemma revision_stripped (r : Row) : pythonStrip r.revision = r.revision := by
  unfold Row.revision
  cases hupdated : token r.updatedAt with
  | some t => exact token_stripped hupdated
  | none =>
    cases hcreated : token r.createdAt with
    | some t => exact token_stripped hcreated
    | none => rfl

lemma Table.ids_nodup (table : Table) : (table.rows.map Row.id).Nodup :=
  table.sorted.imp fun h => ne_of_lt h

def Table.after (table : Table) (afterId : ℤ) : List Row :=
  table.rows.filter fun r => afterId < r.id

lemma Table.after_sorted (table : Table) (afterId : ℤ) :
    (table.after afterId).Pairwise fun a b => a.id < b.id := by
  have hrows : table.rows.Pairwise fun a b => a.id < b.id := List.pairwise_map.mp table.sorted
  exact hrows.filter _

lemma pageRevisionConflicts_nil {page : List Row} (hpage : page.Sublist table.rows) :
    table.pageRevisionConflicts page = [] := by
  unfold Table.pageRevisionConflicts
  have hsorted : page.Pairwise fun a b => a.id < b.id :=
    (List.pairwise_map.mp table.sorted).sublist hpage
  split
  · rename_i first last hfirst hlast
    rw [List.map_eq_nil_iff,List.filter_eq_nil_iff]
    intro r hr
    have hlow : first.id ≤ r.id := by
      cases page with
      | nil => cases hr
      | cons head page =>
        cases hfirst
        rcases List.mem_cons.mp hr with rfl | hr
        · exact le_refl _
        · exact le_of_lt (List.rel_of_pairwise_cons hsorted hr)
    have hhigh : r.id ≤ last.id := by
      obtain ⟨front,rfl⟩ := List.getLast?_eq_some_iff.mp hlast
      rcases List.mem_append.mp hr with hr | hr
      · exact le_of_lt (List.pairwise_append.mp hsorted |>.2.2 r hr last List.mem_cons_self)
      · rw [List.mem_singleton.mp hr]
    have hobserved : r ∈ table.rows.filter fun r => first.id ≤ r.id ∧ r.id ≤ last.id :=
      List.mem_filter.mpr ⟨hpage.subset hr,by simp [hlow,hhigh]⟩
    have hfound := RowTable.find?_key (table.ids_nodup.sublist (List.filter_sublist.map Row.id)) hobserved
    rw [hfound]
    simp
  · rfl

lemma scanRow_planItems (scan : DryRun) (r : Row) :
    (scan.scanRow [] r).planItems = scan.planItems++if r.listed then [r.item] else [] := by
  unfold DryRun.scanRow Row.listed
  simp only [List.not_mem_nil,if_false]
  cases hreason : r.target.reasonCode with
  | some reason => simp
  | none =>
    cases hchanged : r.target.changed with
    | true | false => simp

lemma foldl_scanRow_planItems (page : List Row) (scan : DryRun) :
    (page.foldl (DryRun.scanRow []) scan).planItems =
      scan.planItems++(page.filter Row.listed).map Row.item := by
  induction page generalizing scan with
  | nil => simp
  | cons r page ih =>
    rw [List.foldl_cons,ih,scanRow_planItems,List.filter_cons]
    by_cases hr : r.listed = true
    · simp [hr]
    · simp [hr]

lemma after_last {afterId : ℤ} {size : ℕ} {last : Row}
    (hlast : ((table.after afterId).take size).getLast? = some last) :
    table.after last.id = (table.after afterId).drop size := by
  have hsorted := table.after_sorted afterId
  have hmem : last ∈ table.after afterId := List.mem_of_mem_take (List.mem_of_getLast? hlast)
  have habove : afterId < last.id := by simpa using (List.mem_filter.mp hmem).2
  have hcut : table.after last.id = (table.after afterId).filter fun r => last.id < r.id := by
    unfold Table.after
    rw [List.filter_filter]
    refine List.filter_congr fun r _ => ?_
    by_cases hr : last.id < r.id
    · have hbelow : afterId < r.id := by omega
      simp [hbelow]
    · simp [hr]
  obtain ⟨front,hfront⟩ := List.getLast?_eq_some_iff.mp hlast
  have hsplit := List.take_append_drop size (table.after afterId)
  rw [hcut]
  conv_lhs => rw [← hsplit]
  rw [← hsplit] at hsorted
  obtain ⟨htake,-,hacross⟩ := List.pairwise_append.mp hsorted
  rw [List.filter_append]
  have hread : ((table.after afterId).take size).filter (fun r => last.id < r.id) = [] := by
    rw [List.filter_eq_nil_iff]
    intro r hr
    rw [hfront] at hr htake
    rcases List.mem_append.mp hr with hr | hr
    · have hless := (List.pairwise_append.mp htake).2.2 r hr last List.mem_cons_self
      simp only [decide_eq_true_eq,not_lt]
      omega
    · rw [List.mem_singleton.mp hr]
      simp
  have hleft : ((table.after afterId).drop size).filter (fun r => last.id < r.id) =
      (table.after afterId).drop size := by
    rw [List.filter_eq_self]
    intro r hr
    have hless := hacross last (List.mem_of_getLast? hlast) r hr
    simpa using hless
  rw [hread,hleft,List.nil_append]

lemma scanPages_planItems (batchSize : ℕ+) (rounds : ℕ) (afterId : ℤ) (scan : DryRun)
    (hrounds : (table.after afterId).length < rounds) :
    (table.scanPages batchSize 0 rounds afterId scan).planItems =
      scan.planItems++((table.after afterId).filter Row.listed).map Row.item := by
  induction rounds generalizing afterId scan with
  | zero => omega
  | succ rounds ih =>
    rw [Table.scanPages]
    simp only [ne_eq,not_true_eq_false,false_and,if_false,if_true]
    have hpage : table.fetchPage afterId batchSize = (table.after afterId).take batchSize := rfl
    rw [hpage]
    cases hlast : ((table.after afterId).take batchSize).getLast? with
    | none =>
      have hnil : (table.after afterId).take batchSize = [] := List.getLast?_eq_none_iff.mp hlast
      have hempty : table.after afterId = [] := by
        refine (List.take_eq_nil_iff.mp hnil).resolve_left ?_
        exact batchSize.ne_zero
      simp [hempty]
    | some last =>
      have hsub : ((table.after afterId).take batchSize).Sublist table.rows :=
        (List.take_sublist _ _).trans List.filter_sublist
      have hrest := after_last hlast
      have hsome : (table.after afterId).take batchSize ≠ [] := by
        rintro hnil
        rw [hnil] at hlast
        cases hlast
      have hsize := batchSize.pos
      have hshorter : ((table.after afterId).drop batchSize).length < rounds := by
        have hpos : 0 < (table.after afterId).length :=
          List.length_pos_iff.mpr fun hnil => hsome (by simp [hnil])
        rw [List.length_drop]
        omega
      rw [pageRevisionConflicts_nil hsub,ih last.id _ (hrest ▸ hshorter),
        foldl_scanRow_planItems,hrest,List.append_assoc,← List.map_append,← List.filter_append,
        List.take_append_drop]

lemma dryRun_planItems (table : Table) (batchSize : ℕ+) : (table.dryRun batchSize).planItems =
      ((table.rows.filter fun r => 0 < r.id).filter Row.listed).map Row.item := by
  unfold Table.dryRun
  rw [scanPages_planItems]
  · rfl
  · exact Nat.lt_succ_of_le (List.length_filter_le _ _)

def Row.selected (r : Row) : Bool := 0 < r.id && r.listed

lemma dryRun_selected (table : Table) (batchSize : ℕ+) :
    (table.dryRun batchSize).planItems = (table.rows.filter Row.selected).map Row.item := by
  rw [dryRun_planItems,List.filter_filter]
  congr 1
  refine List.filter_congr fun r _ => ?_
  simp [Row.selected,Bool.and_comm]

lemma dryRun_sorted (table : Table) (batchSize : ℕ+) :
    ((table.dryRun batchSize).planItems).Pairwise fun a b => a.memoryId < b.memoryId := by
  rw [dryRun_selected,List.pairwise_map]
  exact (List.pairwise_map.mp table.sorted).filter _

lemma sortItems_dryRun (table : Table) (batchSize : ℕ+) :
    sortItems (table.dryRun batchSize).planItems = (table.dryRun batchSize).planItems :=
  List.mergeSort_of_pairwise ((dryRun_sorted table batchSize).imp fun hab => by
    simpa using le_of_lt hab)

lemma build_ok {batchSize : ℕ+} {plan : MigrationPlan}
    (h : buildMigrationPlan codec (table.dryRun batchSize).planItems confirmation = .ok plan) :
    plan.items = (table.rows.filter Row.selected).map Row.item ∧ plan.items ≠ [] ∧
      plan.operatorConfirmation = pythonStrip confirmation ∧ pythonStrip confirmation ≠ "" ∧
      plan.fingerprint = planFingerprint codec plan.items := by
  unfold buildMigrationPlan at h
  simp only [sortItems_dryRun] at h
  split at h
  · cases h
  · rename_i hconfirmation
    split at h
    · cases h
    · rename_i hnonempty
      split at h
      · cases h
      · obtain rfl := Except.ok.inj h
        exact ⟨dryRun_selected table batchSize,hnonempty,rfl,hconfirmation,rfl⟩

lemma build_of_selected {batchSize : ℕ+}
    (hconfirmation : pythonStrip confirmation ≠ "") (hsome : ∃ r ∈ table.rows, r.selected = true) :
    ∃ plan, buildMigrationPlan codec (table.dryRun batchSize).planItems confirmation = .ok plan := by
  have hnonempty : (table.dryRun batchSize).planItems ≠ [] := by
    obtain ⟨r,hr,hselected⟩ := hsome
    rw [dryRun_selected]
    intro hnil
    have hmem : r.item ∈ (table.rows.filter Row.selected).map Row.item :=
      List.mem_map_of_mem (List.mem_filter.mpr ⟨hr,hselected⟩)
    rw [hnil] at hmem
    cases hmem
  have hnodup : (((table.dryRun batchSize).planItems).map MigrationPlanItem.memoryId).Nodup :=
    (List.pairwise_map.mpr (dryRun_sorted table batchSize)).imp fun hab => ne_of_lt hab
  refine ⟨⟨pythonStrip confirmation,(table.dryRun batchSize).planItems,
    planFingerprint codec (table.dryRun batchSize).planItems⟩,?_⟩
  unfold buildMigrationPlan
  simp only [sortItems_dryRun]
  rw [if_neg hconfirmation,if_neg hnonempty,if_neg (not_not.mpr hnodup)]

lemma build_valid {batchSize : ℕ+} {plan : MigrationPlan}
    (h : buildMigrationPlan codec (table.dryRun batchSize).planItems confirmation = .ok plan)
    (hrevision : ∀ r ∈ table.rows, r.selected = true → r.revision ≠ "") : plan.Valid codec := by
  obtain ⟨hitems,hnonempty,hconfirmation,hvisible,hfingerprint⟩ := build_ok h
  have hsorted : plan.items.Pairwise fun a b => a.memoryId < b.memoryId := by
    rw [hitems,← dryRun_selected table batchSize]
    exact dryRun_sorted table batchSize
  refine ⟨?_,?_,hnonempty,fun item hitem => ?_,?_,hsorted.imp fun hab => le_of_lt hab, hfingerprint⟩
  · rw [hconfirmation,blank_pythonStrip]
    simpa [blank] using hvisible
  · rw [hconfirmation,pythonStrip_pythonStrip]
  · rw [hitems] at hitem
    obtain ⟨r,hr,rfl⟩ := List.mem_map.mp hitem
    obtain ⟨hrow,hselected⟩ := List.mem_filter.mp hr
    have hrevised := hrevision r hrow hselected
    have hpositive : 0 < r.id := by
      simp only [Row.selected,Bool.and_eq_true,decide_eq_true_eq] at hselected
      exact hselected.1
    have hstrip : pythonStrip r.revision = r.revision := revision_stripped r
    refine ⟨hpositive,?_,hstrip,rfl,rfl⟩
    change blank r.revision = false
    unfold blank
    rw [hstrip]
    simpa using hrevised
  · exact (List.pairwise_map.mpr hsorted).imp fun hab => ne_of_lt hab

variable {engine : Engine} {batchSize : ℕ+} {plan : MigrationPlan} {w : World}

/-- The table in the middle of a run: the selected rows that are not to come any more have been
rewritten, each at some time. -/
structure Underway (table : Table) (plan : MigrationPlan) (w : World) : Prop where
  pending : w.pending.Sublist plan.items
  rows : ∃ stamps : ℤ → String, w.rows = table.rows.map fun r =>
    if r.selected ∧ r.item ∉ w.pending then r.migrated (stamps r.id) else r

lemma writeRow_exact (hexact : engine.write = exactWrite) (n : ℕ) (r : Row) :
    engine.writeRow n r.target.updates r = r.migrated (engine.stamp n) := by
  unfold Engine.writeRow
  rw [hexact]
  rfl

lemma decideItem_selected {clock : ℚ} {rows : List Row} {r : Row}
    (hload : loadRow rows r.id = some r)
    (hselected : r.selected = true) : decideItem clock rows r.item =
    .write r.id r.target.updates := by
  simp only [Row.selected,Row.listed,Bool.and_eq_true,decide_eq_true_eq] at hselected
  obtain ⟨-,hreason,hchanged⟩ := hselected
  change decideRewrite rows r.item = _
  unfold decideRewrite
  have hload' : loadRow rows r.item.memoryId = some r := hload
  rw [hload']
  simp [hreason,hchanged,Row.item]

lemma Underway.step (hexact : engine.write = exactWrite)
    (hitems : plan.items = (table.rows.filter Row.selected).map Row.item) (hfits : w.Fits)
    (h : Underway table plan w) {event : Event} (hevent : event.undisturbed = true) :
    Underway table plan (w.step engine batchSize plan event) := by
  obtain ⟨hpending,stamps,hrows⟩ := h
  rcases undisturbed_step engine batchSize plan hfits hevent with
    ⟨clock,p,item,rest,-,hrest,hstep⟩ | ⟨hkept,hsame⟩
  · have hitem : item ∈ plan.items := hpending.subset (hrest ▸ List.mem_cons_self)
    rw [hitems] at hitem
    obtain ⟨r,hr,rfl⟩ := List.mem_map.mp hitem
    obtain ⟨hrow,hselected⟩ := List.mem_filter.mp hr
    have hnow : r ∈ w.rows := by
      rw [hrows]
      refine List.mem_map.mpr ⟨r,hrow,if_neg ?_⟩
      rw [hrest]
      simp
    have hids : w.rows.map Row.id = table.rows.map Row.id := by
      rw [hrows,List.map_map]
      refine List.map_congr_left fun r _ => ?_
      simp only [Function.comp_apply]
      split <;> rfl
    have hload : loadRow w.rows r.id = some r := RowTable.find?_key (hids ▸ table.ids_nodup) hnow
    have hnodup : w.pending.Nodup := by
      refine hpending.nodup ?_
      rw [hitems]
      refine List.Nodup.map_on (fun a ha b hb heq => ?_) (table.ids_nodup.of_map.filter _)
      have hid : a.id = b.id := congrArg MigrationPlanItem.memoryId heq
      exact RowTable.eq_of_key_eq table.ids_nodup (List.mem_of_mem_filter ha) (List.mem_of_mem_filter hb) hid
    rw [hrest,List.nodup_cons] at hnodup
    rw [hrest] at hpending
    rw [hstep]
    unfold World.applyItem
    rw [decideItem_selected hload hselected]
    refine ⟨settle_pending ▸ (List.sublist_cons_self _ _).trans hpending,
      Function.update stamps r.id (engine.stamp w.writes),?_⟩
    rw [settle_rows,settle_pending]
    change engine.update w.writes r.id r.target.updates w.rows = _
    unfold Engine.update
    rw [hrows]
    unfold RowTable.modify
    rw [List.map_map]
    refine List.map_congr_left fun r' hr' => ?_
    simp only [Function.comp_apply,hrest]
    by_cases hself : r'.id = r.id
    · obtain rfl := RowTable.eq_of_key_eq table.ids_nodup hr' hrow hself
      simp [hselected,hnodup.1,writeRow_exact hexact]
    · have hother : r'.item ≠ r.item := fun heq =>
        hself (congrArg MigrationPlanItem.memoryId heq)
      by_cases hdone : r'.selected = true ∧ r'.item ∉ rest
      · have hkept : (r'.migrated (stamps r'.id)).id ≠ r.id := hself
        simp [hdone.1,hdone.2,hother,hself,hkept]
      · have hleft : ¬(r'.selected = true ∧ r'.item ∉ r.item::rest) := by
          simpa [hother] using hdone
        rw [if_neg hleft,if_neg (by simpa using hself),if_neg hdone]
  · exact ⟨hsame ▸ hpending,stamps,by rw [hkept,hsame,hrows]⟩

def Applied (engine : Engine) (batchSize : ℕ+) (plan : MigrationPlan) (table : Table)
    (last : World) : Prop :=
  ∃ events : List Event, (∀ event ∈ events, event.undisturbed = true) ∧
    last = events.foldl (World.step engine batchSize plan)
      (World.step engine batchSize plan { rows := table.rows } (.start plan.operatorConfirmation true true)) ∧
    last.process = none

lemma applied_exists (engine : Engine) (batchSize : ℕ+) (plan : MigrationPlan) (table : Table) :
    ∃ last, Applied engine batchSize plan table last := by
  have hfits : World.Fits (World.step engine batchSize plan { rows := table.rows }
      (.start plan.operatorConfirmation true true)) := step_fits (.idle rfl) _
  obtain ⟨events,hevents,hend⟩ := undisturbed_ends hfits
  exact ⟨_,events,hevents,rfl,hend⟩

lemma applied_rows (hexact : engine.write = exactWrite) (hvalid : plan.Valid codec)
    (hitems : plan.items = (table.rows.filter Row.selected).map Row.item) {last : World}
    (h : Applied engine batchSize plan table last) : ∃ stamps : ℤ → String,
      last.rows = table.rows.map fun r => if r.selected then r.migrated (stamps r.id) else r := by
  obtain ⟨events,hevents,rfl,hend⟩ := h
  have hfits : World.Fits (World.step engine batchSize plan { rows := table.rows }
      (.start plan.operatorConfirmation true true)) := step_fits (.idle rfl) _
  obtain ⟨resumed,hstart⟩ := start_eq hvalid { rows := table.rows } true true
  have hpending : (plan.items.filter fun item =>
      startAfter { rows := table.rows } true true < item.memoryId) = plan.items := by
    rw [List.filter_eq_self]
    intro item hitem
    have hone := (hvalid.items item hitem).id
    simp only [startAfter,World.cursor,Bool.and_self,if_true,Option.getD_none,max_self, decide_eq_true_eq]
    omega
  rw [hpending] at hstart
  have hbegin : Underway table plan (World.step engine batchSize plan { rows := table.rows }
      (.start plan.operatorConfirmation true true)) := by
    have hstep : World.step engine batchSize plan { rows := table.rows }
        (.start plan.operatorConfirmation true true) = _ := hstart
    rw [hstep]
    refine ⟨proceed_pending ▸ List.Sublist.refl _,fun _ => "",?_⟩
    rw [proceed_rows,proceed_pending]
    have hnone : (table.rows.map fun r =>
        if r.selected = true ∧ r.item ∉ plan.items then r.migrated "" else r) =
          table.rows.map id := by
      refine List.map_congr_left fun r hr => if_neg ?_
      rintro ⟨hselected,hother⟩
      rw [hitems] at hother
      exact hother (List.mem_map_of_mem (List.mem_filter.mpr ⟨hr,hselected⟩))
    exact (hnone.trans (List.map_id _)).symm
  obtain ⟨-,stamps,hrows⟩ := undisturbed_invariant
    (fun w hw h event hevent => Underway.step hexact hitems hw h hevent) hevents hfits hbegin
  refine ⟨stamps,hrows.trans (List.map_congr_left fun r _ => ?_)⟩
  have hnone : ∀ v : World, v.process = none → v.pending = [] := by
    intro v hv
    simp only [World.pending,hv]
  rw [hnone _ hend]
  simp

def arrayItems : Option Json → List Json
  | some (.arr items) => items
  | _ => []

structure Preserved (r r' : Row) : Prop where
  text : blank (r.text.getD "") = false →
    r'.text = r.text ∨ isText (r'.field "persona_summary") (r.text.getD "") = true
  facts : r'.field "key_facts" = r.field "key_facts"
  evidence : r'.field "fact_source_evidence" = r.field "fact_source_evidence"

structure WellMigrated (u : Unicode) (before after : List Row) : Prop where
  ids : after.map Row.id = before.map Row.id
  kept : ∀ r ∈ before, ∀ r' ∈ after, r'.id = r.id → r' = r ∨ Preserved r r'
  settled : ∀ table : Table, table.rows = after →
    ∀ batchSize, (table.dryRun batchSize).planItems = []
  aligned : ∀ r ∈ before, ∀ r' ∈ after, r'.id = r.id → r' ≠ r →
    normalizeFacts (r'.field "key_facts") ≠ [] →
    arrayItems (r'.field "fact_source_evidence") ≠ [] →
    factsAligned u r'.text (r'.field "key_facts") (r'.field "fact_source_evidence") = .aligned

/-- A listed row tells its revision, has a text or a place for the narrative where it has facts,
and has nothing but texts among the facts that evidence was recorded for. -/
structure Row.Migratable (r : Row) : Prop where
  revision : r.revision ≠ ""
  told : r.untold = false
  facts : normalizeFacts (r.field "key_facts") ≠ [] →
    arrayItems (r.field "fact_source_evidence") ≠ [] →
    (arrayItems (r.field "key_facts")).all Json.isFact = true

lemma preserved_migrated {r : Row} (h : r.listed = true) (stamp : String) :
    Preserved r (r.migrated stamp) := by
  obtain ⟨m,m',hmetadata,-,hmetadata',hmigrated,htext⟩ := migrated_spec h stamp
  refine ⟨fun hvisible => ?_,field_migrated h (by decide) (by decide) (by decide),
    field_migrated h (by decide) (by decide) (by decide)⟩
  rcases hmigrated.keeps hvisible with hsame | hnarrative
  · left
    rw [htext,hsame]
    cases hold : r.text with
    | some text => rfl
    | none =>
      rw [hold] at hvisible
      exact absurd hvisible (by decide)
  · right
    unfold Row.field
    rw [hmetadata']
    exact hnarrative

lemma aligned_migrated {u : Unicode} (hu : u.Lawful) {r : Row} (h : r.listed = true)
    (stamp : String) (hfacts : normalizeFacts (r.field "key_facts") ≠ [])
    (hevidence : arrayItems (r.field "fact_source_evidence") ≠ []) :
    factsAligned u (r.migrated stamp).text (r.field "key_facts") (r.field "fact_source_evidence") =
      .aligned ↔ (arrayItems (r.field "key_facts")).all Json.isFact = true := by
  obtain ⟨m,m',hmetadata,happlicable,-,-,htext⟩ := migrated_spec h stamp
  have hpaired := happlicable.evidence
  have hvisible := happlicable.content
  unfold targetContent at htext hvisible
  unfold Row.field at hfacts hevidence ⊢
  rw [hmetadata,Option.bind_some] at hfacts hevidence
  simp only [hmetadata,Option.bind_some]
  simp only [if_neg hfacts] at htext hvisible
  cases hitems : m.get? "key_facts" with
  | none => exact absurd (by rw [hitems]; rfl) hfacts
  | some value =>
    cases value with
    | arr items =>
      cases hgroups : m.get? "fact_source_evidence" with
      | none => exact absurd (by rw [hgroups]; rfl) hevidence
      | some value =>
        cases value with
        | arr groups =>
          rw [hitems] at htext hvisible hpaired
          rw [hgroups] at hpaired hevidence
          have hsome : groups ≠ [] := hevidence
          have hlength : groups.length = (normalizeFacts (some (.arr items))).length := by
            simpa [evidenceAligned,hsome] using hpaired
          rw [htext]
          exact factsAligned_join hu rfl hvisible hsome hlength
        | _ => exact absurd (by rw [hgroups]; rfl) hevidence
    | _ => exact absurd (by rw [hitems]; rfl) hfacts

end Memora.Representation

import Memora.RepresentationScan

/-! The plan of a scan is read back as it was written, its run keeps the texts and the facts, and a
second scan finds nothing to do: on the tables whose listed rows tell a revision, have a text or
a place for the narrative, and hold only texts as facts. -/
namespace Memora.Representation
open Canonical

def MigratesWell (codec : Codec) (u : Unicode) (batchSize : ℕ+) (table : Table) : Prop :=
  ∀ confirmation plan, buildMigrationPlan codec (table.dryRun batchSize).planItems confirmation =
  .ok plan →
    MigrationPlan.parse codec (.mapping plan.payload) = .ok plan ∧
      ∀ engine : Engine, engine.write = exactWrite → (∃ last, Applied engine batchSize plan table last) ∧
          ∀ last, Applied engine batchSize plan table last → WellMigrated u table.rows last.rows

variable {codec : Codec} {u : Unicode} {batchSize : ℕ+} {table : Table}

lemma selected_listed {r : Row} (h : r.selected = true) : r.listed = true := by
  unfold Row.selected at h
  rw [Bool.and_eq_true] at h
  exact h.2

lemma mem_migrated {stamps : ℤ → String} {r r' : Row} (hr : r ∈ table.rows)
    (hr' : r' ∈ table.rows.map fun r => if r.selected then r.migrated (stamps r.id) else r)
    (hid : r'.id = r.id) : r' = if r.selected then r.migrated (stamps r.id) else r := by
  obtain ⟨old,hold,rfl⟩ := List.mem_map.mp hr'
  have hsame : old.id = r.id := by
    rw [← hid]
    split <;> rfl
  rw [RowTable.eq_of_key_eq table.ids_nodup hold hr hsame]

lemma wellMigrated_of_migratable (hu : u.Lawful)
    (h : ∀ r ∈ table.rows, r.selected = true → r.Migratable) (stamps : ℤ → String) :
    WellMigrated u table.rows
      (table.rows.map fun r => if r.selected then r.migrated (stamps r.id) else r) where
  ids := by
    rw [List.map_map]
    refine List.map_congr_left fun r _ => ?_
    simp only [Function.comp_apply]
    split <;> rfl
  kept := by
    intro r hr r' hr' hid
    rw [mem_migrated hr hr' hid]
    by_cases hselected : r.selected = true
    · rw [if_pos hselected]
      exact .inr (preserved_migrated (selected_listed hselected) _)
    · rw [if_neg hselected]
      exact .inl rfl
  settled := by
    intro after hafter batchSize
    rw [dryRun_selected,hafter,List.map_eq_nil_iff,List.filter_eq_nil_iff]
    intro r' hr'
    obtain ⟨r,hr,rfl⟩ := List.mem_map.mp hr'
    by_cases hselected : r.selected = true
    · rw [if_pos hselected]
      have hlisted := selected_listed hselected
      have hdone := migrated_settled hlisted (h r hr hselected).told (stamps r.id)
      simp [Row.selected,hdone]
    · rw [if_neg hselected]
      exact hselected
  aligned := by
    intro r hr r' hr' hid hnew hfacts hevidence
    rw [mem_migrated hr hr' hid] at hnew hfacts hevidence ⊢
    by_cases hselected : r.selected = true
    · have hlisted := selected_listed hselected
      have hkept := preserved_migrated hlisted (stamps r.id)
      rw [if_pos hselected] at hfacts hevidence ⊢
      rw [hkept.facts] at hfacts ⊢
      rw [hkept.evidence] at hevidence ⊢
      exact (aligned_migrated hu hlisted _ hfacts hevidence).mpr ((h r hr hselected).facts hfacts hevidence)
    · rw [if_neg hselected] at hnew
      exact absurd rfl hnew

lemma migratesWell_of_migratable (hu : u.Lawful)
    (h : ∀ r ∈ table.rows, r.selected = true → r.Migratable) :
    MigratesWell codec u batchSize table := by
  intro confirmation plan hplan
  have hvalid := build_valid hplan fun r hr hselected => (h r hr hselected).revision
  refine ⟨parse_payload hvalid,fun engine hexact => ?_⟩
  refine ⟨applied_exists engine batchSize plan table,fun last hlast => ?_⟩
  obtain ⟨stamps,hrows⟩ := applied_rows hexact hvalid (build_ok hplan).1 hlast
  rw [hrows]
  exact wellMigrated_of_migratable hu h stamps

lemma migratable_of_migratesWell (hu : u.Lawful) (h : MigratesWell codec u batchSize table)
    (r : Row) (hr : r ∈ table.rows) (hselected : r.selected = true) : r.Migratable := by
  have hlisted := selected_listed hselected
  have hgo : pythonStrip "go" ≠ "" := by decide
  have hplans : ∃ plan, buildMigrationPlan codec (table.dryRun batchSize).planItems "go" = .ok plan :=
    build_of_selected hgo ⟨r,hr,hselected⟩
  obtain ⟨plan,hplan⟩ := hplans
  obtain ⟨hparse,hrun⟩ := h "go" plan hplan
  have hvalid := parse_valid hparse
  obtain ⟨⟨last,hlast⟩,hwell⟩ := hrun ⟨exactWrite,fun _ => ""⟩ rfl
  obtain ⟨stamps,hrows⟩ := applied_rows rfl hvalid (build_ok hplan).1 hlast
  have hwell := hwell last hlast
  rw [hrows] at hwell
  have hmigrated : r.migrated (stamps r.id) ∈
      table.rows.map fun r => if r.selected then r.migrated (stamps r.id) else r :=
    List.mem_map.mpr ⟨r,hr,if_pos hselected⟩
  refine ⟨?_,?_,fun hfacts hevidence => ?_⟩
  · have hitem : r.item ∈ plan.items := by
      rw [(build_ok hplan).1]
      exact List.mem_map_of_mem (List.mem_filter.mpr ⟨hr,hselected⟩)
    have hblank := (hvalid.items r.item hitem).revision
    intro hnone
    have hsame : r.item.expectedRevision = "" := hnone
    rw [hsame] at hblank
    exact absurd hblank (by decide)
  · by_contra huntold
    have hagain := migrated_listed hlisted (by simpa using huntold) (stamps r.id)
    have hsorted : ((table.rows.map fun r =>
        if r.selected then r.migrated (stamps r.id) else r).map Row.id).Pairwise (· < ·) := by
      rw [hwell.ids]
      exact table.sorted
    have hnone := hwell.settled ⟨_,hsorted⟩ rfl 1
    rw [dryRun_selected,List.map_eq_nil_iff,List.filter_eq_nil_iff] at hnone
    have hpositive : 0 < r.id := by
      simp only [Row.selected,Bool.and_eq_true,decide_eq_true_eq] at hselected
      exact hselected.1
    refine hnone _ hmigrated ?_
    unfold Row.selected
    rw [Bool.and_eq_true,decide_eq_true_eq]
    exact ⟨hpositive,hagain⟩
  · have hkept := preserved_migrated hlisted (stamps r.id)
    have haligned := hwell.aligned r hr _ hmigrated rfl (migrated_ne hlisted _)
    rw [hkept.facts,hkept.evidence] at haligned
    exact (aligned_migrated hu hlisted _ hfacts hevidence).mp (haligned hfacts hevidence)

/-- A migration does what is asked of it exactly on the tables whose listed rows tell a revision,
have a text or a place for the narrative where they have facts, and hold only texts as facts
where they record evidence. -/
theorem migrates_iff (codec : Codec) (u : Unicode) (hu : u.Lawful) (batchSize : ℕ+)
    (table : Table) : MigratesWell codec u batchSize table ↔
      ∀ r ∈ table.rows, r.selected = true → r.Migratable :=
  ⟨migratable_of_migratesWell hu,migratesWell_of_migratable hu⟩

/-- White space and the separator; nothing else is composed or folded. -/
def sampleUnicode : Unicode where
  nfkc s := s.map fun c => if pythonIsSpace c then ' ' else if c = '；' then ';' else c
  casefold c := [c]

lemma sampleUnicode_lawful : sampleUnicode.Lawful where
  empty := rfl
  cut a c b _ := by simp [sampleUnicode]
  space c hc := by
    have hfolded : sampleUnicode.folded [c] = [' '] := by simp [sampleUnicode,Unicode.folded,hc]
    rw [hfolded]
    intro d hd
    rw [List.mem_singleton.mp hd]
    decide
  separator := by decide
  visible s := by
    rintro ⟨c,hc,hvisible⟩
    refine ⟨if c = '；' then ';' else c,?_,?_⟩
    · refine List.mem_flatMap.mpr ⟨if c = '；' then ';' else c,?_,List.mem_singleton.mpr rfl⟩
      exact List.mem_map.mpr ⟨c,hc,by simp [hvisible]⟩
    · split
      · decide
      · exact hvisible

def oneRow (r : Row) : Table := ⟨[r],List.pairwise_singleton _ _⟩

def storedMemory : Row where
  id := 1
  text := some "we spoke about tea"
  metadata := some (({} : Metadata).set "key_facts" (.arr [.str "likes tea"]) |>.set
      "fact_source_evidence" (.arr [.arr [.str "m1"]]))
  createdAt := some "2026-01-01"

lemma storedMemory_migratable : storedMemory.Migratable where
  revision := by decide +kernel
  told := by decide +kernel
  facts _ _ := by decide +kernel

theorem migrates_iff_sample : storedMemory.selected = true ∧
    MigratesWell sampleCodec sampleUnicode 1 (oneRow storedMemory) := by
  refine ⟨by decide +kernel,?_⟩
  refine (migrates_iff sampleCodec sampleUnicode sampleUnicode_lawful 1 (oneRow storedMemory)).mpr
    ?_
  intro r hr _
  rw [List.mem_singleton.mp hr]
  exact storedMemory_migratable

def undatedMemory : Row := { storedMemory with createdAt := none }

def emptyMemory : Row := { storedMemory with text := some "" }

def gappedMemory : Row where
  id := 1
  text := some "we spoke about tea"
  metadata := some (({} : Metadata).set "key_facts" (.arr [.str "likes tea",.str " "]) |>.set
      "fact_source_evidence" (.arr [.arr [.str "m1"]]))
  createdAt := some "2026-01-01"

/-- Each of the three is listed, and each defeats the migration: its plan is not read back, it is
listed again, or its facts cannot be aligned. -/
theorem migrations_fail : ¬MigratesWell sampleCodec sampleUnicode 1 (oneRow undatedMemory) ∧
      ¬MigratesWell sampleCodec sampleUnicode 1 (oneRow emptyMemory) ∧
        ¬MigratesWell sampleCodec sampleUnicode 1 (oneRow gappedMemory) := by
  have hmigratable : ∀ r : Row, r.selected = true →
      MigratesWell sampleCodec sampleUnicode 1 (oneRow r) → r.Migratable :=
    fun r hr hwell => migratable_of_migratesWell sampleUnicode_lawful hwell r List.mem_cons_self hr
  refine ⟨?_,?_,?_⟩
  · intro hwell
    obtain ⟨hrevision,-,-⟩ := hmigratable _ (by decide +kernel) hwell
    exact hrevision (by decide +kernel)
  · intro hwell
    obtain ⟨-,htold,-⟩ := hmigratable _ (by decide +kernel) hwell
    exact absurd htold (by decide +kernel)
  · intro hwell
    obtain ⟨-,-,hfacts⟩ := hmigratable _ (by decide +kernel) hwell
    have hall := hfacts (by decide +kernel) (show arrayItems (gappedMemory.field "fact_source_evidence") ≠ [] by
        intro hnil
        cases hnil)
    exact absurd hall (by decide +kernel)

end Memora.Representation

import Memora.RepresentationApply
import Memora.RepresentationCodec
import Memora.RunLaws

/-! An update puts a new revision on its row, so no item is written twice. That every item is
written in the end, and that the derived data is rebuilt before a run reports success, depends
on what the checkpoint passes and on where a run finds changes that await a rebuild. -/
namespace Memora.Representation
open Canonical RunLaws

variable (item : MigrationPlanItem)

def MigrationPlanItem.rowId : Option ℤ :=
  match item.action with
  | .representationRewrite => some item.memoryId
  | .ownerReinforce => item.ownerMemoryId

def MigrationPlanItem.expected : String :=
  match item.action with
  | .representationRewrite => item.expectedRevision
  | .ownerReinforce => item.ownerExpectedRevision.getD ""

def writable (rows : List Row) (item : MigrationPlanItem) : Bool :=
  match decideItem 0 rows item with
  | .write .. => true
  | .settled .. => false

variable (log : List Entry)

def awaits : Bool :=
  log.foldl (fun waiting entry =>
    match entry with
    | .wrote _ => true
    | .rebuilt => false
    | .reported _ => waiting) false

/-- The clock moves on: a new stamp is no revision that the plan expects. -/
def Engine.Fresh (engine : Engine) (items : List MigrationPlanItem) : Prop :=
  ∀ n, ∃ t, token (some (engine.stamp n)) = some t ∧ ∀ item ∈ items, t ≠ item.expected

variable {engine : Engine} {batchSize : ℕ+} {plan : MigrationPlan} {w : World} {p : Process}
  {rows : List Row} {item : MigrationPlanItem}

def MigrationPlanItem.admits (row : Row) : Bool :=
  match item.action with
  | .representationRewrite => row.target.reasonCode = none && row.target.changed
  | .ownerReinforce =>
    item.ownerMemoryId.any (1 ≤ ·) && row.metadata.any recallable && item.expected ≠ ""

variable {updates : Updates} {id : ℤ} {clock : ℚ} {n : ℕ} {row : Row}

lemma decideItem_write (h : decideItem clock rows item = .write id updates) :
    item.rowId = some id ∧ (loadRow rows item.memoryId).isSome = true ∧
      ∃ row, loadRow rows id = some row ∧ row.revision = item.expected ∧ item.admits row = true := by
  unfold decideItem at h
  unfold MigrationPlanItem.rowId MigrationPlanItem.admits MigrationPlanItem.expected
  cases haction : item.action with
  | representationRewrite =>
    simp only [haction] at h
    unfold decideRewrite at h
    cases hrow : loadRow rows item.memoryId with
    | none => simp [hrow] at h
    | some row =>
      simp only [hrow] at h
      split at h
      · cases h
      · rename_i hreason
        split at h
        · cases h
        · rename_i hchanged
          split at h
          · cases h
          · rename_i hsame
            obtain ⟨rfl,-⟩ := Decision.write.inj h
            exact ⟨rfl,rfl,row,hrow,by simpa using hsame,by simpa [hreason] using hchanged⟩
  | ownerReinforce =>
    simp only [haction] at h
    unfold decideReinforce at h
    cases howner : item.ownerMemoryId with
    | none => simp [howner] at h
    | some ownerId =>
      simp only [howner] at h
      split at h
      · cases h
      · rename_i hpositive
        split at h
        · cases h
        · cases h
        · rename_i owner duplicate hload hduplicate
          split at h
          · cases h
          · rename_i m hmetadata
            split at h
            · cases h
            · rename_i hrecallable
              split at h
              · cases h
              · rename_i hsame
                obtain ⟨rfl,-⟩ := Decision.write.inj h
                rw [not_or,not_not] at hsame
                refine ⟨rfl,by simp [hduplicate],owner,hload,hsame.2,?_⟩
                have hone : 1 ≤ ownerId := by omega
                simpa [hmetadata,hone,hsame.1] using hrecallable

lemma decideItem_of_admits (clock : ℚ) (hid : item.rowId = some id)
    (hduplicate : (loadRow rows item.memoryId).isSome = true) (hrow : loadRow rows id = some row)
    (hsame : row.revision = item.expected) (hadmits : item.admits row = true) :
    ∃ updates, decideItem clock rows item = .write id updates := by
  unfold MigrationPlanItem.rowId at hid
  unfold MigrationPlanItem.admits at hadmits
  unfold MigrationPlanItem.expected at hsame hadmits
  unfold decideItem
  cases haction : item.action with
  | representationRewrite =>
    simp only [haction] at hid hadmits hsame ⊢
    cases hid
    rw [Bool.and_eq_true,decide_eq_true_eq] at hadmits
    refine ⟨row.target.updates,?_⟩
    simp [decideRewrite,hrow,hadmits.1,hadmits.2,hsame]
  | ownerReinforce =>
    simp only [haction] at hid hadmits hsame ⊢
    obtain ⟨duplicate,hduplicate⟩ := Option.isSome_iff_exists.mp hduplicate
    rw [hid] at hadmits
    simp only [Bool.and_eq_true,Option.any_some,decide_eq_true_eq] at hadmits
    obtain ⟨⟨hone,hrecallable⟩,hexpected⟩ := hadmits
    obtain ⟨m,hmetadata,hm⟩ := (Option.any_eq_true ..).mp hrecallable
    have hpositive : ¬id < 1 := by omega
    refine ⟨reinforceUpdates clock m item,?_⟩
    simp [decideReinforce,hid,hpositive,hrow,hduplicate,hmetadata,hm,hsame,hexpected]

lemma writable_iff (clock : ℚ) :
    writable rows item = true ↔ ∃ id updates, decideItem clock rows item = .write id updates := by
  unfold writable
  constructor
  · intro h
    cases hdecide : decideItem 0 rows item with
    | settled outcome reason => simp [hdecide] at h
    | write id updates =>
      obtain ⟨hid,hduplicate,row,hrow,hsame,hadmits⟩ := decideItem_write hdecide
      obtain ⟨again,h'⟩ := decideItem_of_admits clock hid hduplicate hrow hsame hadmits
      exact ⟨id,again,h'⟩
  · rintro ⟨id,updates,hdecide⟩
    obtain ⟨hid,hduplicate,row,hrow,hsame,hadmits⟩ := decideItem_write hdecide
    obtain ⟨again,h'⟩ := decideItem_of_admits 0 hid hduplicate hrow hsame hadmits
    rw [h']

lemma loadRow_update {id k : ℤ} : loadRow (engine.update n id updates rows) k =
      (loadRow rows k).map fun r => if r.id = id then engine.writeRow n updates r else r := by
  have hkey : ∀ r, Row.id (engine.writeRow n updates r) = r.id := fun _ => rfl
  unfold loadRow Engine.update
  rw [RowTable.find?_modify k _ _ rows hkey]
  simp only [decide_eq_true_eq]

lemma id_of_loadRow {k : ℤ} (h : loadRow rows k = some row) : row.id = k := by
  simpa using List.find?_some h

def Spent (rows : List Row) (item : MigrationPlanItem) : Prop :=
  ∀ id row, item.rowId = some id → loadRow rows id = some row → row.revision ≠ item.expected

lemma Spent.not_writable (h : Spent rows item) : writable rows item = false := by
  by_contra hwritable
  obtain ⟨id,updates,hdecide⟩ := (writable_iff 0).mp (by simpa using hwritable)
  obtain ⟨hid,-,row,hrow,hsame,-⟩ := decideItem_write hdecide
  exact h id row hid hrow hsame

lemma revision_stamped (hfresh : engine.Fresh plan.items) (hitem : item ∈ plan.items)
    (h : row.updatedAt = some (engine.stamp n)) : row.revision ≠ item.expected := by
  obtain ⟨t,htoken,hnew⟩ := hfresh n
  unfold Row.revision
  rw [h,htoken]
  exact hnew item hitem

lemma Spent.update (hfresh : engine.Fresh plan.items) (hitem : item ∈ plan.items)
    (h : Spent rows item) (n : ℕ) (id : ℤ) (updates : Updates) :
    Spent (engine.update n id updates rows) item := by
  intro k row hk hrow
  rw [loadRow_update,Option.map_eq_some_iff] at hrow
  obtain ⟨old,hold,rfl⟩ := hrow
  split
  · exact revision_stamped hfresh hitem rfl
  · exact h k old hk hold

lemma spent_of_update (hfresh : engine.Fresh plan.items) (hitem : item ∈ plan.items)
    (hid : item.rowId = some id) : Spent (engine.update n id updates rows) item := by
  intro k row hk hrow
  rw [hid] at hk
  cases hk
  rw [loadRow_update,Option.map_eq_some_iff] at hrow
  obtain ⟨old,hold,rfl⟩ := hrow
  rw [if_pos (id_of_loadRow hold)]
  exact revision_stamped hfresh hitem rfl

lemma writable_of_update (hfresh : engine.Fresh plan.items) (hitem : item ∈ plan.items)
    (h : writable (engine.update n id updates rows) item = true) : writable rows item = true := by
  obtain ⟨k,again,hdecide⟩ := (writable_iff 0).mp h
  obtain ⟨hk,hduplicate,row,hrow,hsame,hadmits⟩ := decideItem_write hdecide
  rw [loadRow_update,Option.map_eq_some_iff] at hrow
  obtain ⟨old,hold,rfl⟩ := hrow
  rw [loadRow_update,Option.isSome_map] at hduplicate
  split at hsame
  · exact absurd hsame (revision_stamped hfresh hitem rfl)
  · rename_i hother
    rw [if_neg hother] at hadmits
    exact (writable_iff 0).mpr ⟨k,decideItem_of_admits 0 hk hduplicate hold hsame hadmits⟩

@[simp] lemma awaits_rebuilt : awaits (log++[.rebuilt]) = false := by
  simp [awaits]

def Honest : Prop :=
  ∀ before report after, log = before++.reported report::after → report.completed = true →
  awaits before = false

lemma Honest.append {log : List Entry} {entry : Entry} (h : Honest log)
    (hentry : ∀ report, entry = .reported report → report.completed = true → awaits log = false) :
    Honest (log++[entry]) := by
  intro before report after heq hcompleted
  rcases List.eq_nil_or_concat after with rfl | ⟨rest,last,rfl⟩
  · obtain ⟨rfl,hlast⟩ := List.append_inj' heq rfl
    exact hentry report (List.head_eq_of_cons_eq hlast) hcompleted
  · have heq' : log++[entry] = (before++.reported report::rest)++[last] := by
      simpa using heq
    exact h before report rest (List.append_inj' heq' rfl).1 hcompleted

structure Process.Sound (plan : MigrationPlan) (w : World) (p : Process) : Prop where
  pending : ∀ item ∈ p.pending, item ∈ plan.items
  stale : awaits w.log = true → 0 < p.counts.applied ∨ p.counts.degraded = true ∨
    ∃ item ∈ p.pending, writable w.rows item = true

structure World.Sound (plan : MigrationPlan) (w : World) : Prop where
  once : ∀ item, w.log.count (.wrote item) ≤ 1
  spent : ∀ item, .wrote item ∈ w.log → item ∈ plan.items ∧ Spent w.rows item
  passed : ∀ item ∈ plan.items, item.memoryId ≤ w.cursor → writable w.rows item = false
  honest : Honest w.log
  process : ∀ p, w.process = some p → p.Sound plan w

def World.upcoming (w : World) (clock : ℚ) : Option (MigrationPlanItem × ℤ × Updates) := do
  let p ← w.process
  let item ← p.pending.head?
  match decideItem clock w.rows item with
  | .write id updates => some (item,id,updates)
  | .settled .. => none

def World.boundary (w : World) : Option ℤ := do
  let p ← w.process
  match p.phase with
  | .checkpoint last => some last
  | _ => none

/-- The condition on a step. A run starts with no change that awaits a rebuild, or with an item
to write; an update that returns false is not taken for one that was made before; a recorded
checkpoint passes no item that is still to be written. -/
def World.Safe (engine : Engine) (plan : MigrationPlan) (w : World) : Event → Prop
  | .start _ resume readable => awaits w.log = true →
      ∃ item ∈ plan.items, startAfter w resume readable < item.memoryId ∧ writable w.rows item = true
  | .item (.refused committed) clock => ∀ next ∈ w.upcoming clock, landed w.rows
        (if committed then engine.update w.writes next.2.1 next.2.2 w.rows else w.rows) next.1 = false
  | .save .recorded | .save (.lost true) => ∀ last ∈ w.boundary,
      ∀ item ∈ plan.items, item.memoryId ≤ last → writable w.rows item = false
  | _ => True

instance (w : World) : (event : Event) → Decidable (w.Safe engine plan event)
  | .start _ resume readable => inferInstanceAs (Decidable (awaits w.log = true →
      ∃ item ∈ plan.items, startAfter w resume readable < item.memoryId ∧ writable w.rows item = true))
  | .item (.refused committed) clock => inferInstanceAs (Decidable (∀ next ∈ w.upcoming clock, landed w.rows
        (if committed then engine.update w.writes next.2.1 next.2.2 w.rows else w.rows) next.1 = false))
  | .save .recorded | .save (.lost true) => inferInstanceAs (Decidable (∀ last ∈ w.boundary,
      ∀ item ∈ plan.items, item.memoryId ≤ last → writable w.rows item = false))
  | .item .applied _ | .item (.raised _) _ | .item (.lost _) _ => isTrue trivial
  | .save .failed | .save (.lost false) | .rebuild _ | .stop => isTrue trivial

lemma World.Sound.idle (h : w.Sound plan) : World.Sound plan { w with process := none } :=
  { h with process := fun _ hp => by cases hp }

lemma World.Sound.continue (h : w.Sound plan) (hp : p.Sound plan w) :
    World.Sound plan { w with process := some p } :=
  { h with process := fun _ hq => Option.some.inj hq ▸ ⟨hp.pending,hp.stale⟩ }

lemma World.Sound.report (h : w.Sound plan) {derived : DerivedStatus} {degraded : Bool}
    (hdone : awaits w.log = true → p.counts.degraded = true ∨ degraded = true) :
    (w.report p derived degraded).Sound plan where
  once := by
    intro item
    have hold := h.once item
    simpa [World.report] using hold
  spent := by
    intro item hitem
    exact h.spent item (by simpa [World.report] using hitem)
  passed := h.passed
  honest := by
    refine h.honest.append ?_
    rintro report heq hcompleted
    rw [← Entry.reported.inj heq] at hcompleted
    by_contra hwaiting
    rcases hdone (by simpa using hwaiting) with hbad | hbad <;> simp [hbad] at hcompleted
  process := fun _ hp => by cases hp

lemma World.Sound.proceed (h : w.Sound plan) (hpending : ∀ item ∈ p.pending, item ∈ plan.items)
    (hstale : awaits w.log = true → 0 < p.counts.applied ∨ p.counts.degraded = true ∨
      ∃ item ∈ p.pending, writable w.rows item = true) :
    (w.proceed p).Sound plan := by
  unfold World.proceed
  by_cases hrest : p.pending = []
  · rw [if_neg (by simpa using hrest)]
    by_cases happlied : 0 < p.counts.applied
    · rw [if_pos happlied]
      exact h.continue ⟨hpending,hstale⟩
    · rw [if_neg happlied]
      refine h.report fun hwaiting => ?_
      rcases hstale hwaiting with hbad | hbad | ⟨item,hitem,-⟩
      · exact absurd hbad happlied
      · exact .inl hbad
      · rw [hrest] at hitem
        cases hitem
  · rw [if_pos hrest]
    exact h.continue ⟨hpending,hstale⟩

variable {rest : List MigrationPlanItem}

lemma World.Sound.settle (h : w.Sound plan) {outcome : ItemOutcome} {reason : Option Reason}
    (hpending : ∀ other ∈ rest, other ∈ plan.items)
    (hstale : awaits w.log = true → 0 < (p.counts.count outcome).applied ∨ (p.counts.count outcome).degraded = true ∨ ∃ other ∈ rest, writable w.rows other = true) :
    (w.settle batchSize p item rest outcome reason).Sound plan := by
  unfold World.settle
  simp only
  split
  · exact h.continue ⟨hpending,hstale⟩
  · exact h.continue ⟨hpending,hstale⟩

lemma Counts.degraded_count {counts : Counts} (h : counts.degraded = true)
    (outcome : ItemOutcome) : (counts.count outcome).degraded = true := by
  simp only [Counts.degraded,Bool.or_eq_true,decide_eq_true_eq] at h ⊢
  cases outcome <;> simp only [Counts.count] <;> omega

lemma Process.Sound.skip (h : p.Sound plan w) (hrest : p.pending = item::rest)
    (hitem : writable w.rows item = false) (outcome : ItemOutcome) (hwaiting : awaits w.log = true) :
    0 < (p.counts.count outcome).applied ∨ (p.counts.count outcome).degraded = true ∨
      ∃ other ∈ rest, writable w.rows other = true := by
  rcases h.stale hwaiting with happlied | hdegraded | ⟨other,hother,hwritable⟩
  · left
    cases outcome <;> simp only [Counts.count] <;> omega
  · exact .inr (.inl (Counts.degraded_count hdegraded outcome))
  · right
    right
    rw [hrest] at hother
    rcases List.mem_cons.mp hother with rfl | hother
    · rw [hitem] at hwritable
      cases hwritable
    · exact ⟨other,hother,hwritable⟩

lemma World.Sound.commit (hfresh : engine.Fresh plan.items) (h : w.Sound plan)
    (hitem : item ∈ plan.items) (hdecide : decideItem clock w.rows item = .write id updates) :
    World.Sound plan { w.commit engine item id updates with process := none } where
  once := by
    intro other
    have hold := h.once other
    change (w.log++[Entry.wrote item]).count (.wrote other) ≤ 1
    rw [List.count_append]
    by_cases hsame : item = other
    · subst hsame
      have hnever : (Entry.wrote item) ∉ w.log := by
        intro hlog
        have hdone := (h.spent item hlog).2.not_writable
        rw [(writable_iff clock).mpr ⟨id,updates,hdecide⟩] at hdone
        cases hdone
      rw [List.count_eq_zero.mpr hnever,List.count_singleton_self]
    · have hother : [Entry.wrote item].count (.wrote other) = 0 := by
        simp [hsame]
      omega
  spent := by
    intro other hlog
    rcases List.mem_append.mp hlog with hlog | hlog
    · obtain ⟨hother,hspent⟩ := h.spent other hlog
      exact ⟨hother,hspent.update hfresh hother _ _ _⟩
    · obtain rfl := Entry.wrote.inj (List.mem_singleton.mp hlog)
      exact ⟨hitem,spent_of_update hfresh hitem (decideItem_write hdecide).1⟩
  passed := by
    intro other hother hbelow
    have hold := h.passed other hother hbelow
    change writable (engine.update w.writes id updates w.rows) other = false
    by_contra hwritable
    rw [writable_of_update hfresh hother (by simpa using hwritable)] at hold
    cases hold
  honest := h.honest.append fun report heq => by cases heq
  process := fun _ hp => by cases hp

lemma World.Sound.written (hfresh : engine.Fresh plan.items) (h : w.Sound plan)
    (hitem : item ∈ plan.items)
    (hdecide : decideItem clock w.rows item = .write id updates) (committed : Bool) :
    World.Sound plan
      { (if committed then w.commit engine item id updates else w) with process := none } := by
  cases committed with
  | true => exact h.commit hfresh hitem hdecide
  | false => exact h.idle

lemma World.Sound.applyItem (hfresh : engine.Fresh plan.items) (h : w.Sound plan)
    (hp : p.Sound plan w) (hrest : p.pending = item::rest) {update : Update}
    (hlanded : ∀ committed id updates, update = .refused committed → decideItem clock w.rows item = .write id updates → landed w.rows (if committed then engine.update w.writes id updates w.rows else w.rows) item = false) :
    (w.applyItem engine batchSize p item rest update clock).Sound plan := by
  have hitem : item ∈ plan.items := hp.pending item (hrest ▸ List.mem_cons_self)
  have hothers : ∀ other ∈ rest, other ∈ plan.items :=
    fun other hother => hp.pending other (hrest ▸ List.mem_cons_of_mem item hother)
  unfold World.applyItem
  cases hdecide : decideItem clock w.rows item with
  | settled outcome reason =>
    have hleft : writable w.rows item = false := by
      by_contra hwritable
      obtain ⟨id,updates,hwrite⟩ := (writable_iff clock).mp (by simpa using hwritable)
      rw [hdecide] at hwrite
      cases hwrite
    exact h.settle hothers (hp.skip hrest hleft outcome)
  | write id updates =>
    have hwritten := h.written hfresh hitem hdecide
    -- the outcome of an update is in the counts
    have hcount : ∀ (committed : Bool) outcome reason,
        0 < (p.counts.count outcome).applied ∨ (p.counts.count outcome).degraded = true →
        World.Sound plan ((if committed then w.commit engine item id updates else w).settle
          batchSize p item rest outcome reason) := by
      intro committed outcome reason hbad
      refine World.Sound.settle (w := { (if committed then w.commit engine item id updates else w)
        with process := none }) (hwritten committed) hothers fun _ => ?_
      rcases hbad with happlied | hdegraded
      · exact .inl happlied
      · exact .inr (.inl hdegraded)
    cases update with
    | applied => exact hcount true .applied none (.inl (Nat.succ_pos _))
    | refused committed =>
      have hno := hlanded committed id updates rfl hdecide
      have hrows : (if committed then w.commit engine item id updates else w).rows =
          if committed then engine.update w.writes id updates w.rows else w.rows := by
        cases committed <;> rfl
      simp only [hrows,hno,Bool.false_eq_true,if_false]
      exact hcount committed .conflict _ (.inr (by simp [Counts.degraded,Counts.count]))
    | raised committed =>
      exact hcount committed .failed _ (.inr (by simp [Counts.degraded,Counts.count]))
    | lost committed => exact hwritten committed

lemma World.Sound.record (hpositive : ∀ item ∈ plan.items, 1 ≤ item.memoryId) (h : w.Sound plan)
    {last : ℤ}
    (hpassed : ∀ item ∈ plan.items, item.memoryId ≤ last → writable w.rows item = false) :
    World.Sound plan { w with checkpoint := some last, process := none } where
  once := h.once
  spent := h.spent
  passed := by
    intro item hitem hbelow
    have hone := hpositive item hitem
    change item.memoryId ≤ max 0 last at hbelow
    exact hpassed item hitem (by omega)
  honest := h.honest
  process := fun _ hp => by cases hp

lemma World.Sound.saveCheckpoint (hpositive : ∀ item ∈ plan.items, 1 ≤ item.memoryId)
    (h : w.Sound plan) (hp : p.Sound plan w) {last : ℤ} {save : Save}
    (hpassed : save = .recorded ∨ save = .lost true →
      ∀ item ∈ plan.items, item.memoryId ≤ last → writable w.rows item = false) :
    (w.saveCheckpoint p last save).Sound plan := by
  cases save with
  | recorded =>
    have hrecord := h.record hpositive (hpassed (.inl rfl))
    refine World.Sound.proceed (w := { w with checkpoint := some last })
      ⟨hrecord.once,hrecord.spent,hrecord.passed,hrecord.honest,fun q hq => ?_⟩ hp.pending hp.stale
    exact ⟨(h.process q hq).pending,(h.process q hq).stale⟩
  | failed => exact h.proceed hp.pending hp.stale
  | lost committed =>
    cases committed with
    | true => exact h.record hpositive (hpassed (.inr rfl))
    | false => exact h.idle

lemma World.Sound.rebuildDerived (h : w.Sound plan) {rebuild : Rebuild} :
    (w.rebuildDerived p rebuild).Sound plan := by
  have hrebuilt : World.Sound plan { w with log := w.log++[.rebuilt], process := none } := by
    refine ⟨fun item => ?_,fun item hitem => ?_,h.passed,?_,fun _ hq => by cases hq⟩
    · have hold := h.once item
      simpa using hold
    · exact h.spent item (by simpa using hitem)
    · exact h.honest.append fun report heq => by cases heq
  cases rebuild with
  | succeeded => exact hrebuilt.report (by simp)
  | failed | unavailable => exact h.report fun _ => .inr rfl
  | lost done =>
    cases done with
    | true => exact hrebuilt
    | false => exact h.idle

lemma World.Sound.start (h : w.Sound plan) {confirmation : String} {resume readable : Bool}
    (hsafe : awaits w.log = true →
      ∃ item ∈ plan.items, startAfter w resume readable < item.memoryId ∧ writable w.rows item = true) :
    (w.start plan confirmation resume readable).Sound plan := by
  unfold World.start
  simp only
  split
  · exact h
  · refine h.proceed (fun item hitem => (List.mem_filter.mp hitem).1) fun hwaiting => ?_
    obtain ⟨item,hitem,hlater,hwritable⟩ := hsafe hwaiting
    exact .inr (.inr ⟨item,List.mem_filter.mpr ⟨hitem,by simpa using hlater⟩,hwritable⟩)

lemma step_sound (hfresh : engine.Fresh plan.items)
    (hpositive : ∀ item ∈ plan.items, 1 ≤ item.memoryId) {event : Event}
    (hsafe : w.Safe engine plan event) (h : w.Sound plan) :
    (w.step engine batchSize plan event).Sound plan := by
  unfold World.step
  cases hprocess : w.process with
  | none =>
    cases event with
    | start confirmation resume readable => exact h.start hsafe
    | _ => exact h
  | some p =>
    have hp := h.process p hprocess
    cases event with
    | start confirmation resume readable => exact h
    | stop => exact h.idle
    | item update clock =>
      simp only
      split
      · rename_i item rest hphase hrest
        refine h.applyItem hfresh hp hrest fun committed id updates hupdate hdecide => ?_
        subst hupdate
        have hnext : w.upcoming clock = some (item,id,updates) := by
          simp [World.upcoming,hprocess,hrest,hdecide]
        exact hsafe (item,id,updates) hnext
      · exact h
    | save save =>
      simp only
      split
      · rename_i last hphase
        refine h.saveCheckpoint hpositive hp fun hsaved => ?_
        have hboundary : w.boundary = some last := by simp [World.boundary,hprocess,hphase]
        rcases hsaved with rfl | rfl
        · exact hsafe last hboundary
        · exact hsafe last hboundary
      · exact h
    | rebuild rebuild =>
      simp only
      split
      · exact h.rebuildDerived
      · exact h

end Memora.Representation

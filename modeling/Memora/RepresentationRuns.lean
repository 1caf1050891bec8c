import Memora.RepresentationSteps

/-! A run that nothing disturbs comes to its end with nothing left to write, from every state that
interrupted runs leave behind. -/
namespace Memora.Representation
open Canonical RunLaws

variable {engine : Engine} {batchSize : ℕ+} {plan : MigrationPlan} {w : World} {p : Process}
  {rows : List Row} {item : MigrationPlanItem}

structure World.Fits (w : World) : Prop where
  items : ∀ p, w.process = some p → p.phase = .items → p.pending ≠ []
  rebuild : ∀ p, w.process = some p → p.phase = .rebuild → p.pending = []

lemma World.Fits.idle (hidle : w.process = none) : w.Fits := by
  constructor <;>
  · intro p hp
    rw [hidle] at hp
    cases hp

lemma World.Fits.continue (hitems : p.phase = .items → p.pending ≠ [])
    (hrebuild : p.phase = .rebuild → p.pending = []) : World.Fits { w with process := some p } where
  items := fun _ hq => Option.some.inj hq ▸ hitems
  rebuild := fun _ hq => Option.some.inj hq ▸ hrebuild

lemma proceed_fits : (w.proceed p).Fits := by
  unfold World.proceed
  by_cases hrest : p.pending = []
  · rw [if_neg (by simpa using hrest)]
    split
    · exact .continue (fun hphase => by cases hphase) fun _ => hrest
    · exact .idle rfl
  · rw [if_pos hrest]
    exact .continue (fun _ => hrest) fun hphase => by cases hphase

variable {rest : List MigrationPlanItem} {reason : Option Reason} {outcome : ItemOutcome}

lemma settle_fits : (w.settle batchSize p item rest outcome reason).Fits := by
  unfold World.settle
  simp only
  split
  · exact .continue (fun hphase => by cases hphase) fun hphase => by cases hphase
  · rename_i hmore
    rw [not_or] at hmore
    exact .continue (fun _ => hmore.2) fun hphase => by cases hphase

lemma applyItem_fits {update : Update} {clock : ℚ} :
    (w.applyItem engine batchSize p item rest update clock).Fits := by
  unfold World.applyItem
  cases decideItem clock w.rows item with
  | settled outcome reason => exact settle_fits
  | write id updates =>
    cases update with
    | applied | raised => exact settle_fits
    | refused committed =>
      simp only
      split
      · split
        · exact settle_fits
        · exact settle_fits
      · split
        · exact settle_fits
        · exact settle_fits
    | lost committed => exact .idle rfl

lemma step_fits (h : w.Fits) (event : Event) : (w.step engine batchSize plan event).Fits := by
  unfold World.step
  cases hprocess : w.process with
  | none =>
    cases event with
    | start confirmation resume readable =>
      simp only [World.start]
      split
      · exact h
      · exact proceed_fits
    | _ => exact h
  | some p =>
    cases event with
    | start confirmation resume readable => exact h
    | stop => exact .idle rfl
    | item update clock =>
      simp only
      split
      · exact applyItem_fits
      · exact h
    | save save =>
      simp only
      split
      · cases save with
        | recorded | failed => exact proceed_fits
        | lost committed => exact .idle rfl
      · exact h
    | rebuild rebuild =>
      simp only
      split
      · cases rebuild <;> exact .idle rfl
      · exact h

def Event.undisturbed : Event → Bool
  | .item .applied _ | .save .recorded | .rebuild .succeeded => true
  | _ => false

def World.pending (w : World) : List MigrationPlanItem :=
  match w.process with
  | some p => p.pending
  | none => []

@[simp] lemma proceed_pending : (w.proceed p).pending = p.pending := by
  unfold World.proceed
  by_cases hrest : p.pending = []
  · rw [if_neg (by simpa using hrest)]
    split
    · rfl
    · exact hrest.symm
  · rw [if_pos hrest]
    rfl

@[simp] lemma settle_pending : (w.settle batchSize p item rest outcome reason).pending = rest := by
  unfold World.settle
  simp only
  split <;> rfl

@[simp] lemma proceed_rows : (w.proceed p).rows = w.rows := by
  unfold World.proceed
  split
  · rfl
  · split <;> rfl

@[simp] lemma settle_rows : (w.settle batchSize p item rest outcome reason).rows = w.rows := by
  unfold World.settle
  simp only
  split <;> rfl

/-- A step of such a run takes the next item, or leaves rows and items alone. -/
theorem undisturbed_step (engine : Engine) (batchSize : ℕ+) (plan : MigrationPlan) (h : w.Fits)
    {event : Event} (hevent : event.undisturbed = true) :
    (∃ clock p item rest, w.process = some p ∧ w.pending = item::rest ∧ w.step engine batchSize plan event =
          w.applyItem engine batchSize p item rest .applied clock) ∨
      ((w.step engine batchSize plan event).rows = w.rows ∧
        (w.step engine batchSize plan event).pending = w.pending) := by
  unfold World.step
  cases hprocess : w.process with
  | none =>
    cases event with
    | start confirmation resume readable => cases hevent
    | _ => exact .inr ⟨rfl,rfl⟩
  | some p =>
    have hpending : w.pending = p.pending := by simp only [World.pending,hprocess]
    cases event with
    | start | stop => cases hevent
    | item update clock =>
      obtain rfl : update = .applied := by cases update <;> first | rfl | cases hevent
      simp only
      split
      · rename_i item rest hphase hrest
        exact .inl ⟨clock,p,item,rest,rfl,hpending.trans hrest,rfl⟩
      · exact .inr ⟨rfl,rfl⟩
    | save save =>
      obtain rfl : save = .recorded := by cases save <;> first | rfl | cases hevent
      simp only
      split
      · exact .inr ⟨proceed_rows,proceed_pending.trans hpending.symm⟩
      · exact .inr ⟨rfl,rfl⟩
    | rebuild rebuild =>
      obtain rfl : rebuild = .succeeded := by cases rebuild <;> first | rfl | cases hevent
      simp only
      split
      · rename_i hphase
        exact .inr ⟨rfl,(hpending.trans (h.rebuild p hprocess hphase)).symm⟩
      · exact .inr ⟨rfl,rfl⟩

structure World.Clearing (plan : MigrationPlan) (w : World) : Prop where
  left : ∀ item ∈ plan.items, writable w.rows item = true → item ∈ w.pending
  pending : ∀ item ∈ w.pending, item ∈ plan.items

lemma step_clearing (hfresh : engine.Fresh plan.items) {event : Event}
    (hevent : event.undisturbed = true) (hfits : w.Fits) (h : w.Clearing plan) :
    (w.step engine batchSize plan event).Clearing plan := by
  rcases undisturbed_step engine batchSize plan hfits hevent with
    ⟨clock,p,item,rest,-,hrest,hstep⟩ | ⟨hrows,hpending⟩
  · rw [hstep]
    have hitem : item ∈ plan.items := h.pending item (hrest ▸ List.mem_cons_self)
    have hothers : ∀ other ∈ rest, other ∈ plan.items :=
      fun other hother => h.pending other (hrest ▸ List.mem_cons_of_mem item hother)
    have hleft : ∀ other ∈ plan.items, writable w.rows other = true → other = item ∨ other ∈ rest := by
      intro other hother hwritable
      have hmem := h.left other hother hwritable
      rw [hrest] at hmem
      exact List.mem_cons.mp hmem
    unfold World.applyItem
    cases hdecide : decideItem clock w.rows item with
    | settled outcome reason =>
      refine ⟨fun other hother hwritable => ?_,by simpa using hothers⟩
      simp only [settle_rows,settle_pending] at hwritable ⊢
      refine (hleft other hother hwritable).resolve_left fun heq => ?_
      obtain ⟨id,updates,hwrite⟩ := (writable_iff clock).mp hwritable
      rw [heq,hdecide] at hwrite
      cases hwrite
    | write id updates =>
      refine ⟨fun other hother hwritable => ?_,by simpa using hothers⟩
      simp only [settle_rows,settle_pending] at hwritable ⊢
      change writable (engine.update w.writes id updates w.rows) other = true at hwritable
      refine (hleft other hother (writable_of_update hfresh hother hwritable)).resolve_left
        fun heq => ?_
      subst heq
      have hspent : Spent (engine.update w.writes id updates w.rows) other :=
        spent_of_update hfresh hitem (decideItem_write hdecide).1
      rw [hspent.not_writable] at hwritable
      cases hwritable
  · exact ⟨by rw [hrows,hpending]; exact h.left,by rw [hpending]; exact h.pending⟩

def Process.left (p : Process) : ℕ :=
  2 * p.pending.length+match p.phase with
    | .checkpoint _ => 1
    | _ => 0

lemma proceed_ends : (w.proceed p).process = none ∨ ∃ q, (w.proceed p).process = some q ∧
    q.left = 2 * p.pending.length := by
  unfold World.proceed
  split
  · exact .inr ⟨_,rfl,rfl⟩
  · split
    · exact .inr ⟨_,rfl,rfl⟩
    · exact .inl rfl

lemma settle_ends :
    ∃ q, (w.settle batchSize p item rest outcome reason).process = some q ∧
    q.left ≤ 2 * rest.length+1 := by
  unfold World.settle
  simp only
  split
  · exact ⟨_,rfl,le_refl _⟩
  · exact ⟨_,rfl,Nat.le_succ _⟩

/-- A run that goes on has a step that brings it nearer to its end. -/
theorem exists_step (engine : Engine) (batchSize : ℕ+) (plan : MigrationPlan) (h : w.Fits)
    (hprocess : w.process = some p) :
    ∃ event : Event, event.undisturbed = true ∧
    ((w.step engine batchSize plan event).process = none ∨
        ∃ q, (w.step engine batchSize plan event).process = some q ∧ q.left < p.left) := by
  cases hphase : p.phase with
  | items =>
    refine ⟨.item .applied 0,rfl,.inr ?_⟩
    cases hrest : p.pending with
    | nil => exact absurd hrest (h.items p hprocess hphase)
    | cons item rest =>
      have hleft : p.left = 2 * rest.length+2 := by
        simp only [Process.left,hphase,hrest,List.length_cons]
        omega
      simp only [World.step,hprocess,hphase,hrest]
      unfold World.applyItem
      cases decideItem 0 w.rows item with
      | settled outcome reason =>
        have hends : ∃ q, (w.settle batchSize p item rest outcome (some reason)).process = some q ∧
            q.left ≤ 2 * rest.length+1 := settle_ends
        obtain ⟨q,hq,hless⟩ := hends
        exact ⟨q,hq,by omega⟩
      | write id updates =>
        have hends : ∃ q, ((w.commit engine item id updates).settle batchSize p item rest .applied
            none).process = some q ∧ q.left ≤ 2 * rest.length+1 := settle_ends
        obtain ⟨q,hq,hless⟩ := hends
        exact ⟨q,hq,by omega⟩
  | checkpoint last =>
    refine ⟨.save .recorded,rfl,?_⟩
    have hleft : p.left = 2 * p.pending.length+1 := by simp only [Process.left,hphase]
    simp only [World.step,hprocess,hphase,World.saveCheckpoint]
    rcases proceed_ends (w := { w with checkpoint := some last, process := some p })
      (p := { p with checkpointStatus := .recorded }) with hdone | ⟨q,hq,hless⟩
    · exact .inl hdone
    · refine .inr ⟨q,hq,?_⟩
      simp only at hless
      omega
  | rebuild => exact ⟨.rebuild .succeeded,rfl,.inl (by simp only [World.step,hprocess,hphase]; rfl)⟩

lemma undisturbed_ends (h : w.Fits) :
    ∃ events : List Event, (∀ event ∈ events, event.undisturbed = true) ∧
      (events.foldl (World.step engine batchSize plan) w).process = none := by
  cases hprocess : w.process with
  | none => exact ⟨[],by simp,hprocess⟩
  | some p =>
    induction hn : p.left using Nat.strong_induction_on generalizing w p with
    | _ n ih =>
      obtain ⟨event,hevent,hstep⟩ := exists_step engine batchSize plan h hprocess
      have hnext : (w.step engine batchSize plan event).Fits := step_fits h event
      rcases hstep with hdone | ⟨q,hq,hless⟩
      · exact ⟨[event],by simpa using hevent,hdone⟩
      · obtain ⟨events,hevents,hend⟩ := ih q.left (by omega) hnext q hq rfl
        refine ⟨event::events,fun e he => ?_,hend⟩
        rcases List.mem_cons.mp he with rfl | he
        · exact hevent
        · exact hevents e he

lemma undisturbed_invariant {P : World → Prop}
    (hstep : ∀ w, w.Fits → P w → ∀ event : Event, event.undisturbed = true →
      P (w.step engine batchSize plan event))
    {events : List Event} (hevents : ∀ event ∈ events, event.undisturbed = true) (hfits : w.Fits)
    (h : P w) : P (events.foldl (World.step engine batchSize plan) w) := by
  induction events generalizing w with
  | nil => exact h
  | cons event events ih =>
    exact ih (fun e he => hevents e (List.mem_cons_of_mem event he)) (step_fits hfits event)
      (hstep w hfits h event (hevents event List.mem_cons_self))

lemma start_eq {codec : Codec} (hplan : plan.Valid codec) (w : World) (resume readable : Bool) :
    ∃ resumed, w.start plan plan.operatorConfirmation resume readable = w.proceed {
      pending := plan.items.filter fun item => startAfter w resume readable < item.memoryId
      resumed } := by
  have htoken : ¬(pythonStrip plan.operatorConfirmation = "" ∨
      pythonStrip plan.operatorConfirmation ≠ plan.operatorConfirmation) := by
    rw [not_or,not_not]
    exact ⟨by simpa [blank] using hplan.confirmation,hplan.stripped⟩
  unfold World.start
  simp only [if_neg htoken]
  exact ⟨_,rfl⟩

lemma start_clearing {codec : Codec} (hplan : plan.Valid codec) (h : w.Sound plan) :
    (w.start plan plan.operatorConfirmation true true).Clearing plan := by
  obtain ⟨resumed,hstart⟩ := start_eq hplan w true true
  rw [hstart]
  refine ⟨fun item hitem hwritable => ?_,fun item hitem => ?_⟩
  · simp only [proceed_rows,proceed_pending] at hwritable ⊢
    refine List.mem_filter.mpr ⟨hitem,?_⟩
    by_contra hbelow
    have hpassed := h.passed item hitem (by simpa [startAfter] using hbelow)
    rw [hwritable] at hpassed
    cases hpassed
  · rw [proceed_pending] at hitem
    exact (List.mem_filter.mp hitem).1

/-- Where every run starts with no change that awaits a rebuild or with an item to write, where
no update that returns false is taken for an earlier one, and where a recorded checkpoint passes
no item that is still to be written: every item is written at most once, a run that reports
success has been preceded by a rebuild after the last change, and a resumed run that nothing
disturbs comes to an end and leaves no item to write. -/
theorem migration_resumes (codec : Codec) (payload : Payload) (plan : MigrationPlan)
    (hplan : MigrationPlan.parse codec payload = .ok plan) (engine : Engine)
    (hfresh : engine.Fresh plan.items) (batchSize : ℕ+) (rows : List Row) (events : List Event)
    (hsafe : Along (World.step engine batchSize plan) (World.Safe engine plan) { rows } events) :
    let last := events.foldl (World.step engine batchSize plan) { rows }
    (∀ item, last.log.count (.wrote item) ≤ 1) ∧
      (∀ before report after, last.log = before++.reported report::after →
        report.completed = true → awaits before = false) ∧
      (last.process = none →
        let next := last.step engine batchSize plan (.start plan.operatorConfirmation true true)
        (∃ rest : List Event, (∀ event ∈ rest, event.undisturbed = true) ∧
          (rest.foldl (World.step engine batchSize plan) next).process = none) ∧
        ∀ rest : List Event, (∀ event ∈ rest, event.undisturbed = true) →
          (rest.foldl (World.step engine batchSize plan) next).process = none →
          ∀ item ∈ plan.items,
            writable (rest.foldl (World.step engine batchSize plan) next).rows item = false) := by
  intro last
  have hvalid := parse_valid hplan
  have hpositive : ∀ item ∈ plan.items, 1 ≤ item.memoryId := fun item hitem =>
    (hvalid.items item hitem).id
  have hbegin : World.Sound plan { rows } := by
    refine ⟨fun item => Nat.zero_le _,(fun item hitem => by cases hitem),
      fun item hitem hbelow => ?_,fun before report after heq => ?_,(fun _ hp => by cases hp)⟩
    · have hone := hpositive item hitem
      change item.memoryId ≤ 0 at hbelow
      omega
    · simp at heq
  have hsound : last.Sound plan :=
    along_invariant (fun _ _ hs h => step_sound hfresh hpositive hs h) hbegin hsafe
  refine ⟨hsound.once,hsound.honest,fun hidle => ?_⟩
  intro next
  have hfits : next.Fits := step_fits (.idle hidle) _
  have hnext : next.Clearing plan := by
    have hstart : next = last.start plan plan.operatorConfirmation true true := by
      simp only [next,World.step,hidle]
    rw [hstart]
    exact start_clearing hvalid hsound
  refine ⟨undisturbed_ends hfits,fun rest hrest hend item hitem => ?_⟩
  have hlast : (rest.foldl (World.step engine batchSize plan) next).Clearing plan :=
    undisturbed_invariant (fun w hw h event hevent => step_clearing hfresh hevent hw h) hrest
    hfits hnext
  by_contra hwritable
  have hleft := hlast.left item hitem (by simpa using hwritable)
  simp only [World.pending,hend] at hleft
  cases hleft

def sampleEngine : Engine where
  write := exactWrite
  stamp n := if n = 0 then "2026-02-01" else "2026-02-02"

def sampleCodec : Codec where
  dumps _ := ""
  sha256 s := s

def plainMemory (id : ℤ) : Row where
  id := id
  text := some "likes tea"
  metadata := some {}
  createdAt := some "2026-01-01"

def sampleItems : List MigrationPlanItem := [(plainMemory 1).item,(plainMemory 2).item]

def samplePlan : MigrationPlan := ⟨"go",sampleItems,planFingerprint sampleCodec sampleItems⟩

lemma samplePlan_valid : samplePlan.Valid sampleCodec where
  confirmation := by decide +kernel
  stripped := by decide +kernel
  nonempty := by simp [samplePlan,sampleItems]
  items := by
    intro item hitem
    have hid : ∀ i ∈ samplePlan.items, 1 ≤ i.memoryId ∧ blank i.expectedRevision = false ∧
        pythonStrip i.expectedRevision = i.expectedRevision ∧
        i.action = .representationRewrite ∧ i.ownerMemoryId = none ∧
        i.ownerExpectedRevision = none := by decide +kernel
    obtain ⟨hone,hblank,hstrip,haction,hnone⟩ := hid item hitem
    exact ⟨hone,hblank,hstrip,by rw [haction]; exact hnone⟩
  distinct := by decide +kernel
  sorted := by decide +kernel
  fingerprint := rfl

lemma sampleEngine_fresh : sampleEngine.Fresh samplePlan.items := by
  intro n
  by_cases hn : n = 0
  · subst hn
    exact ⟨"2026-02-01",by decide +kernel,by decide +kernel⟩
  · refine ⟨"2026-02-02",?_,by decide +kernel⟩
    simp only [sampleEngine,if_neg hn]
    decide +kernel

/-- The run dies after its first update; the next one finds that one made, and finishes. -/
def cutRun : List Event := [.start "go" true true,.item .applied 0,.stop,
  .start "go" true true,.item .applied 0,.item .applied 0,.save .recorded,.rebuild .succeeded]

theorem migration_resumes_sample :
    let step := World.step sampleEngine 2 samplePlan
    let last := cutRun.foldl step { rows := [plainMemory 1,plainMemory 2] }
    last.process = none ∧ last.log.length = 4 ∧ (∀ item, last.log.count (.wrote item) ≤ 1) ∧
      ∀ before report after, last.log = before++.reported report::after →
        report.completed = true → awaits before = false := by
  intro step last
  have h := migration_resumes sampleCodec (.mapping samplePlan.payload) samplePlan
    (parse_payload samplePlan_valid) sampleEngine sampleEngine_fresh 2
    [plainMemory 1,plainMemory 2] cutRun (by decide +kernel)
  exact ⟨by decide +kernel,by decide +kernel,h.1,h.2.1⟩

/-- The update of the first item fails for a moment; the checkpoint passes it. -/
def failedRun : List Event := [.start "go" true true,.item (.raised false) 0,.save .recorded,.item
    .applied 0,
  .save .recorded,.rebuild .succeeded]

def unrebuiltRun : List Event := [
  .start "go" true true,.item .applied 0,.save .recorded,.item .applied 0,.save .recorded,
  .stop,.start "go" true true]

/-- The resumed run after the first writes nothing and leaves an item to write; the one after the
second reports success while both changes await a rebuild. -/
theorem resumed_runs_miss :
    let step := World.step sampleEngine 1 samplePlan
    let rows := [plainMemory 1,plainMemory 2]
    let resumed := step (failedRun.foldl step { rows }) (.start "go" true true)
    let log := (unrebuiltRun.foldl step { rows }).log
    (resumed.process = none ∧ ∃ item ∈ samplePlan.items, writable resumed.rows item = true) ∧
      ∃ before report after, log = before++.reported report::after ∧
        report.completed = true ∧ awaits before = true := by
  intro step rows resumed log
  refine ⟨by decide +kernel,[.wrote (plainMemory 1).item,.wrote (plainMemory 2).item],?_⟩
  refine ⟨⟨true,true,{},{},.notApplicable,.notRequired⟩,[],?_⟩
  decide +kernel

end Memora.Representation

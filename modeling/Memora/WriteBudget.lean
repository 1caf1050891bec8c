import Memora.WriteRepair
import Memora.RunLaws

/-! Every failed stage of a write counts as a retry, before any repair. An operation that needs
repair is selected while fewer of its stages failed than it has retries, and never again
once as many did. -/
namespace Memora.WriteOps

variable {π : Type*} {j : Journal π} {r : WriteOp π} {i n : ℕ} {documents : ℕ → Bool}
  {maxRetries : ℕ} {memoryId : Option ℕ}

def failures (as : List (Advance π)) : ℕ := as.countP Advance.fails

def ownAdvances (i : ℕ) (calls : List (JournalCall π)) : List (Advance π) :=
  calls.filterMap fun
    | .advance id a => if id = i then some a else none
    | .start _ _ _ | .mark _ _ => none

lemma find?_startOp {opType : OpType} {payload : π} :
    (j.startOp opType payload memoryId).find? j.nextId =
      some { id := j.nextId, opType, memoryId, payload } := by
  have hold : j.rows.find? (fun r => r.id = j.nextId) = none := by
    rw [List.find?_eq_none]
    intro r hr
    have hlt := j.below r hr
    simp only [decide_eq_true_eq]
    omega
  simp [Journal.find?,Journal.startOp,hold]

lemma find?_startOp_of_some {opType : OpType} {payload : π}
    (h : j.find? i = some r) : (j.startOp opType payload memoryId).find? i = some r := by
  unfold Journal.find? at h
  simp [Journal.find?,Journal.startOp,h]

lemma find?_modify {f : WriteOp π → WriteOp π} (hf : ∀ r, (f r).id = r.id) {k : ℕ}
    (h : j.find? i = some r) : (j.modify k f hf).find? i = some (if i = k then f r else r) := by
  have hid : r.id = i := by simpa using List.find?_some h
  have hpred : (fun r : WriteOp π => decide (r.id = i)) ∘ (fun r => if r.id = k then f r else r) =
      fun r => decide (r.id = i) := by
    funext r
    simp only [Function.comp_apply]
    split <;> simp [hf]
  unfold Journal.find? at h
  rw [Journal.find?,Journal.modify,List.find?_map,hpred,h,Option.map_some,hid]

lemma find?_advanceOp (h : j.find? i = some r) (k : ℕ) (a : Advance π) :
    (j.advanceOp k a).find? i = some (if i = k then r.advance a else r) := by
  exact find?_modify _ h

lemma find?_markStep (h : j.find? i = some r) (k : ℕ) (step : OpStep) :
    (j.markStep k step).find? i = some (if i = k then { r with step } else r) := by
  exact find?_modify _ h

lemma find?_step (h : j.find? i = some r) (call : JournalCall π) :
    ∃ r', (j.step call).find? i = some r' ∧ r'.retryCount =
    r.retryCount+failures (ownAdvances i [call]) := by
  cases call with
  | start opType payload memoryId =>
    exact ⟨r,find?_startOp_of_some h,by simp [failures,ownAdvances]⟩
  | advance id a =>
    refine ⟨_,find?_advanceOp h id a,?_⟩
    by_cases hi : i = id
    · subst hi
      cases ha : a.fails <;> simp [failures,ownAdvances,WriteOp.advance,ha]
    · have hne : ¬ id = i := fun heq => hi heq.symm
      simp [failures,ownAdvances,hi,hne]
  | mark id step =>
    refine ⟨_,find?_markStep h id step,?_⟩
    split <;> simp [failures,ownAdvances]

lemma ownAdvances_cons (i : ℕ) (call : JournalCall π) (calls : List (JournalCall π)) :
    ownAdvances i (call::calls) = ownAdvances i [call]++ownAdvances i calls := by
  unfold ownAdvances
  rw [← List.filterMap_append]
  rfl

lemma failures_append (as bs : List (Advance π)) :
    failures (as++bs) = failures as+failures bs := List.countP_append

@[simp] lemma failures_nil : failures ([] : List (Advance π)) = 0 := rfl

@[simp] lemma failures_cons (a : Advance π) (as : List (Advance π)) :
    failures (a::as) = a.fails.toNat+failures as := by
  cases ha : a.fails <;> simp [failures,ha,Nat.add_comm]

lemma find?_run (calls : List (JournalCall π)) (h : j.find? i = some r) :
    ∃ r', (j.run calls).find? i = some r' ∧ r'.retryCount =
    r.retryCount+failures (ownAdvances i calls) := by
  induction calls generalizing j r with
  | nil => exact ⟨r,h,by simp [ownAdvances]⟩
  | cons call calls ih =>
    obtain ⟨r₁,hr₁,hcount₁⟩ := find?_step h call
    obtain ⟨r₂,hr₂,hcount₂⟩ := ih hr₁
    refine ⟨r₂,hr₂,?_⟩
    rw [ownAdvances_cons,failures_append]
    omega

theorem mem_take_iff {rows : List (WriteOp π)} (h : rows.Pairwise fun a b => a.id < b.id)
    (hr : r ∈ rows) : r ∈ rows.take n ↔ (rows.countP fun a => a.id < r.id) < n := by
  induction rows generalizing n with
  | nil => simp at hr
  | cons a rows ih =>
    obtain ⟨hfirst,hrest⟩ := List.pairwise_cons.mp h
    rcases List.mem_cons.mp hr with rfl | htail
    · have hzero : rows.countP (fun b => b.id < r.id) = 0 := by
        rw [List.countP_eq_zero]
        intro b hb
        have hlt := hfirst b hb
        simp only [decide_eq_true_eq]
        omega
      cases n with
      | zero => simp
      | succ n => simp [hzero]
    · have hlt := hfirst r htail
      have hne : r ≠ a := by
        rintro rfl
        omega
      cases n with
      | zero => simp
      | succ n => simp [hne,hlt,ih hrest htail]

def Journal.olderDue (documents : ℕ → Bool) (maxRetries : ℕ) (j : Journal π) (i : ℕ) : ℕ :=
  (j.rows.filter (WriteOp.due documents maxRetries)).countP fun a => a.id < i

lemma mem_selected (h : j.find? i = some r) : r ∈ j.selected documents maxRetries ↔
      r.due documents maxRetries = true ∧ j.olderDue documents maxRetries i < 25 := by
  have hid : r.id = i := by simpa using List.find?_some h
  have hmem : r ∈ j.rows := List.mem_of_find?_eq_some h
  have hordered : (j.rows.filter (WriteOp.due documents maxRetries)).Pairwise
      fun a b => a.id < b.id := j.ordered.filter _
  constructor
  · intro hsel
    have hfiltered := List.mem_of_mem_take hsel
    refine ⟨(List.mem_filter.mp hfiltered).2,?_⟩
    rw [← hid]
    exact (mem_take_iff hordered hfiltered).mp hsel
  · rintro ⟨hdue,hfew⟩
    rw [← hid] at hfew
    exact (mem_take_iff hordered (List.mem_filter.mpr ⟨hmem,hdue⟩)).mpr hfew

lemma due_of_needsRepair (h : r.status = .needsRepair) :
    r.due documents maxRetries = true ↔ r.retryCount < maxRetries := by
  simp [WriteOp.due,h]

/-- A row without retries left is not selected, whatever is written to the journal later. -/
theorem exhausted_never_selected (h : j.find? i = some r) (hmax : maxRetries ≤ r.retryCount)
    (later : List (JournalCall π)) :
    ∃ r', (j.run later).find? i = some r' ∧ r' ∉ (j.run later).selected documents maxRetries := by
  obtain ⟨r',hr',hcount⟩ := find?_run later h
  refine ⟨r',hr',fun hsel => ?_⟩
  have hdue := ((mem_selected hr').mp hsel).1
  simp only [WriteOp.due,Bool.and_eq_true,decide_eq_true_eq] at hdue
  omega

/-- A write that opens an operation. A staged add is finished later, when its source is
accepted or its replacement is shown. -/
inductive WriteFlow
  | add (r : AddRun)
  | finishedAdd (r : AddRun) (finish : RepairRun) (s : AddState) (id : ℕ)
  | delete (r : DeleteRun)
  | replace (oldId : ℕ) (ending : ReplaceEnd)

namespace WriteFlow

def opType : WriteFlow → OpType
  | .add _ | .finishedAdd _ _ _ _ => .add
  | .delete _ => .delete
  | .replace _ _ => .replaceContent

def advances (digest : String → String) : WriteFlow → List (Advance Payload)
  | .add r => WriteOps.advances (r.effects digest)
  | .finishedAdd r finish s id =>
    WriteOps.advances (r.effects digest)++WriteOps.advances (finish.finalizeAddDerivation s id)
  | .delete r => r.effects
  | .replace oldId ending => ending.effects oldId

end WriteFlow

variable (r : AddRun)

/-- The stages of an add that fail: the indexes of the committed row, its atoms, its graph. -/
def AddRun.failedStages : ℕ :=
  match r.row with
  | none => r.owner.isNone.toNat
  | some id => r.degraded.toNat+(!(r.failedAtoms id).isEmpty).toNat+r.graphFails.toNat

/-- Finishing a staged add fails: its memory is gone, its indexes fail again, its atoms are
stale or cannot be stored, or the graph fails. -/
def RepairRun.finishFails (r : RepairRun) (s : AddState) (id : ℕ) : Bool :=
  (WriteOps.advances (r.finalizeAddDerivation s id)).any Advance.fails

def DeleteRun.failedStages (r : DeleteRun) : ℕ :=
  if !r.retriever then 1
  else if r.raises then 0
  else if !r.deleted then 1
  else r.graphFails.isSome.toNat+r.atomsFail.isSome.toNat

def ReplaceEnd.failedStages : ReplaceEnd → ℕ
  | .committed _ => 0
  | .aborted _ | .rolledBack _ | .rollbackFailed _ | .cleanupPending _ => 1

def WriteFlow.failedStages : WriteFlow → ℕ
  | .add r => r.failedStages
  | .finishedAdd r finish s id => r.failedStages+(finish.finishFails s id).toNat
  | .delete r => r.failedStages
  | .replace _ ending => ending.failedStages

@[simp] lemma advances_nil : advances [] = [] := rfl

@[simp] lemma advances_advance (a : Advance Payload) (es : List Effect) :
    advances (.advance a::es) = a::advances es := rfl

@[simp] lemma advances_insertDocument (m : Memory) (es : List Effect) :
    advances (.insertDocument m::es) = advances es := rfl

@[simp] lemma advances_storeAtoms (atoms : List Atom) (es : List Effect) :
    advances (.storeAtoms atoms::es) = advances es := rfl

lemma advances_append (es es' : List Effect) :
    advances (es++es') = advances es++advances es' := List.filterMap_append

lemma advances_stores (bs : List (List Atom)) : advances (bs.map .storeAtoms) = [] := by
  induction bs with
  | nil => rfl
  | cons b bs ih => simp [ih]

lemma advances_storeSingles (fails : ℕ → Bool) (atoms : List Atom) :
    advances (AddRun.storeSingles fails atoms).1 = [] := by
  induction atoms generalizing fails with
  | nil => rfl
  | cons a atoms ih =>
    rw [AddRun.storeSingles]
    split
    · exact ih _
    · simp [ih]

lemma advances_storedAtoms (id : ℕ) : advances (r.storedAtoms id).1 = [] := by
  unfold AddRun.storedAtoms
  split
  · rfl
  · unfold AddRun.storeBound
    dsimp only
    split
    · exact advances_stores _
    · rw [advances_append,advances_stores,advances_storeSingles]
      rfl

variable (digest : String → String)

lemma failures_documentStage (r : AddRun) (id : ℕ) :
    failures (advances (r.documentStage digest id)) = r.degraded.toNat := by
  cases hports : r.ports with
  | false => simp [AddRun.documentStage,hports,Advance.fails,AddRun.degraded]
  | true =>
    cases hdegraded : r.degraded <;>
      simp [AddRun.documentStage,hports,Advance.fails,hdegraded,AddRun.openStatus]

lemma failures_atomStage (id : ℕ) :
    failures (advances (r.atomStage id)) = (!(r.failedAtoms id).isEmpty).toNat := by
  unfold AddRun.atomStage AddRun.failedAtoms
  by_cases hwrites : r.writesAtoms = true
  · rw [if_pos hwrites,if_pos hwrites,advances_append,advances_storedAtoms,List.nil_append]
    cases hfailed : (r.storedAtoms id).2 <;> simp [Advance.fails]
  · rw [if_neg hwrites,if_neg hwrites]
    simp [Advance.fails]

lemma failures_graphStage (id : ℕ) : failures (advances [r.graphStage id]) = r.graphFails.toNat := by
  unfold AddRun.graphStage AddRun.graphFails
  cases hstaged : r.staged with
  | true => simp [Advance.fails]
  | false =>
    cases hgraph : r.graph <;> simp [Advance.fails]

lemma failures_closing (id : ℕ) : failures (advances (r.closing id)) = 0 := by
  unfold AddRun.closing
  split <;> simp [Advance.fails]

lemma failures_add (r : AddRun) : failures (advances (r.effects digest)) = r.failedStages := by
  have hintent : failures (advances (if r.ports && r.embeds then
      [Effect.advance
        { step := .documentIntent
          payloadPatch := some fun p => { p with pendingDocId := some r.docId } }]
    else [])) = 0 := by
    split <;> simp [Advance.fails]
  rw [AddRun.effects,advances_append,failures_append,hintent,Nat.zero_add,AddRun.failedStages]
  cases r.row with
  | none =>
    cases r.owner <;> simp [Advance.fails]
  | some id =>
    simp only [advances_append,failures_append,failures_documentStage,failures_atomStage,
      failures_graphStage,failures_closing,Nat.add_zero]

lemma failures_delete (r : DeleteRun) : failures r.effects = r.failedStages := by
  unfold DeleteRun.effects DeleteRun.failedStages
  split
  · simp [Advance.fails]
  split
  · rfl
  split
  · simp [Advance.fails]
  · cases r.graphFails <;> cases r.atomsFail <;> simp [Advance.fails]

lemma failures_replace (oldId : ℕ) (e : ReplaceEnd) :
    failures (e.effects oldId) = e.failedStages := by
  cases e with
  | aborted created =>
    cases created <;> simp [ReplaceEnd.effects,ReplaceEnd.failedStages,Advance.fails]
  | rolledBack | rollbackFailed | committed | cleanupPending =>
    simp [ReplaceEnd.effects,ReplaceEnd.failedStages,Advance.fails]

lemma failures_of_le_one {as : List (Advance π)} (h : failures as ≤ 1) :
    failures as = (as.any Advance.fails).toNat := by
  cases hany : as.any Advance.fails with
  | false =>
    have hnone : failures as = 0 := by
      rw [failures,List.countP_eq_zero]
      intro a ha
      simpa using List.any_eq_false.mp hany a ha
    simpa using hnone
  | true =>
    have hsome : 0 < failures as := by
      rw [failures,List.countP_pos_iff]
      exact List.any_eq_true.mp hany
    simp only [Bool.toNat_true]
    omega

section
variable {run : RepairRun} {s : AddState} {memory : Memory} {raised : List Effect} {id : ℕ}

lemma failures_afterAtoms (h : failures (advances raised) ≤ 1) :
    failures (advances (run.afterAtoms memory raised)) ≤ 1 := by
  unfold RepairRun.afterAtoms
  split
  · simp [Advance.fails]
  · split
    · exact h
    · rename_i a ha
      have hok : a.fails = false := by
        unfold RepairRun.deriveGraphStage at ha
        split at ha
        · cases ha
          rfl
        · split at ha
          · cases ha
            rfl
          · cases ha
            rfl
          · cases ha
            rfl
          · cases ha
      rw [advances_advance,failures_cons,hok]
      simp [Advance.fails]

lemma failures_repairFrom (h : failures (advances raised) ≤ 1) :
    failures (advances (run.repairFrom s memory raised)) ≤ 1 := by
  unfold RepairRun.repairFrom
  split
  · exact h
  · simp [Advance.fails]
  · split
    · split
      · exact h
      · dsimp only
        rw [advances_append,advances_stores,List.nil_append]
        split
        · exact h
        · simpa [Advance.fails] using failures_afterAtoms h
    · exact failures_afterAtoms h

lemma failures_repairMemory (h : failures (advances raised) ≤ 1) (pending : Bool) :
    failures (advances (run.repairMemory s id pending raised)) ≤ 1 := by
  unfold RepairRun.repairMemory
  split
  · simp [Advance.fails]
  · split
    · simp [Advance.fails]
    · split
      · exact failures_repairFrom h
      · split
        · exact h
        · simp [Advance.fails]
        · simpa [Advance.fails] using failures_repairFrom h

lemma failures_finish : failures (advances (run.finalizeAddDerivation s id)) =
    (run.finishFails s id).toNat :=
  failures_of_le_one (failures_repairMemory (by simp [Advance.fails]) _)

end

lemma failures_flow (flow : WriteFlow) : failures (flow.advances digest) = flow.failedStages := by
  cases flow with
  | add r => exact failures_add digest r
  | finishedAdd r finish s id =>
    rw [WriteFlow.advances,failures_append,failures_add,failures_finish]
    rfl
  | delete r => exact failures_delete r
  | replace oldId ending => exact failures_replace oldId ending

/-- An operation whose own advances are those of a write, whatever else is written to the
journal: its retries are the failed stages of the write. Where it is left open for repair, a
run of the repair selects it exactly when fewer stages failed than it has retries and fewer
than 25 older rows are due; once as many stages failed, no later run selects it. -/
theorem open_writes_selected (digest : String → String) (flow : WriteFlow)
    (j : Journal Payload) (payload : Payload) (memoryId : Option ℕ)
    (calls : List (JournalCall Payload)) (documents : ℕ → Bool) (maxRetries : ℕ)
    (hown : ownAdvances j.nextId calls = flow.advances digest) :
    ∃ r, ((j.startOp flow.opType payload memoryId).run calls).find? j.nextId = some r ∧
      r.retryCount = flow.failedStages ∧ (r.status = .needsRepair →
        (r ∈ ((j.startOp flow.opType payload memoryId).run calls).selected documents maxRetries ↔
          flow.failedStages < maxRetries ∧
            ((j.startOp flow.opType payload memoryId).run calls).olderDue documents maxRetries j.nextId < 25)) ∧
      (maxRetries ≤ flow.failedStages → ∀ later,
        ∃ r', (((j.startOp flow.opType payload memoryId).run calls).run later).find? j.nextId = some r' ∧
          r' ∉ (((j.startOp flow.opType payload memoryId).run calls).run later).selected documents
            maxRetries) := by
  have hstart : (j.startOp flow.opType payload memoryId).find? j.nextId =
      some { id := j.nextId, opType := flow.opType, memoryId, payload } := find?_startOp
  obtain ⟨r,hr,hcount⟩ := find?_run calls hstart
  have hfailed : r.retryCount = flow.failedStages := by
    rw [hcount,hown,failures_flow]
    exact Nat.zero_add _
  refine ⟨r,hr,hfailed,fun hopen => ?_,fun hmax => ?_⟩
  · rw [mem_selected hr,due_of_needsRepair hopen,hfailed]
  · exact exhausted_never_selected hr (by omega)

/-- An add with one atom; the given stages fail. -/
def sampleAdd (vectorFails atomsFail graphFails : Bool) : AddRun where
  content := "text"
  metadata := { sessionId := some "a", privacyLevel := some "shared" }
  atoms := [{ content := "fact" }]
  docId := "uuid"
  inserted := some 1
  revision := "now"
  vectorFails := vectorFails
  batchFails := fun _ => atomsFail
  singleFails := fun _ => atomsFail
  graph := if graphFails then .failed "graph" else .indexed

/-- The writes of an add to the journal, whose first row is its operation. -/
def sampleCalls : List (JournalCall Payload) :=
  (advances (r.effects id)).map (.advance 1)

def sampleJournal : Journal Payload :=
  (({} : Journal Payload).startOp .add (r.payload id) none).run (sampleCalls r)

/-- Index, atoms and graph fail, and three retries are spent before the first repair. -/
theorem spent_write_never_selected :
    ∃ r, (sampleJournal (sampleAdd true true true)).find? 1 = some r ∧ r.status = .needsRepair ∧
      ∀ later, ∃ r', ((sampleJournal (sampleAdd true true true)).run later).find? 1 = some r' ∧
        r' ∉ ((sampleJournal (sampleAdd true true true)).run later).selected (fun _ => true) 3 := by
  have hrow : ((sampleJournal (sampleAdd true true true)).find? 1).any (fun r =>
      r.status = .needsRepair && r.retryCount = 3) = true := by
    decide +kernel
  obtain ⟨r,hr,hspent⟩ := (Option.any_eq_true _ _).mp hrow
  obtain ⟨hstatus,hcount⟩ : r.status = .needsRepair ∧ r.retryCount = 3 := by simpa using hspent
  exact ⟨r,hr,hstatus,exhausted_never_selected hr (by omega)⟩

theorem open_writes_selected_sample :
    ∃ r, (sampleJournal (sampleAdd true true false)).find? 1 = some r ∧
      r ∈ (sampleJournal (sampleAdd true true false)).selected (fun _ => true) 3 := by
  have hopen : ((sampleJournal (sampleAdd true true false)).find? 1).all (fun r =>
      r.status = .needsRepair) = true := by
    decide +kernel
  obtain ⟨r,hr,-,hselected,-⟩ := open_writes_selected id (.add (sampleAdd true true false)) {}
    ((sampleAdd true true false).payload id) none (sampleCalls (sampleAdd true true false))
    (fun _ => true) 3 rfl
  have hstatus : r.status = .needsRepair := by simpa using (Option.all_eq_true _ _).mp hopen r hr
  exact ⟨r,hr,(hselected hstatus).mpr ⟨by decide +kernel,by decide +kernel⟩⟩

end Memora.WriteOps

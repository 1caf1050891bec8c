import Memora.EngineUpdates
import Memora.RunLaws

/-! Reinforcement, interference and the updates read a memory, compute, and write it back under a
revision that runtime writes do not move. An access update is one transaction. -/
namespace Memora.Engine

inductive Request
  | reinforce
  | interfere (source : ℤ)
  | updateContent (content : String) (metadata : Option Metadata) (expected : String)
  | updateMetadata (importance : Option Value) (metadata : Option Metadata)
      (expected : Option String)

/-- A call on its way, with the metadata it has read, the revision once it has read that as well,
and the second read of an update that has no revision to rely on. -/
structure Pending where
  request : Request
  document : Metadata
  revision : Option String := none
  merged : Option Metadata := none

structure State where
  row : MemoryRow
  pending : List Pending := []

/-- The points where calls of several tasks interleave: reading the document, reading its time
stamps, reading it again, and the transaction of the write with the clock's readings. -/
inductive Step
  | read (request : Request)
  | stamp (i : ℕ)
  | reread (i : ℕ)
  | write (i : ℕ) (time : ℚ) (token : String)
  | access (active : Bool) (time : ℚ)

/-- `_persist_runtime_maintenance` from its delta on. -/
def maintain (row : MemoryRow) (document : Metadata) (revision : String) (delta : Metadata)
    (token : String) : Option MemoryRow :=
  if revision = "" then none
  else if isRuntimeMaintenanceDelta document delta then
    updateMetadataIfRevision row delta revision false token
  else none

/-- `update_memory` without a content, from its read on. -/
def writeMetadata (env : Env) (row : MemoryRow) (p : Pending) (revision : String)
    (importance : Option Value) (metadata : Option Metadata) (expected : Option String)
    (time : ℚ) (token : String) : Option MemoryRow :=
  if expected.any fun e => revision = "" || revision ≠ e then none
  else if (getValue p.document "replacement_pending").truthy then none
  else
    let updates := metadataUpdates env importance metadata
    let changed := hasSemanticMetadataChange p.document updates
    let delta := observeTopics p.document updates time
    if updates.isEmpty then some row
    else if revision ≠ "" then updateMetadataIfRevision row delta revision changed token
    else p.merged.map fun m => { row with
      metadata := m.update delta
      updatedAt := if changed then some token else row.updatedAt }

def Pending.written (env : Env) (row : MemoryRow) (p : Pending) (time : ℚ) (token : String) :
    Option MemoryRow :=
  p.revision.bind fun revision => match p.request with
    | .reinforce => maintain row p.document revision (reinforcementDelta env p.document) token
    | .interfere source =>
      maintain row p.document revision (interferenceDelta env source p.document) token
    | .updateContent content metadata expected =>
      match prepareContent env p.document revision content metadata expected time with
      | .error _ => none
      | .ok g => updateContentIfRevision row content g.metadata expected g.dropped token
    | .updateMetadata importance metadata expected =>
      writeMetadata env row p revision importance metadata expected time token

def Pending.stamped (env : Env) (row : MemoryRow) (p : Pending) : Pending :=
  { p with revision := some (revisionOf env row.createdAt row.updatedAt p.document) }

def step (env : Env) (s : State) : Step → State
  | .read request => { s with pending := s.pending++[⟨request,s.row.metadata,none,none⟩] }
  | .stamp i => { s with pending := s.pending.modify i (Pending.stamped env s.row) }
  | .reread i =>
    { s with pending := s.pending.modify i fun p => { p with merged := some s.row.metadata } }
  | .write i time token => match s.pending[i]? with
    | none => s
    | some p => ⟨(p.written env s.row time token).getD s.row,s.pending.eraseIdx i⟩
  | .access active time =>
    { s with row := { s.row with metadata := accessed env active time s.row.metadata } }

def run (env : Env) (s : State) (steps : List Step) : State := steps.foldl (step env) s

inductive Done
  | request (r : Request)
  | access (active : Bool) (time : ℚ)

def State.done (env : Env) (s : State) : Step → Option Done
  | .write i time token => s.pending[i]?.bind fun p =>
    (p.written env s.row time token).map fun _ => .request p.request
  | .access active time => some (.access active time)
  | _ => none

def dones (env : Env) : State → List Step → List Done
  | _, [] => []
  | s, x::xs => (s.done env x).toList++dones env (step env s x) xs

def Done.apply (env : Env) (m : Metadata) : Done → Metadata
  | .request .reinforce => m.update (reinforcementDelta env m)
  | .request (.interfere source) => m.update (interferenceDelta env source m)
  | .request (.updateContent _ metadata _) => m.update (metadata.getD {})
  | .request (.updateMetadata importance metadata _) =>
    m.update (metadataUpdates env importance metadata)
  | .access active time => accessed env active time m

def runtimeFields : List String := ["access_count","importance","reinforcement_count","ttl_days"]

def Request.names (k : String) : Request → Bool
  | .updateContent _ metadata _ => (metadata.any fun m => (m.get? k).isSome)
  | .updateMetadata importance metadata _ =>
    (metadata.any fun m => (m.get? k).isSome) || (k = "importance" && importance.isSome)
  | _ => false

def Request.updates : Request → Bool
  | .updateContent .. | .updateMetadata .. => true
  | _ => false

def Pending.carried (p : Pending) : Metadata × List String :=
  match p.request with
  | .reinforce => (p.document,["reinforcement_count","ttl_days"])
  | .interfere _ => (p.document,["importance"])
  | .updateContent .. => (p.document,runtimeFields.filter fun k => !p.request.names k)
  | .updateMetadata .. =>
    if p.revision = some "" then
      (p.merged.getD p.document,runtimeFields.filter fun k => !p.request.names k)
    else (p.document,[])

def Unstale (env : Env) (s : State) : Step → Prop
  | .write i time token => ∀ p ∈ s.pending[i]?, (p.written env s.row time token).isSome = true →
    ∀ k ∈ p.carried.2, p.carried.1.get? k = s.row.metadata.get? k
  | _ => True

instance decidableUnstale (env : Env) (s : State) : (x : Step) → Decidable (Unstale env s x)
  | .write i time token => inferInstanceAs (Decidable (∀ p ∈ s.pending[i]?,
    (p.written env s.row time token).isSome = true →
      ∀ k ∈ p.carried.2, p.carried.1.get? k = s.row.metadata.get? k))
  | .read _ | .stamp _ | .reread _ | .access .. => isTrue trivial

variable {env : Env} {s : State} {row row' : MemoryRow} {p : Pending} {time : ℚ} {stamp : String}
  {m m' : Metadata} {d : Done} {k : String} {metadata : Option Metadata} {content expected : String}

def Agree (m m' : Metadata) : Prop := ∀ k ∈ runtimeFields, m.get? k = m'.get? k

lemma getValue_congr (h : m.get? k = m'.get? k) : getValue m k = getValue m' k := by
  rw [getValue,h,getValue]

lemma reinforcementDelta_congr (hcount : m.get? "reinforcement_count" =
    m'.get? "reinforcement_count") (httl : m.get? "ttl_days" = m'.get? "ttl_days") :
    reinforcementDelta env m = reinforcementDelta env m' := by
  unfold reinforcementDelta reinforcementCount
  rw [getValue_congr hcount,getValue_congr httl]

lemma interferenceDelta_congr {source : ℤ} (h : m.get? "importance" = m'.get? "importance") :
    interferenceDelta env source m = interferenceDelta env source m' := by
  unfold interferenceDelta interferedImportance
  rw [getValue_congr h]

lemma Agree.update (h : Agree m m') (delta : Metadata) : Agree (m.update delta)
    (m'.update delta) := by
  intro k hk
  rw [Dict.get?_update,Dict.get?_update,h k hk]

lemma accessed_get? {active : Bool} : (accessed env active time m).get? k =
    if k = "importance" then some (.num (env.round 4 (min (95 / 100)
      (clampFloat env (getValue m "importance") (1 / 2) +
        if active then 5 / 100 else 1 / 100))))
    else if k = "access_count" then some (.num (min (accessCount env m+1) 1000000 : ℤ))
    else if k = "last_access_time" then some (.num time) else m.get? k := by
  simp only [accessed,Dict.get?_set]

lemma Agree.apply (h : Agree m m') (d : Done) : Agree (d.apply env m) (d.apply env m') := by
  have hcount := h "reinforcement_count" (by decide)
  have httl := h "ttl_days" (by decide)
  have himportance := h "importance" (by decide)
  have haccess := h "access_count" (by decide)
  cases d with
  | request r =>
    cases r with
    | reinforce =>
      rw [Done.apply,Done.apply,reinforcementDelta_congr hcount httl]
      exact h.update _
    | interfere source =>
      rw [Done.apply,Done.apply,interferenceDelta_congr himportance]
      exact h.update _
    | updateContent | updateMetadata => exact h.update _
  | access active time =>
    intro k hk
    rw [Done.apply,Done.apply,accessed_get?,accessed_get?,accessCount,accessCount,
      getValue_congr himportance,getValue_congr haccess,h k hk]

lemma updateMetadataIfRevision_eq {delta : Metadata} {expected : String} {advance : Bool}
    (h : updateMetadataIfRevision row delta expected advance stamp = some row') :
    row'.metadata = row.metadata.update delta := by
  unfold updateMetadataIfRevision at h
  split at h
  · rw [← Option.some.inj h]
  · cases h

lemma updateContentIfRevision_eq {metadata : Metadata}
    {drop : List String}
    (h : updateContentIfRevision row content metadata expected drop stamp = some row') :
    row' = { row with
      text := content
      metadata := (row.metadata.update metadata).popAll drop
      updatedAt := some stamp } ∧ row.unchangedSince expected = true := by
  unfold updateContentIfRevision at h
  split at h
  · cases h
  split at h
  · rename_i hrev
    exact ⟨(Option.some.inj h).symm,hrev⟩
  · cases h

lemma maintain_eq {document delta : Metadata} {revision : String}
    (h : maintain row document revision delta stamp = some row') :
    row'.metadata = row.metadata.update delta := by
  unfold maintain at h
  split at h
  · cases h
  split at h
  · exact updateMetadataIfRevision_eq h
  · cases h

lemma prepareContent_ok {current : Metadata} {observed content expected : String}
    {requested : Option Metadata} {g : GuardedWrite}
    (h : prepareContent env current observed content requested expected time = .ok g) :
    guardContent env current content requested time = some g := by
  unfold prepareContent at h
  split at h
  · cases h
  split at h
  · cases h
  split at h
  · cases h
  split at h
  · cases h
  · rename_i g' hg
    cases h
    exact hg

lemma mem_runtimeFields (hk : k ∈ runtimeFields) : k ∉ factKeys ∧ k ≠ "canonical_summary" ∧
    k ≠ "updated_at" ∧ k ≠ "topic_observed_at" := by
  simp only [runtimeFields,List.mem_cons,List.not_mem_nil,or_false] at hk
  rcases hk with rfl | rfl | rfl | rfl <;> decide

lemma named_of_content (h : Request.names k (.updateContent content metadata expected) = false) :
    (metadata.getD {}).get? k = none := by
  cases metadata with
  | none => rfl
  | some m => simpa [Request.names] using h

lemma named_of_metadata {importance : Option Value}
    {expected : Option String}
    (h : Request.names k (.updateMetadata importance metadata expected) = false) :
    (metadataUpdates env importance metadata).get? k = none := by
  simp only [Request.names,Bool.or_eq_false_iff,Bool.and_eq_false_iff, decide_eq_false_iff_not] at h
  have hmeta : (metadata.getD {}).get? k = none := by
    cases metadata with
    | none => rfl
    | some m => simpa using h.1
  unfold metadataUpdates
  rw [Dict.get?_update,hmeta,Option.none_or]
  cases importance with
  | none => rfl
  | some v =>
    have hk : k ≠ "importance" := h.2.resolve_right (by simp)
    rw [Dict.get?_set_of_ne hk]
    rfl

theorem written_agree (h : p.written env row time stamp = some row')
    (hfresh : ∀ k ∈ p.carried.2, p.carried.1.get? k = row.metadata.get? k) :
    Agree row'.metadata ((Done.request p.request).apply env row.metadata) := by
  obtain ⟨request,document,revision,merged⟩ := p
  obtain ⟨revision,rfl,h⟩ := Option.bind_eq_some_iff.mp h
  cases request with
  | reinforce =>
    have hcount : document.get? "reinforcement_count" = row.metadata.get? "reinforcement_count" :=
      hfresh "reinforcement_count" (by simp [Pending.carried])
    have httl : document.get? "ttl_days" = row.metadata.get? "ttl_days" :=
      hfresh "ttl_days" (by simp [Pending.carried])
    rw [maintain_eq h,Done.apply,← reinforcementDelta_congr hcount httl]
    exact fun _ _ => rfl
  | interfere source =>
    have himportance : document.get? "importance" = row.metadata.get? "importance" :=
      hfresh "importance" (by simp [Pending.carried])
    rw [maintain_eq h,Done.apply,← interferenceDelta_congr himportance]
    exact fun _ _ => rfl
  | updateContent content metadata expected =>
    dsimp only at h
    split at h
    · cases h
    rename_i g hg
    obtain ⟨hdropped,hget⟩ := guardContent_get? (prepareContent_ok hg)
    have hrow := (updateContentIfRevision_eq h).1
    intro k hk
    obtain ⟨hfact,hsummary,hupdated,-⟩ := mem_runtimeFields hk
    have hkept : k ∉ g.dropped := fun hk => hfact (hdropped k hk)
    rw [hrow,Done.apply,Dict.get?_popAll,if_neg hkept,Dict.get?_update,Dict.get?_update,
      hget k hfact hsummary hupdated]
    by_cases hnamed : Request.names k (.updateContent content metadata expected) = true
    · have hsome : ((metadata.getD {}).get? k).isSome = true := by
        cases metadata with
        | none => simp [Request.names] at hnamed
        | some m => simpa [Request.names] using hnamed
      obtain ⟨v,hv⟩ := Option.isSome_iff_exists.mp hsome
      simp [hv]
    · have hread := hfresh k (by simp [Pending.carried,hk,hnamed])
      have hread : document.get? k = row.metadata.get? k := hread
      rw [named_of_content (Bool.eq_false_iff.mpr hnamed),hread]
      cases row.metadata.get? k <;> rfl
  | updateMetadata importance metadata expected =>
    unfold writeMetadata at h
    dsimp only at h
    split at h
    · cases h
    split at h
    · cases h
    have hdelta : ∀ k ∈ runtimeFields, ∀ m : Metadata,
        (m.update (observeTopics document (metadataUpdates env importance metadata) time)).get? k =
          (m.update (metadataUpdates env importance metadata)).get? k := by
      intro k hk m
      rw [Dict.get?_update,Dict.get?_update,observeTopics_get? (mem_runtimeFields hk).2.2.2]
    split at h
    · rename_i hempty
      rw [← Option.some.inj h]
      intro k _
      rw [Done.apply,Dict.get?_update,Dict.isEmpty_iff.mp hempty k]
      rfl
    split at h
    · intro k hk
      rw [updateMetadataIfRevision_eq h,hdelta k hk,Done.apply]
    · rename_i hrevision
      obtain ⟨read,hread,hrow⟩ := Option.map_eq_some_iff.mp h
      have hrow : row'.metadata = read.update
          (observeTopics document (metadataUpdates env importance metadata) time) := by
        rw [← hrow]
      intro k hk
      rw [hrow,hdelta k hk,Done.apply,Dict.get?_update,Dict.get?_update]
      cases hnew : (metadataUpdates env importance metadata).get? k with
      | some v => rfl
      | none =>
        have hblank : revision = "" := not_not.mp hrevision
        by_cases hnamed : Request.names k (.updateMetadata importance metadata expected) = true
        · exfalso
          simp only [Request.names,Bool.or_eq_true,Bool.and_eq_true,decide_eq_true_eq] at hnamed
          unfold metadataUpdates at hnew
          rw [Dict.get?_update,Option.or_eq_none_iff] at hnew
          rcases hnamed with hmeta | ⟨rfl,himportance⟩
          · cases metadata with
            | none => simp at hmeta
            | some m => simp_all
          · cases importance with
            | none => simp at himportance
            | some v => simp at hnew
        · have hcarried := hfresh k (by simp [Pending.carried,hblank,hk,hnamed])
          simpa [Pending.carried,hblank,hread] using hcarried

theorem step_agree {x : Step} (h : Unstale env s x) : Agree (step env s x).row.metadata
      ((s.done env x).toList.foldl (Done.apply env) s.row.metadata) := by
  cases x with
  | read | stamp | reread | access => exact fun _ _ => rfl
  | write i time token =>
    unfold step State.done
    dsimp only
    cases hp : s.pending[i]? with
    | none => exact fun _ _ => rfl
    | some p =>
      cases hw : p.written env s.row time token with
      | none =>
        simp only [Option.bind_some,hw]
        exact fun _ _ => rfl
      | some row' =>
        simp only [Option.bind_some,hw]
        exact written_agree hw (h p hp (by simp [hw]))

lemma Agree.trans {m'' : Metadata} (h : Agree m m') (h' : Agree m' m'') : Agree m m'' :=
  fun k hk => (h k hk).trans (h' k hk)

lemma Agree.foldl (h : Agree m m') (ds : List Done) :
    Agree (ds.foldl (Done.apply env) m) (ds.foldl (Done.apply env) m') := by
  induction ds generalizing m m' with
  | nil => exact h
  | cons d ds ih => exact ih (h.apply d)

/-- A run does to the runtime fields what its successful calls do one after the other. -/
theorem run_agree {steps : List Step} (h : RunLaws.Along (step env) (Unstale env) s steps) :
    Agree (run env s steps).row.metadata ((dones env s steps).foldl (Done.apply env) s.row.metadata) := by
  induction steps generalizing s with
  | nil => exact fun _ _ => rfl
  | cons x xs ih =>
    rw [dones,List.foldl_append]
    exact (ih h.2).trans ((step_agree h.1).foldl _)

def Done.reinforces : Done → Bool
  | .request .reinforce => true
  | _ => false

def Done.accesses : Done → Bool
  | .access .. => true
  | _ => false

def Done.names (k : String) : Done → Bool
  | .request r => r.names k
  | .access .. => false

lemma truncate_intCast (z : ℤ) : truncate z = z := by simp [truncate]

lemma reinforcementCount_congr (h : m.get? "reinforcement_count" =
    m'.get? "reinforcement_count") : reinforcementCount env m = reinforcementCount env m' := by
  rw [reinforcementCount,getValue_congr h,reinforcementCount]

lemma accessCount_congr (h : m.get? "access_count" = m'.get? "access_count") :
    accessCount env m = accessCount env m' := by
  rw [accessCount,getValue_congr h,accessCount]

theorem apply_unnamed (r : Request) (hu : r.updates = true) (hn : r.names k = false) :
    ((Done.request r).apply env m).get? k = m.get? k := by
  cases r with
  | reinforce | interfere => exact absurd hu (by simp [Request.updates])
  | updateContent content metadata expected =>
    rw [Done.apply,Dict.get?_update,named_of_content hn,Option.none_or]
  | updateMetadata importance metadata expected =>
    rw [Done.apply,Dict.get?_update,named_of_metadata hn,Option.none_or]

lemma reinforcementCount_apply (hn : d.names "reinforcement_count" = false) :
    reinforcementCount env (d.apply env m) = reinforcementCount env m+if d.reinforces then 1
    else 0 := by
  cases d with
  | access active time =>
    have hkept : (accessed env active time m).get? "reinforcement_count" = m.get? "reinforcement_count" := by
      rw [accessed_get?]
      simp
    rw [Done.apply,reinforcementCount_congr hkept]
    simp [Done.reinforces]
  | request r =>
    cases r with
    | reinforce =>
      set count := reinforcementCount env m with hcount
      have hvalue : getValue (m.update (reinforcementDelta env m)) "reinforcement_count" =
          .num ((count : ℚ)+1) := by
        rw [getValue,Dict.get?_update,reinforcementDelta,← hcount]
        simp [Dict.get?_set]
      have hread : reinforcementCount env (m.update (reinforcementDelta env m)) = truncate ((count : ℚ)+1) := by
        rw [reinforcementCount,hvalue]
        by_cases hzero : (count : ℚ)+1 = 0
        · simp [hzero,safeFloat]
        · simp [Value.truthy,hzero,safeFloat]
      rw [Done.apply,hread,← Int.cast_one,← Int.cast_add,truncate_intCast]
      simp [Done.reinforces]
    | interfere source =>
      have hsame : (m.update (interferenceDelta env source m)).get? "reinforcement_count" =
          m.get? "reinforcement_count" := by
        rw [Dict.get?_update,interferenceDelta]
        simp [Dict.get?_set]
      rw [Done.apply,reinforcementCount_congr hsame]
      simp [Done.reinforces]
    | updateContent content metadata expected =>
      rw [reinforcementCount_congr (apply_unnamed (.updateContent content metadata expected) rfl hn)]
      simp [Done.reinforces]
    | updateMetadata importance metadata expected =>
      rw [reinforcementCount_congr (apply_unnamed (.updateMetadata importance metadata expected) rfl hn)]
      simp [Done.reinforces]

def bumped (count : ℤ) : ℤ := min (count+1) 1000000

lemma accessCount_apply (hn : d.names "access_count" = false) : accessCount env (d.apply env m) =
      bumped^[if d.accesses then 1 else 0] (accessCount env m) := by
  cases d with
  | access active time =>
    have hvalue : getValue (accessed env active time m) "access_count" =
        .num (min (accessCount env m+1) 1000000 : ℤ) := by
      rw [getValue,accessed_get?]
      simp
    rw [Done.apply,accessCount,hvalue,intOrZero,truncate_intCast]
    rfl
  | request r =>
    have hsame : ((Done.request r).apply env m).get? "access_count" = m.get? "access_count" := by
      cases r with
      | reinforce =>
        rw [Done.apply,Dict.get?_update,reinforcementDelta]
        simp [Dict.get?_set]
      | interfere source =>
        rw [Done.apply,Dict.get?_update,interferenceDelta]
        simp [Dict.get?_set]
      | updateContent | updateMetadata => exact apply_unnamed _ rfl hn
    rw [accessCount_congr hsame]
    rfl

lemma reinforcementCount_foldl (ds : List Done)
    (hn : ∀ d ∈ ds, d.names "reinforcement_count" = false) (m : Metadata) :
    reinforcementCount env (ds.foldl (Done.apply env) m) =
      reinforcementCount env m+ds.countP Done.reinforces := by
  induction ds generalizing m with
  | nil => simp
  | cons d ds ih =>
    rw [List.foldl_cons,ih (fun x hx => hn x (by simp [hx])),
      reinforcementCount_apply (hn d (by simp)),List.countP_cons]
    split <;> push_cast <;> omega

lemma accessCount_foldl (ds : List Done) (hn : ∀ d ∈ ds, d.names "access_count" = false)
    (m : Metadata) : accessCount env (ds.foldl (Done.apply env) m) =
      bumped^[ds.countP Done.accesses] (accessCount env m) := by
  induction ds generalizing m with
  | nil => rfl
  | cons d ds ih =>
    rw [List.foldl_cons,ih (fun x hx => hn x (by simp [hx])),
      accessCount_apply (hn d (by simp)),List.countP_cons,Function.iterate_add_apply]

def KeepsUnnamed (env : Env) (s : State) (x : Step) : Prop :=
  ∀ r, s.done env x = some (.request r) → r.updates = true → ∀ k ∈ runtimeFields,
    r.names k = false → (step env s x).row.metadata.get? k = s.row.metadata.get? k

lemma keepsUnnamed_of_unstale {x : Step} (h : Unstale env s x) : KeepsUnnamed env s x := by
  intro r hr hu k hk hn
  have hstep := step_agree h k hk
  rw [hr] at hstep
  exact hstep.trans (apply_unnamed r hu hn)

/-- As long as writes find the runtime fields they have read, no effect on these fields is lost. -/
theorem runtime_effects_kept (env : Env) (s : State) (steps : List Step)
    (h : RunLaws.Along (step env) (Unstale env) s steps) :
    let ds := dones env s steps
    let before := s.row.metadata
    let after := (run env s steps).row.metadata
    Agree after (ds.foldl (Done.apply env) before) ∧
    ((∀ d ∈ ds, d.names "reinforcement_count" = false) → reinforcementCount env after =
        reinforcementCount env before+ds.countP Done.reinforces) ∧
    ((∀ d ∈ ds, d.names "access_count" = false) →
      accessCount env after = bumped^[ds.countP Done.accesses] (accessCount env before)) ∧
    RunLaws.Along (step env) (KeepsUnnamed env) s steps := by
  intro ds before after
  have hagree : Agree after (ds.foldl (Done.apply env) before) := run_agree h
  refine ⟨hagree,fun hn => ?_,fun hn => ?_,?_⟩
  · rw [reinforcementCount_congr (hagree _ (by decide))]
    exact reinforcementCount_foldl ds hn before
  · rw [accessCount_congr (hagree _ (by decide))]
    exact accessCount_foldl ds hn before
  · exact RunLaws.along_imp (P := fun _ => True) (fun _ _ _ _ => trivial)
      (fun _ _ hx _ => keepsUnnamed_of_unstale hx) trivial h

def sampleRow : MemoryRow where
  text := "text"
  metadata := Dict.set {} "access_count" (.num 3)
  createdAt := some "t0"

def overlapping : List Step :=
  [.read .reinforce,.read .reinforce,.stamp 0,.stamp 1,.write 0 1 "t1",.write 0 2 "t2"]

def overtaken : List Step :=
  [.read (.updateContent "other text" none "t0"),.stamp 0,.access true 1,.write 0 2 "t1"]

/-- Of two reinforcements that overlap one is lost, and a content update takes back an access. -/
theorem runtime_effects_lost : ((dones sampleEnv ⟨sampleRow,[]⟩ overlapping).countP
    Done.reinforces = 2 ∧
      reinforcementCount sampleEnv (run sampleEnv ⟨sampleRow,[]⟩ overlapping).row.metadata =
        reinforcementCount sampleEnv sampleRow.metadata+1) ∧
    (dones sampleEnv ⟨sampleRow,[]⟩ overtaken).countP Done.accesses = 1 ∧
      (dones sampleEnv ⟨sampleRow,[]⟩ overtaken).length = 2 ∧
      accessCount sampleEnv (run sampleEnv ⟨sampleRow,[]⟩ overtaken).row.metadata =
        accessCount sampleEnv sampleRow.metadata := by
  decide +kernel

def orderly : List Step :=
  [.read .reinforce,.stamp 0,.write 0 1 "t1",.access false 2,.read (.interfere 7),.stamp 0,
    .write 0 3 "t2",.read (.updateContent "other text" none "t0"),.stamp 0,.write 0 4 "t3"]

theorem runtime_effects_kept_sample :
    RunLaws.Along (step sampleEnv) (Unstale sampleEnv) ⟨sampleRow,[]⟩ orderly ∧
      (dones sampleEnv ⟨sampleRow,[]⟩ orderly).length = 4 ∧
      reinforcementCount sampleEnv (run sampleEnv ⟨sampleRow,[]⟩ orderly).row.metadata = 1 := by
  have hgood : RunLaws.Along (step sampleEnv) (Unstale sampleEnv) ⟨sampleRow,[]⟩ orderly := by
    decide +kernel
  refine ⟨hgood,by decide +kernel,?_⟩
  have hcount := (runtime_effects_kept sampleEnv ⟨sampleRow,[]⟩ orderly hgood).2.1
  exact (hcount (by decide +kernel)).trans (by decide +kernel)

end Memora.Engine

import Memora.EvolutionReader
import Memora.FirstSeen
import Memora.Selections

/-! `ProjectionReader.attach` on whatever bundles and sources its store answers with. A projection
is attached to the candidate that is its only primary source, within three budgets. -/
namespace Memora.Evolution

structure ViewBundle (T : Type) where
  projection : ProjectionView T
  sources : List (SourceMapping T)

/-- `ProjectionScope` with its reference time; an unknown privacy level is none. -/
structure ProjectionScope (T : Type) where
  scopeKey : String
  privacyLevel : Option PrivacyLevel
  now : T

structure ProjectionBudget where
  maxChars : ℕ := 2000
  maxItems : ℕ := 16
  maxPerCandidate : ℕ := 4
  maxSummaryChars : ℕ := 600

/-- What a reader is built with; a read of its store is none where it raises. -/
structure ProjectionReader (T : Type) where
  bundles : List ℤ → String → ℕ → Option (List (ViewBundle T))
  loadSources : List ℤ → ℕ → Option (List (MemorySourceRef T))
  projectionLimit : ℕ := 100
  disabledTypes : List ProjectionType := []

structure VisibleProjection where
  projectionType : String
  summary : String
  confidence : ℚ
  deriving DecidableEq

structure HybridResult (V : Type) where
  docId : ℤ
  finalScore : ℚ
  rrfScore : ℚ
  bm25Score : Option ℚ
  vectorScore : Option ℚ
  content : String
  metadata : Dict String V
  scoreBreakdown : Option (Dict String ℚ) := none
  derivedProjections : Option (List VisibleProjection) := none

variable {T V : Type}

def copyCandidate (c : HybridResult V) : HybridResult V := { c with derivedProjections := none }

variable [LinearOrder T]

def ViewBundle.valid (b : ViewBundle T) : Bool :=
  let ids := b.sources.map SourceMapping.memoryId
  decide (0 ≤ b.projection.confidence) && decide (b.projection.confidence ≤ 1) &&
    !b.sources.isEmpty && decide ids.Nodup &&
    decide (ids.toFinset = b.projection.sourceMemoryIds.toFinset) &&
    decide (b.sources.countP (fun m => m.role = .primary) = 1) &&
    (decide (b.projection.projectionType ≠ .conflictSet) || bothSides b.sources)

variable (scope : ProjectionScope T) (candidates : List (HybridResult V))
    (bundles : List (ViewBundle T))

def byStanding : List (ViewBundle T) :=
  bundles.insertionSort fun a b => b.projection.confidence < a.projection.confidence ∨
    (a.projection.confidence = b.projection.confidence ∧
      (a.projection.projectionType.value < b.projection.projectionType.value ∨
        (a.projection.projectionType.value = b.projection.projectionType.value ∧
          a.projection.projectionId ≤ b.projection.projectionId)))

/-- `_privacy_allowed` with a level that may be unknown. -/
def privacyWithin (item : PrivacyLevel) (requested : Option PrivacyLevel) : Bool :=
  requested.any fun level => privacyAllowed item level

def sourceIsCurrent (source : MemorySourceRef T) (m : SourceMapping T) :
    Bool :=
  source.revisionToken = m.revisionToken && source.scopeKey = scope.scopeKey &&
    privacyWithin source.privacyLevel scope.privacyLevel &&
    visibleAt scope.now (m.occurredAt.or (some source.occurredAt)) m.validFrom m.validTo none true

def currentMappings (sourcesById : Dict ℤ (MemorySourceRef T)) (b : ViewBundle T) :
    List (SourceMapping T) :=
  b.sources.filter fun m => (sourcesById.get? m.memoryId).any fun s => sourceIsCurrent scope s m

/-- The checks of one round of `_attach_validated` up to the primary source that it finds. -/
def ProjectionReader.admits (reader : ProjectionReader T) (scope : ProjectionScope T)
    (candidateIds : List ℤ) (sourcesById : Dict ℤ (MemorySourceRef T)) (b : ViewBundle T) :
    Option ℤ :=
  let p := b.projection
  if p.state ≠ .active then none
  else if p.projectionType ∈ reader.disabledTypes then none
  else if p.scopeKey ≠ scope.scopeKey then none
  else if !privacyWithin p.privacyLevel scope.privacyLevel then none
  else if !visibleAt scope.now none p.validFrom p.validTo p.invalidAt false then none
  else
    let current := currentMappings scope sourcesById b
    if current.length ≠ b.sources.length then none
    else if current.isEmpty then none
    else
      match current.filter fun m => m.role = .primary with
      | [primary] =>
        if primary.memoryId ∉ candidateIds then none
        else if p.projectionType = .conflictSet ∧ bothSides current = false then none
        else some primary.memoryId
      | _ => none

variable (budget : ProjectionBudget)

def visibleProjection (p : ProjectionView T) : VisibleProjection where
  projectionType := p.projectionType.value
  summary := String.ofList ((Canonical.pythonStrip p.summary).toList.take budget.maxSummaryChars)
  confidence := max 0 (min 1 p.confidence)

def VisibleProjection.chars (v : VisibleProjection) : ℕ :=
  v.projectionType.length+v.summary.length+24

structure AttachState where
  accepted : Dict ℤ (List VisibleProjection) := {}
  seen : List String := []
  totalChars : ℕ := 0
  stopped : Bool := false

/-- One round of the loop of `_attach_validated`. -/
def ProjectionReader.attachBundle (reader : ProjectionReader T) (scope : ProjectionScope T)
    (budget : ProjectionBudget) (candidateIds : List ℤ)
    (sourcesById : Dict ℤ (MemorySourceRef T)) (s : AttachState) (b : ViewBundle T) :
    AttachState :=
  if s.stopped then s
  else if b.projection.projectionId ∈ s.seen then s
  else
    match reader.admits scope candidateIds sourcesById b with
    | none => s
    | some primaryId =>
      let visible := visibleProjection budget b.projection
      if visible.summary = "" then s
      else if budget.maxChars < s.totalChars+visible.chars then s
      else
        let current := (s.accepted.get? primaryId).getD []
        -- `setdefault` leaves an empty list where the annotation is not added
        let s := { s with accepted := s.accepted.set primaryId current }
        if budget.maxPerCandidate ≤ current.length then s
        else if budget.maxChars <
            (current.map fun item => item.summary.length).sum+visible.summary.length then s
        else
          let accepted := s.accepted.set primaryId (current++[visible])
          { accepted
            seen := s.seen++[b.projection.projectionId]
            totalChars := s.totalChars+visible.chars
            stopped := budget.maxItems ≤ (accepted.values.map List.length).sum }

def ProjectionReader.attachValidated (reader : ProjectionReader T) (scope : ProjectionScope T)
    (budget : ProjectionBudget) (candidates : List (HybridResult V)) (bundles : List (ViewBundle T))
    (sourcesById : Dict ℤ (MemorySourceRef T)) : List (HybridResult V) :=
  let s := (byStanding (bundles.filter ViewBundle.valid)).foldl
    (reader.attachBundle scope budget (candidates.map HybridResult.docId) sourcesById) {}
  candidates.map fun c =>
    match s.accepted.get? c.docId with
    | none | some [] => c
    | some items => { c with derivedProjections := some items }

/-- The sources of a read by id; of rows with one id the last counts. -/
def sourceTable (sources : List (MemorySourceRef T)) : Dict ℤ (MemorySourceRef T) :=
  Dict.ofEntries (sources.map fun s => (s.memoryId,s))

def seedIds : List ℤ :=
  FirstSeen.firstSeen id [] (candidates.map HybridResult.docId)

def sourceIds : List ℤ :=
  FirstSeen.firstSeen id [] (bundles.flatMap fun b => b.sources.map SourceMapping.memoryId)

def ProjectionReader.attach (reader : ProjectionReader T) (candidates : List (HybridResult V))
    (scope : ProjectionScope T) (budget : ProjectionBudget) : List (HybridResult V) :=
  let baseline := candidates.map copyCandidate
  if baseline.isEmpty || reader.projectionLimit = 0 || budget.maxChars = 0 ||
      budget.maxItems = 0 || budget.maxPerCandidate = 0 || budget.maxSummaryChars = 0 then baseline
  else
    match reader.bundles (seedIds baseline) scope.scopeKey reader.projectionLimit with
    | none | some [] => baseline
    | some bundles =>
      match reader.loadSources (sourceIds bundles) budget.maxSummaryChars with
      | none => baseline
      | some sources => reader.attachValidated scope budget baseline bundles (sourceTable sources)

lemma sum_values_set {κ ν : Type*} [DecidableEq κ] (d : Dict κ ν) (k : κ) (v : ν) (f : ν → ℕ) :
    ((d.set k v).values.map f).sum+((d.get? k).map f).getD 0 = (d.values.map f).sum+f v := by
  have hentries : ∀ es : List (κ × ν), ((Dict.assign k v es).map fun e => f e.2).sum +
      (((es.find? fun e => e.1 = k).map Prod.snd).map f).getD 0 = (es.map fun e => f e.2).sum+f v := by
    intro es
    induction es with
    | nil => simp [Dict.assign]
    | cons e es ih =>
      rw [Dict.assign]
      by_cases he : e.1 = k
      · rw [if_pos he,List.find?_cons_of_pos (by simpa using he)]
        simp only [List.map_cons,List.sum_cons,Option.map_some,Option.getD_some]
        omega
      · rw [if_neg he,List.find?_cons_of_neg (by simpa using he)]
        simp only [List.map_cons,List.sum_cons]
        omega
  have hd := hentries d.entries
  simpa [Dict.values,Dict.set,Dict.get?,List.map_map,Function.comp_def] using hd

section Logs
variable (budget : ProjectionBudget) (place : ViewBundle T → Option ℤ)

def charged (b : ViewBundle T) : ℕ := (visibleProjection budget b.projection).chars

def attachedTo (log : List (ViewBundle T)) (id : ℤ) : List (ViewBundle T) :=
  log.filter fun b => place b = some id

structure Logged (bundles : List (ViewBundle T)) (s : AttachState) (log : List (ViewBundle T)) :
    Prop where
  accepted : ∀ id, (s.accepted.get? id).getD [] =
    (attachedTo place log id).map fun b => visibleProjection budget b.projection
  count : (s.accepted.values.map List.length).sum = log.length
  seen : s.seen = log.map fun b => b.projection.projectionId
  nodup : s.seen.Nodup
  chars : s.totalChars = (log.map (charged budget)).sum
  maxChars : s.totalChars ≤ budget.maxChars
  maxItems : log.length ≤ budget.maxItems
  stopped : s.stopped = false → log.length < budget.maxItems
  maxPerCandidate : ∀ id, (attachedTo place log id).length ≤ budget.maxPerCandidate
  admitted : ∀ b ∈ log, b ∈ bundles ∧ (place b).isSome = true

end Logs

variable {reader : ProjectionReader T} {scope : ProjectionScope T} {budget : ProjectionBudget}
  {candidateIds : List ℤ} {sourcesById : Dict ℤ (MemorySourceRef T)} {bundles : List (ViewBundle T)}
  {s : AttachState} {log : List (ViewBundle T)}

omit [LinearOrder T] in
lemma logged_empty (place : ViewBundle T → Option ℤ) (hitems : 0 < budget.maxItems) :
    Logged budget place bundles {} [] :=
  ⟨by simp [attachedTo],rfl,rfl,by simp,rfl,by simp,by simp,fun _ => hitems,
    by simp [attachedTo],by simp⟩

omit [LinearOrder T] in
lemma Logged.setdefault {place : ViewBundle T → Option ℤ} (h : Logged budget place bundles s log)
    (id : ℤ) : Logged budget place bundles
      { s with accepted := s.accepted.set id ((s.accepted.get? id).getD []) } log := by
  refine ⟨fun id' => ?_,?_,h.seen,h.nodup,h.chars,h.maxChars,h.maxItems,h.stopped,
    h.maxPerCandidate,h.admitted⟩
  · rw [← h.accepted id',Dict.get?_set]
    split
    · rename_i hid
      rw [hid]
      rfl
    · rfl
  · have hsum := sum_values_set s.accepted id ((s.accepted.get? id).getD []) List.length
    have hold : ((s.accepted.get? id).map List.length).getD 0 = ((s.accepted.get? id).getD []).length := by
      cases s.accepted.get? id <;> rfl
    rw [hold,h.count] at hsum
    exact Nat.add_right_cancel hsum

omit [LinearOrder T] in
lemma attachedTo_append (place : ViewBundle T → Option ℤ) (log : List (ViewBundle T))
    (b : ViewBundle T) (id : ℤ) : attachedTo place (log++[b]) id =
      attachedTo place log id++if place b = some id then [b] else [] := by
  unfold attachedTo
  rw [List.filter_append]
  congr 1
  by_cases hb : place b = some id
  · simp [hb]
  · simp [hb]

variable {b : ViewBundle T}

omit [LinearOrder T] in
lemma Logged.add {place : ViewBundle T → Option ℤ} (h : Logged budget place bundles s log)
    {id : ℤ} (hb : b ∈ bundles) (hadmitted : place b = some id)
    (hnew : b.projection.projectionId ∉ s.seen) (hstopped : s.stopped = false)
    (hchars : s.totalChars+charged budget b ≤ budget.maxChars)
    (hmany : ((s.accepted.get? id).getD []).length < budget.maxPerCandidate) :
    Logged budget place bundles
      { accepted := s.accepted.set id ((s.accepted.get? id).getD [] ++ [visibleProjection budget b.projection])
        seen := s.seen++[b.projection.projectionId]
        totalChars := s.totalChars+charged budget b
        stopped := budget.maxItems ≤ ((s.accepted.set id ((s.accepted.get? id).getD [] ++
          [visibleProjection budget b.projection])).values.map List.length).sum } (log++[b]) := by
  have hcount : ((s.accepted.set id ((s.accepted.get? id).getD [] ++
      [visibleProjection budget b.projection])).values.map List.length).sum = log.length+1 := by
    have hsum := sum_values_set s.accepted id ((s.accepted.get? id).getD [] ++
      [visibleProjection budget b.projection]) List.length
    have hold : ((s.accepted.get? id).map List.length).getD 0 = ((s.accepted.get? id).getD []).length := by
      cases s.accepted.get? id <;> rfl
    rw [hold,h.count,List.length_append,List.length_singleton] at hsum
    omega
  have hless := h.stopped hstopped
  refine ⟨fun id' => ?_,?_,?_,?_,?_,hchars,?_,fun hgoes => ?_,fun id' => ?_,?_⟩
  · rw [attachedTo_append,hadmitted,Dict.get?_set,List.map_append,← h.accepted id']
    by_cases hid : id' = id
    · simp [hid]
    · simp [hid,Ne.symm hid]
  · rw [hcount,List.length_append,List.length_singleton]
  · simp [h.seen]
  · refine List.nodup_append.mpr ⟨h.nodup,by simp,?_⟩
    rintro x hx y hy rfl
    rw [List.mem_singleton.mp hy] at hx
    exact hnew hx
  · simp [h.chars]
  · rw [List.length_append,List.length_singleton]
    omega
  · rw [hcount] at hgoes
    simpa using hgoes
  · rw [attachedTo_append,hadmitted]
    by_cases hid : id = id'
    · subst hid
      have hlength := congrArg List.length (h.accepted id)
      rw [List.length_map] at hlength
      simp only [if_true,List.length_append,List.length_singleton]
      omega
    · simpa [hid] using h.maxPerCandidate id'
  · intro x hx
    rcases List.mem_append.mp hx with hx | hx
    · exact h.admitted x hx
    · rw [List.mem_singleton.mp hx]
      exact ⟨hb,by rw [hadmitted]; rfl⟩

lemma Logged.round (h : Logged budget (reader.admits scope candidateIds sourcesById) bundles s log)
    (hb : b ∈ bundles) :
    ∃ log', Logged budget (reader.admits scope candidateIds sourcesById) bundles
      (reader.attachBundle scope budget candidateIds sourcesById s b) log' := by
  unfold ProjectionReader.attachBundle
  split
  · exact ⟨log,h⟩
  rename_i hstopped
  split
  · exact ⟨log,h⟩
  rename_i hnew
  split
  · exact ⟨log,h⟩
  rename_i primaryId hadmitted
  simp only
  split
  · exact ⟨log,h⟩
  split
  · exact ⟨log,h⟩
  rename_i hchars
  have hdefault := h.setdefault primaryId
  split
  · exact ⟨log,hdefault⟩
  rename_i hmany
  split
  · exact ⟨log,hdefault⟩
  have hread : (Dict.get? (s.accepted.set primaryId ((s.accepted.get? primaryId).getD []))
      primaryId).getD [] = (s.accepted.get? primaryId).getD [] := by
    rw [Dict.get?_set_self]
    rfl
  have hadded := hdefault.add hb hadmitted hnew (by simpa using hstopped) (not_lt.mp hchars)
    (by rw [hread]; exact not_le.mp hmany)
  rw [hread] at hadded
  exact ⟨log++[b],hadded⟩

lemma Logged.loop (items : List (ViewBundle T)) (hitems : ∀ b ∈ items, b ∈ bundles)
    (h : Logged budget (reader.admits scope candidateIds sourcesById) bundles s log) :
    ∃ log', Logged budget (reader.admits scope candidateIds sourcesById) bundles
      (items.foldl (reader.attachBundle scope budget candidateIds sourcesById) s) log' := by
  induction items generalizing s log with
  | nil => exact ⟨log,h⟩
  | cons b items ih =>
    obtain ⟨log',hnext⟩ := h.round (hitems b (by simp))
    exact ih (fun x hx => hitems x (by simp [hx])) hnext

def ViewBundle.primaryId (b : ViewBundle T) : Option ℤ :=
  match b.sources.filter fun m => m.role = .primary with
  | [primary] => some primary.memoryId
  | _ => none

/-- A projection that may be attached: it is active, within the bounds of the request and visible,
every source it records is there and current, and its only primary source is a candidate. -/
structure Attachable (scope : ProjectionScope T) (candidateIds : List ℤ)
    (sourcesById : Dict ℤ (MemorySourceRef T)) (b : ViewBundle T) : Prop where
  active : b.projection.state = .active
  scopeKey : b.projection.scopeKey = scope.scopeKey
  privacy : privacyWithin b.projection.privacyLevel scope.privacyLevel = true
  visible : visibleAt scope.now none b.projection.validFrom b.projection.validTo
    b.projection.invalidAt false = true
  recorded : ∀ id, id ∈ b.projection.sourceMemoryIds ↔ ∃ m ∈ b.sources, m.memoryId = id
  current : ∀ m ∈ b.sources, ∃ source, sourcesById.get? m.memoryId = some source ∧
    sourceIsCurrent scope source m = true
  primary : ∃ id ∈ candidateIds, b.primaryId = some id

lemma currentMappings_all (h : (currentMappings scope sourcesById b).length = b.sources.length) :
    currentMappings scope sourcesById b = b.sources :=
  List.filter_eq_self.mpr (List.length_filter_eq_length_iff.mp h)

lemma admits_some {id : ℤ} (hvalid : b.valid = true)
    (h : reader.admits scope candidateIds sourcesById b = some id) :
    b.primaryId = some id ∧ Attachable scope candidateIds sourcesById b := by
  unfold ProjectionReader.admits at h
  simp only at h
  split at h
  · cases h
  rename_i hactive
  split at h
  · cases h
  split at h
  · cases h
  rename_i hscope
  split at h
  · cases h
  rename_i hprivacy
  split at h
  · cases h
  rename_i hvisible
  split at h
  · cases h
  rename_i hlength
  split at h
  · cases h
  have hall := currentMappings_all (not_ne_iff.mp hlength)
  rw [hall] at h
  split at h
  · rename_i primary hprimary
    split at h
    · cases h
    rename_i hcandidate
    split at h
    · cases h
    cases h
    have hid : b.primaryId = some primary.memoryId := by
      rw [ViewBundle.primaryId,hprimary]
    refine ⟨hid,not_ne_iff.mp hactive,not_ne_iff.mp hscope,by simpa using hprivacy,
      by simpa using hvisible,fun id => ?_,fun m hm => ?_,⟨_,not_not.mp hcandidate,hid⟩⟩
    · have hids : (b.sources.map SourceMapping.memoryId).toFinset =
          b.projection.sourceMemoryIds.toFinset := by
        simp only [ViewBundle.valid,Bool.and_eq_true,decide_eq_true_eq] at hvalid
        exact hvalid.1.1.2
      rw [← List.mem_toFinset,← hids,List.mem_toFinset,List.mem_map]
    · have hcurrent : m ∈ currentMappings scope sourcesById b := by
        rw [hall]
        exact hm
      exact (Option.any_eq_true _ _).mp (List.mem_filter.mp hcurrent).2
  · cases h

lemma attachValidated_logged (reader : ProjectionReader T) (scope : ProjectionScope T)
    (bundles : List (ViewBundle T)) (sourcesById : Dict ℤ (MemorySourceRef T))
    (candidates : List (HybridResult V))
    (hcopied : ∀ c ∈ candidates, c.derivedProjections = none) (hitems : 0 < budget.maxItems) :
    ∃ log, (∃ s, Logged budget (reader.admits scope (candidates.map HybridResult.docId) sourcesById)
        (bundles.filter ViewBundle.valid) s log) ∧
      (reader.attachValidated scope budget candidates bundles sourcesById).map copyCandidate =
        candidates.map copyCandidate ∧
      ∀ c ∈ reader.attachValidated scope budget candidates bundles sourcesById, c.derivedProjections.getD [] =
          (attachedTo (reader.admits scope (candidates.map HybridResult.docId) sourcesById) log
            c.docId).map fun b => visibleProjection budget b.projection := by
  have hsorted : ∀ b ∈ byStanding (bundles.filter ViewBundle.valid), b ∈ bundles.filter ViewBundle.valid := by
    intro b hb
    unfold byStanding at hb
    rwa [List.mem_insertionSort] at hb
  obtain ⟨log,hlog⟩ := Logged.loop _ hsorted (logged_empty
    (reader.admits scope (candidates.map HybridResult.docId) sourcesById) hitems)
  refine ⟨log,⟨_,hlog⟩,?_,?_⟩
  · unfold ProjectionReader.attachValidated
    rw [List.map_map]
    refine List.map_congr_left fun c _ => ?_
    simp only [Function.comp_apply]
    split <;> rfl
  · intro c hc
    obtain ⟨c₀,hc₀,rfl⟩ := List.mem_map.mp hc
    have haccepted := hlog.accepted c₀.docId
    split
    · rename_i hnone
      rw [hnone] at haccepted
      rw [hcopied c₀ hc₀]
      exact haccepted
    · rename_i hnil
      rw [hnil] at haccepted
      rw [hcopied c₀ hc₀]
      exact haccepted
    · rename_i items _ hsome
      rw [hsome] at haccepted
      exact haccepted

structure Attached (reader : ProjectionReader T) (candidates out : List (HybridResult V))
    (scope : ProjectionScope T) (budget : ProjectionBudget) (attached : List (ViewBundle T)) :
    Prop where
  shown : ∀ c ∈ out, c.derivedProjections.getD [] =
    (attached.filter fun b => b.primaryId = some c.docId).map fun b =>
      visibleProjection budget b.projection
  distinct : (attached.map fun b => b.projection.projectionId).Nodup
  attachable : ∀ b ∈ attached, ∃ bundles sources,
    reader.bundles (seedIds candidates) scope.scopeKey reader.projectionLimit = some bundles ∧
      reader.loadSources (sourceIds bundles) budget.maxSummaryChars = some sources ∧
      b ∈ bundles ∧ Attachable scope (candidates.map HybridResult.docId) (sourceTable sources) b
  maxItems : attached.length ≤ budget.maxItems
  maxPerCandidate : ∀ id, (attached.filter fun b => b.primaryId = some id).length ≤
    budget.maxPerCandidate
  maxChars : (attached.map (charged budget)).sum ≤ budget.maxChars

/-- Where no two candidates are the same memory, all that is shown is within the budgets. -/
theorem Attached.shown_within {reader : ProjectionReader T} {candidates out : List (HybridResult V)}
    {scope : ProjectionScope T} {budget : ProjectionBudget} {attached : List (ViewBundle T)}
    (h : Attached reader candidates out scope budget attached)
    (hdistinct : (out.map HybridResult.docId).Nodup) :
    (out.flatMap fun c => c.derivedProjections.getD []).length ≤ budget.maxItems ∧
      ((out.flatMap fun c => c.derivedProjections.getD []).map VisibleProjection.chars).sum ≤
        budget.maxChars := by
  obtain ⟨part,hperm,hpart⟩ := Selections.flatMap_filter_subperm ViewBundle.primaryId
    (hdistinct.map (Option.some_injective _)) attached
  have hshown : (out.flatMap fun c => c.derivedProjections.getD []).Perm
      (part.map fun b => visibleProjection budget b.projection) := by
    refine (List.Perm.of_eq ?_).trans (hperm.map _).symm
    rw [List.map_map,List.map_flatMap,List.flatMap_map]
    exact List.flatMap_congr fun c hc => h.shown c hc
  constructor
  · rw [hshown.length_eq,List.length_map]
    exact hpart.length_le.trans h.maxItems
  · rw [(hshown.map _).sum_eq,List.map_map]
    exact ((hpart.map _).sum_le_sum fun _ _ => Nat.zero_le _).trans h.maxChars

lemma attached_nothing (reader : ProjectionReader T) (candidates : List (HybridResult V))
    (scope : ProjectionScope T) (budget : ProjectionBudget) :
    Attached reader candidates (candidates.map copyCandidate) scope budget [] := by
  refine ⟨fun c hc => ?_,by simp,by simp,by simp,by simp,by simp⟩
  obtain ⟨c₀,-,rfl⟩ := List.mem_map.mp hc
  rfl

omit [LinearOrder T] in
lemma copyCandidate_copied (candidates : List (HybridResult V)) :
    (candidates.map copyCandidate).map copyCandidate = candidates.map copyCandidate := by
  rw [List.map_map]
  rfl

/-- Whatever the store answers: the candidates keep their order, identities, scores and contents,
and what they get are annotations of projections that may be attached, within the budgets. -/
theorem attach_keeps (reader : ProjectionReader T) (candidates : List (HybridResult V))
    (scope : ProjectionScope T) (budget : ProjectionBudget) :
    (reader.attach candidates scope budget).map copyCandidate = candidates.map copyCandidate ∧
      ∃ attached, Attached reader candidates (reader.attach candidates scope budget) scope budget
        attached := by
  have hnothing : ∀ out, out = candidates.map copyCandidate →
      out.map copyCandidate = candidates.map copyCandidate ∧
        ∃ attached, Attached reader candidates out scope budget attached := by
    rintro out rfl
    exact ⟨copyCandidate_copied candidates,[],attached_nothing reader candidates scope budget⟩
  have hids : (candidates.map copyCandidate).map HybridResult.docId = candidates.map HybridResult.docId := by
    rw [List.map_map]
    rfl
  have hseeds : seedIds (candidates.map copyCandidate) = seedIds candidates := by
    unfold seedIds
    rw [hids]
  unfold ProjectionReader.attach
  simp only
  split
  · exact hnothing _ rfl
  rename_i hopen
  have hitems : 0 < budget.maxItems := by
    refine Nat.pos_of_ne_zero fun hzero => hopen ?_
    simp [hzero]
  rw [hseeds]
  split
  · exact hnothing _ rfl
  · exact hnothing _ rfl
  rename_i bundles _ hbundles
  split
  · exact hnothing _ rfl
  rename_i sources hsources
  obtain ⟨log,⟨s,hlog⟩,hcopies,hshown⟩ := attachValidated_logged reader scope bundles
    (sourceTable sources) (candidates.map copyCandidate) (by simp [copyCandidate]) hitems
  rw [hids] at hlog hshown
  rw [copyCandidate_copied] at hcopies
  have hadmitted : ∀ b ∈ log, ∃ id, reader.admits scope (candidates.map HybridResult.docId)
      (sourceTable sources) b = some id ∧ b.primaryId = some id ∧
        Attachable scope (candidates.map HybridResult.docId) (sourceTable sources) b := by
    intro b hb
    obtain ⟨hbundle,hsome⟩ := hlog.admitted b hb
    obtain ⟨id,hid⟩ := Option.isSome_iff_exists.mp hsome
    exact ⟨id,hid,admits_some (List.mem_filter.mp hbundle).2 hid⟩
  have hprimary : ∀ id, attachedTo (reader.admits scope (candidates.map HybridResult.docId)
      (sourceTable sources)) log id = log.filter fun b => b.primaryId = some id := by
    intro id
    refine List.filter_congr fun b hb => ?_
    obtain ⟨id',hadmits,hid',-⟩ := hadmitted b hb
    rw [hadmits,hid']
  refine ⟨hcopies,log,fun c hc => ?_,?_,fun b hb => ?_,hlog.maxItems,fun id => ?_,?_⟩
  · rw [hshown c hc,hprimary]
  · rw [← hlog.seen]
    exact hlog.nodup
  · obtain ⟨-,-,-,hattachable⟩ := hadmitted b hb
    have hbundle := (List.mem_filter.mp (hlog.admitted b hb).1).1
    exact ⟨bundles,sources,hbundles,hsources,hbundle,hattachable⟩
  · rw [← hprimary]
    exact hlog.maxPerCandidate id
  · rw [← hlog.chars]
    exact hlog.maxChars

end Memora.Evolution

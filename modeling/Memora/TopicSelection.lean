import Memora.CatalogSelection

/-! A summary may reuse the topics of its scope: all of them while they are few, else those of
memories that match the window, filled up with recent and frequent ones. -/
namespace Memora.Catalog
open RankedStreams (Sorter)
open Canonical (pythonStrip)

variable {T : Type*} [LinearOrder T] [Zero T]

inductive TopicCandidateMode
  | off | observe | full | topK
  deriving DecidableEq

structure BucketOverride where
  mode : TopicCandidateMode
  fixedK : Option ℕ := none

structure CandidateReuseConfig where
  mode : TopicCandidateMode := .observe
  activationThreshold : ℕ := 32
  fixedK : ℕ := 8
  maxFullTopics : ℕ := 32
  maxFullPromptTokens : ℕ := 256
  overfetchFactor : ℕ := 3
  observeMaxCandidates : ℕ := 32
  observeMaxRows : ℕ := 96
  bucketOverrides : Dict String BucketOverride := {}
  tokens_ge : 50 ≤ maxFullPromptTokens := by decide

def CandidateReuseConfig.valid (config : CandidateReuseConfig) : Bool :=
  config.fixedK ≤ config.maxFullTopics && config.activationThreshold ≤ config.maxFullTopics &&
    config.maxFullTopics ≤ 50

def CandidateReuseConfig.getBucketConfig (config : CandidateReuseConfig) (bucket : String) :
    TopicCandidateMode × ℕ :=
  match config.bucketOverrides.get? bucket with
  | some entry => (entry.mode,entry.fixedK.getD config.fixedK)
  | none => (config.mode,config.fixedK)

def mapTopicCountToBucket (count : ℕ) : String :=
  if count < 10 then "tiny" else if count < 30 then "small" else if count < 100 then "medium"
  else if count < 300 then "large" else if count < 1000 then "xlarge" else "huge"

structure TopicCandidateSelection where
  labels : List String := []
  sourceProvenanceComplete : Option Bool := none
  mode : TopicCandidateMode
  effectiveMode : TopicCandidateMode := .off
  candidateCount : ℕ := 0
  bm25HitCount : ℕ := 0
  recentFillCount : ℕ := 0
  budgetReason : String := ""
  reasonCode : String
  deriving DecidableEq

def TopicCandidateSelection.productionLabels (s : TopicCandidateSelection) : List String :=
  if s.sourceProvenanceComplete = some true then s.labels else []

/-- The labels that `__post_init__` leaves; none where it raises. -/
def selectionLabels (env : CatalogEnv T) : List String → List String → Option (List String)
  | _, [] => some []
  | seen, value::values =>
    match normalizeTopicLabel env (.text value) with
    | none => none
    | some label => match normalizeTopicKey env (.text label) with
      | none => selectionLabels env seen values
      | some key =>
        if key ∈ seen then selectionLabels env seen values
        else (selectionLabels env (key::seen) values).map (label::·)

def TopicCandidateSelection.make (env : CatalogEnv T) (s : TopicCandidateSelection) :
    Option TopicCandidateSelection :=
  (selectionLabels env [] s.labels).map fun labels => { s with labels }

def estimateTokens (labels : List String) : ℕ := max 1 ((labels.map String.length).sum / 3)

def labelKey (env : CatalogEnv T) (label : String) : String :=
  env.casefold (pythonStrip (env.nfkc label))

def deduplicateLabels (env : CatalogEnv T) : List String → List String → List String
  | _, [] => []
  | seen, label::labels =>
    if labelKey env label = "" ∨ labelKey env label ∈ seen then deduplicateLabels env seen labels
    else label::deduplicateLabels env (labelKey env label::seen) labels

def candidateTopicKey (env : CatalogEnv T) (topicKey label : String) : String :=
  if pythonStrip topicKey ≠ "" then pythonStrip topicKey else labelKey env label

namespace Database
variable (db : Database T) (env : CatalogEnv T) (read : FillRead)

/-- The rows of each topic by the id of the memory, which is NULL only in a row of its own. -/
def fullRows (sorter : Sorter (ScopeTopic T)) : List (JoinedRow T) :=
  ((sorter.sort moreFrequent (db.scopeTopics read)).take read.maxCount).flatMap fun t =>
    ((db.joinedRows read).filter fun row => decide (row.topic = t)).insertionSort fun a b =>
      a.mapping.elim 0 MappingRow.memoryId ≤ b.mapping.elim 0 MappingRow.memoryId

def readTopics : List String → List (JoinedRow T) → Option (List (TopicCandidate T))
  | _, [] => some []
  | seen, row::rows => match validatedCandidate env read row with
    | none => none
    | some c => if c.topicKey ∈ seen then readTopics seen rows
        else (readTopics (c.topicKey::seen) rows).map (c::·)

def selectFull (sorter : Sorter (ScopeTopic T)) : List (TopicCandidate T) :=
  if read.valid then (readTopics env read [] (db.fullRows read sorter)).getD [] else []

/-- `_validated_bm25_candidate`; the label is that of the mapping. -/
def validatedBm25 (row : JoinedRow T) : Option (TopicCandidate T) :=
  row.mapping.bind fun mapping => (validatedCandidate env read row).map fun c =>
    { c with displayTopic := mapping.displayTopic }

/-- The loop over the matches: one more topic than it may take ends it. -/
def readMatches (limit : ℕ) : List (TopicCandidate T) → List (JoinedRow T) →
    Option (List (TopicCandidate T))
  | out, [] => some out
  | out, row::rows => match validatedBm25 env read row with
    | none => none
    | some c =>
      if c.topicKey ∈ out.map TopicCandidate.topicKey then readMatches limit out rows
      else if limit ≤ out.length then some out
      else readMatches limit (out++[c]) rows

/-- `rank` is none for a document that the full text query does not match. -/
def selectBm25 (rank : ℤ → Option ℚ) : List (TopicCandidate T) :=
  let hits := (db.joinedRows read).filterMap fun row => match row.mapping, row.document with
    | some mapping, some _ => (rank mapping.memoryId).map fun r => (r,row)
    | _, _ => none
  let sorted := hits.insertionSort fun a b =>
    a.1 < b.1 ∨ (a.1 = b.1 ∧ moreFrequent a.2.topic b.2.topic = true)
  if read.valid then
    ((readMatches env read read.maxCount [] ((sorted.take (read.maxCount * 3)).map (·.2)))).getD []
  else []

end Database

/-- The scope of a summary and what the selector reads besides the catalog: an order for ties, the
full text query of the window, none where building it raises, and its ranks. -/
structure SelectorInput (T : Type*) where
  scope : Except String Scope
  resolverRevision : Option String := none
  topicSorter : Sorter (ScopeTopic T)
  rowSorter : Sorter (JoinedRow T)
  ftsQuery : Option String
  rank : String → ℤ → Option ℚ

variable (env : CatalogEnv T) (db : Database T) (input : SelectorInput T)
    (config : CandidateReuseConfig)

def newRows : List String → List (TopicCandidate T) → List (TopicCandidate T)
  | _, [] => []
  | excluded, c::cs =>
    let key := candidateTopicKey env c.topicKey c.displayTopic
    if key = "" ∨ key ∈ excluded then newRows excluded cs else c::newRows (key::excluded) cs

def candidateKeys (cs : List (TopicCandidate T)) : List String :=
  cs.map fun c => candidateTopicKey env c.topicKey c.displayTopic

variable (read : FillRead)

def fillBatch (excluded : List String) : List (TopicCandidate T) :=
  newRows env excluded (db.selectRecentFrequent { read with excludeTopicKeys := excluded } env
    input.rowSorter)

def freshKeys (excluded : List String) : Finset String :=
  ((db.scopeTopics { read with excludeTopicKeys := [] }).map fun t =>
    candidateTopicKey env t.topicKey t.displayTopic).toFinset.filter (· ∉ excluded)

variable {env db input} {c : TopicCandidate T} {sorter : Sorter (JoinedRow T)}
    {cs : List (TopicCandidate T)}

lemma validatedCandidate_labels {read : FillRead} {row : JoinedRow T}
    (h : Database.validatedCandidate env read row = some c) :
    c.topicKey = row.topic.topicKey ∧ c.displayTopic = row.topic.displayTopic := by
  unfold Database.validatedCandidate at h
  split at h
  · cases h
  split at h
  · cases h
  split at h
  · cases h
  · obtain ⟨revision,-,rfl⟩ := Option.map_eq_some_iff.mp h
    exact ⟨rfl,rfl⟩

lemma selectRecentFrequent_mem {read : FillRead} (h : c ∈ db.selectRecentFrequent read env sorter) :
    ∃ t ∈ db.scopeTopics read, c.topicKey = t.topicKey ∧ c.displayTopic = t.displayTopic := by
  unfold Database.selectRecentFrequent at h
  split at h
  · rw [RankedStreams.readTwo_eq] at h
    cases hread : RankedStreams.read (Database.validatedCandidate env read) TopicCandidate.topicKey
        read.maxCount (RankedStreams.alternate (db.cut read sorter moreFrequent)
          (db.cut read sorter moreRecent)) [] with
    | none => simp [hread] at h
    | some out =>
      rw [hread] at h
      rcases RankedStreams.read_mem hread c h with hold | ⟨row,hrow,hcheck⟩
      · cases hold
      · have hjoined : row ∈ db.joinedRows read := by
          rcases RankedStreams.mem_alternate.mp hrow with hrow | hrow
          · exact (sorter.perm _ _).subset (List.mem_of_mem_take hrow)
          · exact (sorter.perm _ _).subset (List.mem_of_mem_take hrow)
        exact ⟨row.topic,topic_of_joined hjoined,validatedCandidate_labels hcheck⟩
  · cases h

omit [LinearOrder T] [Zero T] in
lemma newRows_spec (excluded : List String) (cs : List (TopicCandidate T)) :
    ∀ c ∈ newRows env excluded cs, c ∈ cs ∧ candidateTopicKey env c.topicKey c.displayTopic ∉
    excluded := by
  induction cs generalizing excluded with
  | nil => simp [newRows]
  | cons a cs ih =>
    intro c hc
    rw [newRows] at hc
    split_ifs at hc with hskip
    · exact ⟨List.mem_cons_of_mem _ (ih excluded c hc).1,(ih excluded c hc).2⟩
    · rcases List.mem_cons.mp hc with rfl | hc
      · exact ⟨List.mem_cons_self ..,fun hmem => hskip (.inr hmem)⟩
      · obtain ⟨hmem,hnew⟩ := ih _ c hc
        exact ⟨List.mem_cons_of_mem _ hmem,fun hold => hnew (List.mem_cons_of_mem _ hold)⟩

lemma freshKeys_lt {read : FillRead} {excluded : List String}
    (h : fillBatch env db input read excluded = c::cs) :
    (freshKeys env db read (excluded++candidateKeys env (c::cs))).card <
      (freshKeys env db read excluded).card := by
  have hc : c ∈ fillBatch env db input read excluded := h ▸ List.mem_cons_self ..
  obtain ⟨hmem,hnew⟩ := newRows_spec _ _ c hc
  obtain ⟨t,ht,hkey,hlabel⟩ := selectRecentFrequent_mem hmem
  have hscope : t ∈ db.scopeTopics { read with excludeTopicKeys := [] } := by
    simp only [Database.scopeTopics,List.mem_filter,Bool.and_eq_true] at ht ⊢
    exact ⟨ht.1,ht.2.1,by simp⟩
  refine Finset.card_lt_card (Finset.ssubset_iff_of_subset ?_ |>.mpr
    ⟨candidateTopicKey env c.topicKey c.displayTopic,?_,?_⟩)
  · intro key hmem
    simp only [freshKeys,Finset.mem_filter,List.mem_append,not_or] at hmem ⊢
    exact ⟨hmem.1,hmem.2.1⟩
  · simp only [freshKeys,Finset.mem_filter,List.mem_toFinset,List.mem_map]
    exact ⟨⟨t,hscope,by rw [hkey,hlabel]⟩,hnew⟩
  · simp [freshKeys,candidateKeys]

variable (env db input)

/-- The loop that fills up what the matches leave free: the labels so far and the rows added. -/
def fillUp (k : ℕ) (read : FillRead) (hits : List (TopicCandidate T)) (excluded : List String)
    (fill : List (TopicCandidate T)) : List String × List (TopicCandidate T) :=
  let labels := deduplicateLabels env [] ((hits++fill).map TopicCandidate.displayTopic)
  if k ≤ labels.length then (labels,fill)
  else match _h : fillBatch env db input { read with maxCount := k - labels.length } excluded with
    | [] => (labels,fill)
    | c::cs => fillUp k read hits (excluded++candidateKeys env (c::cs)) (fill++c::cs)
termination_by (freshKeys env db read excluded).card
decreasing_by
  have hless := freshKeys_lt _h
  exact hless

def selectFillOnly (mode : TopicCandidateMode) (k : ℕ) :
    Option TopicCandidateSelection :=
  let rows := db.selectRecentFrequent { read with maxCount := k } env input.rowSorter
  let labels := deduplicateLabels env [] (rows.map TopicCandidate.displayTopic)
  if labels = [] then some { mode, reasonCode := "no_fill_candidates" }
  else TopicCandidateSelection.make env {
    labels
    sourceProvenanceComplete := some true
    mode
    effectiveMode := .topK
    candidateCount := labels.length
    recentFillCount := rows.length
    reasonCode := if labels.length < k then "candidate_shortfall" else "fill_only" }

def selectBm25WithFill : Option TopicCandidateSelection :=
  match input.ftsQuery with
  | none => none
  | some query =>
    if query = "" then selectFillOnly env db input read config.mode config.fixedK
    else
      let hits := db.selectBm25 env { read with maxCount := config.fixedK } (input.rank query)
      let filled := fillUp env db input config.fixedK read hits ((candidateKeys env hits).filter (· ≠ "")) []
      let labels := filled.1.take config.fixedK
      if config.maxFullPromptTokens < estimateTokens labels then
        some {
          mode := .topK
          candidateCount := labels.length
          bm25HitCount := hits.length
          recentFillCount := filled.2.length
          budgetReason := "token_exceeded"
          reasonCode := "token_budget_exceeded" }
      else TopicCandidateSelection.make env {
        labels
        sourceProvenanceComplete := some true
        mode := .topK
        effectiveMode := .topK
        candidateCount := labels.length
        bm25HitCount := hits.length
        recentFillCount := filled.2.length
        reasonCode :=
          if labels.length < config.fixedK then "candidate_shortfall" else "top_k_success" }

def selectFullCandidates (isShadow : Bool) : Option TopicCandidateSelection :=
  let labels := (db.selectFull env { read with maxCount := config.maxFullTopics+1 }
    input.topicSorter).map TopicCandidate.displayTopic
  if labels = [] then some { mode := config.mode, reasonCode := "no_full_candidates" }
  else if config.maxFullTopics < labels.length then
    some {
      mode := config.mode
      candidateCount := labels.length
      budgetReason := "count_exceeded"
      reasonCode := "count_budget_exceeded" }
  else if config.maxFullPromptTokens < estimateTokens labels then
    some {
      mode := config.mode
      candidateCount := labels.length
      budgetReason := "token_exceeded"
      reasonCode := "token_budget_exceeded" }
  else TopicCandidateSelection.make env {
    labels
    sourceProvenanceComplete := some !isShadow
    mode := config.mode
    effectiveMode := if isShadow then .off else .full
    candidateCount := labels.length
    reasonCode := "full_success" }

def fewTopics : Bool :=
  (db.selectFull env { read with maxCount := config.activationThreshold+1 }
    input.topicSorter).length < config.activationThreshold

def selectTopKCandidates : Option TopicCandidateSelection :=
  if fewTopics env db input config read then selectFullCandidates env db input config read false
  else selectBm25WithFill env db input config read

def selectObserveShadow : Option TopicCandidateSelection :=
  let shadow := { config with
    mode := .full, maxFullTopics := min config.observeMaxCandidates config.observeMaxRows }
  if shadow.valid then
    (selectFullCandidates env db input shadow read true).bind fun s =>
      TopicCandidateSelection.make env { s with
        sourceProvenanceComplete := some false
        mode := .observe
        effectiveMode := .off
        reasonCode := "observe_shadow_"++s.reasonCode }
  else none

def catalogStatusText : CatalogStatus → String
  | .empty => "empty"
  | .backfilling => "backfilling"
  | .ready => "ready"
  | .degraded => "degraded"

/-- `_get_catalog_state`: the active generation of a catalog that is ready. -/
def Database.readyGeneration (db : Database T) : Option ℤ :=
  if db.state.status = .ready then db.state.activeGeneration.filter (0 < ·) else none

def effectiveConfig : TopicCandidateMode × ℕ :=
  match input.scope, db.readyGeneration with
  | .ok scope, some generation =>
    let count := if scope.scopeKey = "" then 0 else (db.scopeTopics { scope, generation }).length
    config.getBucketConfig (mapTopicCountToBucket count)
  | _, _ => (config.mode,config.fixedK)

def runtimeConfig : CandidateReuseConfig :=
  { config with
    mode := (effectiveConfig db input config).1
    fixedK := if (effectiveConfig db input config).2 = 0 then config.fixedK
      else (effectiveConfig db input config).2 }

def selectCandidates : TopicCandidateSelection :=
  let runtime := runtimeConfig db input config
  match input.scope with
  | .error reasonCode => { mode := runtime.mode, reasonCode }
  | .ok scope =>
    if runtime.mode = .off then { mode := .off, reasonCode := "mode_off" }
    else match db.readyGeneration with
      | none => { mode := .observe, reasonCode := "catalog_"++catalogStatusText db.state.status }
      | some generation =>
        let read : FillRead := { scope, generation, resolverRevision := input.resolverRevision
                                 overfetchFactor := config.overfetchFactor }
        let selected :=
          if !runtime.valid then none
          else match runtime.mode with
            | .off => none
            | .observe => selectObserveShadow env db input runtime read
            | .full => selectFullCandidates env db input runtime read false
            | .topK => selectTopKCandidates env db input runtime read
        selected.getD {
          mode := if config.mode = .off then .off else .observe
          reasonCode := "selector_failed" }

/-- A label as the catalog stores it: normalizing it again changes nothing. -/
structure Stored (env : CatalogEnv T) (label : String) : Prop where
  normal : normalizeTopicLabel env (.text label) = some label
  nfkc : env.nfkc label = label
  strip : pythonStrip label = label

structure Database.Labelled (env : CatalogEnv T) (db : Database T) : Prop where
  topics : ∀ t ∈ db.topics, Stored env t.displayTopic
  sources : ∀ r ∈ db.sources, Stored env r.displayTopic

structure ProductionBounded (env : CatalogEnv T) (config : CandidateReuseConfig)
    (s : TopicCandidateSelection) : Prop where
  distinct : (s.productionLabels.map fun label => normalizeTopicKey env (.text label)).Nodup
  count : s.productionLabels.length ≤
    if s.effectiveMode = .topK then config.fixedK else config.maxFullTopics
  tokens : estimateTokens s.productionLabels ≤ config.maxFullPromptTokens

variable {env db input config} {labels kept : List String} {s : TopicCandidateSelection}
  {read : FillRead} {rows : List (JoinedRow T)}

omit [LinearOrder T] [Zero T] in
lemma Stored.key {label : String} (h : Stored env label) :
    normalizeTopicKey env (.text label) = some (env.casefold label) := by
  rw [normalizeTopicKey,h.normal]
  rfl

omit [LinearOrder T] [Zero T] in
lemma Stored.labelKey {label : String} (h : Stored env label) :
    labelKey env label = env.casefold label := by
  rw [Catalog.labelKey,h.nfkc,h.strip]

lemma estimateTokens_mono (h : kept.Sublist labels) :
    estimateTokens kept ≤ estimateTokens labels := by
  have hsum : (kept.map String.length).sum ≤ (labels.map String.length).sum :=
    (h.map String.length).sum_le_sum fun _ _ => Nat.zero_le _
  unfold estimateTokens
  omega

omit [LinearOrder T] [Zero T] in
lemma selectionLabels_stored (hstored : ∀ label ∈ labels, Stored env label) (seen : List String) :
    ∃ kept, selectionLabels env seen labels = some kept ∧ kept.Sublist labels ∧
      (kept.map env.casefold).Nodup ∧ ∀ label ∈ kept, env.casefold label ∉ seen := by
  induction labels generalizing seen with
  | nil => exact ⟨[],rfl,List.Sublist.refl _,by simp,by simp⟩
  | cons label labels ih =>
    have hlabel := hstored label (List.mem_cons_self ..)
    have hrest := fun l hl => hstored l (List.mem_cons_of_mem _ hl)
    rw [selectionLabels,hlabel.normal]
    dsimp only
    rw [hlabel.key]
    dsimp only
    split_ifs with hseen
    · obtain ⟨kept,heq,hsub,hnodup,hfresh⟩ := ih hrest seen
      exact ⟨kept,heq,hsub.cons _,hnodup,hfresh⟩
    · obtain ⟨kept,heq,hsub,hnodup,hfresh⟩ := ih hrest (env.casefold label::seen)
      refine ⟨label::kept,by rw [heq]; rfl,hsub.cons_cons _,?_,?_⟩
      · rw [List.map_cons,List.nodup_cons]
        refine ⟨fun hmem => ?_,hnodup⟩
        obtain ⟨l,hl,hkey⟩ := List.mem_map.mp hmem
        exact hfresh l hl (hkey ▸ List.mem_cons_self ..)
      · intro l hl
        rcases List.mem_cons.mp hl with rfl | hl
        · exact hseen
        · exact fun hmem => hfresh l hl (List.mem_cons_of_mem _ hmem)

omit [LinearOrder T] [Zero T] in
lemma deduplicateLabels_sublist (seen labels : List String) :
    (deduplicateLabels env seen labels).Sublist labels := by
  induction labels generalizing seen with
  | nil => exact List.Sublist.refl _
  | cons label labels ih =>
    rw [deduplicateLabels]
    split_ifs
    · exact (ih _).cons _
    · exact (ih _).cons_cons _

omit [LinearOrder T] [Zero T] in
lemma selectionLabels_deduplicate (hstored : ∀ label ∈ labels, Stored env label)
    (seen : List String) : selectionLabels env seen (deduplicateLabels env seen labels) =
      some (deduplicateLabels env seen labels) := by
  induction labels generalizing seen with
  | nil => rfl
  | cons label labels ih =>
    have hlabel := hstored label (List.mem_cons_self ..)
    have hrest := fun l hl => hstored l (List.mem_cons_of_mem _ hl)
    rw [deduplicateLabels,hlabel.labelKey]
    split_ifs with hskip
    · exact ih hrest seen
    · rw [not_or] at hskip
      rw [selectionLabels,hlabel.normal]
      dsimp only
      rw [hlabel.key]
      dsimp only
      rw [if_neg hskip.2,ih hrest]
      rfl

omit [LinearOrder T] [Zero T] in
lemma bounded_of_none (h : s.productionLabels = []) : ProductionBounded env config s := by
  refine ⟨by simp [h],by simp [h],?_⟩
  have htokens := config.tokens_ge
  have hone : estimateTokens [] = 1 := rfl
  rw [h,hone]
  omega

omit [LinearOrder T] [Zero T] in
lemma bounded_of_make {r : TopicCandidateSelection} (h : r.make env = some s)
    (hstored : ∀ label ∈ r.labels, Stored env label) (hcount : r.labels.length ≤
      if r.effectiveMode = .topK then config.fixedK else config.maxFullTopics)
    (htokens : estimateTokens r.labels ≤ config.maxFullPromptTokens) :
    ProductionBounded env config s := by
  obtain ⟨kept,hkept,hsub,hnodup,-⟩ := selectionLabels_stored hstored []
  rw [TopicCandidateSelection.make,hkept] at h
  cases h
  by_cases hprovenance : r.sourceProvenanceComplete = some true
  · have hlabels : TopicCandidateSelection.productionLabels { r with labels := kept } = kept :=
      if_pos hprovenance
    refine ⟨?_,?_,?_⟩
    · have hkeys : kept.map (fun label => normalizeTopicKey env (.text label)) =
          (kept.map env.casefold).map some := by
        rw [List.map_map]
        exact List.map_congr_left fun l hl => (hstored l (hsub.subset hl)).key
      rw [hlabels,hkeys]
      exact hnodup.map (Option.some_injective _)
    · rw [hlabels]
      exact hsub.length_le.trans hcount
    · rw [hlabels]
      exact (estimateTokens_mono hsub).trans htokens
  · exact bounded_of_none (if_neg hprovenance)

omit [LinearOrder T] in
lemma joined_stored (hlabels : db.Labelled env) {row : JoinedRow T}
    (h : row ∈ db.joinedRows read) : Stored env row.topic.displayTopic ∧
      ∀ mapping, row.mapping = some mapping → Stored env mapping.displayTopic := by
  refine ⟨hlabels.topics _ (List.mem_of_mem_filter (topic_of_joined h)),fun mapping hmapping => ?_⟩
  obtain ⟨t,-,hrow⟩ := List.mem_flatMap.mp h
  simp only at hrow
  split at hrow
  · rw [List.mem_singleton.mp hrow] at hmapping
    cases hmapping
  · obtain ⟨r,hr,rfl⟩ := List.mem_map.mp hrow
    cases hmapping
    exact hlabels.sources _ (List.mem_of_mem_filter (by assumption))

lemma fill_stored (hlabels : db.Labelled env) (h : c ∈ db.selectRecentFrequent read env sorter) :
    Stored env c.displayTopic := by
  obtain ⟨t,ht,-,hlabel⟩ := selectRecentFrequent_mem h
  rw [hlabel]
  exact hlabels.topics t (List.mem_of_mem_filter ht)

lemma readTopics_mem {seen : List String} (h : Database.readTopics env read seen rows = some cs) :
    ∀ c ∈ cs, ∃ row ∈ rows, Database.validatedCandidate env read row = some c := by
  induction rows generalizing seen cs with
  | nil =>
    cases h
    simp
  | cons row rows ih =>
    rw [Database.readTopics] at h
    intro c hc
    split at h
    · cases h
    rename_i a ha
    split_ifs at h
    · obtain ⟨r,hr,hcheck⟩ := ih h c hc
      exact ⟨r,List.mem_cons_of_mem _ hr,hcheck⟩
    · obtain ⟨rest,hrest,rfl⟩ := Option.map_eq_some_iff.mp h
      rcases List.mem_cons.mp hc with rfl | hc
      · exact ⟨row,List.mem_cons_self ..,ha⟩
      · obtain ⟨r,hr,hcheck⟩ := ih hrest c hc
        exact ⟨r,List.mem_cons_of_mem _ hr,hcheck⟩

lemma full_stored (hlabels : db.Labelled env) {sorter : Sorter (ScopeTopic T)}
    (h : c ∈ db.selectFull env read sorter) : Stored env c.displayTopic := by
  unfold Database.selectFull at h
  split at h
  · cases hrows : Database.readTopics env read [] (db.fullRows read sorter) with
    | none => simp [hrows] at h
    | some cs =>
      rw [hrows] at h
      obtain ⟨row,hrow,hcheck⟩ := readTopics_mem hrows c h
      obtain ⟨t,-,hfilter⟩ := List.mem_flatMap.mp hrow
      rw [(validatedCandidate_labels hcheck).2]
      exact (joined_stored hlabels (List.mem_of_mem_filter ((List.mem_insertionSort _).mp hfilter))).1
  · cases h

lemma readMatches_mem {limit : ℕ} {out out' : List (TopicCandidate T)}
    (h : Database.readMatches env read limit out rows = some out') :
    ∀ c ∈ out', c ∈ out ∨ ∃ row ∈ rows, Database.validatedBm25 env read row = some c := by
  induction rows generalizing out with
  | nil =>
    cases h
    exact fun c hc => .inl hc
  | cons row rows ih =>
    rw [Database.readMatches] at h
    intro c hc
    split at h
    · cases h
    rename_i a ha
    have hmore : (c ∈ out ∨ ∃ row ∈ rows, Database.validatedBm25 env read row = some c) →
        c ∈ out ∨ ∃ r ∈ row::rows, Database.validatedBm25 env read r = some c :=
      Or.imp id fun ⟨r,hr,hcheck⟩ => ⟨r,List.mem_cons_of_mem _ hr,hcheck⟩
    split_ifs at h
    · exact hmore (ih h c hc)
    · cases h
      exact .inl hc
    · rcases ih h c hc with hmid | hrow
      · rcases List.mem_append.mp hmid with hold | hlast
        · exact .inl hold
        · rw [List.mem_singleton.mp hlast]
          exact .inr ⟨row,List.mem_cons_self ..,ha⟩
      · exact hmore (.inr hrow)

lemma bm25_stored (hlabels : db.Labelled env) {rank : ℤ → Option ℚ}
    (h : c ∈ db.selectBm25 env read rank) : Stored env c.displayTopic := by
  unfold Database.selectBm25 at h
  dsimp only at h
  split at h
  · generalize hrows : Database.readMatches env read read.maxCount [] _ = out at h
    cases out with
    | none => cases h
    | some out =>
      rcases readMatches_mem hrows c h with hold | ⟨row,hrow,hcheck⟩
      · cases hold
      · obtain ⟨hit,hhit,rfl⟩ := List.mem_map.mp hrow
        have hsorted := List.mem_of_mem_take hhit
        rw [List.mem_insertionSort] at hsorted
        obtain ⟨row,hjoined,hsome⟩ := List.mem_filterMap.mp hsorted
        have hsame : hit.2 = row := by
          split at hsome
          · obtain ⟨r,-,rfl⟩ := Option.map_eq_some_iff.mp hsome
            rfl
          · cases hsome
        obtain ⟨mapping,hmapping,hvalid⟩ := Option.bind_eq_some_iff.mp hcheck
        obtain ⟨a,-,rfl⟩ := Option.map_eq_some_iff.mp hvalid
        exact (joined_stored hlabels hjoined).2 mapping (hsame ▸ hmapping)
  · cases h

lemma fillUp_stored (hlabels : db.Labelled env) (k : ℕ) (hits : List (TopicCandidate T))
    (excluded : List String) (fill : List (TopicCandidate T))
    (hstored : ∀ c ∈ hits++fill, Stored env c.displayTopic) :
    ∀ label ∈ (fillUp env db input k read hits excluded fill).1, Stored env label := by
  have hstop : ∀ label ∈ deduplicateLabels env [] ((hits++fill).map TopicCandidate.displayTopic),
      Stored env label := by
    intro label hlabel
    obtain ⟨c,hc,rfl⟩ := List.mem_map.mp ((deduplicateLabels_sublist [] _).subset hlabel)
    exact hstored c hc
  induction hmeasure : (freshKeys env db read excluded).card using Nat.strong_induction_on
    generalizing excluded fill with
  | _ n ih =>
    rw [fillUp]
    split_ifs with hfull
    · exact hstop
    split
    · exact hstop
    · rename_i c cs hbatch
      have hmore : ∀ a ∈ hits++(fill++c::cs), Stored env a.displayTopic := by
        intro a ha
        rw [← List.append_assoc] at ha
        rcases List.mem_append.mp ha with hold | hnew
        · exact hstored a hold
        · exact fill_stored hlabels (newRows_spec _ _ a (hbatch ▸ hnew)).1
      have hless := freshKeys_lt hbatch
      rw [← hmeasure] at ih
      refine ih _ hless _ _ hmore ?_ rfl
      intro label hlabel
      obtain ⟨a,ha,rfl⟩ := List.mem_map.mp ((deduplicateLabels_sublist [] _).subset hlabel)
      exact hmore a ha

lemma full_bounded (hlabels : db.Labelled env) {shadow : Bool}
    (h : selectFullCandidates env db input config read shadow = some s) :
    ProductionBounded env config s := by
  have hmode : (if shadow then TopicCandidateMode.off else .full) ≠ .topK := by
    cases shadow <;> decide
  unfold selectFullCandidates at h
  dsimp only at h
  split at h
  · cases h
    exact bounded_of_none rfl
  split at h
  · cases h
    exact bounded_of_none rfl
  rename_i hcount
  split at h
  · cases h
    exact bounded_of_none rfl
  · rename_i htokens
    refine bounded_of_make h (fun label hlabel => ?_) ?_ (Nat.le_of_not_lt htokens)
    · obtain ⟨c,hc,rfl⟩ := List.mem_map.mp hlabel
      exact full_stored hlabels hc
    · rw [if_neg hmode]
      exact Nat.le_of_not_lt hcount

lemma bm25_bounded (hlabels : db.Labelled env) {query : String} (hquery : query ≠ "")
    (hfts : input.ftsQuery = some query)
    (h : selectBm25WithFill env db input config read = some s) : ProductionBounded env config s := by
  unfold selectBm25WithFill at h
  rw [hfts] at h
  dsimp only at h
  rw [if_neg hquery] at h
  split at h
  · cases h
    exact bounded_of_none rfl
  · rename_i htokens
    refine bounded_of_make h (fun label hlabel => ?_) (List.length_take_le _ _) (Nat.le_of_not_lt htokens)
    refine fillUp_stored hlabels _ _ _ [] (fun c hc => ?_) label (List.mem_of_mem_take hlabel)
    rw [List.append_nil] at hc
    exact bm25_stored hlabels hc

lemma observe_bounded (h : selectObserveShadow env db input config read = some s) :
    ProductionBounded env config s := by
  unfold selectObserveShadow at h
  dsimp only at h
  split at h
  · obtain ⟨shadow,-,hmake⟩ := Option.bind_eq_some_iff.mp h
    obtain ⟨labels,-,rfl⟩ := Option.map_eq_some_iff.mp hmake
    exact bounded_of_none rfl
  · cases h

/-- The labels of the catalog that only fill up, as the selector deduplicates them. -/
def fillLabels (env : CatalogEnv T) (db : Database T) (input : SelectorInput T) (read : FillRead) :
    List String :=
  deduplicateLabels env [] ((db.selectRecentFrequent read env input.rowSorter).map
    TopicCandidate.displayTopic)

lemma selectRecentFrequent_length : (db.selectRecentFrequent read env sorter).length ≤
    read.maxCount := by
  by_cases hvalid : read.valid = true
  · by_cases hsources : db.SourcesHold read env sorter
    · rw [(selected_of_sources hvalid hsources).2.1]
      exact min_le_left _ _
    · rw [selected_of_not_sources hsources]
      exact Nat.zero_le _
  · rw [Database.selectRecentFrequent,if_neg hvalid]
    exact Nat.zero_le _

variable (input config read) in
/-- Filling up alone stays within the bounds exactly where its labels fit the token budget. -/
theorem fillOnly_bounded_iff (hlabels : db.Labelled env) (mode : TopicCandidateMode) : ∃ s,
    selectFillOnly env db input read mode config.fixedK = some s ∧ (ProductionBounded env config s ↔
      estimateTokens (fillLabels env db input { read with maxCount := config.fixedK }) ≤
        config.maxFullPromptTokens) := by
  have hrows : ∀ c ∈ db.selectRecentFrequent { read with maxCount := config.fixedK } env
      input.rowSorter, Stored env c.displayTopic := fun c hc => fill_stored hlabels hc
  have hlength : (db.selectRecentFrequent { read with maxCount := config.fixedK } env
      input.rowSorter).length ≤ config.fixedK := selectRecentFrequent_length
  unfold selectFillOnly fillLabels
  dsimp only
  generalize db.selectRecentFrequent { read with maxCount := config.fixedK } env
    input.rowSorter = rows at *
  have hstored : ∀ label ∈ rows.map TopicCandidate.displayTopic, Stored env label := by
    intro label hlabel
    obtain ⟨c,hc,rfl⟩ := List.mem_map.mp hlabel
    exact hrows c hc
  have hsub : (deduplicateLabels env [] (rows.map TopicCandidate.displayTopic)).Sublist _ :=
    deduplicateLabels_sublist ..
  have hcount := hsub.length_le
  rw [List.length_map] at hcount
  have hkept := selectionLabels_deduplicate hstored []
  generalize deduplicateLabels env [] (rows.map TopicCandidate.displayTopic) = labels at *
  have hmake : ∀ r : TopicCandidateSelection, r.labels = labels → r.make env = some r := by
    rintro r rfl
    rw [TopicCandidateSelection.make,hkept]
    rfl
  split
  · rename_i hempty
    refine ⟨_,rfl,fun _ => ?_,fun _ => bounded_of_none rfl⟩
    have htokens := config.tokens_ge
    have hone : estimateTokens [] = 1 := rfl
    rw [hempty,hone]
    omega
  · refine ⟨_,hmake _ rfl,fun h => h.tokens,fun h => ?_⟩
    exact bounded_of_make (hmake _ rfl) (fun label hlabel => hstored label (hsub.subset hlabel))
      (hcount.trans hlength) h

/-- The read of the fill, where topics are only filled up: they are not few, and the window gives
no query. -/
def onlyFill (env : CatalogEnv T) (db : Database T) (input : SelectorInput T)
    (config : CandidateReuseConfig) : Option FillRead :=
  let runtime := runtimeConfig db input config
  match input.scope, db.readyGeneration with
  | .ok scope, some generation =>
    let read : FillRead := { scope, generation, resolverRevision := input.resolverRevision
                             overfetchFactor := config.overfetchFactor }
    if runtime.mode = .topK ∧ runtime.valid ∧ input.ftsQuery = some "" ∧
        fewTopics env db input runtime read = false then
      some { read with maxCount := runtime.fixedK }
    else none
  | _, _ => none

lemma selection_bounded_iff (hlabels : db.Labelled env) :
    ProductionBounded env (runtimeConfig db input config) (selectCandidates env db input config) ↔
      ∀ read, onlyFill env db input config = some read →
        estimateTokens (fillLabels env db input read) ≤ config.maxFullPromptTokens := by
  have hfree : ∀ s : TopicCandidateSelection, onlyFill env db input config = none →
      ProductionBounded env (runtimeConfig db input config) s →
      (ProductionBounded env (runtimeConfig db input config) s ↔
        ∀ read, onlyFill env db input config = some read →
          estimateTokens (fillLabels env db input read) ≤ config.maxFullPromptTokens) := by
    intro s hnone hs
    simp [hnone,hs]
  have hgetD : ∀ (selected : Option TopicCandidateSelection) (mode : TopicCandidateMode) (reasonCode : String),
      (∀ s, selected = some s → ProductionBounded env (runtimeConfig db input config) s) →
      ProductionBounded env (runtimeConfig db input config) (selected.getD { mode, reasonCode }) := by
    intro selected mode reasonCode h
    cases selected with
    | none => exact bounded_of_none rfl
    | some s => exact h s rfl
  unfold selectCandidates
  dsimp only
  cases hscope : input.scope with
  | error reason => exact hfree _ (by simp [onlyFill,hscope]) (bounded_of_none rfl)
  | ok scope =>
    dsimp only
    by_cases hoff : (runtimeConfig db input config).mode = .off
    · rw [if_pos hoff]
      refine hfree _ ?_ (bounded_of_none rfl)
      cases hgeneration : db.readyGeneration <;> simp [onlyFill,hscope,hgeneration,hoff]
    rw [if_neg hoff]
    cases hgeneration : db.readyGeneration with
    | none => exact hfree _ (by simp [onlyFill,hscope,hgeneration]) (bounded_of_none rfl)
    | some generation =>
      dsimp only
      cases hvalid : (runtimeConfig db input config).valid with
      | false =>
        exact hfree _ (by simp [onlyFill,hscope,hgeneration,hvalid]) (hgetD none _ _ (by simp))
      | true =>
        simp only [Bool.not_true,Bool.false_eq_true,if_false]
        cases hmode : (runtimeConfig db input config).mode with
        | off => exact absurd hmode hoff
        | observe =>
          exact hfree _ (by simp [onlyFill,hscope,hgeneration,hmode])
            (hgetD _ _ _ fun s hs => observe_bounded hs)
        | full =>
          exact hfree _ (by simp [onlyFill,hscope,hgeneration,hmode])
            (hgetD _ _ _ fun s hs => full_bounded hlabels hs)
        | topK =>
          dsimp only
          unfold selectTopKCandidates
          generalize hread : ({ scope, generation, resolverRevision := input.resolverRevision
                                overfetchFactor := config.overfetchFactor } : FillRead) = read
          have honly : onlyFill env db input config =
              if input.ftsQuery = some "" ∧
                fewTopics env db input (runtimeConfig db input config) read = false then
                some { read with maxCount := (runtimeConfig db input config).fixedK } else none := by
            rw [← hread]
            simp [onlyFill,hscope,hgeneration,hmode,hvalid]
          cases hfew : fewTopics env db input (runtimeConfig db input config) read with
          | true =>
            exact hfree _ (by simp [honly,hfew]) (hgetD _ _ _ fun s hs => full_bounded hlabels hs)
          | false =>
            rw [if_neg (by simp)]
            cases hfts : input.ftsQuery with
            | none =>
              refine hfree _ (by simp [honly,hfts]) (hgetD _ _ _ fun s hs => ?_)
              simp [selectBm25WithFill,hfts] at hs
            | some query =>
              by_cases hquery : query = ""
              · subst hquery
                obtain ⟨s,hs,hiff⟩ := fillOnly_bounded_iff input (runtimeConfig db input config)
                  read hlabels .topK
                have hread : onlyFill env db input config =
                    some { read with maxCount := (runtimeConfig db input config).fixedK } := by
                  rw [honly,if_pos ⟨hfts,hfew⟩]
                rw [selectBm25WithFill,hfts]
                dsimp only
                rw [if_pos rfl,hmode,hs,hread]
                refine hiff.trans ?_
                simp only [Option.some.injEq,forall_eq']
                rfl
              · refine hfree _ (by simp [honly,hfts,hquery]) (hgetD _ _ _ fun s hs => ?_)
                exact bm25_bounded hlabels hquery hfts hs

/-- Where topics are not only filled up, a selection is within the bounds of its mode. -/
theorem selection_bounded_of_none (hlabels : db.Labelled env)
    (h : onlyFill env db input config = none) :
    ProductionBounded env (runtimeConfig db input config) (selectCandidates env db input config) :=
  (selection_bounded_iff hlabels).mpr (by simp [h])

/-- A selection is within the bounds of its mode exactly where the topics are not only filled up,
or the labels the catalog has for that fit the token budget. -/
theorem select_candidates_bounded_iff (env : CatalogEnv T) (db : Database T)
    (input : SelectorInput T) (config : CandidateReuseConfig) (hlabels : db.Labelled env) :
    ProductionBounded env (runtimeConfig db input config) (selectCandidates env db input config) ↔
      ∀ read, onlyFill env db input config = some read →
        estimateTokens (fillLabels env db input read) ≤ config.maxFullPromptTokens :=
  selection_bounded_iff hlabels

def longChars : List Char := ['a','b','c','d','e','f','g','h']

def longLabel (c : Char) : String := String.ofList (List.replicate 20 c)

def wideEnv : CatalogEnv ℕ := sampleEnv fun raw =>
  if raw = teaText then
    some { teaMetadata with topics := some (longChars.map fun c => .text (longLabel c)) }
  else none

def wideScope : Scope := ⟨"chat-1",.privateChat,.publicLevel⟩

def wide : Database ℕ where
  state := { status := .ready, activeGeneration := some 1 }
  documents := [teaDocument]
  sources := longChars.map fun c =>
    ⟨1,1,"2024-01-01",wideScope,longLabel c,longLabel c,0⟩
  topics := longChars.map fun c => ⟨1,wideScope,longLabel c,longLabel c,1,0,0⟩

def wideInput : SelectorInput ℕ where
  scope := .ok wideScope
  topicSorter := Sorter.insertion
  rowSorter := Sorter.insertion
  ftsQuery := some ""
  rank _ _ := none

def wideConfig : CandidateReuseConfig :=
  { mode := .topK, activationThreshold := 3, maxFullPromptTokens := 50 }

/-- Topics that only fill up are offered beyond the token budget. -/
theorem fill_over_budget : ¬ ProductionBounded wideEnv (runtimeConfig wide wideInput wideConfig)
      (selectCandidates wideEnv wide wideInput wideConfig) :=
  fun h => absurd h.tokens (by decide +kernel)

theorem select_candidates_bounded_sample :
    ProductionBounded wideEnv (runtimeConfig wide wideInput { wideConfig with fixedK := 2 })
      (selectCandidates wideEnv wide wideInput { wideConfig with fixedK := 2 }) := by
  have htopics : ∀ t ∈ wide.topics, normalizeTopicLabel wideEnv (.text t.displayTopic) =
      some t.displayTopic ∧ pythonStrip t.displayTopic = t.displayTopic := by decide +kernel
  have hsources : ∀ r ∈ wide.sources, normalizeTopicLabel wideEnv (.text r.displayTopic) =
      some r.displayTopic ∧ pythonStrip r.displayTopic = r.displayTopic := by decide +kernel
  refine (select_candidates_bounded_iff wideEnv wide wideInput _
    ⟨fun t ht => ⟨(htopics t ht).1,rfl,(htopics t ht).2⟩,
      fun r hr => ⟨(hsources r hr).1,rfl,(hsources r hr).2⟩⟩).mpr ?_
  intro read hread
  have honly : (onlyFill wideEnv wide wideInput { wideConfig with fixedK := 2 }).all (fun read =>
      decide (estimateTokens (fillLabels wideEnv wide wideInput read) ≤ 50)) = true := by
    decide +kernel
  rw [hread] at honly
  exact of_decide_eq_true honly

end Memora.Catalog

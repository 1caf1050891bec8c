import Memora.CatalogAggregates
import Memora.RankedStreams

/-! `select_recent_frequent_candidates` joins the topics of a scope with their mappings, sorts the
joined rows by frequency and by time, and cuts both lists. A topic is in a list as often as it has
mappings. -/
namespace Memora.Catalog
open RankedStreams

variable {T : Type*} [LinearOrder T] [Zero T]

structure FillRead where
  scope : Scope
  generation : ℤ
  resolverRevision : Option String := none
  maxCount : ℕ := 100
  overfetchFactor : ℕ := 3
  excludeTopicKeys : List String := []

structure JoinedRow (T : Type*) where
  topic : ScopeTopic T
  mapping : Option (MappingRow T)
  mappingSourceCount : ℕ
  document : Option Document

structure TopicCandidate (T : Type*) where
  memoryId : ℤ
  sourceRevision : String
  topicKey : String
  displayTopic : String
  observedAt : T
  deriving DecidableEq

/-- `_valid_query_args`. -/
def FillRead.valid (read : FillRead) : Bool :=
  decide (0 < read.generation) && decide (0 < read.maxCount) &&
    decide (Canonical.pythonStrip read.scope.scopeKey ≠ "") &&
    read.resolverRevision.all fun resolver => Canonical.pythonStrip resolver ≠ ""

def FillRead.scanLimit (read : FillRead) : ℕ := read.maxCount * max 1 read.overfetchFactor

/-- `ORDER BY active_source_count DESC, last_seen_at DESC, topic_key ASC`. -/
def moreFrequent (a b : ScopeTopic T) : Bool :=
  b.activeSourceCount < a.activeSourceCount ∨
    (a.activeSourceCount = b.activeSourceCount ∧ (b.lastSeenAt < a.lastSeenAt ∨
      (a.lastSeenAt = b.lastSeenAt ∧ a.topicKey ≤ b.topicKey)))

/-- `ORDER BY last_seen_at DESC, active_source_count DESC, topic_key ASC`. -/
def moreRecent (a b : ScopeTopic T) : Bool :=
  b.lastSeenAt < a.lastSeenAt ∨ (a.lastSeenAt = b.lastSeenAt ∧
    (b.activeSourceCount < a.activeSourceCount ∨
      (a.activeSourceCount = b.activeSourceCount ∧ a.topicKey ≤ b.topicKey)))

namespace Database
variable (db : Database T) (read : FillRead)

def scopeTopics : List (ScopeTopic T) :=
  db.topics.filter fun t =>
    decide (db.state.status = .ready) && decide (db.state.activeGeneration = some t.generation) &&
      t.generation = read.generation && t.scope = read.scope &&
      !(t.topicKey ≠ "" && t.topicKey ∈ read.excludeTopicKeys)

def joinedRows : List (JoinedRow T) :=
  (db.scopeTopics read).flatMap fun t =>
    let mappings := db.sources.filter fun r =>
      r.generation = t.generation && r.scope = t.scope && r.topicKey = t.topicKey
    match mappings with
    | [] => [{ topic := t, mapping := none, mappingSourceCount := 0, document := none }]
    | _ => mappings.map fun r =>
      { topic := t
        mapping := some r
        mappingSourceCount := mappings.length
        document := db.document? r.memoryId }

variable (env : CatalogEnv T)

def validatedSource (read : FillRead) (document : Document) (storedRevision topicKey : String) :
    Option String :=
  match sourceFromValues env document with
  | none => none
  | some source =>
    if source.scope ≠ read.scope ∨ source.sourceRevision ≠ storedRevision ∨
        (read.resolverRevision.any fun resolver =>
          source.resolverRevision ≠ Canonical.pythonStrip resolver) ∨
        !(source.topics.any fun topic => topic.1 = topicKey) then none
    else some source.sourceRevision

/-- `_validated_standard_candidate`. A missing document has no metadata to read. -/
def validatedCandidate (read : FillRead) (row : JoinedRow T) : Option (TopicCandidate T) :=
  match row.mapping with
  | none => none
  | some mapping =>
    if row.mappingSourceCount ≠ row.topic.activeSourceCount then none
    else
      match row.document with
      | none => none
      | some document =>
        (validatedSource env read document (Canonical.pythonStrip mapping.sourceRevision)
          row.topic.topicKey).map fun revision =>
          { memoryId := mapping.memoryId
            sourceRevision := revision
            topicKey := row.topic.topicKey
            displayTopic := row.topic.displayTopic
            observedAt := mapping.observedAt }

variable (sorter : Sorter (JoinedRow T))

/-- The rows of a query: sorted, in an order of tied rows that is the database's own, and cut. -/
def cut (le : ScopeTopic T → ScopeTopic T → Bool) : List (JoinedRow T) :=
  (sorter.sort (fun a b => le a.topic b.topic) (db.joinedRows read)).take read.scanLimit

def selectRecentFrequent : List (TopicCandidate T) :=
  if read.valid then
    (readTwo (validatedCandidate env read) TopicCandidate.topicKey read.maxCount
      (db.cut read sorter moreFrequent) (db.cut read sorter moreRecent) []).getD []
  else []

def topicKeys : Finset String := keys ScopeTopic.topicKey (db.scopeTopics read)

def rowsBefore (le : ScopeTopic T → ScopeTopic T → Bool) (t : ScopeTopic T) : ℕ :=
  (db.joinedRows read).countP fun row => !le t row.topic

def reachedTopics : List (ScopeTopic T) :=
  (db.scopeTopics read).filter fun t =>
    db.rowsBefore read moreFrequent t < read.scanLimit ||
      db.rowsBefore read moreRecent t < read.scanLimit

structure Filled (out : List (TopicCandidate T)) : Prop where
  count : out.length = min read.maxCount (db.topicKeys read).card
  distinct : (out.map TopicCandidate.topicKey).Nodup
  scope : ∀ c ∈ out, c.topicKey ∈ db.topicKeys read

def SourcesHold : Prop :=
  Readable (validatedCandidate env read) read.maxCount (fun row => row.topic.topicKey)
    (alternate (db.cut read sorter moreFrequent) (db.cut read sorter moreRecent)) ∅

end Database

structure Ranked (le : ScopeTopic T → ScopeTopic T → Bool) : Prop where
  total : ∀ a b, le a b = true ∨ le b a = true
  trans : ∀ a b c, le a b = true → le b c = true → le a c = true
  key : ∀ a b, le a b = true → le b a = true → a.topicKey = b.topicKey

omit [LinearOrder T] [Zero T] in
lemma ranked_of_rank {β : Type*} [LinearOrder β] {le : ScopeTopic T → ScopeTopic T → Bool}
    (rank : ScopeTopic T → β) (hle : ∀ a b, le a b = true ↔ rank a ≤ rank b)
    (hkey : ∀ a b, rank a = rank b → a.topicKey = b.topicKey) : Ranked le where
  total a b := by
    rw [hle,hle]
    exact le_total _ _
  trans a b c := by
    rw [hle,hle,hle]
    exact le_trans
  key a b := by
    rw [hle,hle]
    exact fun hab hba => hkey a b (le_antisymm hab hba)

omit [Zero T] in
lemma moreFrequent_ranked : Ranked (moreFrequent (T := T)) := by
  refine ranked_of_rank (fun t => toLex (OrderDual.toDual t.activeSourceCount,
    toLex (OrderDual.toDual t.lastSeenAt,t.topicKey))) (fun a b => ?_) (fun a b h => ?_)
  · simp [moreFrequent,Prod.Lex.toLex_le_toLex]
  · simpa using congrArg (fun rank => (ofLex (ofLex rank).2).2) h

omit [Zero T] in
lemma moreRecent_ranked : Ranked (moreRecent (T := T)) := by
  refine ranked_of_rank (fun t => toLex (OrderDual.toDual t.lastSeenAt,
    toLex (OrderDual.toDual t.activeSourceCount,t.topicKey))) (fun a b => ?_) (fun a b h => ?_)
  · simp [moreRecent,Prod.Lex.toLex_le_toLex]
  · simpa using congrArg (fun rank => (ofLex (ofLex rank).2).2) h

variable {db : Database T} {read : FillRead} {env : CatalogEnv T} {sorter : Sorter (JoinedRow T)}

omit [LinearOrder T] in
lemma topic_of_joined {row : JoinedRow T} (h : row ∈ db.joinedRows read) :
    row.topic ∈ db.scopeTopics read := by
  obtain ⟨t,ht,hrow⟩ := List.mem_flatMap.mp h
  simp only at hrow
  split at hrow
  · rw [List.mem_singleton.mp hrow]
    exact ht
  · obtain ⟨r,-,rfl⟩ := List.mem_map.mp hrow
    exact ht

omit [LinearOrder T] in
lemma joined_of_topic {t : ScopeTopic T} (h : t ∈ db.scopeTopics read) :
    ∃ row ∈ db.joinedRows read, row.topic = t := by
  cases hmappings : db.sources.filter fun r =>
      r.generation = t.generation && r.scope = t.scope && r.topicKey = t.topicKey with
  | nil =>
    refine ⟨{ topic := t, mapping := none, mappingSourceCount := 0, document := none },
      List.mem_flatMap.mpr ⟨t,h,?_⟩,rfl⟩
    simp only [hmappings]
    exact List.mem_singleton_self _
  | cons r rows =>
    refine ⟨{ topic := t
              mapping := some r
              mappingSourceCount := (r::rows).length
              document := db.document? r.memoryId },List.mem_flatMap.mpr ⟨t,h,?_⟩,rfl⟩
    simp only [hmappings]
    exact List.mem_cons_self

omit [LinearOrder T] in
lemma mem_keys_cut {le : ScopeTopic T → ScopeTopic T → Bool} (hle : Ranked le) {k : String} :
    k ∈ keys (fun row => row.topic.topicKey) (db.cut read sorter le) ↔
      ∃ t ∈ db.scopeTopics read, t.topicKey = k ∧ db.rowsBefore read le t < read.scanLimit := by
  let rowLe : JoinedRow T → JoinedRow T → Bool := fun a b => le a.topic b.topic
  have hperm := sorter.perm rowLe (db.joinedRows read)
  have hsorted := sorter.sorted rowLe (fun a b => hle.total a.topic b.topic)
    (fun a b c => hle.trans a.topic b.topic c.topic) (db.joinedRows read)
  have hcut : ∀ row ∈ db.joinedRows read,
      (∃ y ∈ db.cut read sorter le, rowLe y row = true ∧ rowLe row y = true) ↔
        db.rowsBefore read le row.topic < read.scanLimit := by
    intro row hrow
    have hself : rowLe row row = true := (hle.total row.topic row.topic).elim id id
    have htied := exists_tied_take (fun a b c => hle.trans a.topic b.topic c.topic) hsorted
      (t := row) ⟨row,hperm.symm.subset hrow,hself,hself⟩ read.scanLimit
    rw [hperm.countP_eq] at htied
    exact htied
  rw [mem_keys]
  constructor
  · rintro ⟨row,hrow,rfl⟩
    have hjoined : row ∈ db.joinedRows read := hperm.subset (List.mem_of_mem_take hrow)
    have hself : rowLe row row = true := (hle.total row.topic row.topic).elim id id
    exact ⟨row.topic,topic_of_joined hjoined,rfl, (hcut row hjoined).mp ⟨row,hrow,hself,hself⟩⟩
  · rintro ⟨t,ht,rfl,hbefore⟩
    obtain ⟨row,hrow,rfl⟩ := joined_of_topic ht
    obtain ⟨y,hy,hyrow,hrowy⟩ := (hcut row hrow).mpr hbefore
    exact ⟨y,hy,hle.key y.topic row.topic hyrow hrowy⟩

lemma keys_alternate : keys (fun row => row.topic.topicKey)
      (alternate (db.cut read sorter moreFrequent) (db.cut read sorter moreRecent)) =
      keys ScopeTopic.topicKey (db.reachedTopics read) := by
  ext k
  have hunion : k ∈ keys (fun row : JoinedRow T => row.topic.topicKey)
      (alternate (db.cut read sorter moreFrequent) (db.cut read sorter moreRecent)) ↔
      k ∈ keys (fun row => row.topic.topicKey) (db.cut read sorter moreFrequent) ∨
        k ∈ keys (fun row => row.topic.topicKey) (db.cut read sorter moreRecent) := by
    simp only [mem_keys,mem_alternate,or_and_right,exists_or]
  rw [hunion,mem_keys_cut moreFrequent_ranked,mem_keys_cut moreRecent_ranked,mem_keys]
  simp only [Database.reachedTopics,List.mem_filter,Bool.or_eq_true,decide_eq_true_eq]
  constructor
  · rintro (⟨t,ht,hk,hbefore⟩ | ⟨t,ht,hk,hbefore⟩)
    · exact ⟨t,⟨ht,.inl hbefore⟩,hk⟩
    · exact ⟨t,⟨ht,.inr hbefore⟩,hk⟩
  · rintro ⟨t,⟨ht,hbefore | hbefore⟩,hk⟩
    · exact .inl ⟨t,ht,hk,hbefore⟩
    · exact .inr ⟨t,ht,hk,hbefore⟩

lemma reached_subset : keys ScopeTopic.topicKey (db.reachedTopics read) ⊆ db.topicKeys read := by
  intro k hk
  obtain ⟨t,ht,rfl⟩ := mem_keys.mp hk
  exact mem_keys.mpr ⟨t,List.mem_of_mem_filter ht,rfl⟩

lemma validatedCandidate_topicKey (row : JoinedRow T) (c : TopicCandidate T)
    (h : Database.validatedCandidate env read row = some c) : c.topicKey = row.topic.topicKey := by
  unfold Database.validatedCandidate at h
  split at h
  · cases h
  split at h
  · cases h
  split at h
  · cases h
  · obtain ⟨revision,-,rfl⟩ := Option.map_eq_some_iff.mp h
    rfl

omit [LinearOrder T] [Zero T] in
lemma distinct_nil : Distinct (γ := TopicCandidate T) TopicCandidate.topicKey read.maxCount [] :=
  ⟨by simp,by simp⟩

lemma selected_of_sources (hvalid : read.valid = true) (h : db.SourcesHold read env sorter) :
    (((db.selectRecentFrequent read env sorter).map TopicCandidate.topicKey).Nodup) ∧
      (db.selectRecentFrequent read env sorter).length =
        min read.maxCount (keys ScopeTopic.topicKey (db.reachedTopics read)).card ∧
      ∀ c ∈ db.selectRecentFrequent read env sorter, c.topicKey ∈ db.topicKeys read := by
  obtain ⟨out,hread,hout,hcount,hkeys⟩ := read_readable validatedCandidate_topicKey distinct_nil h
  have hselect : db.selectRecentFrequent read env sorter = out := by
    unfold Database.selectRecentFrequent
    rw [if_pos hvalid,readTwo_eq,hread]
    rfl
  have hnone : keys TopicCandidate.topicKey ([] : List (TopicCandidate T)) = ∅ := rfl
  rw [hnone,Finset.empty_union,keys_alternate] at hcount hkeys
  rw [hselect]
  refine ⟨hout.nodup,hcount,fun c hc => reached_subset (hkeys ?_)⟩
  exact mem_keys.mpr ⟨c,hc,rfl⟩

lemma selected_of_not_sources (h : ¬db.SourcesHold read env sorter) :
    db.selectRecentFrequent read env sorter = [] := by
  unfold Database.selectRecentFrequent
  split
  · rw [readTwo_eq,read_unreadable validatedCandidate_topicKey distinct_nil h]
    rfl
  · rfl

lemma selected_of_empty (h : db.topicKeys read = ∅) :
    db.selectRecentFrequent read env sorter = [] := by
  have htopics : db.scopeTopics read = [] := by
    refine List.eq_nil_iff_forall_not_mem.mpr fun t ht => ?_
    have hmem : t.topicKey ∈ db.topicKeys read := mem_keys.mpr ⟨t,ht,rfl⟩
    rw [h] at hmem
    cases hmem
  have hcut : ∀ le, db.cut read sorter le = [] := by
    intro le
    have hperm := sorter.perm (fun a b => le a.topic b.topic) (db.joinedRows read)
    have hrows : db.joinedRows read = [] := by simp [Database.joinedRows,htopics]
    rw [hrows] at hperm
    simp [Database.cut,hrows,hperm.eq_nil]
  unfold Database.selectRecentFrequent
  split
  · rw [hcut,hcut]
    rfl
  · rfl

/-- Exactly where the selection is filled: the scope has no topic, or the arguments are valid, the
sources that are read hold, and enough topics have few rows before them in one of the orders. -/
theorem selectRecentFrequent_filled_iff (db : Database T) (env : CatalogEnv T)
    (sorter : Sorter (JoinedRow T)) (read : FillRead) (hmax : 1 ≤ read.maxCount) :
    db.Filled read (db.selectRecentFrequent read env sorter) ↔ db.topicKeys read = ∅ ∨
        (read.valid = true ∧ db.SourcesHold read env sorter ∧ min read.maxCount (db.topicKeys read).card ≤
            (keys ScopeTopic.topicKey (db.reachedTopics read)).card) := by
  have hreached : (keys ScopeTopic.topicKey (db.reachedTopics read)).card ≤
      (db.topicKeys read).card := Finset.card_le_card reached_subset
  constructor
  · intro hfilled
    by_cases hempty : db.topicKeys read = ∅
    · exact .inl hempty
    right
    have hpos : 0 < (db.topicKeys read).card := Finset.card_pos.mpr (Finset.nonempty_of_ne_empty hempty)
    have hcount := hfilled.count
    have hsome : db.selectRecentFrequent read env sorter ≠ [] := by
      intro hnil
      rw [hnil,List.length_nil] at hcount
      omega
    have hvalid : read.valid = true := by
      by_contra hinvalid
      exact hsome (by rw [Database.selectRecentFrequent,if_neg hinvalid])
    have hsources : db.SourcesHold read env sorter := by
      by_contra hfails
      exact hsome (selected_of_not_sources hfails)
    obtain ⟨-,hlength,-⟩ := selected_of_sources hvalid hsources
    exact ⟨hvalid,hsources,by omega⟩
  · rintro (hempty | ⟨hvalid,hsources,henough⟩)
    · rw [selected_of_empty hempty]
      exact ⟨by simp [hempty],by simp,by simp⟩
    · obtain ⟨hnodup,hlength,hscope⟩ := selected_of_sources hvalid hsources
      exact ⟨by omega,hnodup,hscope⟩

def crowdEnv : CatalogEnv ℕ := sampleEnv fun raw =>
  if raw = teaText then some teaMetadata
  else if raw = "milk" then some { teaMetadata with topics := some [.text "milk"] }
  else none

def crowdDocuments : List Document :=
  (List.range 6).map (fun i => { teaDocument with id := (i+1 : ℤ) }) ++
    [{ teaDocument with id := 7, metadata := some "milk" }]

/-- Six memories about tea and one about milk are backfilled and published. -/
def crowdSteps : List (CatalogStep ℕ) :=
  crowdDocuments.map (fun document => { call := .insert document, now := 1 }) ++
    [{ call := .begin 1 "owner" 90 (some 7), now := 2 }] ++
    crowdDocuments.map (fun document => { call := .replace document.id 1 (some "owner"), now := 3 }) ++
    [{ call := .advance 1 "owner" 7, now := 4 },
     { call := .reconcile "owner" 7 [1,2,3,4,5,6,7], now := 5 },
     { call := .publish 1 "owner" 7 7 "7" (some 7) (some 7), now := 6 }]

def crowded : Database ℕ := ({} : Database ℕ).run crowdEnv crowdSteps

def crowdRead (overfetchFactor : ℕ) : FillRead where
  scope := { scopeKey := "chat-1", chatType := .privateChat, privacyLevel := .publicLevel }
  generation := 1
  maxCount := 2
  overfetchFactor

/-- Two topics are there and two are asked for; with the default factor the rows of the first fill
both queries. -/
theorem crowded_out : (crowded.topicKeys (crowdRead 3)).card = 2 ∧ ¬crowded.Filled (crowdRead 3)
        (crowded.selectRecentFrequent (crowdRead 3) crowdEnv Sorter.insertion) := by
  have hkeys : (crowded.topicKeys (crowdRead 3)).card = 2 := by decide +kernel
  have hone : (crowded.selectRecentFrequent (crowdRead 3) crowdEnv Sorter.insertion).length = 1 := by
    decide +kernel
  refine ⟨hkeys,fun hfilled => ?_⟩
  have hcount := hfilled.count
  rw [hkeys,hone] at hcount
  simp [crowdRead] at hcount

theorem selectRecentFrequent_filled_sample : crowded.topicKeys (crowdRead 4) = ∅ ∨
      ((crowdRead 4).valid = true ∧ crowded.SourcesHold (crowdRead 4) crowdEnv Sorter.insertion ∧
        min (crowdRead 4).maxCount (crowded.topicKeys (crowdRead 4)).card ≤
          (keys ScopeTopic.topicKey (crowded.reachedTopics (crowdRead 4))).card) :=
  (selectRecentFrequent_filled_iff crowded crowdEnv Sorter.insertion (crowdRead 4)
    (by decide)).mp ⟨by decide +kernel,by decide +kernel,by decide +kernel⟩

end Memora.Catalog

import Memora.GraphReplacement
import Memora.RunLaws

/-! A run starts from empty tables. Its semantic edges stay the aggregates of their evidence as long
as no write of edges leaves behind a value that it has itself written over. -/
namespace Memora.Graph

open RowTable ExceptLaws GraphTables RunLaws

variable {g g' : GraphTables} {boundary : GraphBoundary}

structure GraphTables.Consistent (g : GraphTables) : Prop where
  supported : ∀ m ∈ g.semanticEdges, ∃ e ∈ g.edges, e.semanticEdgeId = m.id
  aggregates : ∀ m ∈ g.semanticEdges, Aggregates g.evidence m
  sameScope : ∀ e ∈ g.edges, ∃ m ∈ g.semanticEdges, m.id = e.semanticEdgeId ∧
    m.scopeKey = e.boundary.scopeKey ∧ m.privacyLevel = e.boundary.privacyLevel
  fullText : g.entriesFts.Perm (g.entries.map EntryRow.fullText)
  fullTextIds : (g.entriesFts.map Prod.fst).Nodup
  links : g.entryNodes.Nodup ∧ ∀ l ∈ g.entryNodes,
    (∃ x ∈ g.entries, x.id = l.1) ∧ ∃ n ∈ g.nodes, n.id = l.2

lemma consistent_of_sound (hs : g.Sound) (h : ∀ m ∈ g.semanticEdges, Aggregates g.evidence m) :
    g.Consistent where
  supported := fun m hm => by
    obtain ⟨⟨e,he,-⟩,-⟩ := (h m hm).weight
    exact ⟨e,he.1,he.2⟩
  aggregates := h
  sameScope := hs.supported
  fullText := hs.fullText
  fullTextIds := by
    have hids : (g.entries.map EntryRow.fullText).map Prod.fst = g.entries.map EntryRow.id := by
      rw [List.map_map]
      rfl
    rw [(hs.fullText.map Prod.fst).nodup_iff,hids]
    exact hs.entries.nodup
  links := ⟨hs.linksNodup,fun l hl => by
    obtain ⟨x,hx,hid,n,hn,hi,-⟩ := hs.links l hl
    exact ⟨⟨x,hx,hid⟩,n,hn,hi⟩⟩

def Operation.Covered (g : GraphTables) : Operation → Prop
  | .addEdge edge nodeKeyToId boundary =>
    Settled g (evidenceKey nodeKeyToId boundary) [edge] boundary []
  | .addEdges edges nodeKeyToId boundary =>
    Settled g (evidenceKey nodeKeyToId boundary) (edges.filter (resolves nodeKeyToId)) boundary []
  | .replaceMemoryGraph sourceMemoryId nodes edges _ boundary =>
    ReplacementSettled g sourceMemoryId nodes edges boundary
  | _ => True

instance (g : GraphTables) (op : Operation) : Decidable (op.Covered g) := by
  cases op <;> dsimp only [Operation.Covered] <;> infer_instance

lemma addEdge_written {edge : GraphEdge} {nodeKeyToId : Dict String ℕ} (hs : g.Sound)
    (h : (Operation.addEdge edge nodeKeyToId boundary).run g = .ok g') :
    EdgesWritten g (evidenceKey nodeKeyToId boundary) [edge] boundary g' := by
  rw [Operation.run] at h
  split at h
  · rename_i sourceNodeId targetNodeId hsource htarget
    obtain ⟨⟨g₁,id⟩,hadd,h⟩ := bind_ok h
    cases h
    obtain ⟨row,m,hadded⟩ := addEdge_ok hs hadd
    have hkey : evidenceKey nodeKeyToId boundary edge =
        ⟨edge.sourceMemoryId,sourceNodeId,targetNodeId,edge.relationType,boundary⟩ := by
      simp [evidenceKey,hsource,htarget]
    exact .cons rfl (hkey ▸ hadded) (.nil hadded.sound _)
  · cases h
  · cases h

variable {op : Operation} {other : GraphBoundary}

lemma run_sound (hs : g.Sound) (h : op.run g = .ok g') : g'.Sound := by
  cases op with
  | upsertNodes nodes boundary =>
    obtain ⟨⟨g₁,ids⟩,hnodes,h⟩ := bind_ok h
    cases h
    exact (upsertNodes_ok hs hnodes).2.1
  | addEdge edge nodeKeyToId boundary => exact (addEdge_written hs h).sound
  | addEdges edges nodeKeyToId boundary =>
    obtain ⟨⟨g₁,ids⟩,hedges,h⟩ := bind_ok h
    cases h
    exact (addEdges_written hs hedges).sound
  | addEntry entry nodeKeyToId edgeId boundary =>
    obtain ⟨⟨g₁,id⟩,hentry,h⟩ := bind_ok h
    cases h
    exact (addEntry_ok hs hentry).1
  | addEntries entries nodeKeyToId edgeKeyToId boundary =>
    obtain ⟨⟨g₁,ids⟩,hentries,h⟩ := bind_ok h
    cases h
    exact (addEntries_ok hs hentries).1
  | updateEntryVectorDocIds entryVectorDocIds boundary =>
    cases h
    exact updateEntryVectorDocIds_ok hs entryVectorDocIds
  | replaceMemoryGraph sourceMemoryId nodes edges entries boundary =>
    obtain ⟨⟨g₁,ids⟩,hreplace,h⟩ := bind_ok h
    cases h
    obtain ⟨_,_,_,g₄,_,-,-,-,-,-,-,-,hs₄,-,rfl⟩ := replaceMemoryGraph_ok hs hreplace
    exact deleteOrphanNodes_sound (refreshSemanticEdges_refreshed hs₄ _).sound _
  | deleteMemory sourceMemoryId boundary =>
    cases h
    exact deleteMemories_sound hs _ _
  | batchDeleteMemories sourceMemoryIds boundary =>
    cases h
    rw [GraphTables.batchDeleteMemories]
    split
    · exact hs
    · exact deleteMemories_sound hs _ _
  | reapSourceGraphs sourceMemoryIds =>
    cases h
    rw [GraphTables.reapSourceGraphs]
    split
    · exact hs
    · exact deleteMemories_sound hs _ _

lemma run_aggregates (hs : g.Sound) (hbefore : ∀ m ∈ g.semanticEdges, Aggregates g.evidence m)
    (hcovered : op.Covered g) (h : op.run g = .ok g') :
    ∀ m ∈ g'.semanticEdges, Aggregates g'.evidence m := by
  cases op with
  | upsertNodes nodes boundary =>
    obtain ⟨⟨g₁,ids⟩,hnodes,h⟩ := bind_ok h
    cases h
    obtain ⟨⟨_,_,rfl⟩,-⟩ := upsertNodes_ok hs hnodes
    exact hbefore
  | addEdge edge nodeKeyToId boundary =>
    have hall := (addEdge_written hs h).aggregates (fun _ => False) hs (by simp)
      (fun m hm _ => hbefore m hm) hcovered
    exact fun m hm => hall m hm id
  | addEdges edges nodeKeyToId boundary =>
    obtain ⟨⟨g₁,ids⟩,hedges,h⟩ := bind_ok h
    cases h
    have hall := (addEdges_written hs hedges).aggregates (fun _ => False) hs (by simp)
      (fun m hm _ => hbefore m hm) hcovered
    exact fun m hm => hall m hm id
  | addEntry entry nodeKeyToId edgeId boundary =>
    obtain ⟨⟨g₁,id⟩,hentry,h⟩ := bind_ok h
    cases h
    have honly := addEntry_only hs hentry
    rw [honly.semanticEdges,GraphTables.evidence,honly.edges]
    exact hbefore
  | addEntries entries nodeKeyToId edgeKeyToId boundary =>
    obtain ⟨⟨g₁,ids⟩,hentries,h⟩ := bind_ok h
    cases h
    obtain ⟨-,honly⟩ := addEntries_ok hs hentries
    rw [honly.semanticEdges,GraphTables.evidence,honly.edges]
    exact hbefore
  | updateEntryVectorDocIds entryVectorDocIds boundary =>
    cases h
    exact hbefore
  | replaceMemoryGraph sourceMemoryId nodes edges entries boundary =>
    obtain ⟨⟨g₁,ids⟩,hreplace,h⟩ := bind_ok h
    cases h
    exact replaceMemoryGraph_aggregates hs hbefore hcovered hreplace
  | deleteMemory sourceMemoryId boundary =>
    cases h
    exact deleteMemories_aggregates hs hbefore _ _
  | batchDeleteMemories sourceMemoryIds boundary =>
    cases h
    rw [GraphTables.batchDeleteMemories]
    split
    · exact hbefore
    · exact deleteMemories_aggregates hs hbefore _ _
  | reapSourceGraphs sourceMemoryIds =>
    cases h
    rw [GraphTables.reapSourceGraphs]
    split
    · exact hbefore
    · exact deleteMemories_aggregates hs hbefore _ _

def Operation.reaps (boundary : GraphBoundary) : Operation → Bool
  | .replaceMemoryGraph .. => true
  | .deleteMemory _ other => boundary = other
  | .batchDeleteMemories ids other => ids ≠ [] && boundary = other
  | .reapSourceGraphs ids => ids ≠ []
  | _ => false

/-- The operation writes nodes or entries of the boundary on their own, which may leave a node
without edge or entry for the time being. -/
def Operation.loosens (boundary : GraphBoundary) : Operation → Bool
  | .upsertNodes _ other => boundary = other
  | .addEntry _ _ _ other => boundary = other
  | .addEntries _ _ _ other => boundary = other
  | _ => false

lemma run_tidy_of_reaps (h : op.run g = .ok g') (hreaps : op.reaps boundary = true) :
    g'.Tidy boundary := by
  cases op with
  | replaceMemoryGraph sourceMemoryId nodes edges entries other =>
    obtain ⟨⟨g₁,ids⟩,hreplace,h⟩ := bind_ok h
    cases h
    obtain ⟨_,-,hreplace⟩ := bind_ok hreplace
    obtain ⟨_,-,hreplace⟩ := bind_ok hreplace
    obtain ⟨_,-,hreplace⟩ := bind_ok hreplace
    obtain ⟨_,-,hreplace⟩ := bind_ok hreplace
    cases hreplace
    exact deleteOrphanNodes_tidy rfl
  | deleteMemory sourceMemoryId other =>
    cases h
    exact deleteOrphanNodes_tidy hreaps
  | batchDeleteMemories ids other =>
    cases h
    obtain ⟨hids,hother⟩ := Bool.and_eq_true_iff.mp hreaps
    rw [GraphTables.batchDeleteMemories,if_neg (of_decide_eq_true hids)]
    exact deleteOrphanNodes_tidy hother
  | reapSourceGraphs ids =>
    cases h
    rw [GraphTables.reapSourceGraphs,if_neg (of_decide_eq_true hreaps)]
    exact deleteOrphanNodes_tidy rfl
  | _ => cases hreaps

lemma EdgesWritten.tidy {key : GraphEdge → EvidenceKey} {writes : List GraphEdge}
    (h : EdgesWritten g key writes other g') (htidy : g.Tidy boundary) :
    g'.Tidy boundary := by
  intro n hn hb
  have hnodes : g'.nodes = g.nodes ∧ g'.entryNodes = g.entryNodes := by
    obtain ⟨_,_,_,_,rfl⟩ := h.rest
    exact ⟨rfl,rfl⟩
  rw [hnodes.1] at hn
  rcases nodeInUse_iff.mp (htidy n hn hb) with ⟨e,he,hend⟩ | hlink
  · obtain ⟨e',he',hkey⟩ := h.ends e he
    have hsource : e'.sourceNodeId = e.sourceNodeId := congrArg EvidenceKey.sourceNodeId hkey
    have htarget : e'.targetNodeId = e.targetNodeId := congrArg EvidenceKey.targetNodeId hkey
    exact nodeInUse_iff.mpr (.inl ⟨e',he',by rw [hsource,htarget]; exact hend⟩)
  · rw [← hnodes.2] at hlink
    exact nodeInUse_iff.mpr (.inr hlink)

lemma EntriesOnly.tidy (h : EntriesOnly g other g') (hs : g.Sound)
    (hne : boundary ≠ other) (htidy : g.Tidy boundary) : g'.Tidy boundary := by
  intro n hn hb
  rw [h.nodes] at hn
  rcases nodeInUse_iff.mp (htidy n hn hb) with hedge | ⟨l,hl,hid⟩
  · rw [← h.edges] at hedge
    exact nodeInUse_iff.mpr (.inl hedge)
  · refine nodeInUse_iff.mpr (.inr ⟨l,h.links l hl ?_,hid⟩)
    intro n' hn' hid'
    obtain rfl := eq_of_key_eq hs.nodes.nodup hn' hn (hid'.trans hid)
    rw [hb]
    exact hne

lemma run_tidy (hs : g.Sound) (h : op.run g = .ok g') (hloosens : op.loosens boundary = false)
    (htidy : g.Tidy boundary) : g'.Tidy boundary := by
  cases hreaps : op.reaps boundary with
  | true => exact run_tidy_of_reaps h hreaps
  | false =>
    cases op with
    | upsertNodes nodes other =>
      obtain ⟨⟨g₁,ids⟩,hnodes,h⟩ := bind_ok h
      cases h
      obtain ⟨⟨_,_,rfl⟩,-,-,-,hnew⟩ := upsertNodes_ok hs hnodes
      intro n hn hb
      exact htidy n ((hnew n hn).resolve_right (hb ▸ of_decide_eq_false hloosens)) hb
    | addEdge edge nodeKeyToId other => exact (addEdge_written hs h).tidy htidy
    | addEdges edges nodeKeyToId other =>
      obtain ⟨⟨g₁,ids⟩,hedges,h⟩ := bind_ok h
      cases h
      exact (addEdges_written hs hedges).tidy htidy
    | addEntry entry nodeKeyToId edgeId other =>
      obtain ⟨⟨g₁,id⟩,hentry,h⟩ := bind_ok h
      cases h
      exact (addEntry_only hs hentry).tidy hs (of_decide_eq_false hloosens) htidy
    | addEntries entries nodeKeyToId edgeKeyToId other =>
      obtain ⟨⟨g₁,ids⟩,hentries,h⟩ := bind_ok h
      cases h
      exact (addEntries_ok hs hentries).2.tidy hs (of_decide_eq_false hloosens) htidy
    | updateEntryVectorDocIds entryVectorDocIds other =>
      cases h
      exact htidy
    | replaceMemoryGraph => cases hreaps
    | deleteMemory sourceMemoryId other =>
      cases h
      exact deleteMemories_tidy_other hs _ (of_decide_eq_false hreaps) htidy
    | batchDeleteMemories ids other =>
      cases h
      rw [GraphTables.batchDeleteMemories]
      split
      · exact htidy
      · rename_i hids
        have hother : boundary ≠ other := by simpa [Operation.reaps,hids] using hreaps
        exact deleteMemories_tidy_other hs _ hother htidy
    | reapSourceGraphs ids =>
      cases h
      rw [GraphTables.reapSourceGraphs]
      split
      · exact htidy
      · rename_i hids
        exact absurd hreaps (by simp [Operation.reaps,hids])

variable (calls : List Operation)

def runOf : GraphTables := calls.foldl Operation.step {}

/-- Whether nodes or entries of the boundary were written on their own since it was last reaped. -/
def looseStep (boundary : GraphBoundary) (s : GraphTables × Bool) (op : Operation) :
    GraphTables × Bool :=
  match op.run s.1 with
  | .ok g => (g,!op.reaps boundary && (s.2 || op.loosens boundary))
  | .error _ => s

def loose (boundary : GraphBoundary) (calls : List Operation) : Bool :=
  (calls.foldl (looseStep boundary) ({},false)).2

variable (s : GraphTables × Bool)

lemma looseStep_fst (op : Operation) : (looseStep boundary s op).1 = op.step s.1 := by
  unfold looseStep Operation.step
  split <;> simp_all

lemma foldl_looseStep_fst (boundary : GraphBoundary) (calls : List Operation)
    (s : GraphTables × Bool) :
    (calls.foldl (looseStep boundary) s).1 = calls.foldl Operation.step s.1 := by
  induction calls generalizing s with
  | nil => rfl
  | cons op calls ih => rw [List.foldl_cons,List.foldl_cons,ih,looseStep_fst]

lemma tidy_of_not_loose {calls : List Operation} (h : loose boundary calls = false) :
    (runOf calls).Tidy boundary := by
  have hrun : (calls.foldl (looseStep boundary) ({},false)).1.Sound ∧ (loose boundary calls = false →
        (calls.foldl (looseStep boundary) ({},false)).1.Tidy boundary) :=
    foldl_invariant
    (P := fun s : GraphTables × Bool => s.1.Sound ∧ (s.2 = false → s.1.Tidy boundary))
    (fun s op hs => by
      cases hop : op.run s.1 with
      | error e =>
        rw [looseStep,hop]
        exact hs
      | ok g =>
        rw [looseStep,hop]
        refine ⟨run_sound hs.1 hop,?_⟩
        intro hloose
        cases hreaps : op.reaps boundary with
        | true => exact run_tidy_of_reaps hop hreaps
        | false =>
          have hboth : (s.2 || op.loosens boundary) = false := by simpa [hreaps] using hloose
          obtain ⟨hbefore,hloosens⟩ := Bool.or_eq_false_iff.mp hboth
          exact run_tidy hs.1 hop hloosens (hs.2 hbefore))
    ⟨sound_empty,fun _ n hn => absurd hn (by simp)⟩ calls
  have htables := foldl_looseStep_fst boundary calls ({},false)
  rw [runOf,← htables]
  exact hrun.2 h

def WellKept : Prop :=
  (runOf calls).Consistent ∧ ∀ boundary, loose boundary calls = false → (runOf calls).Tidy boundary

theorem graph_wellKept (calls : List Operation)
    (h : Along Operation.step Operation.Covered {} calls) : WellKept calls := by
  have hrun : (runOf calls).Sound ∧
      ∀ m ∈ (runOf calls).semanticEdges, Aggregates (runOf calls).evidence m :=
    along_invariant (P := fun g => g.Sound ∧ ∀ m ∈ g.semanticEdges, Aggregates g.evidence m)
      (fun g op hcovered hs => by
        cases hop : op.run g with
        | error e =>
          rw [Operation.step,hop]
          exact hs
        | ok g' =>
          rw [Operation.step,hop]
          exact ⟨run_sound hs.1 hop,run_aggregates hs.1 hs.2 hcovered hop⟩)
      ⟨sound_empty,by simp⟩ h
  exact ⟨consistent_of_sound hrun.1 hrun.2,fun boundary hloose => tidy_of_not_loose hloose⟩

def sampleBoundary : GraphBoundary where
  scopeKey := "private:1"
  privacyLevel := "confidential"
  revisionToken := "r1"
  filled := by decide +kernel
  known := by decide

def sampleNodes : List GraphNode :=
  [{ nodeType := "topic", value := "tea", canonicalValue := "tea" },
    { nodeType := "fact", value := "likes tea", canonicalValue := "likes tea" }]

variable (sourceMemoryId : ℕ)

def sampleEdge (weight : ℚ) : GraphEdge where
  sourceKey := "topic:tea"
  targetKey := "fact:likes tea"
  relationType := "describes"
  sourceMemoryId
  weight

def sampleEntry : GraphEntry where
  entryKey := "describes"
  sourceMemoryId
  sessionId := none
  personaId := none
  entryType := "fact"
  content := "likes tea"
  nodeKeys := ["topic:tea","fact:likes tea"]
  relationType := some "describes"

def sampleReplacement (edges : List GraphEdge) : Operation :=
  .replaceMemoryGraph sourceMemoryId sampleNodes edges [sampleEntry sourceMemoryId] sampleBoundary

/-- Two memories share a semantic edge, one of them lowers its own evidence and the other goes. -/
def sharedRun : List Operation :=
  [sampleReplacement 1 [sampleEdge 1 1],sampleReplacement 2 [sampleEdge 2 (1 / 2)],
    sampleReplacement 1 [sampleEdge 1 (1 / 4)],.deleteMemory 2 sampleBoundary]

theorem graph_wellKept_sample : WellKept sharedRun :=
  graph_wellKept sharedRun (by decide +kernel)

/-- Two edges between the same ends in one replacement: the second is the evidence that is left,
and the semantic edge keeps the weight of the first. -/
theorem repeated_edge_not_wellKept : ¬WellKept
    [sampleReplacement 1 [sampleEdge 1 1,sampleEdge 1 (1 / 2)]] := by
  intro h
  have hstale : ∃ m ∈ (runOf [sampleReplacement 1 [sampleEdge 1 1,sampleEdge 1 (1 / 2)]]).semanticEdges,
      ∀ e ∈ (runOf [sampleReplacement 1 [sampleEdge 1 1,sampleEdge 1 (1 / 2)]]).edges, e.weight ≠ m.weight := by
    decide +kernel
  obtain ⟨m,hm,hother⟩ := hstale
  obtain ⟨e,he,hweight⟩ := (h.1.aggregates m hm).weight.1
  exact hother e he.1 hweight

end Memora.Graph

import Memora.GraphSound

/-! The rows of other sources stay; a semantic edge that lost evidence has the aggregate of what is
left, or is gone with the last of it; a node of the boundary without edge or entry is gone. -/
namespace Memora.Graph

open RowTable GraphTables

variable {g : GraphTables} {ids : List ℕ} {scope : Option GraphBoundary} {m : SemanticEdgeRow}
    {e : EdgeRow}
  {i : ℕ}

def own (ids : List ℕ) (scope : Option GraphBoundary) (sourceMemoryId : ℕ)
    (boundary : GraphBoundary) : Bool :=
  sourceMemoryId ∈ ids && inScope scope boundary

theorem notMem_ids {α : Type*} {id : α → ℕ} {rows : List α} (h : (rows.map id).Nodup)
    (p : α → Bool) {r : α} (hr : r ∈ rows) : id r ∉ (rows.filter p).map id ↔ p r = false := by
  rw [List.mem_map,← Bool.not_eq_true]
  apply not_congr
  constructor
  · rintro ⟨x,hx,hid⟩
    have hmem := List.mem_filter.mp hx
    rw [← eq_of_key_eq h hmem.1 hr hid]
    exact hmem.2
  · intro hp
    exact ⟨r,List.mem_filter.mpr ⟨hr,hp⟩,rfl⟩

lemma notMem_ownEntries (hs : g.Sound) {x : EntryRow} (hx : x ∈ g.entries) :
    x.id ∉ (g.ownEntries ids scope).map EntryRow.id ↔
    own ids scope x.sourceMemoryId x.boundary = false :=
  notMem_ids hs.entries.nodup _ hx

lemma notMem_ownEdges (hs : g.Sound) (he : e ∈ g.edges) :
    e.id ∉ (g.ownEdges ids scope).map EdgeRow.id ↔
    own ids scope e.sourceMemoryId e.boundary = false :=
  notMem_ids hs.edges.nodup _ he

structure RowsDeleted (g : GraphTables) (ids : List ℕ) (scope : Option GraphBoundary)
    (g' : GraphTables) : Prop where
  sound : g'.Sound
  edges : ∀ e, e ∈ g'.edges ↔ e ∈ g.edges ∧ own ids scope e.sourceMemoryId e.boundary = false
  links : ∀ l ∈ g.entryNodes, (∀ x ∈ g.entries, x.id = l.1 →
    own ids scope x.sourceMemoryId x.boundary = false) → l ∈ g'.entryNodes
  nodes : g'.nodes = g.nodes
  semanticEdges : g'.semanticEdges = g.semanticEdges
  lastSemanticEdge : g'.lastSemanticEdge = g.lastSemanticEdge

lemma GraphTables.deleteEntriesById_sound (hs : g.Sound) (entryIds : List ℕ) :
    (g.deleteEntriesById entryIds).Sound := by
  refine hs.withEntries (hs.entries.sublist List.filter_sublist) ⟨?_,?_,?_,?_⟩
  · intro x hx
    exact hs.entryEdges x (List.mem_of_mem_filter hx)
  · exact hs.linksNodup.sublist List.filter_sublist
  · intro l hl
    simp only [List.mem_filter,decide_eq_true_eq] at hl
    obtain ⟨x,hx,hid,hn⟩ := hs.links l hl.1
    exact ⟨x,by simpa [hx,hid] using hl.2,hid,hn⟩
  · have hkept := hs.fullText.filter fun r => decide (r.1 ∉ entryIds)
    rw [List.filter_map] at hkept
    exact hkept

theorem deleteMemoriesRows_eq (hs : g.Sound) : g.deleteMemoriesRows ids scope =
      { g.deleteEntriesById ((g.ownEntries ids scope).map EntryRow.id) with
        edges := g.edges.filter fun e => !own ids scope e.sourceMemoryId e.boundary } := by
  let g₁ := g.deleteEntriesById ((g.ownEntries ids scope).map EntryRow.id)
  let edgeIds := (g.ownEdges ids scope).map EdgeRow.id
  have hentries : (g₁.entries.filter fun row => row.edgeId.all (· ∉ edgeIds)) = g₁.entries := by
    rw [List.filter_eq_self]
    intro x hx
    obtain ⟨hx,hkept⟩ := List.mem_filter.mp hx
    have hother := (notMem_ownEntries hs hx).mp (of_decide_eq_true hkept)
    cases hedge : x.edgeId with
    | none => rfl
    | some i =>
      obtain ⟨e,he,rfl,hsource,hboundary⟩ := hs.entryEdges x hx i hedge
      have hkeep : e.id ∉ edgeIds := (notMem_ownEdges hs he).mpr (by rw [hsource,hboundary]; exact hother)
      simpa using hkeep
  have hedges : (g.edges.filter fun row => row.id ∉ edgeIds) =
      g.edges.filter fun e => !own ids scope e.sourceMemoryId e.boundary := by
    apply List.filter_congr
    intro e he
    rw [Bool.eq_iff_iff,decide_eq_true_eq,Bool.not_eq_true']
    exact notMem_ownEdges hs he
  have hlinks : (g₁.entryNodes.filter fun row =>
      g₁.entries.all fun entry => entry.id = row.1 → entry ∈ g₁.entries) = g₁.entryNodes := by
    rw [List.filter_eq_self]
    intro l _
    simp only [List.all_eq_true,decide_eq_true_eq]
    exact fun x hx _ => hx
  change { g₁ with
    edges := g.edges.filter fun row => row.id ∉ edgeIds
    entries := g₁.entries.filter fun row => row.edgeId.all (· ∉ edgeIds)
    entryNodes := g₁.entryNodes.filter fun row => g₁.entries.all fun entry =>
      entry.id = row.1 → entry ∈ g₁.entries.filter fun row : EntryRow =>
        row.edgeId.all (· ∉ edgeIds) } = _
  rw [hentries,hedges,hlinks]

lemma deleteMemoriesRows_deleted (hs : g.Sound) (ids : List ℕ) (scope : Option GraphBoundary) :
    RowsDeleted g ids scope (g.deleteMemoriesRows ids scope) := by
  rw [deleteMemoriesRows_eq hs]
  have hs₁ := deleteEntriesById_sound hs ((g.ownEntries ids scope).map EntryRow.id)
  refine ⟨?_,?_,?_,rfl,rfl,rfl⟩
  · exact { hs₁ with
      edges := hs.edges.sublist List.filter_sublist
      edgeKeys := hs.edgeKeys.sublist (List.filter_sublist.map _)
      ends := fun e he => hs.ends e (List.mem_of_mem_filter he)
      supported := fun e he => hs.supported e (List.mem_of_mem_filter he)
      entryEdges := fun x hx i hi => by
        obtain ⟨hx,hkept⟩ := List.mem_filter.mp hx
        have hother := (notMem_ownEntries hs hx).mp (of_decide_eq_true hkept)
        obtain ⟨e,he,hid,hsource,hboundary⟩ := hs.entryEdges x hx i hi
        refine ⟨e,List.mem_filter.mpr ⟨he,?_⟩,hid,hsource,hboundary⟩
        rw [hsource,hboundary,Bool.not_eq_true']
        exact hother }
  · intro e
    rw [List.mem_filter,Bool.not_eq_true']
  · intro l hl hother
    refine List.mem_filter.mpr ⟨hl,?_⟩
    obtain ⟨x,hx,hid,-⟩ := hs.links l hl
    rw [decide_eq_true_eq,← hid]
    exact (notMem_ownEntries hs hx).mpr (hother x hx hid)

def evidenceFor (rows : Set EdgeRow) (semanticEdgeId : ℕ) : Set EdgeRow :=
  {e | e ∈ rows ∧ e.semanticEdgeId = semanticEdgeId}

structure Aggregates (rows : Set EdgeRow) (m : SemanticEdgeRow) : Prop where
  weight : IsGreatest (EdgeRow.weight '' evidenceFor rows m.id) m.weight
  confidence : IsGreatest (EdgeRow.confidence '' evidenceFor rows m.id) m.confidence
  status : m.status = "active" ↔ ∃ e ∈ evidenceFor rows m.id, e.status = "active"

lemma Aggregates.congr {rows rows' : Set EdgeRow} (h : Aggregates rows m)
    (hrows : evidenceFor rows' m.id = evidenceFor rows m.id) : Aggregates rows' m where
  weight := by
    rw [hrows]
    exact h.weight
  confidence := by
    rw [hrows]
    exact h.confidence
  status := by
    rw [hrows]
    exact h.status

def GraphTables.evidence (g : GraphTables) : Set EdgeRow := {e | e ∈ g.edges}

lemma mem_evidenceOf : e ∈ g.evidenceOf i ↔ e ∈ evidenceFor g.evidence i := by
  simp [evidenceOf,evidenceFor,GraphTables.evidence]

lemma isGreatest_column (h : g.evidenceOf m.id ≠ [])
    (column : EdgeRow → ℚ) (d : ℚ) : IsGreatest (column '' evidenceFor g.evidence m.id)
      (((g.evidenceOf m.id).map column).max?.getD d) := by
  have hvalues : column '' evidenceFor g.evidence m.id =
      {v | v ∈ (g.evidenceOf m.id).map column} := by
    ext v
    simp [mem_evidenceOf]
  cases hmax : ((g.evidenceOf m.id).map column).max? with
  | none => exact absurd (List.map_eq_nil_iff.mp (List.max?_eq_none_iff.mp hmax)) h
  | some a =>
    obtain ⟨hmem,hle⟩ := List.max?_eq_some_iff.mp hmax
    rw [hvalues]
    exact ⟨hmem,hle⟩

lemma aggregates_aggregated (h : g.evidenceOf m.id ≠ []) :
    Aggregates g.evidence (g.aggregated m) where
  weight := isGreatest_column h EdgeRow.weight m.weight
  confidence := isGreatest_column h EdgeRow.confidence m.confidence
  status := by
    have hactive : ((g.evidenceOf m.id).any fun e => e.status = "active") = true ↔
        ∃ e ∈ evidenceFor g.evidence m.id, e.status = "active" := by
      simp [mem_evidenceOf]
    refine Iff.trans ?_ hactive
    dsimp only [GraphTables.aggregated]
    split
    · rename_i hany
      simpa using hany
    · rename_i hnone
      simpa using hnone

structure Refreshed (g : GraphTables) (semanticEdgeIds : List ℕ) (g' : GraphTables) : Prop where
  sound : g'.Sound
  edges : g'.edges = g.edges
  entryNodes : g'.entryNodes = g.entryNodes
  nodes : g'.nodes = g.nodes
  kept : ∀ m ∈ g'.semanticEdges, m ∈ g.semanticEdges ∧ m.id ∉ semanticEdgeIds ∨
    Aggregates g'.evidence m

lemma refreshSemanticEdges_refreshed (hs : g.Sound) (semanticEdgeIds : List ℕ) :
    Refreshed g semanticEdgeIds (g.refreshSemanticEdges semanticEdgeIds) := by
  let left := g.semanticEdges.filter fun row =>
    row.id ∉ semanticEdgeIds || g.evidenceOf row.id ≠ []
  have hleft : Numbered SemanticEdgeRow.id g.lastSemanticEdge left :=
    hs.semanticEdges.sublist List.filter_sublist
  refine ⟨?_,rfl,rfl,rfl,?_⟩
  · exact { hs with
      semanticEdges := hleft.modify fun _ => rfl
      semanticKeys := by
        have hkeys : (modify (fun row => row.id ∈ semanticEdgeIds) g.aggregated left).map
            SemanticEdgeRow.key = left.map SemanticEdgeRow.key :=
          map_modify _ _ _ _ fun _ _ _ => rfl
        exact hkeys ▸ hs.semanticKeys.sublist (List.filter_sublist.map _)
      supported := fun e he => by
        obtain ⟨m,hm,hid,hscope⟩ := hs.supported e he
        have hevidence : e ∈ g.evidenceOf m.id := mem_evidenceOf.mpr ⟨he,hid.symm⟩
        have hmLeft : m ∈ left := by
          simp [left,hm,List.ne_nil_of_mem hevidence]
        by_cases hrefreshed : m.id ∈ semanticEdgeIds
        · exact ⟨g.aggregated m,mem_modify.mpr ⟨m,hmLeft,by simp [hrefreshed]⟩,hid,hscope⟩
        · exact ⟨m,mem_modify.mpr ⟨m,hmLeft,by simp [hrefreshed]⟩,hid,hscope⟩ }
  · intro m' hm'
    obtain ⟨m,hm,rfl⟩ := mem_modify.mp hm'
    have hm : m ∈ g.semanticEdges ∧ (m.id ∉ semanticEdgeIds ∨ g.evidenceOf m.id ≠ []) := by
      simpa [left] using hm
    by_cases hrefreshed : m.id ∈ semanticEdgeIds
    · right
      rw [if_pos (by simpa using hrefreshed)]
      exact aggregates_aggregated (hm.2.resolve_left (not_not_intro hrefreshed))
    · left
      rw [if_neg (by simpa using hrefreshed)]
      exact ⟨hm.1,hrefreshed⟩

def GraphTables.Tidy (g : GraphTables) (boundary : GraphBoundary) : Prop :=
  ∀ n ∈ g.nodes, n.boundary = boundary → g.nodeInUse n.id = true

lemma nodeInUse_of_edge (he : e ∈ g.edges)
    (hi : i = e.sourceNodeId ∨ i = e.targetNodeId) : g.nodeInUse i = true := by
  rw [GraphTables.nodeInUse,Bool.or_eq_true,List.any_eq_true]
  left
  refine ⟨e,he,?_⟩
  rcases hi with rfl | rfl <;> simp

lemma nodeInUse_of_link {l : ℕ × ℕ} (hl : l ∈ g.entryNodes) : g.nodeInUse l.2 = true := by
  rw [GraphTables.nodeInUse,Bool.or_eq_true,List.any_eq_true,List.any_eq_true]
  exact .inr ⟨l,hl,by simp⟩

lemma nodeInUse_iff : g.nodeInUse i = true ↔
    (∃ e ∈ g.edges, e.sourceNodeId = i ∨ e.targetNodeId = i) ∨ ∃ l ∈ g.entryNodes, l.2 = i := by
  simp [GraphTables.nodeInUse]

lemma deleteOrphanNodes_sound (hs : g.Sound) (scope : Option GraphBoundary) :
    (g.deleteOrphanNodes scope).Sound := by
  have hkept : ∀ n ∈ g.nodes, g.nodeInUse n.id = true →
      n ∈ (g.deleteOrphanNodes scope).nodes := fun n hn huse => by
    simp [GraphTables.deleteOrphanNodes,hn,huse]
  exact { hs with
    nodes := hs.nodes.sublist List.filter_sublist
    nodeKeys := hs.nodeKeys.sublist (List.filter_sublist.map _)
    ends := fun e he i hi => by
      obtain ⟨n,hn,hid,hb⟩ := hs.ends e he i hi
      exact ⟨n,hkept n hn (by rw [hid]; exact nodeInUse_of_edge he hi),hid,hb⟩
    links := fun l hl => by
      obtain ⟨x,hx,hid,n,hn,hi,hb⟩ := hs.links l hl
      exact ⟨x,hx,hid,n,hkept n hn (by rw [hi]; exact nodeInUse_of_link hl),hi,hb⟩ }

lemma deleteOrphanNodes_tidy {boundary : GraphBoundary} (h : inScope scope boundary = true) :
    (g.deleteOrphanNodes scope).Tidy boundary := by
  intro n hn hb
  have hn : n ∈ g.nodes ∧ (g.nodeInUse n.id = true ∨ inScope scope n.boundary = false) := by
    simpa [GraphTables.deleteOrphanNodes] using hn
  rw [hb,h] at hn
  exact hn.2.resolve_right (by simp)

end Memora.Graph

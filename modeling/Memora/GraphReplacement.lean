import Memora.GraphAggregates

/-! A replacement deletes the rows of the memory, writes its nodes, edges and entries, and refreshes
the semantic edges that the memory had supported; the others have grown with what it wrote. -/
namespace Memora.Graph

open RowTable ExceptLaws GraphTables

variable {g g' : GraphTables} {boundary : GraphBoundary}

variable {nodeKeyToId : Dict String ℕ} {nodes : List GraphNode}

lemma upsertNodes_ok (hs : g.Sound) (h : g.upsertNodes nodes boundary = .ok (g',nodeKeyToId)) :
    (∃ nodes last, g' = { g with nodes, lastNode := last }) ∧ g'.Sound ∧
      (∀ k i, nodeKeyToId.get? k = some i → ∃ n ∈ g'.nodes, n.id = i ∧ n.key = (k,boundary)) ∧
        (∀ k, (nodeKeyToId.get? k).isSome = true ↔ k ∈ nodes.map GraphNode.nodeKey) ∧
          ∀ n ∈ g'.nodes, n ∈ g.nodes ∨ n.boundary = boundary := by
  have hgeneral : ∀ (start : Dict String ℕ) (g : GraphTables), g.Sound →
      (∀ k i, start.get? k = some i → ∃ n ∈ g.nodes, n.id = i ∧ n.key = (k,boundary)) →
      nodes.foldlM (fun (s : GraphTables × Dict String ℕ) node => do
        let r ← GraphTables.upsertNode s.1 node boundary
        return (r.1,s.2.set node.nodeKey r.2)) (g,start) = .ok (g',nodeKeyToId) →
      (∃ nodes last, g' = { g with nodes, lastNode := last }) ∧ g'.Sound ∧
        (∀ k i, nodeKeyToId.get? k = some i → ∃ n ∈ g'.nodes, n.id = i ∧ n.key = (k,boundary)) ∧
          (∀ k, (nodeKeyToId.get? k).isSome = true ↔
            (start.get? k).isSome = true ∨ k ∈ nodes.map GraphNode.nodeKey) ∧
            ∀ n ∈ g'.nodes, n ∈ g.nodes ∨ n.boundary = boundary := by
    clear h hs
    induction nodes with
    | nil =>
      intro start g hs hstart h
      cases h
      exact ⟨⟨_,_,rfl⟩,hs,hstart,by simp,fun n hn => .inl hn⟩
    | cons node nodes ih =>
      intro start g hs hstart h
      obtain ⟨⟨g₁,start₁⟩,hfirst,hrest⟩ := bind_ok h
      obtain ⟨⟨g₂,id⟩,hnode,hfirst⟩ := bind_ok hfirst
      cases hfirst
      obtain ⟨_,_,rfl,hs₂,hstay,⟨n,hn,hid,hkey⟩,hnew⟩ := upsertNode_ok hs hnode
      obtain ⟨⟨_,_,rfl⟩,hs',hmap,hdomain,hnew'⟩ := ih _ _ hs₂ (by
        intro k i hk
        rw [Dict.get?_set] at hk
        split at hk
        · rename_i heq
          subst heq
          cases hk
          exact ⟨n,hn,hid,hkey⟩
        · obtain ⟨n₀,hn₀,hid₀,hkey₀⟩ := hstart k i hk
          obtain ⟨n',hn',hid',hkey'⟩ := hstay n₀ hn₀
          exact ⟨n',hn',hid'.trans hid₀,hkey'.trans hkey₀⟩) hrest
      refine ⟨⟨_,_,rfl⟩,hs',hmap,?_,fun n hn => (hnew' n hn).elim (hnew n) Or.inr⟩
      intro k
      rw [hdomain,Dict.get?_set,List.map_cons,List.mem_cons]
      by_cases heq : k = node.nodeKey
      · simp [heq]
      · simp [heq]
  obtain ⟨hrest,hs',hmap,hdomain,hnew⟩ := hgeneral {} g hs (by simp) h
  exact ⟨hrest,hs',hmap,fun k => by rw [hdomain]; simp,hnew⟩

structure EntriesOnly (g : GraphTables) (boundary : GraphBoundary) (g' : GraphTables) : Prop where
  nodes : g'.nodes = g.nodes
  edges : g'.edges = g.edges
  semanticEdges : g'.semanticEdges = g.semanticEdges
  links : ∀ l ∈ g.entryNodes, (∀ n ∈ g.nodes, n.id = l.2 → n.boundary ≠ boundary) →
    l ∈ g'.entryNodes

lemma addEntry_only {entry : GraphEntry} {edgeId : Option ℕ} {id : ℕ} (hs : g.Sound)
    (h : g.addEntry entry nodeKeyToId edgeId boundary = .ok (g',id)) :
    EntriesOnly g boundary g' := by
  obtain ⟨-,⟨_,_,_,_,rfl⟩,hlinks⟩ := addEntry_ok hs h
  exact ⟨rfl,rfl,rfl,hlinks⟩

variable {entries : List GraphEntry} {entryIds : List ℕ} {edges : List GraphEdge}
    {sourceMemoryId : ℕ}

lemma addEntries_ok {nodeKeyToId edgeKeyToId : Dict String ℕ} (hs : g.Sound)
    (h : g.addEntries entries nodeKeyToId edgeKeyToId boundary = .ok (g',entryIds)) :
    g'.Sound ∧ EntriesOnly g boundary g' := by
  exact foldlM_invariant (P := fun s : GraphTables × List ℕ => s.1.Sound ∧
    EntriesOnly g boundary s.1)
    (fun s entry _ s' hstep hs => by
      obtain ⟨⟨g₁,id⟩,hadd,hstep⟩ := bind_ok hstep
      cases hstep
      have honly := addEntry_only hs.1 hadd
      refine ⟨(addEntry_ok hs.1 hadd).1,honly.nodes.trans hs.2.nodes,
        honly.edges.trans hs.2.edges,honly.semanticEdges.trans hs.2.semanticEdges,?_⟩
      intro l hl hother
      exact honly.links l (hs.2.links l hl hother) (hs.2.nodes ▸ hother))
    ⟨hs,rfl,rfl,rfl,fun l hl _ => hl⟩ h

lemma deleteMemories_sound (hs : g.Sound) (ids : List ℕ) (scope : Option GraphBoundary) :
    (g.deleteMemories ids scope).Sound :=
  deleteOrphanNodes_sound
    (refreshSemanticEdges_refreshed (deleteMemoriesRows_deleted hs ids scope).sound _).sound scope

lemma RowsDeleted.evidenceFor {ids : List ℕ} {scope : Option GraphBoundary}
    (h : RowsDeleted g ids scope g') {i : ℕ} (hi : i ∉ g.affectedSemanticIds ids scope) :
    evidenceFor g'.evidence i = evidenceFor g.evidence i := by
  ext e
  constructor
  · rintro ⟨he,hid⟩
    exact ⟨((h.edges e).mp he).1,hid⟩
  · rintro ⟨he,hid⟩
    refine ⟨(h.edges e).mpr ⟨he,?_⟩,hid⟩
    by_contra hown
    apply hi
    rw [← hid]
    exact List.mem_map_of_mem (List.mem_filter.mpr ⟨he,by simpa [own] using hown⟩)

lemma deleteMemories_aggregates (hs : g.Sound)
    (h : ∀ m ∈ g.semanticEdges, Aggregates g.evidence m) (ids : List ℕ)
    (scope : Option GraphBoundary) :
    ∀ m ∈ (g.deleteMemories ids scope).semanticEdges,
    Aggregates (g.deleteMemories ids scope).evidence m := by
  have hdeleted := deleteMemoriesRows_deleted hs ids scope
  have hrefreshed := refreshSemanticEdges_refreshed hdeleted.sound (g.affectedSemanticIds ids scope)
  intro m hm
  rcases hrefreshed.kept m hm with ⟨hold,hother⟩ | haggregates
  · rw [hdeleted.semanticEdges] at hold
    exact (h m hold).congr (hdeleted.evidenceFor hother)
  · exact haggregates

lemma inUse_within (hs : g.Sound) {n : NodeRow} (hn : n ∈ g.nodes)
    (huse : g.nodeInUse n.id = true) :
    (∃ e ∈ g.edges, (e.sourceNodeId = n.id ∨ e.targetNodeId = n.id) ∧ e.boundary = n.boundary) ∨
      ∃ l ∈ g.entryNodes, l.2 = n.id ∧ ∀ x ∈ g.entries, x.id = l.1 → x.boundary = n.boundary := by
  rcases nodeInUse_iff.mp huse with ⟨e,he,hend⟩ | ⟨l,hl,hid⟩
  · left
    obtain ⟨n',hn',hid',hb⟩ := hs.ends e he n.id (hend.imp Eq.symm Eq.symm)
    obtain rfl := eq_of_key_eq hs.nodes.nodup hn' hn hid'
    exact ⟨e,he,hend,hb.symm⟩
  · right
    refine ⟨l,hl,hid,?_⟩
    intro x hx hxid
    obtain ⟨x',hx',hxid',n',hn',hid',hb⟩ := hs.links l hl
    obtain rfl := eq_of_key_eq hs.entries.nodup hx' hx (hxid'.trans hxid.symm)
    obtain rfl := eq_of_key_eq hs.nodes.nodup hn' hn (hid'.trans hid)
    exact hb.symm

lemma deleteMemories_tidy_other (hs : g.Sound) (ids : List ℕ) {other : GraphBoundary}
    (hne : boundary ≠ other) (h : g.Tidy boundary) :
    (g.deleteMemories ids (some other)).Tidy boundary := by
  have hdeleted := deleteMemoriesRows_deleted hs ids (some other)
  have hother : ∀ source, own ids (some other) source boundary = false := by
    intro source
    simp [own,inScope,hne]
  intro n hn hb
  have hn : n ∈ g.nodes := hdeleted.nodes ▸ List.mem_of_mem_filter hn
  rcases inUse_within hs hn (h n hn hb) with ⟨e,he,hend,heb⟩ | ⟨l,hl,hid,hx⟩
  · have hkept := (hdeleted.edges e).mpr ⟨he,by rw [heb,hb]; exact hother _⟩
    exact nodeInUse_iff.mpr (.inl ⟨e,hkept,hend⟩)
  · have hkept := hdeleted.links l hl fun x hmem hxid => by
      rw [hx x hmem hxid,hb]
      exact hother _
    exact nodeInUse_iff.mpr (.inr ⟨l,hkept,hid⟩)

def replacementEdges (nodes : List GraphNode) (edges : List GraphEdge) : List GraphEdge :=
  edges.filter fun edge =>
    edge.sourceKey ∈ nodes.map GraphNode.nodeKey && edge.targetKey ∈ nodes.map GraphNode.nodeKey

/-- The semantic edges that the memory itself supported: a replacement refreshes them. -/
def refreshedKeys (g : GraphTables) (sourceMemoryId : ℕ) : List SemanticKey :=
  (g.supports fun e => e.sourceMemoryId = sourceMemoryId).map Support.key

/-- What a replacement leaves: the support of the other memories, and the last of its edges between
the same ends. -/
def replacementSupports (g : GraphTables) (sourceMemoryId : ℕ) (nodes : List GraphNode)
    (edges : List GraphEdge) (boundary : GraphBoundary) : List Support :=
  g.supports (fun e => e.sourceMemoryId ≠ sourceMemoryId) ++
    (lastWrites (fun edge => (edge.sourceKey,edge.targetKey,edge.relationType))
      (replacementEdges nodes edges)).map fun edge => edge.support boundary

def ReplacementSettled (g : GraphTables) (sourceMemoryId : ℕ) (nodes : List GraphNode)
    (edges : List GraphEdge) (boundary : GraphBoundary) : Prop :=
  ∀ edge ∈ replacementEdges nodes edges, edge.semantic boundary ∈ refreshedKeys g sourceMemoryId ∨
      Reached (replacementSupports g sourceMemoryId nodes edges boundary) (edge.support boundary)

instance (g : GraphTables) (sourceMemoryId : ℕ) (nodes : List GraphNode) (edges : List GraphEdge)
    (boundary : GraphBoundary) : Decidable (ReplacementSettled g sourceMemoryId nodes edges boundary) :=
  inferInstanceAs (Decidable (∀ edge ∈ _, _))

lemma replaceMemoryGraph_ok (hs : g.Sound)
    (h : g.replaceMemoryGraph sourceMemoryId nodes edges entries boundary = .ok (g',entryIds)) :
    ∃ g₁ g₂ g₃ g₄ nodeKeyToId, (∀ edge ∈ edges, edge.sourceMemoryId = sourceMemoryId) ∧
      RowsDeleted g [sourceMemoryId] none g₁ ∧
      (∃ nodes last, g₂ = { g₁ with nodes, lastNode := last }) ∧ g₂.Sound ∧
      (∀ k i, nodeKeyToId.get? k = some i → ∃ n ∈ g₂.nodes, n.id = i ∧ n.key = (k,boundary)) ∧
      (∀ k, (nodeKeyToId.get? k).isSome = true ↔ k ∈ nodes.map GraphNode.nodeKey) ∧
      EdgesWritten g₂ (evidenceKey nodeKeyToId boundary) (edges.filter (resolves nodeKeyToId)) boundary g₃ ∧
      g₄.Sound ∧ EntriesOnly g₃ boundary g₄ ∧ g' = (g₄.refreshSemanticEdges
        (g.affectedSemanticIds [sourceMemoryId] none)).deleteOrphanNodes none := by
  obtain ⟨_,hsource,h⟩ := bind_ok h
  obtain ⟨⟨g₂,nodeKeyToId⟩,hnodes,h⟩ := bind_ok h
  obtain ⟨⟨g₃,edgeKeyToId⟩,hedges,h⟩ := bind_ok h
  obtain ⟨⟨g₄,ids⟩,hentries,h⟩ := bind_ok h
  cases h
  have hdeleted := deleteMemoriesRows_deleted hs [sourceMemoryId] none
  obtain ⟨hrest,hs₂,hmap,hdomain,-⟩ := upsertNodes_ok hdeleted.sound hnodes
  have hwritten := addEdges_written hs₂ hedges
  obtain ⟨hs₄,honly⟩ := addEntries_ok hwritten.sound hentries
  refine ⟨_,g₂,g₃,g₄,nodeKeyToId,?_,hdeleted,hrest,hs₂,hmap,hdomain,hwritten,hs₄, honly,rfl⟩
  have hall := (Bool.or_eq_false_iff.mp (refuseIf_ok hsource)).1
  simpa using hall

lemma notMem_ownMemory {sourceMemoryId other : ℕ} :
    own [sourceMemoryId] none other boundary = false ↔ other ≠ sourceMemoryId := by
  simp [own,inScope]

/-- Two edges of one source have their evidence in the same row when they have the same ends and
relation: different keys stand for different nodes. -/
theorem evidenceKey_eq_iff (hs : g.Sound)
    (hmap : ∀ k i, nodeKeyToId.get? k = some i → ∃ n ∈ g.nodes, n.id = i ∧ n.key = (k,boundary))
    {edge edge' : GraphEdge} (hsource : edge'.sourceMemoryId = edge.sourceMemoryId)
    (h : resolves nodeKeyToId edge = true) (h' : resolves nodeKeyToId edge' = true) :
    evidenceKey nodeKeyToId boundary edge' = evidenceKey nodeKeyToId boundary edge ↔
      (edge'.sourceKey,edge'.targetKey,edge'.relationType) =
        (edge.sourceKey,edge.targetKey,edge.relationType) := by
  have hinj : ∀ k k', (nodeKeyToId.get? k).isSome = true → (nodeKeyToId.get? k').isSome = true →
      (nodeKeyToId.get? k').getD 0 = (nodeKeyToId.get? k).getD 0 → k' = k := by
    intro k k' hk hk' heq
    obtain ⟨i,hi⟩ := Option.isSome_iff_exists.mp hk
    obtain ⟨i',hi'⟩ := Option.isSome_iff_exists.mp hk'
    rw [hi,hi',Option.getD_some,Option.getD_some] at heq
    obtain ⟨n,hn,hid,hkey⟩ := hmap k i hi
    obtain ⟨n',hn',hid',hkey'⟩ := hmap k' i' hi'
    obtain rfl := eq_of_key_eq hs.nodes.nodup hn' hn (hid'.trans (heq.trans hid.symm))
    exact congrArg Prod.fst (hkey'.symm.trans hkey)
  obtain ⟨hs₁,ht₁⟩ := Bool.and_eq_true_iff.mp h
  obtain ⟨hs₂,ht₂⟩ := Bool.and_eq_true_iff.mp h'
  constructor
  · intro heq
    have hsourceKey := hinj _ _ hs₁ hs₂ (congrArg EvidenceKey.sourceNodeId heq)
    have htargetKey := hinj _ _ ht₁ ht₂ (congrArg EvidenceKey.targetNodeId heq)
    have hrelation : edge'.relationType = edge.relationType := congrArg EvidenceKey.relationType heq
    rw [hsourceKey,htargetKey,hrelation]
  · intro heq
    obtain ⟨hsourceKey,hrest⟩ := Prod.mk.inj heq
    obtain ⟨htargetKey,hrelation⟩ := Prod.mk.inj hrest
    rw [evidenceKey,evidenceKey,hsource,hsourceKey,htargetKey,hrelation]

lemma replaceMemoryGraph_aggregates (hs : g.Sound)
    (hbefore : ∀ m ∈ g.semanticEdges, Aggregates g.evidence m)
    (hsettled : ReplacementSettled g sourceMemoryId nodes edges boundary)
    (h : g.replaceMemoryGraph sourceMemoryId nodes edges entries boundary = .ok (g',entryIds)) :
    ∀ m ∈ g'.semanticEdges, Aggregates g'.evidence m := by
  obtain ⟨g₁,g₂,g₃,g₄,nodeKeyToId,hsource,hdeleted,hrest,hs₂,hmap,hdomain,hwritten,hs₄,
    honly,rfl⟩ := replaceMemoryGraph_ok hs h
  let affected := g.affectedSemanticIds [sourceMemoryId] none
  have hedges₂ : g₂.edges = g₁.edges := by
    obtain ⟨_,_,rfl⟩ := hrest
    rfl
  have hsemantic₂ : g₂.semanticEdges = g.semanticEdges := by
    obtain ⟨_,_,rfl⟩ := hrest
    exact hdeleted.semanticEdges
  have hmem₂ : ∀ e, e ∈ g₂.edges ↔ e ∈ g.edges ∧ e.sourceMemoryId ≠ sourceMemoryId := by
    intro e
    rw [hedges₂,hdeleted.edges,notMem_ownMemory]
  have hwrites : edges.filter (resolves nodeKeyToId) = replacementEdges nodes edges := by
    apply List.filter_congr
    intro edge _
    rw [resolves,Bool.eq_iff_iff,Bool.and_eq_true,Bool.and_eq_true,hdomain,hdomain,
      decide_eq_true_eq,decide_eq_true_eq]
  have hlast : lastWrites (evidenceKey nodeKeyToId boundary) (replacementEdges nodes edges) =
      lastWrites (fun edge => (edge.sourceKey,edge.targetKey,edge.relationType))
        (replacementEdges nodes edges) := by
    rw [← hwrites]
    apply lastWrites_congr
    intro edge hedge edge' hedge'
    obtain ⟨hedge,hresolves⟩ := List.mem_filter.mp hedge
    obtain ⟨hedge',hresolves'⟩ := List.mem_filter.mp hedge'
    exact evidenceKey_eq_iff hs₂ hmap ((hsource _ hedge').trans (hsource _ hedge).symm) hresolves hresolves'
  -- the rows of the other memories are left alone
  have hothers : ∀ x ∈ g.supports (fun e => e.sourceMemoryId ≠ sourceMemoryId),
      x ∈ g₂.supportsAfter (evidenceKey nodeKeyToId boundary) (replacementEdges nodes edges)
        boundary := by
    intro x hx
    obtain ⟨e,he,hother,m,hm,hid,rfl⟩ := mem_supports.mp hx
    have hother : e.sourceMemoryId ≠ sourceMemoryId := of_decide_eq_true hother
    apply List.mem_append_left
    refine mem_supports.mpr ⟨e,(hmem₂ e).mpr ⟨he,hother⟩,?_,m,hsemantic₂ ▸ hm,hid,rfl⟩
    rw [List.all_eq_true]
    intro w hw
    rw [decide_eq_true_eq]
    intro heq
    apply hother
    rw [← hsource w (List.mem_of_mem_filter hw)]
    exact (congrArg EvidenceKey.sourceMemoryId heq).symm
  have hcovered : Settled g₂ (evidenceKey nodeKeyToId boundary)
      (edges.filter (resolves nodeKeyToId)) boundary (refreshedKeys g sourceMemoryId) := by
    rw [hwrites]
    intro x hx
    rcases List.mem_append.mp hx with hx | hx
    · right
      apply reached_of_mem
      apply hothers
      obtain ⟨e,he,-,m,hm,hid,rfl⟩ := mem_supports.mp hx
      obtain ⟨he,hother⟩ := (hmem₂ e).mp he
      exact mem_supports.mpr ⟨e,he,decide_eq_true hother,m,hsemantic₂ ▸ hm,hid,rfl⟩
    · obtain ⟨edge,hedge,rfl⟩ := List.mem_map.mp hx
      refine (hsettled edge hedge).imp id fun hreached => hreached.mono ?_
      intro y hy
      rcases List.mem_append.mp hy with hy | hy
      · exact hothers y hy
      · rw [← hlast] at hy
        exact List.mem_append_right _ hy
  have haggregates := hwritten.aggregates (· ∈ affected) hs₂ (by
      intro k hk
      obtain ⟨x,hx,rfl⟩ := List.mem_map.mp hk
      obtain ⟨e,he,hown,m,hm,hid,rfl⟩ := mem_supports.mp hx
      refine ⟨m,hsemantic₂ ▸ hm,rfl,?_⟩
      rw [hid]
      exact List.mem_map_of_mem (List.mem_filter.mpr ⟨he,by simpa [inScope] using hown⟩))
    (by
      intro m hm hother
      rw [hsemantic₂] at hm
      have hsame : g₂.evidence = g₁.evidence := by
        rw [GraphTables.evidence,hedges₂]
        rfl
      rw [hsame]
      exact (hbefore m hm).congr (hdeleted.evidenceFor hother))
    hcovered
  have hsame : g₄.evidence = g₃.evidence := by
    rw [GraphTables.evidence,honly.edges]
    rfl
  intro m hm
  rcases (refreshSemanticEdges_refreshed hs₄ affected).kept m hm with ⟨hold,hother⟩ | hnew
  · rw [honly.semanticEdges] at hold
    change Aggregates g₄.evidence m
    rw [hsame]
    exact haggregates m hold hother
  · exact hnew

end Memora.Graph

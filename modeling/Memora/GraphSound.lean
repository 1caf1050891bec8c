import Memora.GraphStore
import Memora.ExceptLaws

/-! Identifiers and keys are unique, and every row refers to rows that exist within its own
boundary. What each write does to the tables is said once, together with the integrity it keeps. -/
namespace Memora.Graph

open RowTable ExceptLaws GraphTables

variable {g g' : GraphTables} {boundary : GraphBoundary} {edge : GraphEdge} {id : ℕ}
    {links : List (ℕ × ℕ)}
  {edgeId : Option ℕ} {entry : GraphEntry}

structure GraphTables.Sound (g : GraphTables) : Prop where
  nodes : Numbered NodeRow.id g.lastNode g.nodes
  nodeKeys : (g.nodes.map NodeRow.key).Nodup
  edges : Numbered EdgeRow.id g.lastEdge g.edges
  edgeKeys : (g.edges.map EdgeRow.key).Nodup
  semanticEdges : Numbered SemanticEdgeRow.id g.lastSemanticEdge g.semanticEdges
  semanticKeys : (g.semanticEdges.map SemanticEdgeRow.key).Nodup
  entries : Numbered EntryRow.id g.lastEntry g.entries
  ends : ∀ e ∈ g.edges, ∀ i, i = e.sourceNodeId ∨ i = e.targetNodeId →
    ∃ n ∈ g.nodes, n.id = i ∧ n.boundary = e.boundary
  supported : ∀ e ∈ g.edges, ∃ m ∈ g.semanticEdges, m.id = e.semanticEdgeId ∧
    m.scopeKey = e.boundary.scopeKey ∧ m.privacyLevel = e.boundary.privacyLevel
  entryEdges : ∀ x ∈ g.entries, ∀ i, x.edgeId = some i →
    ∃ e ∈ g.edges, e.id = i ∧ e.sourceMemoryId = x.sourceMemoryId ∧ e.boundary = x.boundary
  linksNodup : g.entryNodes.Nodup
  links : ∀ l ∈ g.entryNodes, ∃ x ∈ g.entries, x.id = l.1 ∧
    ∃ n ∈ g.nodes, n.id = l.2 ∧ n.boundary = x.boundary
  fullText : g.entriesFts.Perm (g.entries.map EntryRow.fullText)

lemma GraphTables.sound_empty : ({} : GraphTables).Sound where
  nodes := .nil
  nodeKeys := List.nodup_nil
  edges := .nil
  edgeKeys := List.nodup_nil
  semanticEdges := .nil
  semanticKeys := List.nodup_nil
  entries := .nil
  ends := by simp
  supported := by simp
  entryEdges := by simp
  linksNodup := List.nodup_nil
  links := by simp
  fullText := List.Perm.refl []

lemma refuseIf_ok {bad : Bool} {error : GraphError} {u : Unit}
    (h : refuseIf bad error = .ok u) : bad = false := by
  cases bad with
  | false => rfl
  | true => cases h

def NodesStay (nodes nodes' : List NodeRow) : Prop :=
  ∀ n ∈ nodes, ∃ n' ∈ nodes', n'.id = n.id ∧ n'.key = n.key

lemma NodesStay.within {nodes nodes' : List NodeRow} (h : NodesStay nodes nodes') {i : ℕ}
    (hn : ∃ n ∈ nodes, n.id = i ∧ n.boundary = boundary) :
    ∃ n ∈ nodes', n.id = i ∧ n.boundary = boundary := by
  obtain ⟨n,hn,hi,hb⟩ := hn
  obtain ⟨n',hn',hi',hk⟩ := h n hn
  exact ⟨n',hn',hi'.trans hi,(congrArg Prod.snd hk).trans hb⟩

lemma GraphTables.Sound.withNodes (hs : g.Sound) {nodes : List NodeRow} {last : ℕ}
    (hnumbered : Numbered NodeRow.id last nodes) (hkeys : (nodes.map NodeRow.key).Nodup)
    (hstay : NodesStay g.nodes nodes) : { g with nodes, lastNode := last }.Sound :=
  { hs with
    nodes := hnumbered
    nodeKeys := hkeys
    ends := fun e he i hi => hstay.within (hs.ends e he i hi)
    links := fun l hl => by
      obtain ⟨x,hx,hid,hn⟩ := hs.links l hl
      exact ⟨x,hx,hid,hstay.within hn⟩ }

lemma GraphTables.upsertNode_ok {node : GraphNode} (hs : g.Sound)
    (h : g.upsertNode node boundary = .ok (g',id)) :
    ∃ nodes last, g' = { g with nodes, lastNode := last } ∧ g'.Sound ∧
      NodesStay g.nodes nodes ∧ (∃ n ∈ nodes, n.id = id ∧ n.key = (node.nodeKey,boundary)) ∧
        ∀ n ∈ nodes, n ∈ g.nodes ∨ n.boundary = boundary := by
  obtain ⟨_,-,h⟩ := bind_ok h
  dsimp only at h
  split at h
  · cases h
  · rename_i row hrow
    cases h
    have hmem := List.mem_of_find?_eq_some hrow
    have hkey : row.key = (node.nodeKey,boundary) := by simpa using List.find?_some hrow
    have hstay : NodesStay g.nodes _ := fun n hn => by
      obtain ⟨n',hn',heq⟩ := upsert_stays NodeRow.key (node.nodeKey,boundary)
        (fun row => { row with nodeValue := node.value }) (newNode (g.lastNode+1) node boundary)
        (fun r => (r.id,r.key)) (fun _ => rfl) n hn
      exact ⟨n',hn',congrArg Prod.fst heq,congrArg Prod.snd heq⟩
    refine ⟨_,_,rfl,hs.withNodes (hs.nodes.upsert hs.nodeKeys rfl (fun _ => rfl) rfl (fun _ => rfl) hrow)
      (nodup_upsert hs.nodeKeys (fun _ => rfl) rfl) hstay,hstay,⟨row,hmem,rfl,hkey⟩,?_⟩
    intro n hn
    rcases ((upsert_row hs.nodeKeys hrow (fun _ => rfl) rfl).1 n).mp hn with ⟨hold,-⟩ | rfl
    · exact .inl hold
    · exact .inr (congrArg Prod.snd hkey)

lemma GraphTables.validateNodeBoundary_ok (hs : g.Sound) {ids : List ℕ} {u : Unit}
    (h : g.validateNodeBoundary ids boundary = .ok u) :
    ∀ i ∈ ids, ∃ n ∈ g.nodes, n.id = i ∧ n.boundary = boundary := by
  let found := g.nodes.filter fun row => row.id ∈ ids && row.boundary = boundary
  have hcount : found.length = ids.dedup.length := by
    have := refuseIf_ok h
    simpa [found,List.countP_eq_length_filter] using this
  have hnodup : (found.map NodeRow.id).Nodup :=
    hs.nodes.nodup.sublist (List.filter_sublist.map NodeRow.id)
  have hsub : found.map NodeRow.id ⊆ ids.dedup := by
    intro i hi
    obtain ⟨n,hn,rfl⟩ := List.mem_map.mp hi
    have hn : n ∈ g.nodes ∧ n.id ∈ ids ∧ n.boundary = boundary := by simpa [found] using hn
    exact List.mem_dedup.mpr hn.2.1
  have hperm : (found.map NodeRow.id).Perm ids.dedup :=
    (hnodup.subperm hsub).perm_of_length_le (by rw [List.length_map,hcount])
  intro i hi
  obtain ⟨n,hn,rfl⟩ := List.mem_map.mp (hperm.symm.subset (List.mem_dedup.mpr hi))
  have hn : n ∈ g.nodes ∧ n.id ∈ ids ∧ n.boundary = boundary := by simpa [found] using hn
  exact ⟨n,hn.1,rfl,hn.2.2⟩

inductive SupportedRow (g : GraphTables) (edge : GraphEdge) (boundary : GraphBoundary)
    (m : SemanticEdgeRow) : Prop
  | grown (m₀ : SemanticEdgeRow) (mem : m₀ ∈ g.semanticEdges)
      (key : m₀.key = edge.semantic boundary) (eq : m = grownBy edge m₀)
  | added (none : ∀ m₀ ∈ g.semanticEdges, m₀.key ≠ edge.semantic boundary)
      (eq : m = newSemanticEdge (g.lastSemanticEdge+1) edge boundary)

lemma SupportedRow.key {m : SemanticEdgeRow}
    (h : SupportedRow g edge boundary m) : m.key = edge.semantic boundary := by
  cases h with
  | grown m₀ _ hkey heq =>
    subst heq
    exact hkey
  | added _ heq =>
    subst heq
    rfl

def SemanticStay (rows rows' : List SemanticEdgeRow) : Prop :=
  ∀ m ∈ rows, ∃ m' ∈ rows', m'.id = m.id ∧ m'.key = m.key

lemma SemanticStay.refl (rows : List SemanticEdgeRow) : SemanticStay rows rows :=
  fun m hm => ⟨m,hm,rfl,rfl⟩

lemma SemanticStay.trans {a b c : List SemanticEdgeRow} (hab : SemanticStay a b)
    (hbc : SemanticStay b c) : SemanticStay a c := by
  intro m hm
  obtain ⟨m',hm',hid,hkey⟩ := hab m hm
  obtain ⟨m'',hm'',hid',hkey'⟩ := hbc m' hm'
  exact ⟨m'',hm'',hid'.trans hid,hkey'.trans hkey⟩

structure EdgeAdded (g : GraphTables) (edge : GraphEdge) (key : EvidenceKey) (row : EdgeRow)
    (m : SemanticEdgeRow) (g' : GraphTables) : Prop where
  sound : g'.Sound
  rowKey : row.key = key
  weight : row.weight = edge.weight
  confidence : row.confidence = edge.confidence
  status : row.status = edge.status
  semantic : row.semanticEdgeId = m.id
  supported : SupportedRow g edge key.boundary m
  edges : ∀ e, e ∈ g'.edges ↔ (e ∈ g.edges ∧ e.key ≠ key) ∨ e = row
  semanticEdges : ∀ x, x ∈ g'.semanticEdges ↔
    (x ∈ g.semanticEdges ∧ x.key ≠ edge.semantic key.boundary) ∨ x = m
  stay : SemanticStay g.semanticEdges g'.semanticEdges
  lastSemanticEdge : g'.lastSemanticEdge = max g.lastSemanticEdge m.id
  rest : ∃ edges lastEdge semanticEdges lastSemanticEdge,
    g' = { g with edges, lastEdge, semanticEdges, lastSemanticEdge }

lemma GraphTables.upsertSemanticEdge_ok (hs : g.Sound)
    (h : g.upsertSemanticEdge edge boundary = .ok (g',id)) :
    ∃ m rows, g' = { g with
        semanticEdges := rows
        lastSemanticEdge := max g.lastSemanticEdge m.id } ∧ g'.Sound ∧ id = m.id ∧
      SupportedRow g edge boundary m ∧ SemanticStay g.semanticEdges rows ∧
      ∀ x, x ∈ rows ↔ (x ∈ g.semanticEdges ∧ x.key ≠ edge.semantic boundary) ∨ x = m := by
  unfold GraphTables.upsertSemanticEdge at h
  dsimp only at h
  split at h
  · cases h
  · rename_i m hm
    cases h
    let rewrite := grownBy edge
    let fresh := newSemanticEdge (g.lastSemanticEdge+1) edge boundary
    have hstay : SemanticStay g.semanticEdges
        (upsert SemanticEdgeRow.key (edge.semantic boundary) rewrite fresh g.semanticEdges) := by
      intro x hx
      obtain ⟨x',hx',heq⟩ := upsert_stays SemanticEdgeRow.key (edge.semantic boundary) rewrite
        fresh (fun r => (r.id,r.key)) (fun _ => rfl) x hx
      exact ⟨x',hx',congrArg Prod.fst heq,congrArg Prod.snd heq⟩
    obtain ⟨hmem,hrow⟩ := upsert_row hs.semanticKeys hm (fun _ => rfl) rfl
    refine ⟨m,_,rfl,?_,rfl,?_,hstay,hmem⟩
    · exact { hs with
        semanticEdges := hs.semanticEdges.upsert hs.semanticKeys rfl (fun _ => rfl) rfl (fun _ => rfl) hm
        semanticKeys := nodup_upsert hs.semanticKeys (fun _ => rfl) rfl
        supported := fun e he => by
          obtain ⟨x,hx,hid,hscope,hprivacy⟩ := hs.supported e he
          obtain ⟨x',hx',hid',hkey⟩ := hstay x hx
          exact ⟨x',hx',hid'.trans hid,(congrArg SemanticKey.scopeKey hkey).trans hscope,
            (congrArg SemanticKey.privacyLevel hkey).trans hprivacy⟩ }
    · rcases hrow with ⟨m₀,hm₀,hkey,heq⟩ | ⟨hnone,heq⟩
      · exact .grown m₀ hm₀ hkey heq
      · exact .added hnone heq

lemma GraphTables.addEdge_ok {sourceNodeId targetNodeId id : ℕ} (hs : g.Sound)
    (h : g.addEdge edge sourceNodeId targetNodeId boundary = .ok (g',id)) :
    ∃ row m, EdgeAdded g edge
      ⟨edge.sourceMemoryId,sourceNodeId,targetNodeId,edge.relationType,boundary⟩ row m g' := by
  obtain ⟨_,-,h⟩ := bind_ok h
  obtain ⟨_,hends,h⟩ := bind_ok h
  obtain ⟨⟨g₁,semanticEdgeId⟩,hsemantic,h⟩ := bind_ok h
  obtain ⟨m,rows,rfl,hs₁,rfl,hm,hstay,hrows⟩ := upsertSemanticEdge_ok hs hsemantic
  dsimp only at h
  split at h
  · cases h
  · rename_i row hrow
    obtain ⟨rfl,rfl⟩ := Prod.mk.inj (Except.ok.inj h)
    obtain ⟨hmem,hwritten⟩ := upsert_row hs.edgeKeys hrow (fun _ => rfl) rfl
    have hkey : row.key = ⟨edge.sourceMemoryId,sourceNodeId,targetNodeId,edge.relationType,boundary⟩ := by
      simpa using List.find?_some hrow
    have hvalues : row.weight = edge.weight ∧ row.confidence = edge.confidence ∧
        row.status = edge.status ∧ row.semanticEdgeId = m.id := by
      rcases hwritten with ⟨old,-,-,rfl⟩ | ⟨-,rfl⟩
      · exact ⟨rfl,rfl,rfl,rfl⟩
      · exact ⟨rfl,rfl,rfl,rfl⟩
    have hmRows : m ∈ rows := (hrows m).mpr (.inr rfl)
    refine ⟨row,m,?_,hkey,hvalues.1,hvalues.2.1,hvalues.2.2.1,hvalues.2.2.2,hm,hmem,
      hrows,hstay,rfl,_,_,_,_,rfl⟩
    exact { hs₁ with
      edges := hs.edges.upsert hs.edgeKeys rfl (fun _ => rfl) rfl (fun _ => rfl) hrow
      edgeKeys := nodup_upsert hs.edgeKeys (fun _ => rfl) rfl
      ends := fun e he i hi => by
        rcases (hmem e).mp he with ⟨he,-⟩ | rfl
        · exact hs.ends e he i hi
        · have hsource := congrArg EvidenceKey.sourceNodeId hkey
          have htarget := congrArg EvidenceKey.targetNodeId hkey
          have hboundary := congrArg EvidenceKey.boundary hkey
          dsimp only [EdgeRow.key] at hsource htarget hboundary
          rw [hboundary]
          apply validateNodeBoundary_ok hs hends
          rcases hi with rfl | rfl
          · simp [hsource]
          · simp [htarget]
      supported := fun e he => by
        rcases (hmem e).mp he with ⟨he,-⟩ | rfl
        · exact hs₁.supported e he
        · have hboundary := congrArg EvidenceKey.boundary hkey
          dsimp only [EdgeRow.key] at hboundary
          refine ⟨m,hmRows,hvalues.2.2.2.symm,?_,?_⟩
          · rw [hboundary]
            exact congrArg SemanticKey.scopeKey hm.key
          · rw [hboundary]
            exact congrArg SemanticKey.privacyLevel hm.key
      entryEdges := fun x hx i hi => by
        obtain ⟨e,he,hid,hsource,hboundary⟩ := hs.entryEdges x hx i hi
        obtain ⟨e',he',heq⟩ := upsert_stays EdgeRow.key
          ⟨edge.sourceMemoryId,sourceNodeId,targetNodeId,edge.relationType,boundary⟩
          (evidenceWrittenBy edge m.id) (newEvidence (g.lastEdge+1) edge
            ⟨edge.sourceMemoryId,sourceNodeId,targetNodeId,edge.relationType,boundary⟩ m.id)
          (fun r => (r.id,r.sourceMemoryId,r.boundary)) (fun _ => rfl) e he
        obtain ⟨hid',hrest⟩ := Prod.mk.inj heq
        obtain ⟨hsource',hboundary'⟩ := Prod.mk.inj hrest
        exact ⟨e',he',hid'.trans hid,hsource'.trans hsource,hboundary'.trans hboundary⟩ }

structure GraphTables.Linked (g : GraphTables) (entries : List EntryRow)
    (entryNodes : List (ℕ × ℕ)) (entriesFts : List (ℕ × String)) : Prop where
  entryEdges : ∀ x ∈ entries, ∀ i, x.edgeId = some i →
    ∃ e ∈ g.edges, e.id = i ∧ e.sourceMemoryId = x.sourceMemoryId ∧ e.boundary = x.boundary
  linksNodup : entryNodes.Nodup
  links : ∀ l ∈ entryNodes, ∃ x ∈ entries, x.id = l.1 ∧
    ∃ n ∈ g.nodes, n.id = l.2 ∧ n.boundary = x.boundary
  fullText : entriesFts.Perm (entries.map EntryRow.fullText)

lemma GraphTables.Sound.withEntries (hs : g.Sound) {entries : List EntryRow}
    {entryNodes : List (ℕ × ℕ)} {entriesFts : List (ℕ × String)} {last : ℕ}
    (hnumbered : Numbered EntryRow.id last entries) (h : g.Linked entries entryNodes entriesFts) :
    { g with entries, entryNodes, entriesFts, lastEntry := last }.Sound :=
  { hs with
    entries := hnumbered
    entryEdges := h.entryEdges
    linksNodup := h.linksNodup
    links := h.links
    fullText := h.fullText }

theorem nodup_link (h : links.Nodup) (id : ℕ) (nodeIds : List ℕ) :
    (links++(nodeIds.dedup.map fun nodeId => (id,nodeId)).filter (· ∉ links)).Nodup := by
  have hnew : (nodeIds.dedup.map fun nodeId => (id,nodeId)).Nodup :=
    (List.nodup_dedup nodeIds).map fun a b hab => congrArg Prod.snd hab
  rw [List.nodup_append]
  refine ⟨h,hnew.sublist List.filter_sublist,?_⟩
  rintro l hl _ hl' rfl
  simp only [List.mem_filter,decide_eq_true_eq] at hl'
  exact hl'.2 hl

lemma mem_link {nodeIds : List ℕ} {l : ℕ × ℕ}
    (h : l ∈ links++(nodeIds.dedup.map fun nodeId => (id,nodeId)).filter (· ∉ links)) :
    l ∈ links ∨ l.1 = id ∧ l.2 ∈ nodeIds := by
  rcases List.mem_append.mp h with hl | hl
  · exact .inl hl
  · obtain ⟨nodeId,hnode,rfl⟩ := List.mem_map.mp (List.mem_of_mem_filter hl)
    exact .inr ⟨rfl,List.mem_dedup.mp hnode⟩

lemma ownsEdge_ok (h : (edgeId.any fun id => !g.ownsEdge entry boundary id) = false) :
    ∀ i, edgeId = some i → ∃ e ∈ g.edges, e.id = i ∧ e.sourceMemoryId = entry.sourceMemoryId ∧
      e.boundary = boundary := by
  rintro i rfl
  have hown : g.ownsEdge entry boundary i = true := by simpa using h
  simpa [ownsEdge,and_assoc] using hown

lemma GraphTables.addEntry_ok {nodeKeyToId : Dict String ℕ} (hs : g.Sound)
    (h : g.addEntry entry nodeKeyToId edgeId boundary = .ok (g',id)) :
    g'.Sound ∧ (∃ entries entryNodes entriesFts lastEntry,
      g' = { g with entries, entryNodes, entriesFts, lastEntry }) ∧
        ∀ l ∈ g.entryNodes, (∀ n ∈ g.nodes, n.id = l.2 → n.boundary ≠ boundary) → l ∈ g'.entryNodes := by
  obtain ⟨_,-,h⟩ := bind_ok h
  obtain ⟨_,hnodes,h⟩ := bind_ok h
  obtain ⟨_,hedge,h⟩ := bind_ok h
  have hnodes := validateNodeBoundary_ok hs hnodes
  have hedge := ownsEdge_ok (refuseIf_ok hedge)
  split at h
  · rename_i row hrow
    cases h
    have hmem := List.mem_of_find?_eq_some hrow
    have hkey : row.key = ⟨entry.entryKey,entry.sourceMemoryId,boundary⟩ := by
      simpa using List.find?_some hrow
    have hsource : row.sourceMemoryId = entry.sourceMemoryId := congrArg EntryKey.sourceMemoryId hkey
    have hboundary : row.boundary = boundary := congrArg EntryKey.boundary hkey
    have hrewritten : ∀ x, x ∈ modify (fun r => r.id = row.id) (entryWrittenBy entry edgeId)
        g.entries ↔ (x ∈ g.entries ∧ x.id ≠ row.id) ∨ x = entryWrittenBy entry edgeId row := by
      intro x
      rw [mem_modify]
      constructor
      · rintro ⟨y,hy,rfl⟩
        by_cases hyr : y.id = row.id
        · obtain rfl := eq_of_key_eq hs.entries.nodup hy hmem hyr
          simp
        · simp [hyr,hy]
      · rintro (⟨hx,hxr⟩ | rfl)
        · exact ⟨x,hx,by simp [hxr]⟩
        · exact ⟨row,hmem,by simp⟩
    refine ⟨hs.withEntries (hs.entries.modify fun _ => rfl) ⟨?_,?_,?_,?_⟩, ⟨_,_,_,_,rfl⟩,?_⟩
    · intro x hx i hi
      rcases (hrewritten x).mp hx with ⟨hx,-⟩ | rfl
      · exact hs.entryEdges x hx i hi
      · obtain ⟨e,he,hid,hsource',hboundary'⟩ := hedge i hi
        exact ⟨e,he,hid,hsource'.trans hsource.symm,hboundary'.trans hboundary.symm⟩
    · exact nodup_link (hs.linksNodup.sublist List.filter_sublist) _ _
    · intro l hl
      rcases mem_link hl with hl | ⟨hid,hnode⟩
      · simp only [GraphTables.unlinkEntry,List.mem_filter,decide_eq_true_eq] at hl
        obtain ⟨x,hx,hid,hn⟩ := hs.links l hl.1
        exact ⟨x,(hrewritten x).mpr (.inl ⟨hx,by rw [hid]; exact hl.2⟩),hid,hn⟩
      · obtain ⟨n,hn,hi,hb⟩ := hnodes l.2 hnode
        exact ⟨_,(hrewritten _).mpr (.inr rfl),hid.symm,n,hn,hi,hb.trans hboundary.symm⟩
    · have hperm := (modify_perm hs.entries.nodup hmem (entryWrittenBy entry edgeId)).map EntryRow.fullText
      rw [List.map_append] at hperm
      have hkept := hs.fullText.filter fun r => r.1 ≠ row.id
      rw [List.filter_map] at hkept
      exact (hkept.append_right _).trans hperm.symm
    · intro l hl hother
      apply List.mem_append_left
      refine List.mem_filter.mpr ⟨hl,decide_eq_true ?_⟩
      intro hid
      obtain ⟨x,hx,hxid,n,hn,hi,hb⟩ := hs.links l hl
      obtain rfl := eq_of_key_eq hs.entries.nodup hx hmem (hxid.trans hid)
      exact hother n hn hi (hb.trans hboundary)
  · cases h
    refine ⟨hs.withEntries (hs.entries.append rfl) ⟨?_,?_,?_,?_⟩,⟨_,_,_,_,rfl⟩,
      fun l hl _ => List.mem_append_left _ hl⟩
    · intro x hx i hi
      rcases List.mem_append.mp hx with hx | hx
      · exact hs.entryEdges x hx i hi
      · obtain rfl := List.mem_singleton.mp hx
        exact hedge i hi
    · exact nodup_link hs.linksNodup _ _
    · intro l hl
      rcases mem_link hl with hl | ⟨hid,hnode⟩
      · obtain ⟨x,hx,hrest⟩ := hs.links l hl
        exact ⟨x,List.mem_append_left _ hx,hrest⟩
      · obtain ⟨n,hn,hi,hb⟩ := hnodes l.2 hnode
        exact ⟨_,List.mem_append_right _ (List.mem_singleton_self _),hid.symm,n,hn,hi,hb⟩
    · rw [List.map_append]
      exact hs.fullText.append_right _

lemma GraphTables.updateEntryVectorDocIds_ok (hs : g.Sound) (entryVectorDocIds : Dict ℕ ℕ) :
    (g.updateEntryVectorDocIds entryVectorDocIds boundary).Sound := by
  unfold GraphTables.updateEntryVectorDocIds
  induction entryVectorDocIds.entries generalizing g with
  | nil => exact hs
  | cons update rest ih =>
    let rows := modify (fun row => row.id = update.1 && row.boundary = boundary)
      (fun row => { row with vectorDocId := some update.2 }) g.entries
    have hcolumn : ∀ {β : Type} (column : EntryRow → β),
        (∀ r : EntryRow, column { r with vectorDocId := some update.2 } = column r) →
        rows.map column = g.entries.map column :=
      fun column hcolumn => map_modify column _ _ _ fun r _ _ => hcolumn r
    have hstay : ∀ x ∈ g.entries, ∃ x' ∈ rows, x'.id = x.id ∧ x'.boundary = x.boundary := by
      intro x hx
      have hmem : (x.id,x.boundary) ∈ rows.map fun r => (r.id,r.boundary) := by
        rw [hcolumn _ fun _ => rfl]
        exact List.mem_map_of_mem hx
      obtain ⟨x',hx',heq⟩ := List.mem_map.mp hmem
      exact ⟨x',hx',congrArg Prod.fst heq,congrArg Prod.snd heq⟩
    have hrows : { g with entries := rows }.Sound := hs.withEntries (hs.entries.modify fun _ => rfl) {
      entryEdges := fun x hx i hi => by
        obtain ⟨y,hy,rfl⟩ := mem_modify.mp hx
        by_cases hsel : (y.id = update.1 && y.boundary = boundary) = true
        · rw [if_pos hsel] at hi ⊢
          exact hs.entryEdges y hy i hi
        · rw [if_neg hsel] at hi ⊢
          exact hs.entryEdges y hy i hi
      linksNodup := hs.linksNodup
      links := fun l hl => by
        obtain ⟨x,hx,hid,n,hn,hi,hb⟩ := hs.links l hl
        obtain ⟨x',hx',hid',hb'⟩ := hstay x hx
        exact ⟨x',hx',hid'.trans hid,n,hn,hi,hb.trans hb'.symm⟩
      fullText := by
        rw [hcolumn _ fun _ => rfl]
        exact hs.fullText }
    exact ih hrows

end Memora.Graph

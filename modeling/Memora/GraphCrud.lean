import Memora.CanonicalModels
import Memora.RowUpsert

/-! What a source memory contributes to the graph, and the tables it is kept in. A row of the edge
table is the evidence that one memory gives for a relation; the rows of all the memories that
support the same relation share one semantic edge. The rows of a database that was migrated from
before there were boundaries have none and are left out, as are the time columns and the stored
metadata, which no operation here reads. Each function works within the transaction of its caller:
when it raises, the caller rolls the tables back. The triggers of the tables refuse a row with a
blank boundary, which a `GraphBoundary` never is. -/
namespace Memora.Graph

open Canonical

structure GraphBoundary where
  scopeKey : String
  privacyLevel : String
  revisionToken : String
  filled : pythonStrip scopeKey ≠ "" ∧ pythonStrip revisionToken ≠ ""
  known : privacyLevel ∈ ["public","shared","confidential"]
  deriving DecidableEq

abbrev Metadata := Dict String JsonField

structure GraphNode where
  nodeType : String
  value : String
  canonicalValue : String
  metadata : Metadata := {}
  deriving DecidableEq

def GraphNode.nodeKey (node : GraphNode) : String := node.nodeType++":"++node.canonicalValue

structure GraphEdge where
  sourceKey : String
  targetKey : String
  relationType : String
  sourceMemoryId : ℕ
  confidence : ℚ := 4 / 5
  weight : ℚ := 1
  status : String := "active"
  metadata : Metadata := {}
  evidenceKind : String := "structured_relation"
  bindingKey : String := ""
  deriving DecidableEq

variable (edge : GraphEdge)

def GraphEdge.semanticKey : String :=
  edge.sourceKey++"|"++edge.relationType++"|"++edge.targetKey

def edgeKeyOf (sourceKey relationType targetKey : String) (sourceMemoryId : ℕ) : String :=
  sourceKey++"|"++relationType++"|"++targetKey++"|"++toString sourceMemoryId

def GraphEdge.edgeKey : String :=
  edgeKeyOf edge.sourceKey edge.relationType edge.targetKey edge.sourceMemoryId

structure GraphEntry where
  entryKey : String
  sourceMemoryId : ℕ
  sessionId : Option String
  personaId : Option String
  entryType : String
  content : String
  metadata : Metadata := {}
  nodeKeys : List String := []
  relationType : Option String := none
  deriving DecidableEq

structure NodeRow where
  id : ℕ
  nodeKey : String
  nodeType : String
  nodeValue : String
  canonicalValue : String
  boundary : GraphBoundary
  deriving DecidableEq

/-- The columns of `UNIQUE(node_key, scope_key, privacy_level, revision_token)`. -/
def NodeRow.key (row : NodeRow) : String × GraphBoundary := (row.nodeKey,row.boundary)

structure SemanticEdgeRow where
  id : ℕ
  semanticKey : String
  scopeKey : String
  privacyLevel : String
  sourceNodeKey : String
  targetNodeKey : String
  relationType : String
  weight : ℚ
  confidence : ℚ
  status : String
  deriving DecidableEq

/-- The columns of `UNIQUE(scope_key, privacy_level, semantic_key)`. -/
structure SemanticKey where
  scopeKey : String
  privacyLevel : String
  semanticKey : String
  deriving DecidableEq

def SemanticEdgeRow.key (row : SemanticEdgeRow) : SemanticKey :=
  ⟨row.scopeKey,row.privacyLevel,row.semanticKey⟩

variable (boundary : GraphBoundary)

def GraphEdge.semantic : SemanticKey :=
  ⟨boundary.scopeKey,boundary.privacyLevel,edge.semanticKey⟩

structure EvidenceKey where
  sourceMemoryId : ℕ
  sourceNodeId : ℕ
  targetNodeId : ℕ
  relationType : String
  boundary : GraphBoundary
  deriving DecidableEq

structure EdgeRow where
  id : ℕ
  edgeKey : String
  sourceNodeId : ℕ
  targetNodeId : ℕ
  relationType : String
  sourceMemoryId : ℕ
  weight : ℚ
  confidence : ℚ
  status : String
  boundary : GraphBoundary
  semanticEdgeId : ℕ
  evidenceKind : String
  bindingKey : String
  deriving DecidableEq

def EdgeRow.key (row : EdgeRow) : EvidenceKey where
  sourceMemoryId := row.sourceMemoryId
  sourceNodeId := row.sourceNodeId
  targetNodeId := row.targetNodeId
  relationType := row.relationType
  boundary := row.boundary

structure EntryRow where
  id : ℕ
  entryKey : String
  sourceMemoryId : ℕ
  sessionId : Option String
  personaId : Option String
  entryType : String
  relationType : Option String
  content : String
  edgeId : Option ℕ
  vectorDocId : Option ℕ
  boundary : GraphBoundary
  deriving DecidableEq

structure EntryKey where
  entryKey : String
  sourceMemoryId : ℕ
  boundary : GraphBoundary
  deriving DecidableEq

def EntryRow.key (row : EntryRow) : EntryKey := ⟨row.entryKey,row.sourceMemoryId,row.boundary⟩

def EntryRow.fullText (row : EntryRow) : ℕ × String := (row.id,row.content)

/-- The tables, with the last identifier that each `AUTOINCREMENT` column has given out. -/
structure GraphTables where
  nodes : List NodeRow := []
  edges : List EdgeRow := []
  semanticEdges : List SemanticEdgeRow := []
  entries : List EntryRow := []
  entryNodes : List (ℕ × ℕ) := []
  entriesFts : List (ℕ × String) := []
  lastNode : ℕ := 0
  lastEdge : ℕ := 0
  lastSemanticEdge : ℕ := 0
  lastEntry : ℕ := 0

inductive GraphError
  | boundaryMismatch
  | nodeWriteFailed
  | edgeWriteFailed
  | semanticEdgeWriteFailed
  | keyError (key : String)
  deriving DecidableEq

def refuseIf (bad : Bool) (error : GraphError) : Except GraphError Unit :=
  if bad then .error error else .ok ()

def GraphBoundary.asParams : List (String × String) :=
  [("scope_key",boundary.scopeKey),("privacy_level",boundary.privacyLevel),
    ("revision_token",boundary.revisionToken)]

def GraphBoundary.validateMetadata (metadata : Metadata) :
    Except GraphError Unit :=
  refuseIf (boundary.asParams.any fun (key,value) =>
    (metadata.get? key).any fun field => field ≠ .text value) .boundaryMismatch

end Memora.Graph

namespace Memora.Graph

open RowTable

namespace GraphTables

variable (g : GraphTables) (entry : GraphEntry) (edge : GraphEdge) (id : ℕ)

def newNode (node : GraphNode) (boundary : GraphBoundary) : NodeRow where
  id
  nodeKey := node.nodeKey
  nodeType := node.nodeType
  nodeValue := node.value
  canonicalValue := node.canonicalValue
  boundary

def upsertNode (node : GraphNode) (boundary : GraphBoundary) :
    Except GraphError (GraphTables × ℕ) := do
  boundary.validateMetadata node.metadata
  let nodes := upsert NodeRow.key (node.nodeKey,boundary)
    (fun row => { row with nodeValue := node.value }) (newNode (g.lastNode+1) node boundary) g.nodes
  match nodes.find? fun row => row.key = (node.nodeKey,boundary) with
  | none => throw .nodeWriteFailed
  | some row => return ({ g with nodes, lastNode := max g.lastNode row.id },row.id)

def upsertNodes (nodes : List GraphNode) (boundary : GraphBoundary) :
    Except GraphError (GraphTables × Dict String ℕ) :=
  nodes.foldlM (fun (g,nodeKeyToId) node => do
    let (g,id) ← g.upsertNode node boundary
    return (g,nodeKeyToId.set node.nodeKey id)) (g,{})

def validateNodeBoundary (nodeIds : List ℕ) (boundary : GraphBoundary) :
    Except GraphError Unit :=
  refuseIf (g.nodes.countP (fun row => row.id ∈ nodeIds && row.boundary = boundary) ≠
    nodeIds.dedup.length) .boundaryMismatch

def newSemanticEdge (edge : GraphEdge) (boundary : GraphBoundary) : SemanticEdgeRow where
  id
  semanticKey := edge.semanticKey
  scopeKey := boundary.scopeKey
  privacyLevel := boundary.privacyLevel
  sourceNodeKey := edge.sourceKey
  targetNodeKey := edge.targetKey
  relationType := edge.relationType
  weight := edge.weight
  confidence := edge.confidence
  status := edge.status

/-- The aggregate of a known semantic edge only grows. -/
def grownBy (row : SemanticEdgeRow) : SemanticEdgeRow :=
  { row with
    weight := max row.weight edge.weight
    confidence := max row.confidence edge.confidence
    status := if edge.status = "active" then "active" else row.status }

def upsertSemanticEdge (boundary : GraphBoundary) : Except GraphError (GraphTables × ℕ) :=
  let semanticEdges := upsert SemanticEdgeRow.key (edge.semantic boundary) (grownBy edge)
    (newSemanticEdge (g.lastSemanticEdge+1) edge boundary) g.semanticEdges
  match semanticEdges.find? fun row => row.key = edge.semantic boundary with
  | none => throw .semanticEdgeWriteFailed
  | some row =>
    return ({ g with semanticEdges, lastSemanticEdge := max g.lastSemanticEdge row.id },row.id)

def evidenceWrittenBy (semanticEdgeId : ℕ) (row : EdgeRow) : EdgeRow :=
  { row with
    weight := edge.weight
    confidence := edge.confidence
    status := edge.status
    semanticEdgeId
    evidenceKind := if edge.evidenceKind = "" then "structured_relation" else edge.evidenceKind
    bindingKey := if edge.bindingKey = "" then edge.semanticKey else edge.bindingKey }

def newEvidence (edge : GraphEdge) (key : EvidenceKey) (semanticEdgeId : ℕ) : EdgeRow :=
  evidenceWrittenBy edge semanticEdgeId {
    id
    edgeKey := edge.edgeKey
    sourceNodeId := key.sourceNodeId
    targetNodeId := key.targetNodeId
    relationType := key.relationType
    sourceMemoryId := key.sourceMemoryId
    weight := 1
    confidence := 4 / 5
    status := "active"
    boundary := key.boundary
    semanticEdgeId
    evidenceKind := ""
    bindingKey := "" }

def addEdge (sourceNodeId targetNodeId : ℕ) (boundary : GraphBoundary) :
    Except GraphError (GraphTables × ℕ) := do
  boundary.validateMetadata edge.metadata
  g.validateNodeBoundary [sourceNodeId,targetNodeId] boundary
  let (g,semanticEdgeId) ← g.upsertSemanticEdge edge boundary
  let key : EvidenceKey := ⟨edge.sourceMemoryId,sourceNodeId,targetNodeId,edge.relationType,boundary⟩
  let edges := upsert EdgeRow.key key (evidenceWrittenBy edge semanticEdgeId)
    (newEvidence (g.lastEdge+1) edge key semanticEdgeId) g.edges
  match edges.find? fun row => row.key = key with
  | none => throw .edgeWriteFailed
  | some row => return ({ g with edges, lastEdge := max g.lastEdge row.id },row.id)

/-- An edge with an end that has no node is left out. -/
def addEdges (edges : List GraphEdge) (nodeKeyToId : Dict String ℕ) (boundary : GraphBoundary) :
    Except GraphError (GraphTables × Dict String ℕ) :=
  edges.foldlM (fun (g,edgeKeyToId) edge =>
    match nodeKeyToId.get? edge.sourceKey,nodeKeyToId.get? edge.targetKey with
    | some sourceNodeId,some targetNodeId => do
      let (g,id) ← g.addEdge edge sourceNodeId targetNodeId boundary
      return (g,edgeKeyToId.set edge.edgeKey id)
    | _,_ => return (g,edgeKeyToId)) (g,{})

def unlinkEntry : GraphTables :=
  { g with
    entriesFts := g.entriesFts.filter fun row => row.1 ≠ id
    entryNodes := g.entryNodes.filter fun row => row.1 ≠ id }

/-- `INSERT OR IGNORE` of the entry's nodes, and its full-text row. -/
def linkEntry (content : String) (nodeIds : List ℕ) : GraphTables :=
  { g with
    entriesFts := g.entriesFts++[(id,content)]
    entryNodes := g.entryNodes++(nodeIds.dedup.map fun nodeId => (id,nodeId)).filter (· ∉ g.entryNodes) }

def entryNodeIds (nodeKeyToId : Dict String ℕ) : List ℕ :=
  entry.nodeKeys.filterMap nodeKeyToId.get?

/-- An entry may only name an edge of its own source and boundary. -/
def ownsEdge (boundary : GraphBoundary) (edgeId : ℕ) :
    Bool :=
  g.edges.any fun row => row.id = edgeId && row.sourceMemoryId = entry.sourceMemoryId &&
  row.boundary = boundary

def entryWrittenBy (edgeId : Option ℕ) (row : EntryRow) : EntryRow :=
  { row with
    sessionId := entry.sessionId
    personaId := entry.personaId
    entryType := entry.entryType
    relationType := entry.relationType
    content := entry.content
    edgeId }

def newEntry (entry : GraphEntry) (edgeId : Option ℕ) (boundary : GraphBoundary) : EntryRow where
  id
  entryKey := entry.entryKey
  sourceMemoryId := entry.sourceMemoryId
  sessionId := entry.sessionId
  personaId := entry.personaId
  entryType := entry.entryType
  relationType := entry.relationType
  content := entry.content
  edgeId
  vectorDocId := none
  boundary

def addEntry (nodeKeyToId : Dict String ℕ) (edgeId : Option ℕ) (boundary : GraphBoundary) :
    Except GraphError (GraphTables × ℕ) := do
  boundary.validateMetadata entry.metadata
  let nodeIds := entryNodeIds entry nodeKeyToId
  g.validateNodeBoundary nodeIds boundary
  refuseIf (edgeId.any fun id => !g.ownsEdge entry boundary id) .boundaryMismatch
  match g.entries.find? fun row => row.key = ⟨entry.entryKey,entry.sourceMemoryId,boundary⟩ with
  | some row =>
    let entries := modify (fun r => r.id = row.id) (entryWrittenBy entry edgeId) g.entries
    return (({ g with entries }.unlinkEntry row.id).linkEntry row.id entry.content nodeIds,row.id)
  | none =>
    let id := g.lastEntry+1
    let entries := g.entries++[newEntry id entry edgeId boundary]
    return ({ g with entries, lastEntry := id }.linkEntry id entry.content nodeIds,id)

/-- The edge that an entry names: the one between its first two nodes. -/
def entryEdge (edgeKeyToId : Dict String ℕ) : Option ℕ :=
  match entry.relationType, entry.nodeKeys with
  | some relationType, first::second::_ =>
    if relationType = "" then none
    else edgeKeyToId.get? (edgeKeyOf first relationType second entry.sourceMemoryId)
  | _, _ => none

def addEntries (entries : List GraphEntry) (nodeKeyToId edgeKeyToId : Dict String ℕ)
    (boundary : GraphBoundary) : Except GraphError (GraphTables × List ℕ) :=
  entries.foldlM (fun (g,entryIds) entry => do
    let (g,id) ← g.addEntry entry nodeKeyToId (entryEdge entry edgeKeyToId) boundary
    return (g,entryIds++[id])) (g,[])

def updateEntryVectorDocIds (entryVectorDocIds : Dict ℕ ℕ) (boundary : GraphBoundary) :
    GraphTables :=
  { g with
    entries := entryVectorDocIds.entries.foldl (fun rows (entryId,vectorDocId) =>
      modify (fun row => row.id = entryId && row.boundary = boundary)
        (fun row => { row with vectorDocId := some vectorDocId }) rows) g.entries }

end GraphTables

end Memora.Graph

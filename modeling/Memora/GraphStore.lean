import Memora.GraphCrud

/-! A statement that the code splits into batches of identifiers is one statement here, and the
order and the repetitions of the identifiers make no difference to it. Every operation is one
transaction: when it raises, the tables stay as they were. -/
namespace Memora.Graph

open RowTable

def inScope (boundary : Option GraphBoundary) (rowBoundary : GraphBoundary) : Bool :=
  boundary.all fun b => rowBoundary = b

namespace GraphTables

variable (g : GraphTables)

def deleteEntriesById (entryIds : List ℕ) : GraphTables :=
  { g with
    entriesFts := g.entriesFts.filter fun row => row.1 ∉ entryIds
    entryNodes := g.entryNodes.filter fun row => row.1 ∉ entryIds
    entries := g.entries.filter fun row => row.id ∉ entryIds }

/-- The entries that name a deleted edge go with it, and with them
their entry-node rows; the full-text table has no foreign key. -/
def deleteSourceEvidence (edgeIds : List ℕ) : GraphTables :=
  let entries := g.entries.filter fun row => row.edgeId.all (· ∉ edgeIds)
  { g with
    edges := g.edges.filter fun row => row.id ∉ edgeIds
    entries
    entryNodes := g.entryNodes.filter fun row =>
      g.entries.all fun entry => entry.id = row.1 → entry ∈ entries }

variable (sourceMemoryIds : List ℕ) (boundary : Option GraphBoundary)

def ownEntries :
    List EntryRow :=
  g.entries.filter fun row => row.sourceMemoryId ∈ sourceMemoryIds && inScope boundary row.boundary

def ownEdges :
    List EdgeRow :=
  g.edges.filter fun row => row.sourceMemoryId ∈ sourceMemoryIds && inScope boundary row.boundary

def deleteMemoriesRows : GraphTables :=
  (g.deleteEntriesById ((g.ownEntries sourceMemoryIds boundary).map
    EntryRow.id)).deleteSourceEvidence
    ((g.ownEdges sourceMemoryIds boundary).map EdgeRow.id)

def affectedSemanticIds : List ℕ :=
  (g.ownEdges sourceMemoryIds boundary).map EdgeRow.semanticEdgeId

def vectorDocIds : Dict ℕ (List ℕ) :=
  (g.ownEntries sourceMemoryIds boundary).foldl (fun result row =>
    match row.vectorDocId with
    | some vectorDocId =>
      result.set row.sourceMemoryId ((result.get? row.sourceMemoryId).getD []++[vectorDocId])
    | none => result) {}

def evidenceOf (semanticEdgeId : ℕ) : List EdgeRow :=
  g.edges.filter fun row => row.semanticEdgeId = semanticEdgeId

/-- The aggregate of the evidence that is left; there is some, since a semantic edge without any
has been deleted before. -/
def aggregated (row : SemanticEdgeRow) : SemanticEdgeRow :=
  { row with
    weight := ((g.evidenceOf row.id).map EdgeRow.weight).max?.getD row.weight
    confidence := ((g.evidenceOf row.id).map EdgeRow.confidence).max?.getD row.confidence
    status :=
      if (g.evidenceOf row.id).any fun evidence => evidence.status = "active" then "active"
      else "inactive" }

def refreshSemanticEdges (semanticEdgeIds : List ℕ) : GraphTables :=
  { g with
    semanticEdges := modify (fun row => row.id ∈ semanticEdgeIds) g.aggregated
      (g.semanticEdges.filter fun row => row.id ∉ semanticEdgeIds || g.evidenceOf row.id ≠ []) }

def nodeInUse (nodeId : ℕ) : Bool :=
  (g.edges.any fun row => row.sourceNodeId = nodeId || row.targetNodeId = nodeId) ||
    g.entryNodes.any fun row => row.2 = nodeId

/-- No row refers to what is deleted, so nothing goes with it. -/
def deleteOrphanNodes : GraphTables :=
  { g with nodes := g.nodes.filter fun row => g.nodeInUse row.id || !inScope boundary row.boundary }

def deleteMemories : GraphTables :=
  ((g.deleteMemoriesRows sourceMemoryIds boundary).refreshSemanticEdges
    (g.affectedSemanticIds sourceMemoryIds boundary)).deleteOrphanNodes boundary

def deleteMemory (sourceMemoryId : ℕ) (boundary : GraphBoundary) : GraphTables × List ℕ :=
  (g.deleteMemories [sourceMemoryId] (some boundary),
    ((g.vectorDocIds [sourceMemoryId] (some boundary)).get? sourceMemoryId).getD [])

def batchDeleteMemories (boundary : GraphBoundary) : GraphTables × Dict ℕ (List ℕ) :=
  if sourceMemoryIds = [] then (g,{})
  else (g.deleteMemories sourceMemoryIds (some boundary),
    g.vectorDocIds sourceMemoryIds (some boundary))

/-- The rows of every revision. -/
def reapSourceGraphs : GraphTables :=
  if sourceMemoryIds = [] then g else g.deleteMemories sourceMemoryIds none

end GraphTables

end Memora.Graph

namespace Memora.Graph

namespace GraphTables

def replaceMemoryGraph (g : GraphTables) (sourceMemoryId : ℕ) (nodes : List GraphNode)
    (edges : List GraphEdge) (entries : List GraphEntry) (boundary : GraphBoundary) :
    Except GraphError (GraphTables × List ℕ) := do
  refuseIf ((edges.any fun edge => edge.sourceMemoryId ≠ sourceMemoryId) ||
    entries.any fun entry => entry.sourceMemoryId ≠ sourceMemoryId) .boundaryMismatch
  let affected := g.affectedSemanticIds [sourceMemoryId] none
  let g := g.deleteMemoriesRows [sourceMemoryId] none
  let (g,nodeKeyToId) ← g.upsertNodes nodes boundary
  let (g,edgeKeyToId) ← g.addEdges edges nodeKeyToId boundary
  let (g,entryIds) ← g.addEntries entries nodeKeyToId edgeKeyToId boundary
  return ((g.refreshSemanticEdges affected).deleteOrphanNodes none,entryIds)

end GraphTables

/-- `upsert_node`, `add_entry` and `update_entry_vector_doc_id` are the cases of one product. -/
inductive Operation
  | upsertNodes (nodes : List GraphNode) (boundary : GraphBoundary)
  | addEdge (edge : GraphEdge) (nodeKeyToId : Dict String ℕ) (boundary : GraphBoundary)
  | addEdges (edges : List GraphEdge) (nodeKeyToId : Dict String ℕ) (boundary : GraphBoundary)
  | addEntry (entry : GraphEntry) (nodeKeyToId : Dict String ℕ) (edgeId : Option ℕ)
      (boundary : GraphBoundary)
  | addEntries (entries : List GraphEntry) (nodeKeyToId edgeKeyToId : Dict String ℕ)
      (boundary : GraphBoundary)
  | updateEntryVectorDocIds (entryVectorDocIds : Dict ℕ ℕ) (boundary : GraphBoundary)
  | replaceMemoryGraph (sourceMemoryId : ℕ) (nodes : List GraphNode) (edges : List GraphEdge)
      (entries : List GraphEntry) (boundary : GraphBoundary)
  | deleteMemory (sourceMemoryId : ℕ) (boundary : GraphBoundary)
  | batchDeleteMemories (sourceMemoryIds : List ℕ) (boundary : GraphBoundary)
  | reapSourceGraphs (sourceMemoryIds : List ℕ)

/-- What an operation commits, or the error it raises. -/
def Operation.run (g : GraphTables) : Operation → Except GraphError GraphTables
  | .upsertNodes nodes boundary => return (← g.upsertNodes nodes boundary).1
  | .addEdge edge nodeKeyToId boundary =>
    match nodeKeyToId.get? edge.sourceKey, nodeKeyToId.get? edge.targetKey with
    | some sourceNodeId, some targetNodeId =>
      return (← g.addEdge edge sourceNodeId targetNodeId boundary).1
    | none, _ => throw (.keyError edge.sourceKey)
    | _, none => throw (.keyError edge.targetKey)
  | .addEdges edges nodeKeyToId boundary => return (← g.addEdges edges nodeKeyToId boundary).1
  | .addEntry entry nodeKeyToId edgeId boundary =>
    return (← g.addEntry entry nodeKeyToId edgeId boundary).1
  | .addEntries entries nodeKeyToId edgeKeyToId boundary =>
    return (← g.addEntries entries nodeKeyToId edgeKeyToId boundary).1
  | .updateEntryVectorDocIds entryVectorDocIds boundary =>
    return g.updateEntryVectorDocIds entryVectorDocIds boundary
  | .replaceMemoryGraph sourceMemoryId nodes edges entries boundary =>
    return (← g.replaceMemoryGraph sourceMemoryId nodes edges entries boundary).1
  | .deleteMemory sourceMemoryId boundary => return (g.deleteMemory sourceMemoryId boundary).1
  | .batchDeleteMemories sourceMemoryIds boundary =>
    return (g.batchDeleteMemories sourceMemoryIds boundary).1
  | .reapSourceGraphs sourceMemoryIds => return g.reapSourceGraphs sourceMemoryIds

def Operation.step (g : GraphTables) (op : Operation) : GraphTables :=
  match op.run g with
  | .ok g' => g'
  | .error _ => g

end Memora.Graph

import Memora.GraphReaping

/-! Writing an edge only raises the aggregate of its semantic edge, so that after a write the
aggregate is that of the evidence together with the values that were written over. It is the
aggregate of the evidence when each of those values is reached by a row that is left. -/
namespace Memora.Graph

open RowTable ExceptLaws GraphTables

variable {g g' : GraphTables} {boundary : GraphBoundary} {x : Support}

structure Support where
  key : SemanticKey
  weight : ℚ
  confidence : ℚ
  status : String
  deriving DecidableEq

def GraphEdge.support (edge : GraphEdge) (boundary : GraphBoundary) : Support :=
  ⟨edge.semantic boundary,edge.weight,edge.confidence,edge.status⟩

def GraphTables.supports (g : GraphTables) (p : EdgeRow → Bool) : List Support :=
  (g.edges.filter p).flatMap fun e =>
    (g.semanticEdges.filter fun m => m.id = e.semanticEdgeId).map fun m =>
      ⟨m.key,e.weight,e.confidence,e.status⟩

def Reached (supports : List Support) (x : Support) : Prop :=
  (∃ y ∈ supports, y.key = x.key ∧ x.weight ≤ y.weight) ∧
    (∃ y ∈ supports, y.key = x.key ∧ x.confidence ≤ y.confidence) ∧
      (x.status = "active" → ∃ y ∈ supports, y.key = x.key ∧ y.status = "active")

instance (supports : List Support) (x : Support) : Decidable (Reached supports x) :=
  inferInstanceAs (Decidable (_ ∧ _ ∧ _))

lemma reached_of_mem {supports : List Support} (h : x ∈ supports) :
    Reached supports x :=
  ⟨⟨x,h,rfl,le_rfl⟩,⟨x,h,rfl,le_rfl⟩,fun hactive => ⟨x,h,rfl,hactive⟩⟩

lemma Reached.mono {supports supports' : List Support} (h : Reached supports x)
    (hsub : supports ⊆ supports') : Reached supports' x := by
  obtain ⟨⟨y,hy,hrest⟩,⟨z,hz,hrest'⟩,hactive⟩ := h
  refine ⟨⟨y,hsub hy,hrest⟩,⟨z,hsub hz,hrest'⟩,?_⟩
  intro hx
  obtain ⟨w,hw,hrest''⟩ := hactive hx
  exact ⟨w,hsub hw,hrest''⟩

lemma mem_supports {p : EdgeRow → Bool} : x ∈ g.supports p ↔
    ∃ e ∈ g.edges, p e = true ∧ ∃ m ∈ g.semanticEdges, m.id = e.semanticEdgeId ∧
      x = ⟨m.key,e.weight,e.confidence,e.status⟩ := by
  simp only [GraphTables.supports,List.mem_flatMap,List.mem_filter,List.mem_map,
    decide_eq_true_eq,and_assoc]
  constructor
  · rintro ⟨e,he,hp,m,hm,hid,rfl⟩
    exact ⟨e,he,hp,m,hm,hid,rfl⟩
  · rintro ⟨e,he,hp,m,hm,hid,rfl⟩
    exact ⟨e,he,hp,m,hm,hid,rfl⟩

def resolves (nodeKeyToId : Dict String ℕ) (edge : GraphEdge) : Bool :=
  (nodeKeyToId.get? edge.sourceKey).isSome && (nodeKeyToId.get? edge.targetKey).isSome

def evidenceKey (nodeKeyToId : Dict String ℕ) (boundary : GraphBoundary) (edge : GraphEdge) :
    EvidenceKey where
  sourceMemoryId := edge.sourceMemoryId
  sourceNodeId := (nodeKeyToId.get? edge.sourceKey).getD 0
  targetNodeId := (nodeKeyToId.get? edge.targetKey).getD 0
  relationType := edge.relationType
  boundary := boundary

structure Carries (g : GraphTables) (e : EdgeRow) (edge : GraphEdge) (boundary : GraphBoundary) :
    Prop where
  weight : e.weight = edge.weight
  confidence : e.confidence = edge.confidence
  status : e.status = edge.status
  semantic : ∃ m ∈ g.semanticEdges, m.id = e.semanticEdgeId ∧ m.key = edge.semantic boundary

variable {edge : GraphEdge}

lemma Carries.mono {e : EdgeRow} (h : Carries g e edge boundary)
    (hstay : SemanticStay g.semanticEdges g'.semanticEdges) : Carries g' e edge boundary := by
  obtain ⟨m,hm,hid,hkey⟩ := h.semantic
  obtain ⟨m',hm',hid',hkey'⟩ := hstay m hm
  exact ⟨h.weight,h.confidence,h.status,m',hm',hid'.trans hid,hkey'.trans hkey⟩

structure Tracked (g : GraphTables) (seen : Set EdgeRow) (exempt : ℕ → Prop) : Prop where
  edges : g.evidence ⊆ seen
  known : ∀ e ∈ seen, e.semanticEdgeId ≤ g.lastSemanticEdge
  aggregates : ∀ m ∈ g.semanticEdges, ¬exempt m.id → Aggregates seen m

variable {seen : Set EdgeRow} {row : EdgeRow} {i : ℕ}

lemma evidenceFor_insert_of_ne (h : row.semanticEdgeId ≠ i) :
    evidenceFor (insert row seen) i = evidenceFor seen i := by
  ext e
  constructor
  · rintro ⟨rfl | he,hid⟩
    · exact absurd hid h
    · exact ⟨he,hid⟩
  · rintro ⟨he,hid⟩
    exact ⟨.inr he,hid⟩

lemma evidenceFor_insert (h : row.semanticEdgeId = i) :
    evidenceFor (insert row seen) i = insert row (evidenceFor seen i) := by
  ext e
  constructor
  · rintro ⟨rfl | he,hid⟩
    · exact .inl rfl
    · exact .inr ⟨he,hid⟩
  · rintro (rfl | ⟨he,hid⟩)
    · exact ⟨.inl rfl,h⟩
    · exact ⟨.inr he,hid⟩

variable {m : SemanticEdgeRow}

lemma aggregates_insert (h : Aggregates seen m) (hrow : row.semanticEdgeId = m.id)
    (hweight : row.weight = edge.weight) (hconfidence : row.confidence = edge.confidence)
    (hstatus : row.status = edge.status) : Aggregates (insert row seen) (grownBy edge m) where
  weight := by
    change IsGreatest (_ '' evidenceFor _ m.id) (max m.weight edge.weight)
    rw [evidenceFor_insert hrow,Set.image_insert_eq,max_comm,← hweight]
    exact h.weight.insert row.weight
  confidence := by
    change IsGreatest (_ '' evidenceFor _ m.id) (max m.confidence edge.confidence)
    rw [evidenceFor_insert hrow,Set.image_insert_eq,max_comm,← hconfidence]
    exact h.confidence.insert row.confidence
  status := by
    change (if edge.status = "active" then "active" else m.status) = "active" ↔
      ∃ e ∈ evidenceFor _ m.id, e.status = "active"
    rw [evidenceFor_insert hrow,Set.exists_mem_insert,hstatus,← h.status]
    by_cases hactive : edge.status = "active"
    · simp [hactive]
    · simp [hactive]

lemma aggregates_first (hnone : evidenceFor seen i = ∅) (hrow : row.semanticEdgeId = i)
    (hweight : row.weight = edge.weight) (hconfidence : row.confidence = edge.confidence)
    (hstatus : row.status = edge.status) : Aggregates (insert row seen)
    (newSemanticEdge i edge boundary) := by
  have hfor : evidenceFor (insert row seen) (newSemanticEdge i edge boundary).id = {row} := by
    rw [show (newSemanticEdge i edge boundary).id = i from rfl,evidenceFor_insert hrow,hnone]
    simp
  constructor
  · rw [hfor,Set.image_singleton,hweight]
    exact isGreatest_singleton
  · rw [hfor,Set.image_singleton,hconfidence]
    exact isGreatest_singleton
  · rw [hfor]
    simp [newSemanticEdge,hstatus]

lemma Tracked.add {exempt : ℕ → Prop} {key : EvidenceKey} (h : Tracked g seen exempt)
    (hadded : EdgeAdded g edge key row m g') : Tracked g' (insert row seen) exempt := by
  have hlast := hadded.lastSemanticEdge
  refine ⟨?_,?_,?_⟩
  · intro e he
    rcases (hadded.edges e).mp he with ⟨he,-⟩ | rfl
    · exact .inr (h.edges he)
    · exact .inl rfl
  · rintro e (rfl | he)
    · rw [hadded.semantic,hlast]
      exact le_max_right _ _
    · rw [hlast]
      exact (h.known e he).trans (le_max_left _ _)
  · intro x hx hexempt
    have hmem : m ∈ g'.semanticEdges := (hadded.semanticEdges m).mpr (.inr rfl)
    rcases (hadded.semanticEdges x).mp hx with ⟨hx',hkey⟩ | rfl
    · have hne : row.semanticEdgeId ≠ x.id := by
        intro heq
        have hsame : x = m := eq_of_key_eq hadded.sound.semanticEdges.nodup hx hmem
          (heq.symm.trans hadded.semantic)
        exact hkey (hsame ▸ hadded.supported.key)
      exact (h.aggregates x hx' hexempt).congr (evidenceFor_insert_of_ne hne)
    · cases hadded.supported with
      | grown m₀ hm₀ _ heq =>
        subst heq
        exact aggregates_insert (h.aggregates m₀ hm₀ hexempt) hadded.semantic hadded.weight
          hadded.confidence hadded.status
      | added _ heq =>
        subst heq
        apply aggregates_first ?_ hadded.semantic hadded.weight hadded.confidence hadded.status
        ext e
        constructor
        · rintro ⟨he,hid⟩
          have hle := h.known e he
          have hid : e.semanticEdgeId = g.lastSemanticEdge+1 := hid
          omega
        · rintro ⟨⟩

/-- What writing a list of edges does: rows under other keys stay, the last edge under each key is
there, and whatever was seen on the way is an old row or carries one of the edges. -/
structure EdgesWritten (g : GraphTables) (key : GraphEdge → EvidenceKey) (writes : List GraphEdge)
    (boundary : GraphBoundary) (g' : GraphTables) : Prop where
  sound : g'.Sound
  stay : SemanticStay g.semanticEdges g'.semanticEdges
  kept : ∀ e ∈ g.edges, (∀ w ∈ writes, key w ≠ e.key) → e ∈ g'.edges
  last : ∀ w ∈ lastWrites key writes, ∃ e ∈ g'.edges, e.key = key w ∧ Carries g' e w boundary
  ends : ∀ e ∈ g.edges, ∃ e' ∈ g'.edges, e'.key = e.key
  tracked : ∀ seen exempt, Tracked g seen exempt → ∃ seen', Tracked g' seen' exempt ∧
    ∀ e ∈ seen', e ∈ seen ∨ ∃ w ∈ writes, Carries g' e w boundary
  rest : ∃ edges lastEdge semanticEdges lastSemanticEdge,
    g' = { g with edges, lastEdge, semanticEdges, lastSemanticEdge }

lemma EdgesWritten.nil (hs : g.Sound) (key : GraphEdge → EvidenceKey) :
    EdgesWritten g key [] boundary g where
  sound := hs
  stay := .refl _
  kept := fun e he _ => he
  last := by simp [lastWrites]
  ends := fun e he => ⟨e,he,rfl⟩
  tracked := fun seen exempt h => ⟨seen,h,fun e he => .inl he⟩
  rest := ⟨_,_,_,_,rfl⟩

variable {key : GraphEdge → EvidenceKey} {writes : List GraphEdge}

lemma EdgesWritten.cons {g₁ : GraphTables} (hboundary : (key edge).boundary = boundary)
    (hadded : EdgeAdded g edge (key edge) row m g₁) (h : EdgesWritten g₁ key writes boundary g') :
    EdgesWritten g key (edge::writes) boundary g' := by
  have hrow : row ∈ g₁.edges := (hadded.edges row).mpr (.inr rfl)
  have hcarries : Carries g₁ row edge boundary := ⟨hadded.weight,hadded.confidence,hadded.status,m,
      (hadded.semanticEdges m).mpr (.inr rfl),hadded.semantic.symm, hboundary ▸ hadded.supported.key⟩
  refine ⟨h.sound,hadded.stay.trans h.stay,?_,?_,?_,?_,?_⟩
  · intro e he hother
    have hkept : e ∈ g₁.edges := (hadded.edges e).mpr (.inl ⟨he,(hother edge List.mem_cons_self).symm⟩)
    exact h.kept e hkept fun w hw => hother w (List.mem_cons_of_mem _ hw)
  · intro w hw
    rw [lastWrites] at hw
    split at hw
    · exact h.last w hw
    · rename_i hlater
      rcases List.mem_cons.mp hw with rfl | hw
      · have hkept := h.kept row hrow fun w' hw' heq =>
          hlater (List.any_eq_true.mpr ⟨w',hw',by rw [heq,hadded.rowKey]; simp⟩)
        exact ⟨row,hkept,hadded.rowKey,hcarries.mono h.stay⟩
      · exact h.last w hw
  · intro e he
    have hfirst : ∃ e₁ ∈ g₁.edges, e₁.key = e.key := by
      by_cases hkey : e.key = key edge
      · exact ⟨row,hrow,hadded.rowKey.trans hkey.symm⟩
      · exact ⟨e,(hadded.edges e).mpr (.inl ⟨he,hkey⟩),rfl⟩
    obtain ⟨e₁,he₁,hkey₁⟩ := hfirst
    obtain ⟨e',he',hkey'⟩ := h.ends e₁ he₁
    exact ⟨e',he',hkey'.trans hkey₁⟩
  · intro seen exempt hseen
    obtain ⟨seen',htracked,hsource⟩ := h.tracked _ _ (hseen.add hadded)
    refine ⟨seen',htracked,?_⟩
    intro e he
    rcases hsource e he with (rfl | he) | ⟨w,hw,hcarries'⟩
    · exact .inr ⟨edge,List.mem_cons_self,hcarries.mono h.stay⟩
    · exact .inl he
    · exact .inr ⟨w,List.mem_cons_of_mem _ hw,hcarries'⟩
  · obtain ⟨_,_,_,_,rfl⟩ := hadded.rest
    obtain ⟨_,_,_,_,rfl⟩ := h.rest
    exact ⟨_,_,_,_,rfl⟩

lemma addEdges_written {edges : List GraphEdge} {nodeKeyToId edgeKeyToId : Dict String ℕ}
    (hs : g.Sound) (h : g.addEdges edges nodeKeyToId boundary = .ok (g',edgeKeyToId)) :
    EdgesWritten g (evidenceKey nodeKeyToId boundary) (edges.filter (resolves nodeKeyToId)) boundary
      g' := by
  unfold GraphTables.addEdges at h
  generalize ({} : Dict String ℕ) = start at h
  induction edges generalizing g start with
  | nil =>
    cases h
    exact .nil hs _
  | cons edge edges ih =>
    rw [List.foldlM_cons] at h
    obtain ⟨⟨g₁,start₁⟩,hfirst,hrest⟩ := bind_ok h
    cases hsource : nodeKeyToId.get? edge.sourceKey with
    | none =>
      rw [hsource] at hfirst
      obtain ⟨rfl,-⟩ := Prod.mk.inj (Except.ok.inj hfirst)
      rw [List.filter_cons_of_neg (by simp [resolves,hsource])]
      exact ih hs start₁ hrest
    | some sourceNodeId =>
      cases htarget : nodeKeyToId.get? edge.targetKey with
      | none =>
        rw [hsource,htarget] at hfirst
        obtain ⟨rfl,-⟩ := Prod.mk.inj (Except.ok.inj hfirst)
        rw [List.filter_cons_of_neg (by simp [resolves,htarget])]
        exact ih hs start₁ hrest
      | some targetNodeId =>
        rw [hsource,htarget] at hfirst
        obtain ⟨⟨g₂,id⟩,hadd,hfirst⟩ := bind_ok hfirst
        obtain ⟨rfl,-⟩ := Prod.mk.inj (Except.ok.inj hfirst)
        obtain ⟨row,m,hadded⟩ := addEdge_ok hs hadd
        rw [List.filter_cons_of_pos (by simp [resolves,hsource,htarget])]
        have hkey : evidenceKey nodeKeyToId boundary edge =
            ⟨edge.sourceMemoryId,sourceNodeId,targetNodeId,edge.relationType,boundary⟩ := by
          simp [evidenceKey,hsource,htarget]
        exact .cons rfl (hkey ▸ hadded) (ih hadded.sound start₁ hrest)

def GraphTables.supportsAfter (g : GraphTables) (key : GraphEdge → EvidenceKey)
    (writes : List GraphEdge) (boundary : GraphBoundary) : List Support :=
  g.supports (fun e => writes.all fun w => key w ≠ e.key) ++
    (lastWrites key writes).map fun w => w.support boundary

lemma semantic_unique (hs : g.Sound) {m m' : SemanticEdgeRow} (hm : m ∈ g.semanticEdges)
    (hm' : m' ∈ g.semanticEdges) (h : m.key = m'.key) : m = m' :=
  eq_of_key_eq hs.semanticKeys hm hm' h

lemma EdgesWritten.evidence (h : EdgesWritten g key writes boundary g')
    (hm : m ∈ g'.semanticEdges) {y : Support} (hy : y ∈ g.supportsAfter key writes boundary)
    (hkey : y.key = m.key) :
    ∃ e ∈ evidenceFor g'.evidence m.id, e.weight = y.weight ∧ e.confidence = y.confidence ∧
      e.status = y.status := by
  rcases List.mem_append.mp hy with hy | hy
  · obtain ⟨e,he,hkept,m₀,hm₀,hid,rfl⟩ := mem_supports.mp hy
    obtain ⟨m',hm',hid',hkey'⟩ := h.stay m₀ hm₀
    obtain rfl : m' = m := semantic_unique h.sound hm' hm (hkey'.trans hkey)
    refine ⟨e,⟨h.kept e he ?_,hid.symm.trans hid'.symm⟩,rfl,rfl,rfl⟩
    simpa using hkept
  · obtain ⟨w,hw,rfl⟩ := List.mem_map.mp hy
    obtain ⟨e,he,-,hcarries⟩ := h.last w hw
    obtain ⟨m',hm',hid',hkey'⟩ := hcarries.semantic
    obtain rfl : m' = m := semantic_unique h.sound hm' hm (hkey'.trans hkey)
    exact ⟨e,⟨he,hid'.symm⟩,hcarries.weight,hcarries.confidence,hcarries.status⟩

def Settled (g : GraphTables) (key : GraphEdge → EvidenceKey) (writes : List GraphEdge)
    (boundary : GraphBoundary) (exempt : List SemanticKey) : Prop :=
  ∀ x ∈ g.supports (fun _ => true)++writes.map fun w => w.support boundary,
    x.key ∈ exempt ∨ Reached (g.supportsAfter key writes boundary) x

instance (g : GraphTables) (key : GraphEdge → EvidenceKey) (writes : List GraphEdge)
    (boundary : GraphBoundary) (exempt : List SemanticKey) :
    Decidable (Settled g key writes boundary exempt) :=
  inferInstanceAs (Decidable (∀ x ∈ _, _))

lemma EdgesWritten.aggregates {exemptKeys : List SemanticKey} (exempt : ℕ → Prop)
    (h : EdgesWritten g key writes boundary g') (hs : g.Sound)
    (hkeys : ∀ k ∈ exemptKeys, ∃ m ∈ g.semanticEdges, m.key = k ∧ exempt m.id)
    (hbefore : ∀ m ∈ g.semanticEdges, ¬exempt m.id → Aggregates g.evidence m)
    (hsettled : Settled g key writes boundary exemptKeys) :
    ∀ m ∈ g'.semanticEdges, ¬exempt m.id → Aggregates g'.evidence m := by
  have hstart : Tracked g g.evidence exempt := by
    refine ⟨subset_rfl,?_,hbefore⟩
    intro e he
    obtain ⟨m,hm,hid,-⟩ := hs.supported e he
    rw [← hid]
    exact hs.semanticEdges.le_last m hm
  obtain ⟨seen,htracked,hsource⟩ := h.tracked _ _ hstart
  intro m hm hexempt
  have hseen := htracked.aggregates m hm hexempt
  have hsub : evidenceFor g'.evidence m.id ⊆ evidenceFor seen m.id :=
    fun e he => ⟨htracked.edges he.1,he.2⟩
  -- every value that was seen is a support before the writes or one of them
  have hreached : ∀ e ∈ evidenceFor seen m.id,
      Reached (g.supportsAfter key writes boundary) ⟨m.key,e.weight,e.confidence,e.status⟩ := by
    intro e he
    have hmem : (⟨m.key,e.weight,e.confidence,e.status⟩ : Support) ∈
        g.supports (fun _ => true)++writes.map fun w => w.support boundary := by
      rw [List.mem_append]
      rcases hsource e he.1 with hold | ⟨w,hw,hcarries⟩
      · left
        obtain ⟨m₀,hm₀,hid,-⟩ := hs.supported e hold
        obtain ⟨m',hm',hid',hkey'⟩ := h.stay m₀ hm₀
        obtain rfl : m' = m := eq_of_key_eq h.sound.semanticEdges.nodup hm' hm (hid'.trans (hid.trans he.2))
        exact mem_supports.mpr ⟨e,hold,rfl,m₀,hm₀,hid,by rw [hkey']⟩
      · right
        obtain ⟨m',hm',hid',hkey'⟩ := hcarries.semantic
        obtain rfl : m' = m := eq_of_key_eq h.sound.semanticEdges.nodup hm' hm (hid'.trans he.2)
        refine List.mem_map.mpr ⟨w,hw,?_⟩
        rw [GraphEdge.support,hkey',hcarries.weight,hcarries.confidence,hcarries.status]
    rcases hsettled _ hmem with hk | hreached
    · obtain ⟨m₀,hm₀,hkey₀,hexempt₀⟩ := hkeys _ hk
      obtain ⟨m',hm',hid',hkey'⟩ := h.stay m₀ hm₀
      obtain rfl : m' = m := semantic_unique h.sound hm' hm (hkey'.trans hkey₀)
      exact absurd (hid' ▸ hexempt₀) hexempt
    · exact hreached
  constructor
  · apply isGreatest_of_reached hseen.weight (Set.image_mono hsub)
    rintro _ ⟨e,he,rfl⟩
    obtain ⟨⟨y,hy,hkey,hle⟩,-,-⟩ := hreached e he
    obtain ⟨e',he',hweight,-,-⟩ := h.evidence hm hy hkey
    exact ⟨e'.weight,⟨e',he',rfl⟩,hweight ▸ hle⟩
  · apply isGreatest_of_reached hseen.confidence (Set.image_mono hsub)
    rintro _ ⟨e,he,rfl⟩
    obtain ⟨-,⟨y,hy,hkey,hle⟩,-⟩ := hreached e he
    obtain ⟨e',he',-,hconfidence,-⟩ := h.evidence hm hy hkey
    exact ⟨e'.confidence,⟨e',he',rfl⟩,hconfidence ▸ hle⟩
  · rw [hseen.status]
    constructor
    · rintro ⟨e,he,hactive⟩
      obtain ⟨-,-,hstatus⟩ := hreached e he
      obtain ⟨y,hy,hkey,hyactive⟩ := hstatus hactive
      obtain ⟨e',he',-,-,hstatus'⟩ := h.evidence hm hy hkey
      exact ⟨e',he',hstatus'.trans hyactive⟩
    · rintro ⟨e,he,hactive⟩
      exact ⟨e,hsub he,hactive⟩

end Memora.Graph

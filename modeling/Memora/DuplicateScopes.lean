import Memora.RepresentationModels

/-! A new memory is compared with stored ones by its words or by a vector search. Only a stored
memory of the same session, persona, scope and privacy may be taken for its duplicate. -/
namespace Memora.Duplicates
open Canonical (pythonStrip)
open Memora.Representation (Json Metadata recallable blank)

structure DedupDocument where
  memoryId : ℤ
  content : String
  metadata : Metadata

structure DedupScope where
  sessionId : String
  personaId : Option String
  scopeKey : String
  privacyLevel : String
  chatType : Option String
  participantIds : Finset String
  deriving DecidableEq

/-- A missing field is None. -/
def text : Option Json → Option String
  | some (.str s) => if pythonStrip s = "" then none else some (pythonStrip s)
  | _ => none

def isNone : Option Json → Bool
  | none => true
  | some .null => true
  | _ => false

/-- A field that may be missing; none where it is there and no text. -/
def optionalText (value : Option Json) : Option (Option String) :=
  match text value with
  | some s => some (some s)
  | none => if isNone value then some none else none

def participantIds : Option Json → Option (Finset String)
  | none => some ∅
  | some .null => some ∅
  | some (.arr items) => (items.mapM fun item => text (some item)).map List.toFinset
  | _ => none

def buildScope (scopeKey privacyLevel chatType sessionId personaId participants : Option Json) :
    Option DedupScope := do
  let scope ← text scopeKey
  let privacy ← text privacyLevel
  let session ← text sessionId
  let persona ← optionalText personaId
  let chat ← optionalText chatType
  let ids ← participantIds participants
  some ⟨session,persona,scope,privacy,chat,ids⟩

def candidateScope (metadata : Metadata) (sessionId : String) (personaId : Option String) :
    Option DedupScope :=
  buildScope (metadata.get? "scope_key") (metadata.get? "privacy_level") (metadata.get? "chat_type")
    (some (.str sessionId)) (personaId.map .str) (metadata.get? "participant_ids")

def storedScope (metadata : Metadata) : Option DedupScope :=
  buildScope (metadata.get? "scope_key") (metadata.get? "privacy_level") (metadata.get? "chat_type")
    (metadata.get? "session_id") (metadata.get? "persona_id") (metadata.get? "participant_ids")

def needsParticipantBoundary (scope : DedupScope) : Bool :=
  scope.privacyLevel = "confidential" || scope.chatType = some "private"

def chatsDiffer (incoming stored : DedupScope) : Bool :=
  incoming.chatType.isSome && stored.chatType.isSome && incoming.chatType ≠ stored.chatType

def sameDedupScope (incoming stored : DedupScope) : Bool :=
  if incoming.sessionId ≠ stored.sessionId then false
  else if incoming.personaId ≠ stored.personaId then false
  else if incoming.scopeKey ≠ stored.scopeKey then false
  else if incoming.privacyLevel ≠ stored.privacyLevel then false
  else if chatsDiffer incoming stored then false
  else if needsParticipantBoundary incoming then
    decide (incoming.participantIds ∩ stored.participantIds).Nonempty
  else true

structure DetectOps (F : Type) where
  tokenizeCjkWords : String → List String
  zero : F
  ratio : ℕ → ℕ → F
  factJaccardFloor : F
  factMatchFloor : F
  factOverlapRatio : F
  isFinite : F → Bool

inductive NearDuplicateVerdict
  | hit | miss | factMismatch | factOverlap
  deriving DecidableEq

structure NearDuplicateOutcome (F : Type) where
  verdict : NearDuplicateVerdict
  document : Option DedupDocument := none
  score : F

variable {F : Type} [LinearOrder F] (ops : DetectOps F)

def jaccard (left right : Finset String) : F :=
  if left ∪ right = ∅ then ops.zero else ops.ratio (left ∩ right).card (left ∪ right).card

def factTokenSets (metadata : Metadata) : List (Finset String) :=
  match metadata.get? "key_facts" with
  | some (.arr facts) => (facts.filterMap fun fact => match fact with
      | .str s => some (ops.tokenizeCjkWords s).toFinset
      | _ => none).filter (· ≠ ∅)
  | _ => []

def factGuardPasses (incoming stored : Metadata) : Bool :=
  ops.factJaccardFloor ≤ jaccard ops ((factTokenSets ops incoming).foldl (· ∪ ·) ∅)
    ((factTokenSets ops stored).foldl (· ∪ ·) ∅)

def documentIsComparable (document : DedupDocument) (incoming : DedupScope)
    (minTokens : ℕ) : Bool :=
  0 < document.memoryId && recallable document.metadata &&
    minTokens ≤ (ops.tokenizeCjkWords document.content).length &&
    (storedScope document.metadata).any (sameDedupScope incoming)

def factCoverage (incomingFacts : List (Finset String)) (stored : Metadata) : F :=
  match factTokenSets ops stored with
  | [] => ops.zero
  | storedFacts => ops.ratio (incomingFacts.countP fun fact =>
      ops.factMatchFloor ≤ ((storedFacts.map (jaccard ops fact)).max?).getD ops.zero)
    incomingFacts.length

/-- `max` by the score, then by the smaller id; the first of equal items. -/
def best {α : Type} (score : α → F) (memoryId : α → ℤ) : List α → Option α
  | [] => none
  | a::items => match best score memoryId items with
    | none => some a
    | some b =>
      if score a < score b ∨ (score a = score b ∧ memoryId b < memoryId a) then some b else some a

/-- Coverage, score of the whole text, document. -/
def bestFactOverlap (metadata : Metadata) (evaluated : List (F × DedupDocument)) :
    Option (F × F × DedupDocument) :=
  match factTokenSets ops metadata with
  | [] => none
  | facts => best (·.1) (·.2.2.memoryId) ((evaluated.map fun item =>
      (factCoverage ops facts item.2.metadata,item)).filter fun item => ops.factOverlapRatio ≤ item.1)

structure DetectRequest (F : Type) where
  content : String
  metadata : Metadata
  sessionId : String
  personaId : Option String
  threshold : F
  candidateLimit : ℕ
  minTokens : ℕ

variable (request : DetectRequest F)

def DetectRequest.scope : Option DedupScope :=
  candidateScope request.metadata request.sessionId request.personaId

def detectNearDuplicate (documents : List DedupDocument) : NearDuplicateOutcome F :=
  let tokens := ops.tokenizeCjkWords request.content
  if tokens.length < request.minTokens then { verdict := .miss, score := ops.zero }
  else match request.scope with
    | none => { verdict := .miss, score := ops.zero }
    | some incoming =>
      let evaluated := (documents.filter fun d =>
        documentIsComparable ops d incoming request.minTokens).map fun d =>
          (jaccard ops tokens.toFinset (ops.tokenizeCjkWords d.content).toFinset,d)
      match best (·.1) (·.2.memoryId) (evaluated.filter fun item => request.threshold ≤ item.1) with
      | none => match bestFactOverlap ops request.metadata evaluated with
        | none => { verdict := .miss, score := ops.zero }
        | some (_,score,document) =>
          { verdict := .factOverlap, document := some document, score := score }
      | some (score,document) =>
        { verdict := if factGuardPasses ops request.metadata document.metadata then .hit
            else .factMismatch
          document := some document
          score := score }

def rankedCandidates (fetched : List (F × ℤ)) (threshold : F) : List (F × ℤ) :=
  (fetched.filter fun c => 0 < c.2 && ops.isFinite c.1 && threshold ≤ c.1).insertionSort
    fun a b => b.1 < a.1 ∨ (a.1 = b.1 ∧ a.2 ≤ b.2)

/-- The memory is read again. -/
def loadDocument (loadMemory : ℤ → Option (String × Metadata)) (incoming : DedupScope)
    (minTokens : ℕ) (memoryId : ℤ) : Option DedupDocument := do
  let (content,metadata) ← loadMemory memoryId
  let document : DedupDocument := ⟨memoryId,content,metadata⟩
  if !blank content && documentIsComparable ops document incoming minTokens then some document
  else none

/-- The document `detect_semantic_duplicate` decides for; `budget` tells whether a query is left. -/
def detectSemanticDuplicate (budget : Bool) (loadMemory : ℤ → Option (String × Metadata))
    (factEvidenceGuard : Metadata → Bool) (fetched : List (F × ℤ)) : Option (F × DedupDocument) :=
  match request.scope with
  | none => none
  | some incoming =>
    if blank request.content || !budget then none
    else ((rankedCandidates ops fetched request.threshold).take
      (max 1 request.candidateLimit)).findSome? fun (score,memoryId) => do
        let document ← loadDocument ops loadMemory incoming request.minTokens memoryId
        if factGuardPasses ops request.metadata document.metadata &&
            factEvidenceGuard document.metadata then some (score,document)
        else none

structure Bounded (incoming stored : DedupScope) : Prop where
  session : incoming.sessionId = stored.sessionId
  persona : incoming.personaId = stored.personaId
  scope : incoming.scopeKey = stored.scopeKey
  privacy : incoming.privacyLevel = stored.privacyLevel
  participants : needsParticipantBoundary incoming = true ∨ needsParticipantBoundary stored = true →
    (incoming.participantIds ∩ stored.participantIds).Nonempty

/-- Within one session, persona, scope and privacy, one side is a private chat and the other names
no chat type; they share no participant, and the privacy does not ask for one. -/
structure OneSided (incoming stored : DedupScope) : Prop where
  session : incoming.sessionId = stored.sessionId
  persona : incoming.personaId = stored.personaId
  scope : incoming.scopeKey = stored.scopeKey
  privacy : incoming.privacyLevel = stored.privacyLevel
  notConfidential : incoming.privacyLevel ≠ "confidential"
  apart : incoming.participantIds ∩ stored.participantIds = ∅
  chats : incoming.chatType = some "private" ∧ stored.chatType = none ∨
    incoming.chatType = none ∧ stored.chatType = some "private"

variable {incoming stored : DedupScope}

lemma sameDedupScope_iff : sameDedupScope incoming stored = true ↔
    incoming.sessionId = stored.sessionId ∧ incoming.personaId = stored.personaId ∧
      incoming.scopeKey = stored.scopeKey ∧ incoming.privacyLevel = stored.privacyLevel ∧
      chatsDiffer incoming stored = false ∧ (needsParticipantBoundary incoming = true →
        (incoming.participantIds ∩ stored.participantIds).Nonempty) := by
  unfold sameDedupScope
  split_ifs <;> simp_all

lemma OneSided.asymmetric (h : OneSided incoming stored) :
    sameDedupScope incoming stored ≠ sameDedupScope stored incoming := by
  intro hsymm
  have hinter : stored.participantIds ∩ incoming.participantIds = ∅ :=
    (Finset.inter_comm _ _).trans h.apart
  rw [Bool.eq_iff_iff,sameDedupScope_iff,sameDedupScope_iff,hinter,h.apart] at hsymm
  have hprivate : stored.privacyLevel ≠ "confidential" := h.privacy ▸ h.notConfidential
  rcases h.chats with ⟨hin,hout⟩ | ⟨hin,hout⟩
  all_goals simp [hin,hout,h.session,h.persona,h.scope,h.privacy,hprivate,chatsDiffer,
      needsParticipantBoundary] at hsymm

/-- Between memories that are not one-sided the comparison is symmetric and keeps the boundary. -/
theorem sameDedupScope_safe (h : ¬ OneSided incoming stored) :
    sameDedupScope incoming stored = sameDedupScope stored incoming ∧
      (sameDedupScope incoming stored = true → Bounded incoming stored) := by
  have hboth : ∀ a b : DedupScope, ¬ OneSided a b → ¬ OneSided b a →
      sameDedupScope a b = true → Bounded a b ∧ sameDedupScope b a = true := by
    intro a b hab hba hsame
    obtain ⟨hsession,hpersona,hscope,hprivacy,hchats,hshared⟩ := sameDedupScope_iff.mp hsame
    have hstored : needsParticipantBoundary b = true → (a.participantIds ∩ b.participantIds).Nonempty := by
      intro hneeds
      by_contra hempty
      rw [Finset.not_nonempty_iff_eq_empty] at hempty
      have hfree : needsParticipantBoundary a = false := by
        by_contra hneedsA
        have hnonempty := hshared (by simpa using hneedsA)
        simp [hempty] at hnonempty
      simp only [needsParticipantBoundary,Bool.or_eq_false_iff,Bool.or_eq_true,
        decide_eq_true_eq,decide_eq_false_iff_not] at hneeds hfree
      have hprivate : b.chatType = some "private" :=
        hneeds.resolve_left fun hconf => hfree.1 (hprivacy.trans hconf)
      have hnone : a.chatType = none := by
        cases hc : a.chatType with
        | none => rfl
        | some c =>
          simp only [chatsDiffer,hc,hprivate,Option.isSome_some,Bool.true_and,
            decide_eq_false_iff_not,not_not] at hchats
          exact absurd (hc.trans hchats) hfree.2
      exact hab ⟨hsession,hpersona,hscope,hprivacy,hfree.1,hempty,.inr ⟨hnone,hprivate⟩⟩
    refine ⟨⟨hsession,hpersona,hscope,hprivacy,fun hneeds => hneeds.elim hshared hstored⟩,?_⟩
    refine sameDedupScope_iff.mpr ⟨hsession.symm,hpersona.symm,hscope.symm,hprivacy.symm,?_,?_⟩
    · rw [← hchats]
      simp only [chatsDiffer,ne_comm]
      rw [Bool.and_comm b.chatType.isSome]
    · intro hneeds
      rw [Finset.inter_comm]
      exact hstored hneeds
  have hback : ¬ OneSided stored incoming := fun hb => h ⟨hb.session.symm,hb.persona.symm,
    hb.scope.symm,hb.privacy.symm,hb.privacy ▸ hb.notConfidential,
    (Finset.inter_comm _ _).trans hb.apart,hb.chats.symm.imp And.symm And.symm⟩
  refine ⟨?_,fun hsame => (hboth _ _ h hback hsame).1⟩
  exact Bool.eq_iff_iff.mpr ⟨fun hsame => (hboth _ _ h hback hsame).2,
    fun hsame => (hboth _ _ hback h hsame).2⟩

section Best

variable {α : Type} {score : α → F} {memoryId : α → ℤ} {items items' : List α}

variable (score memoryId) in
lemma best_spec (items : List α) : match best score memoryId items with
    | none => items = []
    | some m => m ∈ items ∧ ∀ x ∈ items, score x < score m ∨ (score x = score m ∧ memoryId m ≤ memoryId x) := by
  induction items with
  | nil => rfl
  | cons a items ih =>
    rw [best]
    cases hrest : best score memoryId items with
    | none =>
      rw [hrest] at ih
      subst ih
      simp
    | some b =>
      rw [hrest] at ih
      obtain ⟨hb,hmax⟩ := ih
      dsimp only
      split_ifs with hbetter
      · refine ⟨List.mem_cons_of_mem _ hb,fun x hx => ?_⟩
        rcases List.mem_cons.mp hx with rfl | hx
        · exact hbetter.imp id fun h => ⟨h.1,h.2.le⟩
        · exact hmax x hx
      · rw [not_or,not_lt,not_and,not_lt] at hbetter
        refine ⟨List.mem_cons_self ..,fun x hx => ?_⟩
        rcases List.mem_cons.mp hx with rfl | hx
        · exact .inr ⟨rfl,le_rfl⟩
        · rcases hmax x hx with hlt | ⟨heq,hle⟩
          · exact .inl (hlt.trans_le hbetter.1)
          · rcases hbetter.1.lt_or_eq with hlt | hab
            · exact .inl (heq ▸ hlt)
            · exact .inr ⟨heq.trans hab,(hbetter.2 hab.symm).trans hle⟩

lemma best_mem {m : α} (h : best score memoryId items = some m) : m ∈ items := by
  have hspec := best_spec score memoryId items
  rw [h] at hspec
  exact hspec.1

variable (score memoryId) in
lemma best_perm (hperm : items'.Perm items) (hids : ∀ a ∈ items, ∀ b ∈ items,
    memoryId a = memoryId b → a = b) :
    best score memoryId items' = best score memoryId items := by
  have hspec := best_spec score memoryId items
  have hspec' := best_spec score memoryId items'
  cases hbest : best score memoryId items with
  | none =>
    rw [hbest] at hspec
    dsimp only at hspec
    subst hspec
    rw [hperm.eq_nil]
    rfl
  | some m =>
    cases hbest' : best score memoryId items' with
    | none =>
      rw [hbest'] at hspec'
      dsimp only at hspec'
      subst hspec'
      rw [hperm.symm.eq_nil] at hbest
      cases hbest
    | some m' =>
      rw [hbest] at hspec
      rw [hbest'] at hspec'
      have hin := hperm.subset hspec'.1
      have hle := hspec.2 m' hin
      have hle' := hspec'.2 m (hperm.symm.subset hspec.1)
      refine congrArg some (hids m' hin m hspec.1 ?_)
      rcases hle with hlt | ⟨heq,hid⟩
      · rcases hle' with hlt' | ⟨heq',-⟩
        · exact absurd (hlt.trans hlt') (lt_irrefl _)
        · exact absurd heq' hlt.ne'
      · rcases hle' with hlt' | ⟨-,hid'⟩
        · exact absurd heq hlt'.ne'
        · exact le_antisymm hid' hid

end Best

variable {ops request} {documents documents' stored : List DedupDocument} {d : DedupDocument}

lemma detectNearDuplicate_perm (hperm : documents'.Perm documents)
    (hids : ∀ d ∈ documents, ∀ d' ∈ documents, d.memoryId = d'.memoryId → d = d') :
    detectNearDuplicate ops request documents' = detectNearDuplicate ops request documents := by
  unfold detectNearDuplicate
  dsimp only
  split_ifs with htokens
  · rfl
  · cases hscope : request.scope with
    | none => rfl
    | some incoming =>
      dsimp only
      generalize hscore : (fun d : DedupDocument =>
        (jaccard ops (ops.tokenizeCjkWords request.content).toFinset
          (ops.tokenizeCjkWords d.content).toFinset,d)) = scored
      have hevaluated := (hperm.filter fun d =>
        documentIsComparable ops d incoming request.minTokens).map scored
      have hmem : ∀ item ∈ (documents.filter fun d =>
          documentIsComparable ops d incoming request.minTokens).map scored,
          item = scored item.2 ∧ item.2 ∈ documents := by
        intro item hitem
        obtain ⟨d,hd,rfl⟩ := List.mem_map.mp hitem
        subst hscore
        exact ⟨rfl,List.mem_of_mem_filter hd⟩
      generalize (documents.filter fun d =>
        documentIsComparable ops d incoming request.minTokens).map scored = evaluated at *
      generalize (documents'.filter fun d =>
        documentIsComparable ops d incoming request.minTokens).map scored = evaluated' at *
      have hsame : ∀ a ∈ evaluated, ∀ b ∈ evaluated, a.2.memoryId = b.2.memoryId → a = b := by
        intro a ha b hb hid
        rw [(hmem a ha).1,(hmem b hb).1,hids _ (hmem a ha).2 _ (hmem b hb).2 hid]
      have hbest := best_perm Prod.fst (fun item => item.2.memoryId)
        (hevaluated.filter fun item => decide (request.threshold ≤ item.1))
        fun a ha b hb => hsame a (List.mem_of_mem_filter ha) b (List.mem_of_mem_filter hb)
      have hoverlap : bestFactOverlap ops request.metadata evaluated' =
          bestFactOverlap ops request.metadata evaluated := by
        unfold bestFactOverlap
        cases factTokenSets ops request.metadata with
        | nil => rfl
        | cons fact facts =>
          refine best_perm _ _ ((hevaluated.map _).filter _) fun a ha b hb hid => ?_
          obtain ⟨x,hx,rfl⟩ := List.mem_map.mp (List.mem_of_mem_filter ha)
          obtain ⟨y,hy,rfl⟩ := List.mem_map.mp (List.mem_of_mem_filter hb)
          rw [hsame x hx y hy hid]
      rw [hbest,hoverlap]

lemma rankedCandidates_perm {fetched fetched' : List (F × ℤ)} (hperm : fetched'.Perm fetched)
    (threshold : F) : rankedCandidates ops fetched' threshold =
    rankedCandidates ops fetched threshold := by
  let before (a b : F × ℤ) : Prop := b.1 < a.1 ∨ (a.1 = b.1 ∧ a.2 ≤ b.2)
  have htotal : ∀ a b, before a b ∨ before b a := by
    intro a b
    rcases lt_trichotomy a.1 b.1 with hlt | heq | hlt
    · exact .inr (.inl hlt)
    · exact (le_total a.2 b.2).imp (fun h => .inr ⟨heq,h⟩) fun h => .inr ⟨heq.symm,h⟩
    · exact .inl (.inl hlt)
  have htrans : ∀ a b c, before a b → before b c → before a c := by
    rintro a b c (hab | ⟨hab,hid⟩) (hbc | ⟨hbc,hid'⟩)
    · exact .inl (hbc.trans hab)
    · exact .inl (hbc ▸ hab)
    · exact .inl (hab ▸ hbc)
    · exact .inr ⟨hab.trans hbc,hid.trans hid'⟩
  have : Std.Total before := ⟨htotal⟩
  have : IsTrans (F × ℤ) before := ⟨htrans⟩
  unfold rankedCandidates
  refine (((List.perm_insertionSort _ _).trans (hperm.filter _)).trans
    (List.perm_insertionSort _ _).symm).eq_of_pairwise ?_ (List.pairwise_insertionSort before _)
    (List.pairwise_insertionSort before _)
  rintro a b - - (hab | ⟨hab,hid⟩) (hba | ⟨hba,hid'⟩)
  · exact absurd (hab.trans hba) (lt_irrefl _)
  · exact absurd hba.symm hab.ne'
  · exact absurd hab hba.ne
  · exact Prod.ext hab (le_antisymm hid hid')

omit [LinearOrder F] in
lemma boundary_of_comparable {minTokens : ℕ} {d : DedupDocument}
    (h : documentIsComparable ops d incoming minTokens = true) :
    ∃ stored, storedScope d.metadata = some stored ∧ sameDedupScope incoming stored = true := by
  simp only [documentIsComparable,Bool.and_eq_true] at h
  exact Option.any_eq_true _ _ |>.mp h.2

lemma detectNearDuplicate_hit (h : (detectNearDuplicate ops request documents).verdict = .hit)
    (hd : (detectNearDuplicate ops request documents).document = some d) :
    d ∈ documents ∧ ∃ incoming, request.scope = some incoming ∧
      documentIsComparable ops d incoming request.minTokens = true := by
  unfold detectNearDuplicate at h hd
  dsimp only at h hd
  split_ifs at h hd
  cases hscope : request.scope with
  | none => simp [hscope] at h
  | some incoming =>
    simp only [hscope] at h hd
    refine ⟨?_,incoming,rfl,?_⟩
    all_goals
      revert h hd
      split
      · split <;> simp
      · rename_i hbest
        rintro - ⟨⟩
        obtain ⟨d,hmem,heq⟩ := List.mem_map.mp (List.mem_of_mem_filter (best_mem hbest))
        cases heq
        first
          | exact List.mem_of_mem_filter hmem
          | exact (List.mem_filter.mp hmem).2

def loadFrom (readable : ℤ → Bool) (stored : List DedupDocument) (memoryId : ℤ) :
    Option (String × Metadata) :=
  if readable memoryId then
    (stored.find? fun d => d.memoryId = memoryId).map fun d => (d.content,d.metadata)
  else none

lemma detectSemanticDuplicate_some {budget : Bool} {readable : ℤ → Bool}
    {factEvidenceGuard : Metadata → Bool} {fetched : List (F × ℤ)} {score : F}
    (h : detectSemanticDuplicate ops request budget (loadFrom readable stored) factEvidenceGuard
      fetched = some (score,d)) :
    d ∈ stored ∧ ∃ incoming, request.scope = some incoming ∧
      documentIsComparable ops d incoming request.minTokens = true := by
  unfold detectSemanticDuplicate at h
  cases hscope : request.scope with
  | none => simp [hscope] at h
  | some incoming =>
    simp only [hscope] at h
    split_ifs at h
    obtain ⟨⟨score',memoryId⟩,-,hone⟩ := List.exists_of_findSome?_eq_some h
    obtain ⟨document,hload,hguards⟩ := Option.bind_eq_some_iff.mp hone
    split_ifs at hguards
    cases hguards
    obtain ⟨⟨content,metadata⟩,hread,hcomparable⟩ := Option.bind_eq_some_iff.mp hload
    dsimp only at hcomparable
    split_ifs at hcomparable with hall
    cases hcomparable
    unfold loadFrom at hread
    split_ifs at hread
    obtain ⟨d,hfind,heq⟩ := Option.map_eq_some_iff.mp hread
    cases heq
    obtain rfl : d.memoryId = memoryId := by simpa using List.find?_some hfind
    exact ⟨List.mem_of_find?_eq_some hfind,incoming,rfl,(Bool.and_eq_true_iff.mp hall).2⟩

def WithinBoundary (request : DetectRequest F) (d : DedupDocument) : Prop :=
  ∃ incoming stored, request.scope = some incoming ∧ storedScope d.metadata = some stored ∧
    Bounded incoming stored

/-- What is asked of the detectors over the stored memories, the results of a search among them and
the answer of the vector search. -/
structure Guarded (ops : DetectOps F) (request : DetectRequest F) (budget : Bool)
    (readable : ℤ → Bool) (factEvidenceGuard : Metadata → Bool)
    (stored results : List DedupDocument) (fetched : List (F × ℤ)) : Prop where
  near (d : DedupDocument) : (detectNearDuplicate ops request results).verdict = .hit →
    (detectNearDuplicate ops request results).document = some d → WithinBoundary request d
  semantic (score : F) (d : DedupDocument) : detectSemanticDuplicate ops request budget
    (loadFrom readable stored) factEvidenceGuard fetched = some (score,d) → WithinBoundary request d
  symmetric (incoming : DedupScope) : request.scope = some incoming → ∀ d ∈ stored, ∀ scope,
    storedScope d.metadata = some scope → sameDedupScope incoming scope =
    sameDedupScope scope incoming
  nearOrder (results' : List DedupDocument) : results'.Perm results →
    detectNearDuplicate ops request results' = detectNearDuplicate ops request results
  semanticOrder (fetched' : List (F × ℤ)) : fetched'.Perm fetched →
    detectSemanticDuplicate ops request budget (loadFrom readable stored) factEvidenceGuard
    fetched' =
      detectSemanticDuplicate ops request budget (loadFrom readable stored) factEvidenceGuard fetched

/-- The detectors keep the boundary exactly where no stored memory is one-sided to the new one. -/
theorem detectors_guarded_iff (ops : DetectOps F) (request : DetectRequest F) (budget : Bool)
    (readable : ℤ → Bool) (factEvidenceGuard : Metadata → Bool)
    (stored results : List DedupDocument) (fetched : List (F × ℤ))
    (hids : (stored.map DedupDocument.memoryId).Nodup) (hresults : ∀ d ∈ results, d ∈ stored) :
    Guarded ops request budget readable factEvidenceGuard stored results fetched ↔
      ∀ incoming, request.scope = some incoming → ∀ d ∈ stored, ∀ scope,
        storedScope d.metadata = some scope → ¬ OneSided incoming scope := by
  constructor
  · intro h incoming hin d hd scope hscope hone
    exact hone.asymmetric (h.symmetric incoming hin d hd scope hscope)
  · intro h
    have hwithin : ∀ d ∈ stored, (∃ incoming, request.scope = some incoming ∧
        documentIsComparable ops d incoming request.minTokens = true) → WithinBoundary request d := by
      rintro d hd ⟨incoming,hin,hcomparable⟩
      obtain ⟨scope,hscope,hsame⟩ := boundary_of_comparable hcomparable
      exact ⟨incoming,scope,hin,hscope, (sameDedupScope_safe (h incoming hin d hd scope hscope)).2 hsame⟩
    refine ⟨?_,?_,?_,?_,?_⟩
    · intro d hhit hd
      obtain ⟨hmem,hcomparable⟩ := detectNearDuplicate_hit hhit hd
      exact hwithin d (hresults d hmem) hcomparable
    · intro score d hd
      obtain ⟨hmem,hcomparable⟩ := detectSemanticDuplicate_some hd
      exact hwithin d hmem hcomparable
    · intro incoming hin d hd scope hscope
      exact (sameDedupScope_safe (h incoming hin d hd scope hscope)).1
    · intro results' hperm
      exact detectNearDuplicate_perm hperm fun d hd d' hd' hid =>
        List.inj_on_of_nodup_map hids (hresults d hd) (hresults d' hd') hid
    · intro fetched' hperm
      unfold detectSemanticDuplicate
      rw [rankedCandidates_perm hperm]

/-- A memory of the session "s"; the participant and the chat type as given. -/
def sampleMetadata (participant : String) (chatType : Json) : Metadata :=
  ((((({} : Metadata).set "scope_key" (.str "private:1")).set "privacy_level"
    (.str "personal")).set "session_id" (.str "s")).set "participant_ids"
    (.arr [.str participant])).set "chat_type" chatType

def sampleOps : DetectOps ℤ where
  tokenizeCjkWords s := if s = "" then [] else [s]
  zero := 0
  ratio a b := 100 * a / b
  factJaccardFloor := 0
  factMatchFloor := 50
  factOverlapRatio := 50
  isFinite _ := true

def sampleRequest (chatType : Json) : DetectRequest ℤ :=
  { content := "tea", metadata := sampleMetadata "bob" chatType, sessionId := "s"
    personaId := none, threshold := 85, candidateLimit := 5, minTokens := 1 }

/-- What "ann" told in a private chat. -/
def samplePrivate : List DedupDocument := [⟨1,"tea",sampleMetadata "ann" (.str "private")⟩]

/-- A memory of "bob" without a chat type is taken for a repetition of what "ann" told in private.
-/
theorem private_chat_absorbed :
    ¬ Guarded sampleOps (sampleRequest .null) true (fun _ => true) (fun _ => true) samplePrivate
      samplePrivate [(100,1)] := by
  intro h
  obtain ⟨incoming,stored,hin,hstored,hbounded⟩ :=
    h.near ⟨1,"tea",sampleMetadata "ann" (.str "private")⟩ (by decide +kernel) (by rfl)
  cases hin
  cases hstored
  exact absurd (hbounded.participants (by decide +kernel)) (by decide +kernel)

/-- With a chat type on both sides the detectors keep the boundary. -/
theorem detectors_guarded_sample :
    Guarded sampleOps (sampleRequest (.str "private")) true (fun _ => true) (fun _ => true)
      samplePrivate samplePrivate [(100,1)] := by
  refine (detectors_guarded_iff _ _ _ _ _ _ _ _ (by decide +kernel) fun d hd => hd).mpr ?_
  intro incoming hin d hd scope hscope hone
  cases List.mem_singleton.mp hd
  cases hin
  cases hscope
  exact absurd hone.chats (by decide +kernel)

end Memora.Duplicates

import Memora.RerankModels

/-! The rerankers the factory builds, and the reranking behind the privacy prefilter. Whatever
fails, only allowed candidates reach the reranker, and the answer holds each of them once. -/
namespace Memora.Rerank
open Canonical Selections

variable {F : Type*} (env : RerankEnv F)

/-- What comes back from a reranker: a list, something else, an error, a cancellation. -/
inductive Answer
  | list (l : List Candidate)
  | malformed
  | raised
  | cancelled

/-- A call of `rerank`: the candidates, `k`, the query and the scores before; the answer and
the scores after. -/
abbrev Reranker (F : Type*) := List Candidate → ℤ → String → Scores F → Answer × Scores F

def mmrReranker (mmrLambda : F) : Reranker F := fun results k _ scores =>
  (.list (applyMmr env mmrLambda scores k results),scores)

/-- `EmbeddingSimilarityReranker`: the vector backend, where there is one, and the weight.
`encodeQuery` and `getVector` answer nothing where they raise. -/
structure Embedding (F : Type*) where
  available : Bool
  encodeQuery : String → Option (List F)
  getVector : ℤ → Option (List F)
  weight : F

/-- Nothing where the product of the norms vanishes. -/
def cosineSimilarity (a b : List F) : Option F :=
  let sum := fun l : List F => l.foldl env.add (env.lit 0)
  let normA := env.sqrt (sum (a.map fun x => env.mul x x))
  let normB := env.sqrt (sum (b.map fun x => env.mul x x))
  if env.eq normA (env.lit 0) || env.eq normB (env.lit 0) then some (env.lit 0)
  else if env.eq (env.mul normA normB) (env.lit 0) then none
  else some (env.clamp (env.div (sum (List.zipWith env.mul a b)) (env.mul normA normB)))

variable (candidates : List Candidate) (e : Embedding F)

def blendSimilarities (queryVec : List F) (results : List Candidate) (scores : Scores F) :
    Scores F :=
  let weight := env.clamp e.weight
  results.foldl (fun scores r =>
    match (e.getVector r.docId).bind (cosineSimilarity env queryVec) with
    | none => scores
    | some similarity => setScore scores r.object (env.add (env.mul weight similarity)
          (env.mul (env.sub (env.lit 1) weight) (scores r.object)))) scores

/-- `EmbeddingSimilarityReranker.rerank`. The list it sorts in place is not read again. -/
def embeddingReranker : Reranker F := fun results k query scores =>
  if results.length ≤ k then (.list results,scores)
  else if e.available = false ∨ query = "" then
    (.list (applyMmr env (env.lit (7 / 10)) scores k results),scores)
  else
    match e.encodeQuery query with
    | none => (.list (applyMmr env (env.lit (7 / 10)) scores k results),scores)
    | some queryVec =>
      let scores := blendSimilarities env e queryVec results scores
      (.list (takeTo k (sortedByScore env scores results)),scores)

inductive Completion
  | denied
  | raised
  | cancelled
  | text (raw : String)
  deriving DecidableEq

structure Llm where
  available : Bool
  batchSize : ℤ
  minCandidates : ℕ
  promptChars : ℕ
  complete : String → Completion

def rerankPrompt (query memories : String) : String :=
  "Score each memory for relevance to the query (0-10).\n" ++
    "Return ONLY a JSON array: [8.5, 3.2, ...]\n\nQuery: "++query++"\n\nMemories:\n"++memories

def memoriesText : String :=
  "\n".intercalate (candidates.mapIdx fun i c =>
    "["++toString i++"] "++String.ofList (c.content.toList.take 200))

variable (scores : Scores F) (m : Llm)

/-- What `_score_candidates` answers; the inner answer is nothing where it returns `None`, the
outer one where the cancellation goes on. -/
def scoreCandidates (query : String) (candidates : List Candidate) : Option (Option (List F)) :=
  let prompt := String.ofList ((rerankPrompt query (memoriesText candidates)).toList.take m.promptChars)
  match m.complete prompt with
  | .cancelled => none
  | .denied => some none
  | .raised => some none
  | .text raw =>
    match env.readScores (pythonStrip raw) with
    | none => some none
    | some scores => some (if scores.length = candidates.length then some scores else none)

def blendScores (candidates : List Candidate) (given : List F) : Scores F :=
  (candidates.zip given).foldl (fun scores pair =>
    setScore scores pair.1.object
      (env.div (env.add (scores pair.1.object) (env.div pair.2 (env.lit 10))) (env.lit 2))) scores

def llmReranker : Reranker F := fun results k query scores =>
  if m.available = false ∨ query = "" ∨ results.length ≤ k ∨ results.length < m.minCandidates then
    (.list (takeTo k results),scores)
  else
    let batch := (max 5 (min 20 m.batchSize)).toNat
    let sorted := sortedByScore env scores results
    let candidates := sorted.take (min (batch * 2) sorted.length)
    match scoreCandidates env m query candidates with
    | none => (.cancelled,scores)
    | some none => (.list (takeTo k results),scores)
    | some (some given) =>
      let scores := blendScores env scores candidates given
      (.list (takeTo k (sortedByScore env scores candidates)),scores)

def hybridReranker : Reranker F := fun results k query scores =>
  match embeddingReranker env e results (min (k * 3) results.length) query scores with
  | (.list narrowed,scores) => llmReranker env m narrowed k query scores
  | (other,scores) => (other,scores)

/-- What `create_reranker` builds. -/
inductive ShippedReranker (F : Type*)
  | mmr (mmrLambda : F)
  | embedding (e : Embedding F)
  | llm (m : Llm)
  | hybrid (e : Embedding F) (m : Llm)

def ShippedReranker.rerank : ShippedReranker F → Reranker F
  | .mmr mmrLambda => mmrReranker env mmrLambda
  | .embedding e => embeddingReranker env e
  | .llm m => llmReranker env m
  | .hybrid e m => hybridReranker env e m

/-- A failure of the reranker: what comes back instead of a list, after any re-scoring. -/
inductive RerankerFault (F : Type*)
  | malformed (scores : Scores F)
  | raised (scores : Scores F)
  | cancelled (scores : Scores F)

def failing (fault : Option (RerankerFault F)) (r : Reranker F) : Reranker F :=
  match fault with
  | none => r
  | some (.malformed scores) => fun _ _ _ _ => (.malformed,scores)
  | some (.raised scores) => fun _ _ _ _ => (.raised,scores)
  | some (.cancelled scores) => fun _ _ _ _ => (.cancelled,scores)

structure ProviderPrefilterResult where
  candidates : List Candidate
  inputCount : ℕ
  allowedCount : ℕ
  filteredCount : ℕ

/-- `ProviderPrivacyPrefilter.filter`; nothing where the check of a candidate raises. -/
def prefilter (context : ProviderPrivacyContext) (candidates : List Candidate) :
    Option ProviderPrefilterResult := do
  let verdicts ← candidates.mapM (candidateIsAllowed context)
  let allowed := ((candidates.zip verdicts).filter fun pair => pair.2).map Prod.fst
  some ⟨allowed,candidates.length,allowed.length,candidates.length - allowed.length⟩

inductive PrefilterFault
  | raised | cancelled
  deriving DecidableEq

/-- A candidate whose check raises is refused. -/
def revalidateCandidates (context : ProviderPrivacyContext) (candidates : List Candidate) :
    List Candidate :=
  candidates.filter fun c => match candidateIsAllowed context c with
    | some verdict => verdict
    | none => false

def requiresProviderPrefilter (strategy : String) : Bool :=
  env.casefold (pythonStrip strategy) ≠ "mmr"

def localMmrWithBackfill (mmrLambda : F) (scores : Scores F) (k : ℤ) (candidates : List Candidate) :
    List Candidate :=
  backfill Candidate.docId (applyMmr env (env.clamp mmrLambda) scores k candidates) candidates

/-- A call of `rerank_with_provider_boundary`: the list the reranker was given, where it was
called, and the list returned; nothing is returned where a cancellation goes on. -/
structure Outcome where
  handed : Option (List Candidate)
  returned : Option (List Candidate)

def rerankChosen (reranker : Reranker F) (k : ℤ) (query : String) (scores : Scores F)
    (candidates : List Candidate) : Outcome :=
  let fallback := scoreSorted env scores candidates
  match (reranker candidates k query scores).1 with
  | .list reranked => ⟨some candidates,some (backfill Candidate.docId reranked fallback)⟩
  | .malformed => ⟨some candidates,some fallback⟩
  | .raised => ⟨some candidates,some fallback⟩
  | .cancelled => ⟨some candidates,none⟩

/-- The exit taken when the prefilter raises. -/
def afterPrefilterFailure (context : ProviderPrivacyContext) (strictMode : Bool) (mmrLambda : F)
    (k : ℤ) (scores : Scores F) (candidates : List Candidate) : Outcome :=
  let safe := scoreSorted env scores (revalidateCandidates context candidates)
  ⟨none,some (if strictMode then safe else localMmrWithBackfill env mmrLambda scores k safe)⟩

def rerankWithProviderBoundary (fault : Option PrefilterFault) (reranker : Reranker F)
    (strategy : String) (context : ProviderPrivacyContext) (strictMode : Bool) (mmrLambda : F)
    (k : ℤ) (query : String) (scores : Scores F) (candidates : List Candidate) : Outcome :=
  if requiresProviderPrefilter env strategy then
    match fault with
    | some .cancelled => ⟨none,none⟩
    | some .raised => afterPrefilterFailure env context strictMode mmrLambda k scores candidates
    | none => match prefilter context candidates with
      | none => afterPrefilterFailure env context strictMode mmrLambda k scores candidates
      | some outcome => rerankChosen env reranker k query scores outcome.candidates
  else rerankChosen env reranker k query scores candidates

/-- A list that is answered holds only candidates that were given, none more often. -/
def Selects (reranker : Reranker F) : Prop :=
  ∀ results k query scores l, (reranker results k query scores).1 = .list l → l.Subperm results

variable {env}

lemma scoreSorted_perm (l : List Candidate) : (scoreSorted env scores l).Perm l :=
  List.perm_insertionSort _ l

lemma sortedByScore_perm (l : List Candidate) :
    (sortedByScore env scores l).Perm l := List.perm_insertionSort _ l

lemma takeTo_sorted_subperm (k : ℤ) (l : List Candidate) :
    (takeTo k (sortedByScore env scores l)).Subperm l :=
  (takeTo_sublist k _).subperm.trans (sortedByScore_perm scores l).subperm

lemma mmrLoop_subperm {mmrLambda : F} {scores : Scores F} {k : ℤ} (turns : ℕ)
    (selected candidates : List Candidate) :
    (mmrLoop env mmrLambda scores k turns selected candidates).Subperm (selected++candidates) := by
  have hstop : selected.Subperm (selected++candidates) :=
    (List.sublist_append_left selected candidates).subperm
  induction turns generalizing selected candidates with
  | zero => exact hstop
  | succ turns ih =>
    rw [mmrLoop]
    by_cases hend : candidates = [] ∨ k ≤ selected.length
    · rw [if_pos hend]
      exact hstop
    · rw [if_neg hend]
      cases mmrPick env mmrLambda scores selected candidates with
      | none => exact hstop
      | some i =>
        simp only
        cases hget : candidates[i]? with
        | none => exact hstop
        | some c =>
          have hmoved := append_eraseIdx_perm selected hget
          have hnext := ih (selected++[c]) (candidates.eraseIdx i) (List.sublist_append_left _ _).subperm
          exact hnext.trans hmoved.subperm

lemma applyMmr_subperm (mmrLambda : F) (scores : Scores F) (k : ℤ) (results : List Candidate) :
    (applyMmr env mmrLambda scores k results).Subperm results := by
  unfold applyMmr
  by_cases hk : results.length ≤ k
  · rw [if_pos hk]
  · rw [if_neg hk]
    exact mmrLoop_subperm results.length [] results

lemma mmrReranker_selects (mmrLambda : F) : Selects (mmrReranker env mmrLambda) := by
  intro results k query scores l h
  cases h
  exact applyMmr_subperm mmrLambda scores k results

lemma embeddingReranker_selects : Selects (embeddingReranker env e) := by
  intro results k query scores l h
  unfold embeddingReranker at h
  by_cases hshort : results.length ≤ k
  · rw [if_pos hshort] at h
    cases h
    exact List.Subperm.refl _
  rw [if_neg hshort] at h
  by_cases hlocal : e.available = false ∨ query = ""
  · rw [if_pos hlocal] at h
    cases h
    exact applyMmr_subperm _ scores k results
  rw [if_neg hlocal] at h
  cases hvec : e.encodeQuery query with
  | none =>
    rw [hvec] at h
    cases h
    exact applyMmr_subperm _ scores k results
  | some queryVec =>
    rw [hvec] at h
    cases h
    exact takeTo_sorted_subperm _ k results

lemma llmReranker_selects : Selects (llmReranker env m) := by
  intro results k query scores l h
  have hsame : (takeTo k results).Subperm results := (takeTo_sublist k results).subperm
  unfold llmReranker at h
  split at h
  · cases h
    exact hsame
  · dsimp only at h
    split at h
    · cases h
    · cases h
      exact hsame
    · cases h
      -- the head of the sorted candidates, sorted again and cut
      have hhead := (List.take_sublist (min ((max 5 (min 20 m.batchSize)).toNat * 2)
        (sortedByScore env scores results).length) (sortedByScore env scores results)).subperm
      exact (takeTo_sorted_subperm _ k _).trans (hhead.trans (sortedByScore_perm scores results).subperm)

lemma hybridReranker_selects : Selects (hybridReranker env e m) := by
  intro results k query scores l h
  unfold hybridReranker at h
  cases he : embeddingReranker env e results (min (k * 3) results.length) query scores with
  | mk answer after =>
    rw [he] at h
    cases answer with
    | list narrowed =>
      have hnarrowed := embeddingReranker_selects e results (min (k * 3) results.length) query
        scores narrowed (by rw [he])
      exact (llmReranker_selects m narrowed k query after l h).trans hnarrowed
    | malformed | raised | cancelled => cases h

lemma ShippedReranker.selects (r : ShippedReranker F) : Selects (r.rerank env) := by
  cases r with
  | mmr mmrLambda => exact mmrReranker_selects mmrLambda
  | embedding e => exact embeddingReranker_selects e
  | llm m => exact llmReranker_selects m
  | hybrid e m => exact hybridReranker_selects e m

lemma Selects.failing {r : Reranker F} (h : Selects r) (fault : Option (RerankerFault F)) :
    Selects (failing fault r) := by
  cases fault with
  | none => exact h
  | some fault => cases fault <;> exact fun _ _ _ _ _ hlist => by cases hlist

variable {candidates : List Candidate} {context : ProviderPrivacyContext} {reranker : Reranker F}

lemma prefilter_candidates {outcome : ProviderPrefilterResult}
    (h : prefilter context candidates = some outcome) :
    outcome.candidates = allowed context candidates := by
  unfold prefilter at h
  rw [Option.bind_eq_bind,Option.bind_eq_some_iff] at h
  obtain ⟨verdicts,hverdicts,houtcome⟩ := h
  cases houtcome
  induction candidates generalizing verdicts with
  | nil => cases hverdicts; rfl
  | cons c candidates ih =>
    rw [List.mapM_cons] at hverdicts
    simp only [Option.bind_eq_bind,Option.bind_eq_some_iff,Option.pure_def, Option.some.injEq] at hverdicts
    obtain ⟨verdict,hverdict,rest,hrest,rfl⟩ := hverdicts
    have htail := ih rest hrest
    unfold allowed at htail ⊢
    rw [List.zip_cons_cons,List.filter_cons,List.filter_cons,← htail]
    cases verdict <;> simp [hverdict]

lemma revalidateCandidates_eq (context : ProviderPrivacyContext) (candidates : List Candidate) :
    revalidateCandidates context candidates = allowed context candidates := by
  refine List.filter_congr ?_
  intro c _
  cases candidateIsAllowed context c with
  | none => rfl
  | some verdict => cases verdict <;> rfl

lemma allowed_keys (context : ProviderPrivacyContext) (h : (candidates.map Candidate.docId).Nodup) :
    ((allowed context candidates).map Candidate.docId).Nodup :=
  h.sublist (List.filter_sublist.map _)

def Outcome.Sound (context : ProviderPrivacyContext) (candidates : List Candidate)
    (o : Outcome) : Prop :=
  (∀ l ∈ o.handed, ∀ c ∈ l, candidateIsAllowed context c = some true) ∧
    ∀ l ∈ o.returned, l.Perm (allowed context candidates)

lemma rerankChosen_sound (hids : (candidates.map Candidate.docId).Nodup)
    (h : Selects reranker) (k : ℤ) (query : String) (scores : Scores F) :
    (rerankChosen env reranker k query scores (allowed context candidates)).Sound context
      candidates := by
  have hgiven : ∀ c ∈ allowed context candidates, candidateIsAllowed context c = some true :=
    fun c hc => of_decide_eq_true (List.mem_filter.mp hc).2
  have hsorted : (scoreSorted env scores (allowed context candidates)).Perm
      (allowed context candidates) := scoreSorted_perm scores _
  have hfallback : ((scoreSorted env scores (allowed context candidates)).map
      Candidate.docId).Nodup := ((hsorted.map _).nodup_iff).mpr (allowed_keys context hids)
  unfold rerankChosen Outcome.Sound
  cases hanswer : (reranker (allowed context candidates) k query scores).1 with
  | list reranked =>
    have hsub := (h _ k query scores reranked hanswer).trans hsorted.symm.subperm
    simp only [Option.mem_def,Option.some.injEq,forall_eq']
    exact ⟨hgiven,(backfill_perm hfallback hsub).trans hsorted⟩
  | malformed | raised => simpa using ⟨hgiven,hsorted⟩
  | cancelled => simpa using hgiven

lemma afterPrefilterFailure_sound (hids : (candidates.map Candidate.docId).Nodup)
    (strictMode : Bool) (mmrLambda : F) (k : ℤ) (scores : Scores F) :
    (afterPrefilterFailure env context strictMode mmrLambda k scores candidates).Sound context
      candidates := by
  have hsorted : (scoreSorted env scores (allowed context candidates)).Perm
      (allowed context candidates) := scoreSorted_perm scores _
  have hkeys := ((hsorted.map Candidate.docId).nodup_iff).mpr (allowed_keys context hids)
  unfold afterPrefilterFailure Outcome.Sound localMmrWithBackfill
  rw [revalidateCandidates_eq]
  simp only [Option.mem_def,Option.some.injEq,forall_eq',reduceCtorEq,false_implies,
    implies_true,true_and]
  cases strictMode with
  | true => exact hsorted
  | false => exact (backfill_perm hkeys (applyMmr_subperm _ scores k _)).trans hsorted

lemma rerankChosen_returned {k : ℤ} {query : String} {scores : Scores F}
    (h : (rerankChosen env reranker k query scores candidates).returned = none) :
    (reranker candidates k query scores).1 = .cancelled := by
  unfold rerankChosen at h
  cases hanswer : (reranker candidates k query scores).1 <;> rw [hanswer] at h <;>
    first | rfl | cases h

/-- Every exit of the boundary: the reranker is only given allowed candidates, a list is
returned unless a cancellation goes on, and it holds every allowed candidate exactly once and
no other. -/
theorem rerank_returns_allowed (env : RerankEnv F) (candidates : List Candidate)
    (hids : (candidates.map Candidate.docId).Nodup) (strategy : String)
    (hstrategy : requiresProviderPrefilter env strategy = true)
    (prefilterFault : Option PrefilterFault) (r : ShippedReranker F)
    (rerankerFault : Option (RerankerFault F)) (context : ProviderPrivacyContext)
    (strictMode : Bool) (mmrLambda : F) (k : ℤ) (query : String) (scores : Scores F) :
    let reranker := failing rerankerFault (r.rerank env)
    let outcome := rerankWithProviderBoundary env prefilterFault reranker strategy context
      strictMode mmrLambda k query scores candidates
    outcome.Sound context candidates ∧ (outcome.returned = none → prefilterFault = some .cancelled ∨
        (reranker (allowed context candidates) k query scores).1 = .cancelled) := by
  have hfailure : (afterPrefilterFailure env context strictMode mmrLambda k scores
      candidates).Sound context candidates :=
    afterPrefilterFailure_sound hids strictMode mmrLambda k scores
  dsimp only
  unfold rerankWithProviderBoundary
  rw [if_pos hstrategy]
  cases prefilterFault with
  | some fault =>
    cases fault with
    | raised => exact ⟨hfailure,fun h => nomatch h⟩
    | cancelled => exact ⟨⟨by simp,by simp⟩,fun _ => .inl rfl⟩
  | none =>
    cases hfilter : prefilter context candidates with
    | none => exact ⟨hfailure,fun h => nomatch h⟩
    | some outcome =>
      simp only [prefilter_candidates hfilter]
      exact ⟨rerankChosen_sound hids (r.selects.failing rerankerFault) k query scores,
        fun h => .inr (rerankChosen_returned h)⟩

/-- Exact arithmetic; the scores of an answer are those of the sample answer. -/
def exactEnv : RerankEnv ℚ where
  lit x := x
  neg x := -x
  add x y := x+y
  sub x y := x - y
  mul x y := x * y
  div x y := x / y
  sqrt x := (Nat.sqrt x.num.natAbs : ℚ)
  lt x y := x < y
  eq x y := x = y
  lower s := s
  casefold s := s
  readScores raw := if raw = "[2.0, 9.0]" then some [2,9] else none

def groupMemory (object : ℕ) (docId : ℤ) (level : String) : Candidate where
  object := object
  docId := docId
  content := "tea"
  metadata := some fun key =>
    if key = "privacy_level" then some (.text level)
    else if key = "scope_key" then some (.text "group:42")
    else some .missing

def groupContext : ProviderPrivacyContext where
  chatType := .groupChat
  scopeKey := "group:42"
  stableUserId := none
  scopeKey_visible := by decide +kernel
  stableUserId_visible := by simp

def groupOutcome : Outcome :=
  rerankWithProviderBoundary exactEnv none
    (failing none ((ShippedReranker.llm ⟨true,10,1,3000,fun _ => .text "[2.0, 9.0]"⟩).rerank
      exactEnv)) "llm" groupContext false (7 / 10) 1 "tea" (fun _ => 1)
    [groupMemory 1 1 "confidential",groupMemory 2 2 "shared",groupMemory 3 3 "public"]

example : groupOutcome.returned.map (List.map Candidate.docId) = some [3,2] := by
  decide +kernel

/-- The group's confidential memory stays behind, the others come back once. -/
theorem rerank_returns_allowed_sample : groupOutcome.Sound groupContext
    [groupMemory 1 1 "confidential",groupMemory 2 2 "shared",groupMemory 3 3 "public"] :=
  (rerank_returns_allowed exactEnv
    [groupMemory 1 1 "confidential",groupMemory 2 2 "shared",groupMemory 3 3 "public"]
    (by decide) "llm" (by decide +kernel) none
    (.llm ⟨true,10,1,3000,fun _ => .text "[2.0, 9.0]"⟩) none groupContext false (7 / 10) 1 "tea"
    (fun _ => 1)).1

end Memora.Rerank

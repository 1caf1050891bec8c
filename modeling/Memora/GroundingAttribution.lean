import Memora.GroundingAdmission

/-! Facts, references, verdicts, groups of evidence and bindings are parallel lists that are
filtered and renumbered on the way to the stored record. Here every admitted fact keeps its own
group, and nothing but the groups of admitted facts reaches a rebuilt summary. -/
namespace Memora.Grounding
open Memora.Canonical (pythonStrip)
open Memora.Representation (Json Metadata blank joinFacts)
open Memora.Atoms (hasUserSourceEvidence isResolvedSourceReference)

variable {env : GroundingEnv} {mem : Metadata} {messages : List Message} {profile : GateProfile}
  {seqs : Option (List (Option ℤ))} {isGroupChat : Bool}

def ResolvedReference.Within (messages : List Message) (r : ResolvedReference) : Prop :=
  messages[r.index]? = some r.message ∧ r.start < r.stop ∧ r.stop ≤ r.message.text.length

lemma resolveReference_within {raw : Json} {r : ResolvedReference}
    (h : resolveReference messages raw = some r) : r.Within messages := by
  simp only [resolveReference,Option.bind_eq_bind,Option.bind_eq_some_iff] at h
  obtain ⟨d,-,index,-,start,-,stop,-,message,hmessage,h⟩ := h
  unfold messageAt at hmessage
  by_cases hindex : index < 0
  · rw [if_pos hindex] at hmessage
    cases hmessage
  rw [if_neg hindex] at hmessage
  split at h
  · cases h
  · rename_i hspan
    split at h
    · cases h
    · cases h
      refine ⟨hmessage,?_,?_⟩ <;> dsimp only <;> omega

structure OwnEvidence (env : GroundingEnv) (messages : List Message) (profile : GateProfile)
    (seqs : Option (List (Option ℤ))) (refs : List Json) (group : List Metadata) : Prop where
  resolved : (resolveReferences env refs messages false profile.maxReferences seqs).map
    Resolution.evidence = some group
  user : hasUserSourceEvidence group = true
  within : ∀ d ∈ group, ∃ r : ResolvedReference, r.Within messages ∧
    d = evidenceEntry env seqs false r

variable {refs : List Json} {inferred : Bool} {r : Resolution}
    {results : List GroundingResult} {i : ℕ}

lemma resolveReferences_within {maxRefs : ℤ}
    (h : resolveReferences env refs messages inferred maxRefs seqs = some r) :
    ∀ d ∈ r.evidence, ∃ s : ResolvedReference, s.Within messages ∧
    d = evidenceEntry env seqs inferred s := by
  unfold resolveReferences at h
  dsimp only at h
  split at h
  · cases h
  · cases h
    intro d hd
    obtain ⟨s,hs,rfl⟩ := List.mem_map.mp hd
    obtain ⟨raw,-,hraw⟩ := List.mem_filterMap.mp hs
    exact ⟨s,resolveReference_within hraw,rfl⟩

lemma sourceRole_evidenceEntry (inferred : Bool) (r : ResolvedReference) :
    Atoms.sourceRole (evidenceEntry env seqs inferred r) = some r.message.role := rfl

lemma resolveReferences_user {maxRefs : ℤ}
    (h : resolveReferences env refs messages inferred maxRefs seqs = some r)
    (htext : blank r.sourceText = false) :
    ∃ d ∈ r.evidence, Atoms.sourceRole d = some "user" := by
  unfold resolveReferences at h
  dsimp only at h
  split at h
  · cases h
  · cases h
    dsimp only at htext ⊢
    cases husers : ((Selections.takeTo maxRefs refs).filterMap (resolveReference messages)).filter
        fun r => r.message.role = "user" with
    | nil =>
      rw [husers] at htext
      exact absurd htext (by decide)
    | cons s users =>
      have hs : s ∈ ((Selections.takeTo maxRefs refs).filterMap
          (resolveReference messages)).filter fun r => r.message.role = "user" := by simp [husers]
      obtain ⟨hmem,hrole⟩ := List.mem_filter.mp hs
      refine ⟨_,List.mem_map_of_mem hmem,?_⟩
      rw [sourceRole_evidenceEntry,of_decide_eq_true hrole]

lemma validateResolved_open {candidate : Metadata} {claim : String}
    (h : (validateResolved env candidate messages isGroupChat profile inferred
      claim r).allowed = true ∨ (validateResolved env candidate messages isGroupChat profile
        inferred claim r).requiresJudge = true) : blank r.sourceText = false := by
  cases hblank : blank r.sourceText with
  | false => rfl
  | true => simp [validateResolved,hblank,rejected] at h

lemma validateResolved_evidence (candidate : Metadata) (inferred : Bool) (claim : String)
    (r : Resolution) : (validateResolved env candidate messages isGroupChat profile inferred
      claim r).evidence = r.evidence := by
  unfold validateResolved
  dsimp only
  split
  · rfl
  · split
    · rfl
    · split
      · rfl
      · split <;> rfl

lemma rawReferences_factCandidate {fact : String} (h : refs.isEmpty = false) :
    rawReferences (factCandidate mem fact refs) = some refs := by
  have hget : (factCandidate mem fact refs).get? "source_refs" = some (.arr refs) := rfl
  unfold rawReferences
  simp only [hget,h]
  rfl

lemma validateFact_open {fact : String} {r : GroundingResult}
    (hr : r = validateFact env mem messages isGroupChat profile seqs fact refs)
    (h : r.allowed = true ∨ r.requiresJudge = true) :
    OwnEvidence env messages profile seqs refs r.evidence := by
  unfold validateFact at hr
  cases hrefs : refs.isEmpty with
  | true => simp [hr,hrefs,rejected] at h
  | false =>
    rw [hrefs] at hr
    simp only [Bool.false_eq_true,if_false] at hr
    split at hr
    · simp [hr,rejected] at h
    split at hr
    · simp [hr,rejected] at h
    rename_i hall
    rw [Bool.not_eq_false,← hr] at hall
    unfold validate at hr
    rw [rawReferences_factCandidate hrefs] at hr
    dsimp only at hr
    split at hr
    · simp [hr,rejected] at h
    split at hr
    · simp [hr,rejected] at h
    cases hresolved : resolveReferences env refs messages false profile.maxReferences seqs with
    | none =>
      rw [hresolved] at hr
      simp [hr,rejected] at h
    | some resolution =>
      rw [hresolved] at hr
      have hevidence : r.evidence = resolution.evidence := by
        rw [hr,validateResolved_evidence]
      have htext := validateResolved_open (hr ▸ h)
      obtain ⟨d,hd,hrole⟩ := resolveReferences_user hresolved htext
      have huser : hasUserSourceEvidence r.evidence = true := by
        unfold hasUserSourceEvidence
        rw [hall,hevidence]
        have hne : resolution.evidence.isEmpty = false := by
          rw [List.isEmpty_eq_false_iff]
          exact List.ne_nil_of_mem hd
        rw [hne,List.any_eq_true.mpr ⟨d,hd,decide_eq_true hrole⟩]
        rfl
      refine ⟨?_,huser,?_⟩
      · rw [hresolved,Option.map_some,hevidence]
      · rw [hevidence]
        exact resolveReferences_within hresolved

lemma mapM_getElem? {α β : Type*} {f : α → Option β} {l : List α} {l' : List β}
    (h : l.mapM f = some l') : l'.length = l.length ∧
      ∀ (i : ℕ) (b : β), l'[i]? = some b → ∃ a, l[i]? = some a ∧ f a = some b := by
  induction l generalizing l' with
  | nil =>
    cases h
    exact ⟨rfl,fun i b hb => by simp at hb⟩
  | cons a l ih =>
    rw [List.mapM_cons] at h
    simp only [Option.bind_eq_bind,Option.bind_eq_some_iff,Option.pure_def, Option.some.injEq] at h
    obtain ⟨b,hb,rest,hrest,rfl⟩ := h
    obtain ⟨hlength,hget⟩ := ih hrest
    refine ⟨by simp [hlength],?_⟩
    intro i c hc
    cases i with
    | zero => exact ⟨a,rfl,by simpa using hb.trans hc⟩
    | succ i => exact hget i c (by simpa using hc)

lemma validFacts_eq {facts : List String} (h : validFacts (mem.get? "key_facts") = some facts) :
    facts = candidateFacts mem ∧ facts ≠ [] ∧ ∀ fact ∈ facts, blank fact = false := by
  unfold candidateFacts
  unfold validFacts at h
  cases hfacts : mem.get? "key_facts" with
  | none => rw [hfacts] at h; cases h
  | some value =>
    rw [hfacts] at h
    cases value with
    | arr items =>
      simp only at h ⊢
      split at h
      · cases h
      · rename_i hitems
        obtain ⟨hlength,hget⟩ := mapM_getElem? h
        have htext : ∀ (i : ℕ) (fact : String), facts[i]? = some fact →
            items[i]? = some (Json.str fact) ∧ blank fact = false := by
          intro i fact hi
          obtain ⟨item,hitem,hfact⟩ := hget i fact hi
          cases item with
          | str s =>
            unfold factString at hfact
            cases hs : blank s with
            | true => simp [hs] at hfact
            | false =>
              simp only [hs,Bool.false_eq_true,if_false,Option.some.injEq] at hfact
              exact ⟨hfact ▸ hitem,hfact ▸ hs⟩
          | _ => cases hfact
        refine ⟨?_,?_,?_⟩
        · apply List.ext_getElem?
          intro i
          rw [List.getElem?_map]
          cases hi : facts[i]? with
          | none =>
            have hout : items.length ≤ i := hlength ▸ List.getElem?_eq_none_iff.mp hi
            rw [List.getElem?_eq_none hout,Option.map_none]
          | some fact => rw [(htext i fact hi).1,Option.map_some]
        · intro hempty
          rw [hempty] at hlength
          exact hitems (by rw [List.isEmpty_iff,List.length_eq_zero_iff.mp hlength.symm])
        · intro fact hfact
          obtain ⟨i,hi⟩ := List.mem_iff_getElem?.mp hfact
          exact (htext i fact hi).2
    | _ => cases h

lemma validateFacts_length : (validateFacts env mem messages isGroupChat profile seqs).length =
    max 1 (candidateFacts mem).length := by
  have hmismatch : mismatchCount (mem.get? "key_facts") = max 1 (candidateFacts mem).length := by
    unfold mismatchCount candidateFacts
    cases mem.get? "key_facts" with
    | none => rfl
    | some value => cases value <;> simp
  unfold validateFacts
  split
  · rename_i facts groups hfacts _
    obtain ⟨heq,hne,-⟩ := validFacts_eq hfacts
    have hpos : 1 ≤ facts.length := List.length_pos_of_ne_nil hne
    split
    · rw [List.length_replicate,hmismatch]
    · rename_i hlength
      rw [← heq]
      split
      · rw [List.length_replicate]
        omega
      · rw [List.length_zipWith]
        omega
  · rw [List.length_replicate,hmismatch]

/-- The verdict on a fact that is not refused outright is the verdict on that fact and its own
references. -/
theorem validateFacts_open {r : GroundingResult}
    (hr : (validateFacts env mem messages isGroupChat profile seqs)[i]? = some r)
    (h : r.allowed = true ∨ r.requiresJudge = true) :
    ∃ facts groups fact refs, validFacts (mem.get? "key_facts") = some facts ∧
      validGroups (mem.get? "fact_source_refs") = some groups ∧ facts[i]? = some fact ∧
      groups[i]? = some refs ∧ r = validateFact env mem messages isGroupChat profile seqs fact refs := by
  have hclosed : ∀ {n : ℕ} {reason : String}, (List.replicate n (rejected reason))[i]? = some r → False := by
    intro n reason hrep
    rw [List.eq_of_mem_replicate (List.mem_of_getElem? hrep)] at h
    simp [rejected] at h
  unfold validateFacts at hr
  split at hr
  · rename_i facts groups hfacts hgroups
    split at hr
    · exact (hclosed hr).elim
    · split at hr
      · exact (hclosed hr).elim
      · rw [List.getElem?_zipWith] at hr
        cases hfact : facts[i]? with
        | none => rw [hfact] at hr; cases hr
        | some fact =>
          cases hrefs : groups[i]? with
          | none => rw [hfact,hrefs] at hr; cases hr
          | some refs =>
            rw [hfact,hrefs] at hr
            exact ⟨facts,groups,fact,refs,hfacts,hgroups,hfact,hrefs, (Option.some.inj hr).symm⟩
  · exact (hclosed hr).elim

lemma askJudge_spec {judge : GroundingResult → JudgeOutcome} {r judged : GroundingResult}
    (h : askJudge judge r = some judged) : judged.evidence = r.evidence ∧
      (judged.allowed = true → r.allowed = true ∨ r.requiresJudge = true) := by
  unfold askJudge at h
  cases hrequires : r.requiresJudge with
  | false =>
    rw [hrequires] at h
    cases h
    exact ⟨rfl,.inl⟩
  | true =>
    rw [hrequires,if_pos rfl] at h
    refine ⟨?_,fun _ => .inr rfl⟩
    cases hjudge : judge r with
    | judged supported =>
      rw [hjudge] at h
      cases h
      cases supported <;> rfl
    | unavailable => rw [hjudge] at h; cases h; rfl
    | cancelled => rw [hjudge] at h; cases h

lemma mem_indicesWhere {verdict : Bool} :
    i ∈ indicesWhere verdict results ↔ ∃ r, results[i]? = some r ∧ r.allowed = verdict := by
  unfold indicesWhere
  rw [List.mem_filter,List.mem_range,Option.any_eq_true_iff_get]
  constructor
  · rintro ⟨hi,hsome,hverdict⟩
    exact ⟨_,(Option.some_get hsome).symm,of_decide_eq_true hverdict⟩
  · rintro ⟨r,hr,hverdict⟩
    refine ⟨(List.getElem?_eq_some_iff.mp hr).1,by simp [hr],?_⟩
    simpa [hr] using hverdict

lemma indicesWhere_increasing (verdict : Bool) (results : List GroundingResult) :
    (indicesWhere verdict results).Pairwise (· < ·) :=
  List.pairwise_lt_range.filter _

lemma indicesWhere_partition (hi : i < results.length) :
    i ∈ indicesWhere true results ↔ i ∉ indicesWhere false results := by
  rw [mem_indicesWhere,mem_indicesWhere,List.getElem?_eq_getElem hi]
  cases hallowed : results[i].allowed <;> simp

end Memora.Grounding

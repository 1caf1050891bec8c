import Memora.GroundingRecords

/-! The facts of a held memory are checked again against a later window, where the messages of their
evidence are found by id, role and fingerprint. A fact whose messages stand there as before gets
the verdict it had. -/
namespace Memora.Grounding
open Memora.Canonical (pythonStrip)
open Memora.Representation (Json Metadata blank)
open Memora.Merging (reference)
open Memora.Atoms (isResolvedSourceReference sourceRole)
open Memora.Selections (takeTo)

structure Sender where
  canonicalUserId : Option String := none
  stableUserId : Option String := none
  name : Option String := none
  identityLabel : Option String := none

/-- The parts of the subject check that are not the check itself: `normalize_text`, and what is
stored with the message of an id. -/
structure SubjectEnv where
  normalizeText : String → GateProfile → String
  sender : ℤ → Sender

section Subject

variable (env : GroundingEnv) (subjects : SubjectEnv)

def subjectKey (m : Message) : String :=
  let s := subjects.sender m.id
  match ([s.canonicalUserId,s.stableUserId,some m.senderId].filterMap id).find? (!blank ·) with
  | some value => pythonStrip value
  | none => ""

def messageLabels (profile : GateProfile) (m : Message) : List String :=
  let s := subjects.sender m.id
  (([some m.senderId,s.name,s.identityLabel].filterMap id).filter (!blank ·)).map
    (subjects.normalizeText · profile)

def subjectLabels (messages : List Message) (profile : GateProfile) : List (List String) :=
  let users := messages.filter fun m =>
    env.lower (pythonStrip m.role) = "user" ∧ subjectKey subjects m ≠ ""
  (users.map (subjectKey subjects)).dedup.map fun key =>
    (users.filter (subjectKey subjects · = key)).flatMap (messageLabels subjects profile)

/-- What a loop over `participants or []` reads. -/
def participantItems : Option Json → List Json
  | some (.arr items) => items
  | some (.str s) => s.toList.map fun c => .str (String.ofList [c])
  | some (.obj entries) => entries.map fun e => .str e.1
  | _ => []

def participantLabels (profile : GateProfile) (candidate : Metadata) : List String :=
  ((participantItems (candidate.get? "participants")).filterMap factString).map
    (subjects.normalizeText · profile)

def validateGroupSubject (candidate : Metadata) (referenced : List Message) (isGroupChat : Bool)
    (profile : GateProfile) (subjectMessages : Option (List Message)) : Option String :=
  if isGroupChat = false then none
  else
    let users := subjectLabels env subjects referenced profile
    let wider := subjectMessages.elim users fun l => subjectLabels env subjects l profile
    let ambiguityUsers := if wider.isEmpty then users else wider
    let participants := participantLabels subjects profile candidate
    if participants.isEmpty then
      if 1 < ambiguityUsers.length then some "grounding_subject_ambiguous" else none
    else
      let usable := participants.filter fun label =>
        (ambiguityUsers.filter (·.contains label)).length ≤ 1
      if usable.isEmpty then some "grounding_subject_ambiguous"
      else if users.any fun labels => labels.all (!usable.contains ·) then
        some "grounding_subject_mismatch"
      else none

def GroundingEnv.withSubjects : GroundingEnv :=
  { env with validateGroupSubject := Grounding.validateGroupSubject env subjects }

end Subject

section Replay

variable (env : GroundingEnv)

def textOf : Option Json → Option String
  | some (.str s) => some s
  | _ => none

def matchStoredEvidence (item : Metadata) (messages : List Message) : Option ℕ :=
  messages.findIdx? fun m => intOf (item.get? "message_id") = some m.id ∧
    textOf (item.get? "role") = some m.role ∧
    textOf (item.get? "message_fingerprint") = some (env.fingerprint m.role m.text)

/-- The window numbers read from the evidence so far, and the references built from it. -/
structure Relocation where
  storedSeqs : List (Option ℤ)
  refs : List Json := []

/-- One turn of the loop in `revalidate_stored_evidence`, which ends where a source changed. -/
def relocate (messages : List Message) (seqs : Option (List (Option ℤ))) (st : Relocation)
    (item : Metadata) : Option Relocation := do
  let index ← matchStoredEvidence env item messages
  let sequence := intOf (item.get? "message_seq")
  if seqs.any fun values => values[index]? ≠ some sequence then none
  else if (st.storedSeqs[index]?).join.any fun stored => some stored ≠ sequence then none
  else some {
    storedSeqs := st.storedSeqs.set index sequence
    refs := st.refs++[.obj [("message_index",.int index),
      ("start",(item.get? "start").getD .null),("end",(item.get? "end").getD .null)]] }

def revalidateStoredEvidence (candidate : Metadata) (fact : String) (messages : List Message)
    (evidence : List Json) (isGroupChat : Bool) (profile : GateProfile)
    (seqs : Option (List (Option ℤ))) : GroundingResult :=
  if evidence.isEmpty then rejected "grounding_source_evidence_missing"
  else match (evidence.mapM reference).filter (·.all isResolvedSourceReference) with
    | none => rejected "grounding_source_evidence_invalid"
    | some items =>
      if seqs.any fun values => !validMessageSequences values messages.length then
        rejected "grounding_message_sequence_invalid"
      else match items.foldlM (relocate env messages seqs) ⟨List.replicate messages.length none,[]⟩ with
        | none => rejected "grounding_source_changed"
        | some st =>
          let result := validate env (factCandidate candidate fact st.refs) messages isGroupChat
            profile (some (seqs.getD st.storedSeqs))
          if result.evidence.length ≠ st.refs.length then rejected "grounding_reference_invalid"
          else result

def revalidateFacts (candidate : Metadata) (messages : List Message) (isGroupChat : Bool)
    (profile : GateProfile) (seqs : Option (List (Option ℤ))) : List GroundingResult :=
  match validFacts (candidate.get? "key_facts"),
      validGroups (candidate.get? "fact_source_evidence") with
  | some facts,some groups =>
    if groups.length ≠ facts.length then [rejected "grounding_fact_evidence_mismatch"]
    else List.zipWith (fun fact group => revalidateStoredEvidence env candidate fact messages group
      isGroupChat profile seqs) facts groups
  | _,_ => [rejected "grounding_fact_evidence_mismatch"]

end Replay

structure SameVerdict (r r' : GroundingResult) : Prop where
  allowed : r'.allowed = r.allowed
  status : r'.status = r.status
  reasonCodes : r'.reasonCodes = r.reasonCodes
  sourceText : r'.sourceText = r.sourceText
  claimText : r'.claimText = r.claimText
  requiresJudge : r'.requiresJudge = r.requiresJudge
  evidence : r'.evidence.map (·.pop "message_index") = r.evidence.map (·.pop "message_index")

/-- The message of a piece of evidence stands in a later window, where its number, if the window
has numbers, is the one in the evidence. -/
def Retained (messages later : List Message) (laterSeqs : Option (List (Option ℤ)))
    (d : Metadata) : Prop :=
  ∃ (i j : ℕ) (m : Message), intOf (d.get? "message_index") = some (i : ℤ) ∧
    messages[i]? = some m ∧ later[j]? = some m ∧
    ∀ values ∈ laterSeqs, values[j]? = some (intOf (d.get? "message_seq"))

variable {env : GroundingEnv} {messages later : List Message} {profile : GateProfile}
  {seqs laterSeqs : Option (List (Option ℤ))} {isGroupChat : Bool} {mem : Metadata}
  {refs : List Json}
  {r : ResolvedReference}

lemma takeTo_of_length {α β : Type*} {k : ℤ} {l : List α} {l' : List β}
    (h : (takeTo k l).length = l.length) (hlength : l'.length = l.length) : takeTo k l' = l' := by
  unfold takeTo at h ⊢
  split at h
  · rw [if_pos ‹_›,List.take_of_length_le]
    rw [List.length_take] at h
    omega
  · rw [if_neg ‹_›,List.take_of_length_le]
    rw [List.length_take] at h
    omega

lemma reference_entries (d : Metadata) : reference (.obj d.entries) = some d :=
  congrArg some (Dict.ofEntries_entries d)

def citation (j : ℕ) (r : ResolvedReference) : Metadata where
  entries := [("message_index",.int j),("start",.int r.start),("end",.int r.stop)]

lemma resolveReference_relocates {raw : Json} {j : ℕ}
    (h : resolveReference messages raw = some r) (hj : later[j]? = some r.message) :
    resolveReference later (.obj (citation j r).entries) = some { r with index := j } := by
  obtain ⟨-,hlt,hle⟩ := resolveReference_within h
  have hblank : blank r.span = false := by
    simp only [resolveReference,Option.bind_eq_bind,Option.bind_eq_some_iff] at h
    obtain ⟨d,-,index,-,start,-,stop,-,message,-,h⟩ := h
    split at h
    · cases h
    split at h
    · cases h
    · rename_i hblank
      cases h
      exact Bool.eq_false_iff.mpr hblank
  have hget : messageAt later (j : ℤ) = some r.message := by
    rw [messageAt,if_neg (by omega)]
    exact hj
  have hindex : intOf ((citation j r).get? "message_index") = some (j : ℤ) := rfl
  have hstart : intOf ((citation j r).get? "start") = some (r.start : ℤ) := rfl
  have hstop : intOf ((citation j r).get? "end") = some (r.stop : ℤ) := rfl
  simp only [resolveReference,reference_entries,hindex,hstart,hstop,hget,Option.bind_eq_bind,
    Option.bind_some,Int.toNat_natCast]
  rw [if_neg (by omega),if_neg]
  intro hspan
  exact absurd (hblank.symm.trans hspan) (by simp)

lemma pop_index (r : ResolvedReference) {seqs' : Option (List (Option ℤ))} {j : ℕ}
    (h : referenceSeq seqs' j = referenceSeq seqs r.index) :
    (evidenceEntry env seqs' false { r with index := j }).pop "message_index" =
      (evidenceEntry env seqs false r).pop "message_index" := by
  have hentry : ∀ (s : Option (List (Option ℤ))) (t : ResolvedReference),
      ((evidenceEntry env s false t).pop "message_index").entries =
        (evidenceEntry env s false t).entries.tail := fun _ _ => rfl
  apply Dict.eq_of_entries
  rw [hentry,hentry]
  simp only [evidenceEntry,List.tail_cons,h]

section Run

structure Placed (env : GroundingEnv) (later : List Message)
    (seqs laterSeqs : Option (List (Option ℤ))) (place : ResolvedReference → ℕ)
    (number : ResolvedReference → ℤ) (r : ResolvedReference) : Prop where
  found : matchStoredEvidence env (evidenceEntry env seqs false r) later = some (place r)
  message : later[place r]? = some r.message
  seq : referenceSeq seqs r.index = some (number r)
  numbered : ∀ values ∈ laterSeqs, values[place r]? = some (some (number r))

variable {place : ResolvedReference → ℕ} {number : ResolvedReference → ℤ}
  {resolved todo : List ResolvedReference} {st : Relocation}

def Relocation.Holds (place : ResolvedReference → ℕ) (number : ResolvedReference → ℤ)
    (st : Relocation) (r : ResolvedReference) : Prop :=
  st.storedSeqs[place r]? = some (some (number r))

def Relocation.Fits (place : ResolvedReference → ℕ) (number : ResolvedReference → ℤ)
    (st : Relocation) (r : ResolvedReference) : Prop :=
  st.storedSeqs[place r]? = some none ∨ st.Holds place number r

lemma relocate_placed (hr : Placed env later seqs laterSeqs place number r)
    (hst : st.Fits place number r) :
    relocate env later laterSeqs st (evidenceEntry env seqs false r) =
      some ⟨st.storedSeqs.set (place r) (some (number r)), st.refs++[.obj (citation (place r) r).entries]⟩ := by
  have hseq : intOf ((evidenceEntry env seqs false r).get? "message_seq") = some (number r) := by
    have hget : (evidenceEntry env seqs false r).get? "message_seq" =
      some ((referenceSeq seqs r.index).elim .null .int) := rfl
    rw [hget,hr.seq]
    rfl
  have hseqs : (laterSeqs.any fun values => values[place r]? ≠ some (some (number r))) = false := by
    cases hl : laterSeqs with
    | none => rfl
    | some values => simp [hr.numbered values hl]
  have hstored : ((st.storedSeqs[place r]?).join.any fun stored =>
      some stored ≠ some (number r)) = false := by
    rcases hst with h | h
    · rw [h]
      rfl
    · rw [show st.storedSeqs[place r]? = some (some (number r)) from h]
      simp
  unfold relocate
  rw [hr.found]
  simp only [Option.bind_eq_bind,Option.bind_some,hseq,hseqs,hstored,Bool.false_eq_true,if_false]
  rfl

lemma set_fits {r t : ResolvedReference}
    (hsame : place t = place r → number t = number r) (h : st.Fits place number t) :
    Relocation.Fits place number ⟨st.storedSeqs.set (place r) (some (number r)),refs⟩ t ∧
      (st.Holds place number t →
        Relocation.Holds place number ⟨st.storedSeqs.set (place r) (some (number r)),refs⟩ t) := by
  have hlt : place t < st.storedSeqs.length := by
    rcases h with h | h
    · exact (List.getElem?_eq_some_iff.mp h).1
    · exact (List.getElem?_eq_some_iff.mp h).1
  unfold Relocation.Fits Relocation.Holds at *
  by_cases heq : place t = place r
  · rw [← heq,List.getElem?_set_self hlt,hsame heq]
    exact ⟨.inr rfl,fun _ => rfl⟩
  · rw [List.getElem?_set_ne (Ne.symm heq)]
    exact ⟨h,id⟩

lemma relocate_all (hplaced : ∀ r ∈ resolved, Placed env later seqs laterSeqs place number r)
    (hsame : ∀ r ∈ resolved, ∀ t ∈ resolved, place t = place r → number t = number r)
    (hsub : ∀ r ∈ todo, r ∈ resolved) (st : Relocation)
    (hst : ∀ r ∈ resolved, st.Fits place number r) :
    ∃ st', (todo.map (evidenceEntry env seqs false)).foldlM (relocate env later laterSeqs) st =
        some st' ∧ st'.refs = st.refs++todo.map (fun r => .obj (citation (place r) r).entries) ∧
      (∀ r ∈ resolved, st.Holds place number r → st'.Holds place number r) ∧
      ∀ r ∈ todo, st'.Holds place number r := by
  induction todo generalizing st with
  | nil => exact ⟨st,rfl,by simp,fun _ _ h => h,by simp⟩
  | cons r todo ih =>
    have hr := hsub r List.mem_cons_self
    have hturn := relocate_placed (hplaced r hr) (hst r hr)
    obtain ⟨st',hrun,hrefs,hkept,hdone⟩ := ih (fun t ht => hsub t (List.mem_cons_of_mem _ ht))
      ⟨st.storedSeqs.set (place r) (some (number r)), st.refs++[.obj (citation (place r) r).entries]⟩
      (fun t ht => (set_fits (hsame r hr t ht) (hst t ht)).1)
    have hheld : Relocation.Holds place number ⟨st.storedSeqs.set (place r) (some (number r)),
        st.refs++[.obj (citation (place r) r).entries]⟩ r := by
      refine List.getElem?_set_self ?_
      rcases hst r hr with h | h
      · exact (List.getElem?_eq_some_iff.mp h).1
      · exact (List.getElem?_eq_some_iff.mp h).1
    refine ⟨st',?_,?_,?_,?_⟩
    · rw [List.map_cons,List.foldlM_cons,hturn]
      exact hrun
    · rw [hrefs,List.map_cons,List.append_assoc,List.singleton_append]
    · intro t ht h
      exact hkept t ht ((set_fits (hsame r hr t ht) (hst t ht)).2 h)
    · intro t ht
      rcases List.mem_cons.mp ht with rfl | ht
      · exact hkept t hr hheld
      · exact hdone t ht

end Run

variable {subjects : SubjectEnv} {fact : String} {mem' : Metadata}

/-- The checks read the participants of a candidate and the cited spans of the users. -/
theorem validateResolved_same {refs refs' : List Json} {claim : String}
    {r r' : Resolution}
    (hparticipants : (mem'.get? "participants").getD (.arr []) = (mem.get? "participants").getD (.arr []))
    (hevidence : r'.evidence.map (·.pop "message_index") = r.evidence.map (·.pop "message_index"))
    (htext : r'.sourceText = r.sourceText)
    (hreferenced : r'.referencedMessages = r.referencedMessages) :
    SameVerdict (validateResolved (env.withSubjects subjects) (factCandidate mem fact refs)
        messages isGroupChat profile false claim r)
      (validateResolved (env.withSubjects subjects) (factCandidate mem' fact refs') later
        isGroupChat profile false claim r') := by
  have hsubject : (env.withSubjects subjects).validateGroupSubject (factCandidate mem' fact refs')
      r.referencedMessages isGroupChat profile none =
      (env.withSubjects subjects).validateGroupSubject (factCandidate mem fact refs)
        r.referencedMessages isGroupChat profile none := by
    have hlabels : participantLabels subjects profile (factCandidate mem' fact refs') =
        participantLabels subjects profile (factCandidate mem fact refs) := by
      have hget : ∀ (c : Metadata) (l : List Json), (factCandidate c fact l).get? "participants" =
        some ((c.get? "participants").getD (.arr [])) := fun _ _ => rfl
      unfold participantLabels
      rw [hget,hget,hparticipants]
    simp only [GroundingEnv.withSubjects,validateGroupSubject,hlabels]
  unfold validateResolved
  rw [htext,hreferenced]
  split
  · exact ⟨rfl,rfl,rfl,rfl,rfl,rfl,hevidence⟩
  simp only [Bool.false_eq_true,if_false,hsubject]
  split
  · exact ⟨rfl,rfl,rfl,rfl,rfl,rfl,hevidence⟩
  split
  · exact ⟨rfl,rfl,rfl,rfl,rfl,rfl,hevidence⟩
  split
  · exact ⟨rfl,rfl,rfl,rfl,rfl,rfl,hevidence⟩
  · exact ⟨rfl,rfl,rfl,rfl,rfl,rfl,hevidence⟩

lemma validateFact_resolved {r : GroundingResult}
    (hr : r = validateFact env mem messages isGroupChat profile seqs fact refs)
    (h : r.evidence ≠ []) :
    ∃ resolution, resolveReferences env refs messages false profile.maxReferences seqs =
        some resolution ∧ r.evidence = resolution.evidence ∧ r.evidence.length = refs.length ∧
      r.evidence.all isResolvedSourceReference = true ∧
      claimText (factCandidate mem fact refs) ≠ "" ∧
      r = validateResolved env (factCandidate mem fact refs) messages isGroupChat profile false
        (claimText (factCandidate mem fact refs)) resolution := by
  unfold validateFact at hr
  split at hr
  · exact absurd (congrArg GroundingResult.evidence hr) h
  rename_i hrefs
  dsimp only at hr
  split at hr
  · exact absurd (congrArg GroundingResult.evidence hr) h
  rename_i hlength
  split at hr
  · exact absurd (congrArg GroundingResult.evidence hr) h
  rename_i hall
  rw [← hr] at hlength hall
  unfold validate at hr
  rw [rawReferences_factCandidate (Bool.eq_false_iff.mpr hrefs)] at hr
  dsimp only at hr
  split at hr
  · exact absurd (congrArg GroundingResult.evidence hr) h
  rename_i hclaim
  split at hr
  · exact absurd (congrArg GroundingResult.evidence hr) h
  cases hresolved : resolveReferences env refs messages false profile.maxReferences seqs with
  | none =>
    rw [hresolved] at hr
    exact absurd (congrArg GroundingResult.evidence hr) h
  | some resolution =>
    rw [hresolved] at hr
    refine ⟨resolution,rfl,?_,not_not.mp hlength,by simpa using hall,hclaim,hr⟩
    rw [hr,validateResolved_evidence]

variable (env seqs) in
lemma matchStored_retained {r : ResolvedReference} {j : ℕ}
    (hids : (later.map Message.id).Nodup) (hj : later[j]? = some r.message) :
    matchStoredEvidence env (evidenceEntry env seqs false r) later = some j := by
  obtain ⟨hlt,hget⟩ := List.getElem?_eq_some_iff.mp hj
  have hid : intOf ((evidenceEntry env seqs false r).get? "message_id") = some r.message.id := rfl
  have hrole : textOf ((evidenceEntry env seqs false r).get? "role") = some r.message.role := rfl
  have hprint : textOf ((evidenceEntry env seqs false r).get? "message_fingerprint") =
    some (env.fingerprint r.message.role r.message.text) := rfl
  unfold matchStoredEvidence
  rw [hid,hrole,hprint,List.findIdx?_eq_some_iff_getElem]
  refine ⟨hlt,by simp [hget],?_⟩
  intro k hk
  have hne : later[k].id ≠ r.message.id := by
    intro heq
    have hk' : k < (later.map Message.id).length := by rw [List.length_map]; omega
    have hj' : j < (later.map Message.id).length := by rw [List.length_map]; omega
    have hsame : (later.map Message.id)[k] = (later.map Message.id)[j] := by
      rw [List.getElem_map,List.getElem_map,hget,heq]
    have h := (List.Nodup.getElem_inj_iff hids).mp hsame
    omega
  simp [Ne.symm hne]

lemma referenceSeq_of_complete (h : isResolvedSourceReference
    (evidenceEntry env seqs false r) = true) :
    ∃ q, referenceSeq seqs r.index = some q := by
  simp only [isResolvedSourceReference,Bool.and_eq_true] at h
  have hseq := h.1.1.1.1.1.2
  have hget : (evidenceEntry env seqs false r).get? "message_seq" =
    some ((referenceSeq seqs r.index).elim .null .int) := rfl
  rw [hget] at hseq
  cases hq : referenceSeq seqs r.index with
  | none =>
    rw [hq] at hseq
    cases hseq
  | some q => exact ⟨q,rfl⟩

lemma referenceSeq_of_stored {values : List (Option ℤ)} {i j : ℕ} {q : ℤ}
    (hq : referenceSeq seqs i = some q) (hj : values[j]? = some (some q)) :
    referenceSeq (some values) j = referenceSeq seqs i := by
  have hpos : 0 ≤ q := by
    unfold referenceSeq at hq
    simpa using (Option.filter_eq_some_iff.mp hq).2
  rw [hq,referenceSeq,Option.bind_some,hj,Option.join_some,Option.filter_some,if_pos (by simpa)]

lemma mapM_reference (l : List Metadata) : (l.map fun d => Json.obj d.entries).mapM reference =
    some l := by
  induction l with
  | nil => rfl
  | cons d l ih =>
    rw [List.map_cons,List.mapM_cons,reference_entries,ih]
    rfl

/-- References to the same messages in another window resolve to the same spans. -/
theorem resolveReferences_relocates {resolution : Resolution} {maxRefs : ℤ}
    (later : List Message) (place : ResolvedReference → ℕ)
    (h : resolveReferences env refs messages false maxRefs seqs = some resolution)
    (hlength : resolution.evidence.length = refs.length) :
    ∃ resolved : List ResolvedReference, resolution.evidence =
    resolved.map (evidenceEntry env seqs false) ∧
      (∀ r ∈ resolved, r.Within messages) ∧
      ∀ seqs', (∀ r ∈ resolved, later[place r]? = some r.message ∧
          referenceSeq seqs' (place r) = referenceSeq seqs r.index) →
        ∃ resolution', resolveReferences env
            (resolved.map fun r => .obj (citation (place r) r).entries) later false maxRefs seqs' =
              some resolution' ∧ resolution'.sourceText = resolution.sourceText ∧
          resolution'.referencedMessages = resolution.referencedMessages ∧
          resolution'.evidence.map (·.pop "message_index") =
            resolution.evidence.map (·.pop "message_index") := by
  unfold resolveReferences at h
  dsimp only at h
  split at h
  · cases h
  rename_i hempty
  cases h
  set resolved := (takeTo maxRefs refs).filterMap (resolveReference messages) with hresolved
  rw [List.length_map] at hlength
  have hraw : ∀ r ∈ resolved, ∃ raw, resolveReference messages raw = some r := by
    intro r hr
    obtain ⟨raw,-,h⟩ := List.mem_filterMap.mp hr
    exact ⟨raw,h⟩
  refine ⟨resolved,rfl,fun r hr => ?_,fun seqs' hplaced => ?_⟩
  · obtain ⟨raw,h⟩ := hraw r hr
    exact resolveReference_within h
  have htake : (takeTo maxRefs refs).length = refs.length := by
    have hle := List.length_filterMap_le (resolveReference messages) (takeTo maxRefs refs)
    have hsub := (Selections.takeTo_sublist maxRefs refs).length_le
    rw [← hresolved] at hle
    omega
  let moved : ResolvedReference → ResolvedReference := fun r => { r with index := place r }
  have hmoved : (takeTo maxRefs (resolved.map fun r => .obj (citation (place r) r).entries)).filterMap
      (resolveReference later) = resolved.map moved := by
    rw [takeTo_of_length htake (by rw [List.length_map,hlength]),List.filterMap_map, ← List.filterMap_eq_map]
    refine List.filterMap_congr fun r hr => ?_
    obtain ⟨raw,h⟩ := hraw r hr
    exact resolveReference_relocates h (hplaced r hr).1
  have husers : (resolved.map moved).filter (fun r => r.message.role = "user") =
      (resolved.filter fun r => r.message.role = "user").map moved := List.filter_map
  have hrun : resolveReferences env (resolved.map fun r => .obj (citation (place r) r).entries) later
      false maxRefs seqs' = some {
        evidence := (resolved.map moved).map (evidenceEntry env seqs' false)
        sourceText := "\n".intercalate (((resolved.map moved).filter
          fun r => r.message.role = "user").map fun r => pythonStrip r.span)
        referencedMessages := ((resolved.map moved).filter fun r => r.message.role = "user").map
          fun r => { r.message with text := r.span } } := by
    unfold resolveReferences
    dsimp only
    rw [hmoved,if_neg (by simpa using hempty)]
  refine ⟨_,hrun,?_,?_,?_⟩
  · dsimp only
    rw [husers,List.map_map]
    rfl
  · dsimp only
    rw [husers,List.map_map]
    rfl
  · dsimp only
    rw [List.map_map,List.map_map,List.map_map]
    exact List.map_congr_left fun r hr => pop_index r (hplaced r hr).2

/-- The evidence of a fact, checked again where its messages stand as before, gives the verdict
that the fact had. -/
theorem revalidateStoredEvidence_same {r : GroundingResult}
    (hr : r = validateFact (env.withSubjects subjects) mem messages isGroupChat profile seqs fact
      refs) (h : r.evidence ≠ [])
    (hparticipants : (mem'.get? "participants").getD (.arr []) = (mem.get? "participants").getD (.arr []))
    (hmessages : (messages.map Message.id).Nodup) (hlater : (later.map Message.id).Nodup)
    (hvalid : ∀ values ∈ laterSeqs, validMessageSequences values later.length = true)
    (hretained : ∀ d ∈ r.evidence, Retained messages later laterSeqs d) :
    SameVerdict r (revalidateStoredEvidence (env.withSubjects subjects) mem' fact later
      (r.evidence.map fun d => .obj d.entries) isGroupChat profile laterSeqs) := by
  obtain ⟨resolution,hresolved,hevidence,hlength,hall,hclaim,hverdict⟩ := validateFact_resolved hr h
  let place : ResolvedReference → ℕ := fun s =>
    (matchStoredEvidence (env.withSubjects subjects)
      (evidenceEntry (env.withSubjects subjects) seqs false s) later).getD 0
  let number : ResolvedReference → ℤ := fun s => (referenceSeq seqs s.index).getD 0
  obtain ⟨resolved,hmap,hwithin,hrelocates⟩ :=
    resolveReferences_relocates later place hresolved (hevidence ▸ hlength)
  rw [hevidence,hmap] at hall hretained
  have hplaced : ∀ s ∈ resolved, Placed (env.withSubjects subjects) later seqs laterSeqs place
      number s := by
    intro s hs
    obtain ⟨i,j,m,hindex,hm,hj,hnumbers⟩ := hretained _ (List.mem_map_of_mem hs)
    have hi : (s.index : ℤ) = i := Option.some.inj hindex
    obtain rfl : s.index = i := by omega
    obtain rfl : s.message = m := Option.some.inj ((hwithin s hs).1.symm.trans hm)
    have hfound := matchStored_retained (env.withSubjects subjects) seqs hlater hj
    have hplace : place s = j := by
      simp only [place,hfound,Option.getD_some]
    obtain ⟨q,hq⟩ := referenceSeq_of_complete (List.all_eq_true.mp hall _ (List.mem_map_of_mem hs))
    have hseq : referenceSeq seqs s.index = some (number s) := by
      simp only [number,hq,Option.getD_some]
    have hget : intOf ((evidenceEntry (env.withSubjects subjects) seqs false s).get?
        "message_seq") = some (number s) := by
      have hget : (evidenceEntry (env.withSubjects subjects) seqs false s).get? "message_seq" =
        some ((referenceSeq seqs s.index).elim .null .int) := rfl
      rw [hget,hseq]
      rfl
    exact ⟨hplace ▸ hfound,hplace ▸ hj,hseq,fun values hv => by rw [hplace,hnumbers values hv,hget]⟩
  have hsame : ∀ s ∈ resolved, ∀ t ∈ resolved, place t = place s → number t = number s := by
    intro s hs t ht heq
    have hmessage : t.message = s.message := Option.some.inj
      ((hplaced t ht).message.symm.trans (heq ▸ (hplaced s hs).message))
    have hindex : t.index = s.index := by
      obtain ⟨hlt,htget⟩ := List.getElem?_eq_some_iff.mp (hwithin t ht).1
      obtain ⟨hls,hsget⟩ := List.getElem?_eq_some_iff.mp (hwithin s hs).1
      have hlt' : t.index < (messages.map Message.id).length := by simpa using hlt
      have hls' : s.index < (messages.map Message.id).length := by simpa using hls
      have hids : (messages.map Message.id)[t.index] = (messages.map Message.id)[s.index] := by
        rw [List.getElem_map,List.getElem_map,htget,hsget,hmessage]
      exact (List.Nodup.getElem_inj_iff hmessages).mp hids
    have hseqs := (hplaced t ht).seq
    rw [hindex,(hplaced s hs).seq] at hseqs
    exact (Option.some.inj hseqs).symm
  have hfits : ∀ s ∈ resolved, Relocation.Fits place number ⟨List.replicate later.length none,[]⟩ s := by
    intro s hs
    have hlt := (List.getElem?_eq_some_iff.mp (hplaced s hs).message).1
    exact .inl (by rw [List.getElem?_replicate,if_pos hlt])
  obtain ⟨st,hrun,hrefs,-,hheld⟩ := relocate_all hplaced hsame (fun _ h => h) _ hfits
  rw [List.nil_append] at hrefs
  have hstored : ∀ s ∈ resolved, referenceSeq (some (laterSeqs.getD st.storedSeqs)) (place s) =
      referenceSeq seqs s.index := by
    intro s hs
    refine referenceSeq_of_stored (hplaced s hs).seq ?_
    cases hl : laterSeqs with
    | none => exact hheld s hs
    | some values => exact (hplaced s hs).numbered values hl
  obtain ⟨resolution',hresolved',htext,hreferenced,hevidence'⟩ :=
    hrelocates _ fun s hs => ⟨(hplaced s hs).message,hstored s hs⟩
  have hne : resolved ≠ [] := by
    rintro rfl
    exact h (hevidence.trans hmap)
  have hempty : later.isEmpty = false := by
    obtain ⟨s,hs⟩ := List.exists_mem_of_ne_nil _ hne
    exact List.isEmpty_eq_false_iff.mpr (List.ne_nil_of_mem (List.mem_of_getElem? (hplaced s hs).message))
  have hinvalid : (laterSeqs.any fun values => !validMessageSequences values later.length) =
      false := by
    cases hl : laterSeqs with
    | none => rfl
    | some values => simp [hvalid values hl]
  rw [← hrefs] at hresolved'
  have hrefsne : st.refs.isEmpty = false := by
    rw [hrefs,List.isEmpty_eq_false_iff]
    simpa using hne
  have hclaim' : claimText (factCandidate mem' fact st.refs) = claimText (factCandidate mem fact refs) := rfl
  have hfound : validate (env.withSubjects subjects) (factCandidate mem' fact st.refs) later
      isGroupChat profile (some (laterSeqs.getD st.storedSeqs)) =
      validateResolved (env.withSubjects subjects) (factCandidate mem' fact st.refs) later
        isGroupChat profile false (claimText (factCandidate mem fact refs)) resolution' := by
    unfold validate
    rw [rawReferences_factCandidate hrefsne,hclaim']
    simp only [hclaim,hempty,if_false,Bool.false_eq_true,hresolved']
  have hcount : (validateResolved (env.withSubjects subjects) (factCandidate mem' fact st.refs)
      later isGroupChat profile false (claimText (factCandidate mem fact refs))
        resolution').evidence.length = st.refs.length := by
    have h := congrArg List.length hevidence'
    rw [validateResolved_evidence,hrefs,List.length_map]
    simpa [hmap] using h
  have hfinal : revalidateStoredEvidence (env.withSubjects subjects) mem' fact later
      (r.evidence.map fun d => .obj d.entries) isGroupChat profile laterSeqs =
      validateResolved (env.withSubjects subjects) (factCandidate mem' fact st.refs) later
        isGroupChat profile false (claimText (factCandidate mem fact refs)) resolution' := by
    unfold revalidateStoredEvidence
    rw [mapM_reference,hevidence,hmap,Option.filter_some,if_pos hall,if_neg (by simpa using hne)]
    simp only [hinvalid,Bool.false_eq_true,if_false,hrun,hfound,hcount,ne_eq,not_true_eq_false]
  rw [hfinal,hverdict]
  exact validateResolved_same hparticipants hevidence' htext hreferenced

/-- What is held of a candidate: facts with the evidence of their verdicts, which may be some of
the facts only. -/
structure Persisted (mem stored : Metadata) (kept : List (String × GroundingResult)) : Prop where
  facts : stored.get? "key_facts" = some (textsJson (kept.map Prod.fst))
  groups : stored.get? "fact_source_evidence" = some (.arr (kept.map (groupJson ·.2.evidence)))
  participants : (stored.get? "participants").getD (.arr []) =
    (mem.get? "participants").getD (.arr [])

lemma checked_fact {p : String × GroundingResult} (hp : p ∈ (candidateFacts mem).zip
      (validateFacts env mem messages isGroupChat profile seqs)) (h : p.2.evidence ≠ []) :
    blank p.1 = false ∧
      ∃ refs, p.2 = validateFact env mem messages isGroupChat profile seqs p.1 refs := by
  have hclosed : ∀ {n : ℕ} {reason : String}, p.2 ∈ List.replicate n (rejected reason) → False := by
    intro n reason hrep
    exact h (congrArg GroundingResult.evidence (List.eq_of_mem_replicate hrep))
  have hmem := (List.of_mem_zip hp).2
  unfold validateFacts at hp hmem
  split at hp
  · rename_i facts groups hfacts hgroups
    simp only [hfacts,hgroups] at hmem
    split at hp
    · rw [if_pos ‹_›] at hmem
      exact (hclosed hmem).elim
    rw [if_neg ‹_›] at hmem
    split at hp
    · rw [if_pos ‹_›] at hmem
      exact (hclosed hmem).elim
    · obtain ⟨heq,-,hblank⟩ := validFacts_eq hfacts
      rw [← heq] at hp
      obtain ⟨i,hi⟩ := List.mem_iff_getElem?.mp hp
      obtain ⟨hfact,hresult⟩ := List.getElem?_zip_eq_some.mp hi
      obtain ⟨fact,refs,hfact',-,hr⟩ := List.getElem?_zipWith_eq_some.mp hresult
      obtain rfl := Option.some.inj (hfact'.symm.trans hfact)
      exact ⟨hblank _ (List.mem_of_getElem? hfact),refs,hr.symm⟩
  · rename_i hnone
    split at hmem
    · rename_i facts groups hfacts hgroups
      exact (hnone facts groups hfacts hgroups).elim
    · exact (hclosed hmem).elim

lemma validFacts_texts {facts : List String} (hne : facts ≠ [])
    (h : ∀ fact ∈ facts, blank fact = false) :
    validFacts (some (textsJson facts)) = some facts := by
  have hmap : (facts.map Json.str).mapM factString = some facts := by
    clear hne
    induction facts with
    | nil => rfl
    | cons fact facts ih =>
      have hfact : factString (.str fact) = some fact := by
        simp [factString,h fact List.mem_cons_self]
      rw [List.map_cons,List.mapM_cons,hfact,ih fun f hf => h f (List.mem_cons_of_mem _ hf)]
      rfl
  unfold validFacts textsJson
  dsimp only
  rw [if_neg (by simpa using hne),hmap]

lemma validGroups_groups (groups : List (List Metadata)) :
    validGroups (some (.arr (groups.map groupJson))) =
      some (groups.map (·.map fun d => .obj d.entries)) := by
  unfold validGroups
  dsimp only
  induction groups with
  | nil => rfl
  | cons group groups ih =>
    rw [List.map_cons,List.mapM_cons,ih]
    rfl

/-- Held facts, checked again in a later window where the messages of their evidence stand as
before, each get the verdict they had. -/
theorem revalidateFacts_same (env : GroundingEnv) (subjects : SubjectEnv) (mem stored : Metadata)
    (messages later : List Message) (isGroupChat : Bool) (profile : GateProfile)
    (seqs laterSeqs : Option (List (Option ℤ))) (kept : List (String × GroundingResult))
    (hmessages : (messages.map Message.id).Nodup) (hlater : (later.map Message.id).Nodup)
    (hvalid : ∀ values ∈ laterSeqs, validMessageSequences values later.length = true)
    (hkept : kept ≠ [])
    (hchecked : ∀ p ∈ kept, p ∈ (candidateFacts mem).zip
      (validateFacts (env.withSubjects subjects) mem messages isGroupChat profile seqs))
    (hresolved : ∀ p ∈ kept, p.2.evidence ≠ []) (hstored : Persisted mem stored kept)
    (hretained : ∀ p ∈ kept, ∀ d ∈ p.2.evidence, Retained messages later laterSeqs d) :
    List.Forall₂ (fun p r => SameVerdict p.2 r) kept
      (revalidateFacts (env.withSubjects subjects) stored later isGroupChat profile laterSeqs) := by
  have hfact := fun p hp => checked_fact (hchecked p hp) (hresolved p hp)
  have hfacts : validFacts (stored.get? "key_facts") = some (kept.map Prod.fst) := by
    rw [hstored.facts]
    refine validFacts_texts (by simpa using hkept) fun fact hf => ?_
    obtain ⟨p,hp,rfl⟩ := List.mem_map.mp hf
    exact (hfact p hp).1
  have hgroups : validGroups (stored.get? "fact_source_evidence") =
      some (kept.map fun p => p.2.evidence.map fun d => .obj d.entries) := by
    have h := validGroups_groups (kept.map fun p => p.2.evidence)
    rw [List.map_map,List.map_map] at h
    rw [hstored.groups]
    exact h
  unfold revalidateFacts
  simp only [hfacts,hgroups,List.length_map,ne_eq,not_true_eq_false,if_false,List.zipWith_map,
    List.zipWith_self]
  rw [List.forall₂_map_right_iff,List.forall₂_same]
  intro p hp
  obtain ⟨-,refs,hr⟩ := hfact p hp
  exact revalidateStoredEvidence_same hr (hresolved p hp) hstored.participants hmessages hlater
    hvalid (hretained p hp)

section Sample

def cupsSubjects : SubjectEnv := { normalizeText := fun s _ => s, sender := fun _ => {} }

def cupsWindow : List Message := [⟨5,"assistant","noted","bot"⟩,cupsMessage]

def heldCandidate : Metadata where
  entries := [("key_facts",textsJson ["2 cups","3 cups"]),("participants",textsJson ["u1"]),
    ("fact_source_refs",.arr [.arr [.obj (citation 1 ⟨1,cupsMessage,0,6⟩).entries],
      .arr [.obj (citation 1 ⟨1,cupsMessage,0,6⟩).entries]])]

def heldFacts : List (String × GroundingResult) :=
  (candidateFacts heldCandidate).zip (validateFacts (cupsEnv.withSubjects cupsSubjects)
    heldCandidate cupsWindow true {} (some [some 3,some 4]))

def heldRecord : Metadata where
  entries := [("key_facts",textsJson (heldFacts.map Prod.fst)),
    ("fact_source_evidence",.arr (heldFacts.map (groupJson ·.2.evidence))),
    ("participants",textsJson ["u1"])]

def heldReasons (later : List Message) (seqs : Option (List (Option ℤ))) : List (List String) :=
  (revalidateFacts (cupsEnv.withSubjects cupsSubjects) heldRecord later true {} seqs).map
  (·.reasonCodes)

theorem revalidateFacts_same_sample : List.Forall₂ (fun p r => SameVerdict p.2 r) heldFacts
      (revalidateFacts (cupsEnv.withSubjects cupsSubjects) heldRecord
        [cupsMessage,⟨9,"user","so be it","u2"⟩] true {} (some [some 4,some 8])) := by
  have hne : heldFacts.isEmpty = false := by decide +kernel
  have hevidence : heldFacts.all (!·.2.evidence.isEmpty) = true := by decide +kernel
  have hentries : (heldFacts.all fun p => p.2.evidence.all fun d =>
      intOf (d.get? "message_index") = some 1 && intOf (d.get? "message_seq") = some 4) = true := by
    decide +kernel
  refine revalidateFacts_same cupsEnv cupsSubjects heldCandidate heldRecord cupsWindow _ true {}
    (some [some 3,some 4]) _ heldFacts (by decide) (by decide) ?_ (by simpa using hne)
    (fun p hp => hp) ?_ ⟨rfl,rfl,rfl⟩ ?_
  · rintro values ⟨⟩
    decide
  · intro p hp
    simpa using List.all_eq_true.mp hevidence p hp
  · intro p hp d hd
    have h := List.all_eq_true.mp (List.all_eq_true.mp hentries p hp) d hd
    simp only [Bool.and_eq_true,decide_eq_true_eq] at h
    refine ⟨1,0,cupsMessage,h.1,rfl,rfl,?_⟩
    rintro values ⟨⟩
    rw [h.2]
    rfl

/-- The window is numbered by position and an earlier message is gone: the message of the
evidence stands there as it was and has another number, so its source counts as changed. And
where the same message has another sender, the facts are refused for their subject. -/
theorem moved_message_changes_source : heldFacts.map (·.2.reasonCodes) =
    [[],["grounding_numeric_conflict"]] ∧
    heldReasons [cupsMessage] (some [some 3]) =
    [["grounding_source_changed"],["grounding_source_changed"]] ∧
    heldReasons [⟨7,"user","2 cups","u2"⟩] none =
      [["grounding_subject_mismatch"],["grounding_subject_mismatch"]] ∧
    heldReasons [cupsMessage] none = [[],["grounding_numeric_conflict"]] := by
  refine ⟨?_,?_,?_,?_⟩
  · decide +kernel
  · decide +kernel
  · decide +kernel
  · decide +kernel

end Sample

end Memora.Grounding

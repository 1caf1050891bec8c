import Memora.InjectionExecutor

/-! The loop that cuts the payload stops for every input, what is delivered fits the budget, and a
failure or cancellation at any point leaves the request as it was. -/
namespace Memora.Injection

section Payload
variable {calls : ExecutorCalls} {decision : InjectionDecision}
    {context : InjectionExecutionContext}
  {budget : ℤ}

/-- Every round without an answer takes one candidate, so one round more than candidates
is enough. -/
theorem shrinkLoop_stops {fuel : ℕ} {working : List Value} (h : working.length < fuel)
    (dropped : List Value) :
    (shrinkLoop calls decision context budget fuel working dropped).isSome = true := by
  induction fuel generalizing working dropped with
  | zero => exact absurd h (Nat.not_lt_zero _)
  | succ fuel ih =>
    rw [shrinkLoop]
    cases formatPayload calls decision context working budget with
    | error e => rfl
    | ok given =>
      dsimp only
      split
      · rfl
      split
      · rfl
      cases hlast : working.getLast? with
      | none => rfl
      | some last =>
        have hne : working ≠ [] := by
          rintro rfl
          simp at hlast
        have hpos : 0 < working.length := List.length_pos_of_ne_nil hne
        refine ih ?_ _
        rw [List.length_dropLast]
        omega

/-- What the loop answers is empty, or it fits the budget and uses candidates it was given. -/
theorem shrinkLoop_built {fuel : ℕ} {working dropped : List Value} {built : Built}
    (h : shrinkLoop calls decision context budget fuel working dropped = some (.ok built)) :
    built.payload = [] ∨ ((built.payload.length : ℤ) ≤ budget ∧ ∀ c ∈ built.selected, c ∈ working) := by
  induction fuel generalizing working dropped with
  | zero => exact absurd h (by simp [shrinkLoop])
  | succ fuel ih =>
    rw [shrinkLoop] at h
    cases hformat : formatPayload calls decision context working budget with
    | error e =>
      rw [hformat] at h
      simp at h
    | ok given =>
      obtain ⟨payload,stats⟩ := given
      rw [hformat] at h
      dsimp only at h
      by_cases hempty : payload = []
      · rw [if_pos hempty] at h
        obtain rfl := Except.ok.inj (Option.some.inj h)
        exact .inl rfl
      rw [if_neg hempty] at h
      by_cases hfits : ((protect payload).length : ℤ) ≤ budget
      · rw [if_pos hfits] at h
        obtain rfl := Except.ok.inj (Option.some.inj h)
        exact .inr ⟨hfits,fun c hc => hc⟩
      rw [if_neg hfits] at h
      cases hlast : working.getLast? with
      | none =>
        rw [hlast] at h
        obtain rfl := Except.ok.inj (Option.some.inj h)
        exact .inl rfl
      | some last =>
        rw [hlast] at h
        rcases ih h with hnothing | ⟨hsize,hfrom⟩
        · exact .inl hnothing
        · exact .inr ⟨hsize,fun c hc => List.mem_of_mem_dropLast (hfrom c hc)⟩

lemma buildVerifiedPayload_stops {fuel : ℕ} {selected : List Value} (h : selected.length < fuel)
    (dropped : List Value) :
    (buildVerifiedPayload calls decision context fuel selected dropped budget).isSome = true := by
  unfold buildVerifiedPayload
  split
  · rfl
  · exact shrinkLoop_stops h dropped

lemma buildVerifiedPayload_built {fuel : ℕ} {selected dropped : List Value} {built : Built}
    (h : buildVerifiedPayload calls decision context fuel selected dropped budget = some (.ok built)) :
    built.payload = [] ∨ ((built.payload.length : ℤ) ≤ budget ∧ ∀ c ∈ built.selected, c ∈ selected) := by
  unfold buildVerifiedPayload at h
  split at h
  · obtain rfl := Except.ok.inj (Option.some.inj h)
    exact .inl rfl
  · exact shrinkLoop_built h

lemma selectAndBuild_ok {answer : Option Built}
    (h : selectAndBuild calls decision context = .ok answer) :
    ∃ built selected dropped, answer = some built ∧
      calls.selectCandidates decision context.memories context.requiredFacets = .ok (selected,dropped) ∧
      (built.payload = [] ∨ ((built.payload.length : ℤ) ≤ effectiveBudget decision context ∧
        ∀ c ∈ built.selected, c ∈ selected)) := by
  unfold selectAndBuild at h
  cases hselect : calls.selectCandidates decision context.memories context.requiredFacets with
  | error e =>
    rw [hselect] at h
    simp at h
  | ok given =>
    obtain ⟨selected,dropped⟩ := given
    rw [hselect] at h
    dsimp only at h
    have hstops := @buildVerifiedPayload_stops calls decision context
      (effectiveBudget decision context) (selected.length+1) selected (Nat.lt_succ_self _) dropped
    obtain ⟨result,hresult⟩ := Option.isSome_iff_exists.mp hstops
    rw [hresult] at h
    cases result with
    | error e => simp at h
    | ok built =>
      cases h
      exact ⟨built,selected,dropped,rfl,rfl,buildVerifiedPayload_built hresult⟩

end Payload

lemma effectiveBudget_le {decision : InjectionDecision} {context : InjectionExecutionContext}
    (h : 0 < effectiveBudget decision context) :
    effectiveBudget decision context ≤ context.contextHeadroomChars := by
  unfold effectiveBudget at h ⊢
  omega

lemma mem_successfulMemoryIds {selected : List Value} {stats : InjectionStats} {id : ℤ}
    (h : id ∈ successfulMemoryIds selected stats) : ∃ c ∈ selected, candidateId c = some id := by
  unfold successfulMemoryIds at h
  split at h
  · simp at h
  split at h
  · simp at h
  · rw [List.mem_reverse,List.mem_dedup,List.mem_reverse] at h
    obtain ⟨c,hc,hid⟩ := List.mem_filterMap.mp h
    obtain ⟨i,-,hi⟩ := List.mem_filterMap.mp hc
    exact ⟨c,List.mem_of_getElem? hi,hid⟩

inductive OneFieldChanged (payload : Text) (req req' : ProviderRequest) : Prop
  | parts (hparts : req'.extraUserContentParts =
        req.extraUserContentParts++[{ text := some payload, temp := true }])
      (hprompt : req'.prompt = req.prompt) (hcontexts : req'.contexts = req.contexts)
  | prompt (hprompt : req'.prompt = some (payload++['\n','\n']++shownPrompt req.prompt) ∨
        req'.prompt = some (shownPrompt req.prompt++['\n','\n']++payload))
      (hchanged : req'.prompt ≠ req.prompt)
      (hparts : req'.extraUserContentParts = req.extraUserContentParts)
      (hcontexts : req'.contexts = req.contexts)
  | contexts (hcontexts : (∃ id query, req'.contexts =
          req.contexts++[fakeAssistant id query,fakeTool id payload]) ∨
        req'.contexts = req.contexts++[replayMessage payload])
      (hprompt : req'.prompt = req.prompt)
      (hparts : req'.extraUserContentParts = req.extraUserContentParts)

variable {req req' : ProviderRequest} {payload query : Text}

lemma delivered_one {delivery : DeliveryMode} {id : HexId}
    (h : delivered req delivery payload query id = some req') :
    OneFieldChanged payload req req' ∧ req'.systemPrompt = req.systemPrompt := by
  have hlonger : ∀ shown : Text, ∀ n, shown.length = n+2+(shownPrompt req.prompt).length →
      some shown ≠ req.prompt := by
    intro shown n hlength hsame
    rw [← hsame] at hlength
    change shown.length = n+2+shown.length at hlength
    omega
  cases delivery with
  | auto => exact absurd h (by simp [delivered])
  | extraUserContent =>
    cases h
    exact ⟨.parts rfl rfl rfl,rfl⟩
  | userMessageBefore =>
    cases h
    refine ⟨.prompt (.inl rfl) (hlonger _ payload.length ?_) rfl rfl,rfl⟩
    simp only [List.length_append,List.length_cons,List.length_nil]
  | userMessageAfter =>
    cases h
    refine ⟨.prompt (.inr rfl) (hlonger _ payload.length ?_) rfl rfl,rfl⟩
    simp only [List.length_append,List.length_cons,List.length_nil]
    omega
  | fakeToolCall =>
    cases h
    exact ⟨.contexts (.inl ⟨id,query,rfl⟩) rfl rfl,rfl⟩
  | fakeToolCallDeepseekV4 =>
    cases h
    exact ⟨.contexts (.inr rfl) rfl rfl,rfl⟩

lemma applyDelivery_ok {calls : ExecutorCalls} {delivery : DeliveryMode}
    (h : applyDelivery calls req delivery payload query = .ok req') :
    OneFieldChanged payload req req' ∧ req'.systemPrompt = req.systemPrompt := by
  unfold applyDelivery at h
  cases hread : calls.read with
  | error e => simp [hread] at h
  | ok _ =>
    cases hdelivered : delivered req delivery payload query calls.callId with
    | none => simp [hread,hdelivered] at h
    | some given =>
      cases hassign : calls.assign with
      | error e => simp [hread,hdelivered,hassign] at h
      | ok _ =>
        simp only [hread,hdelivered,hassign,Except.ok.injEq] at h
        subst h
        exact delivered_one hdelivered

lemma restoreRequest_snapshot (h : req'.systemPrompt = req.systemPrompt) :
    restoreRequest req' req = req := by
  unfold restoreRequest
  rw [h]

def Untouched (req : ProviderRequest) (out : Execution) : Prop :=
  out.request = req ∧ ∀ result, out.ending = .returned result →
    (result.outcome = .error ∨ result.outcome = .empty) ∧ result.injectedMemoryIds = []

def Injected (decision : InjectionDecision) (context : InjectionExecutionContext)
    (selected : List Value) (req : ProviderRequest) (out : Execution) : Prop :=
  ∃ result payload, out.ending = .returned result ∧
  (result.outcome = .injected ∨ result.outcome = .fallback) ∧
    OneFieldChanged payload req out.request ∧ result.actualPayloadChars = payload.length ∧
    (payload.length : ℤ) ≤ result.effectiveBudgetChars ∧
    result.effectiveBudgetChars = effectiveBudget decision context ∧
    ∀ id ∈ result.injectedMemoryIds, ∃ c ∈ selected, candidateId c = some id

variable {calls : ExecutorCalls} {decision : InjectionDecision}
    {context : InjectionExecutionContext}
  {req : ProviderRequest} {built : Built} {delivery : DeliveryMode} {fallbackApplied : Bool}
  {selected : List Value}

lemma succeeded_injected (hsize : (built.payload.length : ℤ) ≤ effectiveBudget decision context)
    (hfrom : ∀ c ∈ built.selected, c ∈ selected) (hone : OneFieldChanged built.payload req req') :
    Injected decision context selected req
      ⟨req',.returned (succeeded decision context built delivery fallbackApplied)⟩ := by
  refine ⟨_,built.payload,rfl,?_,hone,rfl,hsize,rfl,?_⟩
  · cases fallbackApplied with
    | true => exact .inr rfl
    | false => exact .inl rfl
  · intro id hid
    obtain ⟨c,hc,hcid⟩ := mem_successfulMemoryIds hid
    exact ⟨c,hfrom c hc,hcid⟩

lemma deliver_or_not (hsize : (built.payload.length : ℤ) ≤ effectiveBudget decision context)
    (hfrom : ∀ c ∈ built.selected, c ∈ selected) :
    Untouched req (deliver calls decision context req built delivery fallbackApplied) ∨
      Injected decision context selected req
        (deliver calls decision context req built delivery fallbackApplied) := by
  have herror : ∀ code, Untouched req
      ⟨req,.returned { resultOf decision context .error built delivery with errorCode := code }⟩ := by
    intro code
    refine ⟨rfl,fun result hresult => ?_⟩
    obtain rfl := Ending.returned.inj hresult
    exact ⟨.inl rfl,rfl⟩
  have hcancelled : Untouched req ⟨req,.cancelled⟩ :=
    ⟨rfl,fun result hresult => absurd hresult (by simp)⟩
  unfold deliver
  split
  · exact .inl (herror _)
  cases hdelivery : applyDelivery calls req delivery built.payload context.query with
  | error e =>
    cases e with
    | cancelled => exact .inl hcancelled
    | failed => exact .inl (herror _)
  | ok req' =>
    obtain ⟨hone,hsystem⟩ := applyDelivery_ok hdelivery
    cases hprotection : calls.wrapPrompt with
    | none => exact .inr (succeeded_injected hsize hfrom hone)
    | some wrap =>
      dsimp only
      rw [restoreRequest_snapshot hsystem]
      cases wrap ((built.payload.drop protectionPrefix.length).take
          (built.payload.length - protectionPrefix.length - protectionSuffix.length)) with
      | error e =>
        cases e with
        | cancelled => exact .inl hcancelled
        | failed => exact .inl (herror _)
      | ok _ => exact .inr (succeeded_injected hsize hfrom hone)

/-- The loop ends on every input. Whatever the calls answer and wherever they fail or are
cancelled, an execution leaves the request as it was, or one field has changed by a payload within
the effective budget, that budget is within the headroom, and the injected ids are ids of selected
candidates. -/
theorem execute_all_or_nothing (calls : ExecutorCalls) (decision : InjectionDecision)
    (context : InjectionExecutionContext) (req : ProviderRequest) :
    (∀ budget fuel working dropped, working.length < fuel →
      (shrinkLoop calls decision context budget fuel working dropped).isSome = true) ∧
    ∃ out, execute calls decision context req = some out ∧ (Untouched req out ∨
        effectiveBudget decision context ≤ context.contextHeadroomChars ∧
          ∃ selected dropped, calls.selectCandidates decision context.memories
              context.requiredFacets = .ok (selected,dropped) ∧
            Injected decision context selected req out) := by
  refine ⟨fun budget fuel working dropped h => shrinkLoop_stops h dropped,?_⟩
  have hcancelled : Untouched req ⟨req,.cancelled⟩ :=
    ⟨rfl,fun result hresult => absurd hresult (by simp)⟩
  have hreturned : ∀ outcome dropped truncated code, outcome = .error ∨ outcome = .empty →
      Untouched req ⟨req,.returned (resultWithout decision context outcome dropped truncated code)⟩ := by
    intro outcome dropped truncated code houtcome
    refine ⟨rfl,fun result hresult => ?_⟩
    obtain rfl := Ending.returned.inj hresult
    exact ⟨houtcome,rfl⟩
  unfold execute
  cases hbuild : selectAndBuild calls decision context with
  | error e =>
    cases e with
    | cancelled => exact ⟨_,rfl,.inl hcancelled⟩
    | failed => exact ⟨_,rfl,.inl (hreturned _ _ _ _ (.inl rfl))⟩
  | ok answer =>
    obtain ⟨built,selected,dropped,rfl,hselect,hbuilt⟩ := selectAndBuild_ok hbuild
    dsimp only
    by_cases hempty : built.payload = []
    · rw [if_pos hempty]
      exact ⟨_,rfl,.inl (hreturned _ _ _ _ (.inr rfl))⟩
    rw [if_neg hempty]
    cases resolveDelivery calls decision.resolvedDelivery with
    | error e => exact ⟨_,rfl,.inl hcancelled⟩
    | ok given =>
      obtain ⟨delivery,fallbackApplied⟩ := given
      obtain ⟨hsize,hfrom⟩ := hbuilt.resolve_left hempty
      have hpos : 0 < built.payload.length := List.length_pos_of_ne_nil hempty
      refine ⟨_,rfl,?_⟩
      have hend : Untouched req (deliver calls decision context req built delivery fallbackApplied) ∨
          Injected decision context selected req
            (deliver calls decision context req built delivery fallbackApplied) :=
        deliver_or_not hsize hfrom
      rcases hend with huntouched | hinjected
      · exact .inl huntouched
      · exact .inr ⟨effectiveBudget_le (by omega),selected,dropped,hselect,hinjected⟩

end Memora.Injection

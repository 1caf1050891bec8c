import Memora.ScopeModels
import Memora.JoinedPairs

/-! What is resolved and what is refused, when two scopes share a key, and that a stored scope is
read back as it was. -/
namespace Memora.Scope
open Canonical (pythonIsSpace)
open JoinedPairs

variable {u : UnicodeData}

structure IsIdentifier (u : UnicodeData) (s : Text) : Prop where
  nonempty : s ≠ []
  bounded : s.length ≤ maxScopeText
  visible : ∀ c ∈ s, u.other c = false ∧ pythonIsSpace c = false

variable {s : Text}

lemma strip_of_visible (h : ∀ c ∈ s, pythonIsSpace c = false) : strip s = s := by
  have hleft : s.dropWhile pythonIsSpace = s := by
    rw [List.dropWhile_eq_self_iff]
    intro hpos
    simp [h _ (List.getElem_mem hpos)]
  unfold strip
  rw [hleft,List.rdropWhile_eq_self_iff]
  intro hne
  simp [h _ (List.getLast_mem hne)]

lemma IsIdentifier.strip (h : IsIdentifier u s) : strip s = s :=
  strip_of_visible fun c hc => (h.visible c hc).2

lemma IsIdentifier.normalizedText (h : IsIdentifier u s) : normalizedText u s = s := by
  have hany : (s.any fun c => u.other c || pythonIsSpace c) = false := by
    rw [List.any_eq_false]
    intro c hc
    simp [h.visible c hc]
  have hbound : ¬ (s = [] ∨ maxScopeText < s.length) := by
    rintro (hnil | hlong)
    · exact h.nonempty hnil
    · exact absurd h.bounded (by omega)
  unfold Scope.normalizedText
  rw [h.strip]
  simp only [if_neg hbound,hany,Bool.false_eq_true,if_false]

lemma isIdentifier_normalizedText {value : Text} (h : normalizedText u value ≠ []) :
    IsIdentifier u (normalizedText u value) := by
  unfold normalizedText at h ⊢
  simp only at h ⊢
  split_ifs at h ⊢ with hbound hany
  · exact absurd rfl h
  · exact absurd rfl h
  · rw [not_or] at hbound
    refine ⟨hbound.1,by omega,?_⟩
    rw [Bool.not_eq_true,List.any_eq_false] at hany
    intro c hc
    simpa using hany c hc

lemma isIdentifier_of_field {value : Option Text} (h : normalizedField u value ≠ []) :
    IsIdentifier u (normalizedField u value) := by
  cases value with
  | none => exact absurd rfl h
  | some s => exact isIdentifier_normalizedText h

def graphic (c : Char) : Bool := decide (32 < c.toNat) && decide (c.toNat < 127)

lemma visible_of_graphic {c : Char} (h : graphic c = true) :
    u.other c = false ∧ pythonIsSpace c = false := by
  simp only [graphic,Bool.and_eq_true,decide_eq_true_eq] at h
  refine ⟨u.ascii c (by omega) h.2,?_⟩
  simp only [pythonIsSpace]
  simp
  omega

lemma isIdentifier_graphic (hne : s ≠ []) (hlen : s.length ≤ maxScopeText)
    (h : s.all graphic = true) : IsIdentifier u s :=
  ⟨hne,hlen,fun c hc => visible_of_graphic (List.all_eq_true.mp h c hc)⟩

lemma ChatType.isIdentifier (t : ChatType) : IsIdentifier u t.text := by
  cases t <;> exact isIdentifier_graphic (by decide) (by decide) (by decide)

lemma ChatType.privacy_isIdentifier (t : ChatType) : IsIdentifier u t.privacy := by
  cases t <;> exact isIdentifier_graphic (by decide) (by decide) (by decide)

lemma revision_isIdentifier : IsIdentifier u revision :=
  isIdentifier_graphic (by decide) (by decide) (by decide)

lemma ChatType.text_injective {t t' : ChatType} (h : t.text = t'.text) : t = t' := by
  cases t <;> cases t' <;> first | rfl | exact absurd h (by decide)

variable {t : ChatType}

lemma normalizedChatType_eq {value : Option Arg} :
    normalizedChatType u value = some t ↔ normalizedIdentifier u value = t.text := by
  unfold normalizedChatType
  constructor
  · intro h
    split_ifs at h with hp hg
    · rw [← Option.some.inj h,hp]
    · rw [← Option.some.inj h,hg]
  · intro h
    cases t with
    | privateChat => rw [if_pos h]
    | groupChat =>
      rw [h,if_neg (by decide),if_pos rfl]

structure TrustedIdentity (u : UnicodeData) (i : ResolvedIdentity) (t : ChatType) : Prop where
  trusted : i.trustStatus = .trusted
  named : normalizedText u i.identityNamespace ≠ []
  user : normalizedField u i.stableUserId ≠ []
  canonical : normalizedField u i.canonicalUserId ≠ []
  chatType : normalizedField u i.scopeType = t.text
  scope : normalizedField u i.scopeId ≠ []
  own : t = .privateChat → normalizedField u i.scopeId = normalizedField u i.canonicalUserId

structure ArgsAgree (u : UnicodeData) (a : ResolveArgs) (i : ResolvedIdentity) (t : ChatType) :
    Prop where
  session : ∀ x ∈ a.sessionId, normalizedIdentifier u (some x) ≠ []
  chatType : ∀ x ∈ a.chatType, normalizedIdentifier u (some x) = t.text
  group : ∀ x ∈ a.groupId, t = .groupChat ∧
    normalizedIdentifier u (some x) = normalizedField u i.scopeId
  scope : ∀ x ∈ a.scopeId, normalizedIdentifier u (some x) = normalizedField u i.scopeId
  privacy : ∀ x ∈ a.privacyLevel, x = .text t.privacy
  revision : ∀ x ∈ a.resolverRevision, x = .text Scope.revision
  key : ∀ x ∈ a.scopeKey, normalizedIdentifier u (some x) =
    joinKey t (normalizedText u i.identityNamespace) (subject u i t)

variable {i : ResolvedIdentity} {namespace_ scopeId : Text} {r : Request} {a : ResolveArgs}

lemma identityChatType_eq : identityChatType u i = some t ↔ TrustedIdentity u i t := by
  unfold identityChatType
  constructor
  · intro h
    by_cases htrust : i.trustStatus = .trusted
    · rw [if_neg (not_not.mpr htrust)] at h
      by_cases hids : normalizedText u i.identityNamespace = [] ∨
          normalizedField u i.stableUserId = [] ∨ normalizedField u i.canonicalUserId = []
      · rw [if_pos hids] at h
        cases h
      · rw [if_neg hids] at h
        rw [not_or,not_or] at hids
        cases ht : normalizedChatType u (i.scopeType.map .text) with
        | none => simp [ht] at h
        | some t' =>
          simp only [ht] at h
          split_ifs at h with hscope hown
          cases h
          exact ⟨htrust,hids.1,hids.2.1,hids.2.2,normalizedChatType_eq.mp ht,hscope,
            fun hp => not_not.mp fun hne => hown ⟨hp,hne⟩⟩
    · rw [if_pos htrust] at h
      cases h
  · intro h
    have hids : ¬ (normalizedText u i.identityNamespace = [] ∨ normalizedField u i.stableUserId = [] ∨
        normalizedField u i.canonicalUserId = []) := by
      rintro (hn | hs | hc)
      · exact h.named hn
      · exact h.user hs
      · exact h.canonical hc
    have htype : normalizedChatType u (i.scopeType.map .text) = some t := normalizedChatType_eq.mpr h.chatType
    rw [if_neg (not_not.mpr h.trusted),if_neg hids,htype]
    simp only [if_neg h.scope]
    rw [if_neg fun hp => hp.2 (h.own hp.1)]

lemma TrustedIdentity.subject (h : TrustedIdentity u i t) :
    subject u i t = normalizedField u i.scopeId := by
  unfold Scope.subject
  split_ifs with hp
  · exact (h.own hp).symm
  · rfl

lemma sessionAccepted : (a.sessionId.isSome && decide (normalizedIdentifier u a.sessionId = [])) =
    false ↔
      ∀ x ∈ a.sessionId, normalizedIdentifier u (some x) ≠ [] := by
  cases a.sessionId <;> simp

lemma argsRefused_eq (hsession : ∀ x ∈ a.sessionId, normalizedIdentifier u (some x) ≠ []) :
    argsRefused u a i t = false ↔ ArgsAgree u a i t := by
  obtain ⟨session,chat,group,scope,key,privacy,rev⟩ := a
  have hchat : ∀ value : Option Arg, normalizedChatType u value ≠ some t ↔
      normalizedIdentifier u value ≠ t.text := fun value => not_congr normalizedChatType_eq
  constructor
  · intro h
    simp only [argsRefused,Bool.or_eq_false_iff,hchat] at h
    obtain ⟨⟨⟨⟨⟨h1,h2⟩,h3⟩,h4⟩,h5⟩,h6⟩ := h
    refine ⟨hsession,?_,?_,?_,?_,?_,?_⟩
    · rintro x ⟨⟩
      simpa using h1
    · rintro x ⟨⟩
      simpa using h2
    · rintro x ⟨⟩
      simpa using h3
    · rintro x ⟨⟩
      simpa using h4
    · rintro x ⟨⟩
      simpa using h5
    · rintro x ⟨⟩
      simpa using h6
  · intro h
    simp only [argsRefused,Bool.or_eq_false_iff,hchat]
    refine ⟨⟨⟨⟨⟨?_,?_⟩,?_⟩,?_⟩,?_⟩,?_⟩
    · cases chat with
      | none => rfl
      | some x => simpa using h.chatType x rfl
    · cases group with
      | none => rfl
      | some x => simpa using h.group x rfl
    · cases scope with
      | none => rfl
      | some x => simpa using h.scope x rfl
    · cases privacy with
      | none => rfl
      | some x => simpa using h.privacy x rfl
    · cases rev with
      | none => rfl
      | some x => simpa using h.revision x rfl
    · cases key with
      | none => rfl
      | some x => simpa using h.key x rfl

structure Request where
  identity : Option ResolvedIdentity
  args : ResolveArgs

structure Agreed (u : UnicodeData) (r : Request) (i : ResolvedIdentity) (t : ChatType) : Prop where
  identity : r.identity = some i
  trusted : TrustedIdentity u i t
  args : ArgsAgree u r.args i t

def Request.resolve (u : UnicodeData) (r : Request) : Option ScopeResolution :=
  Scope.resolve u r.identity r.args

def scopeKeyOf (u : UnicodeData) (i : ResolvedIdentity) (t : ChatType) : Text :=
  joinKey t (normalizedText u i.identityNamespace) (normalizedField u i.scopeId)

def scopeOf (u : UnicodeData) (i : ResolvedIdentity) (t : ChatType) : ScopeResolution where
  scopeKey := scopeKeyOf u i t
  chatType := some t
  privacyLevel := some t.privacy
  resolverRevision := revision
  identityNamespace := normalizedText u i.identityNamespace
  stableUserId := normalizedField u i.stableUserId
  scopeId := normalizedField u i.scopeId
  resolved := true

lemma joinKey_visible (hn : IsIdentifier u namespace_) (hs : IsIdentifier u scopeId) :
    ∀ c ∈ joinKey t namespace_ scopeId, u.other c = false ∧ pythonIsSpace c = false := by
  intro c hc
  have hcolon : u.other ':' = false ∧ pythonIsSpace ':' = false := visible_of_graphic (by decide)
  simp only [joinKey,List.mem_append,List.mem_cons] at hc
  rcases hc with (hc | rfl | hc) | rfl | hc
  · exact (ChatType.isIdentifier t).visible c hc
  · exact hcolon
  · exact hn.visible c hc
  · exact hcolon
  · exact hs.visible c hc

lemma snapshotField_identifier (h : IsIdentifier u s) : snapshotField u s = some s := by
  have hany : s.any u.other = false := by
    rw [List.any_eq_false]
    intro c hc
    simp [(h.visible c hc).1]
  have hbound := h.bounded
  unfold snapshotField
  rw [h.strip]
  simp only [hany,Bool.false_eq_true,or_false]
  rw [if_neg (by omega)]

lemma snapshotField_long (hs : ∀ c ∈ s, pythonIsSpace c = false) (hlong : maxScopeText < s.length) :
    snapshotField u s = none := by
  unfold snapshotField
  rw [strip_of_visible hs]
  simp only [hlong,true_or,if_true]

lemma ChatType.privacy_known (t : ChatType) :
    strip t.privacy ∈ ["public".toList,"shared".toList,"confidential".toList] := by
  cases t <;> decide

lemma create_identifiers {key namespace_ user scopeId : Text} (hk : IsIdentifier u key)
    (hn : IsIdentifier u namespace_) (hu : IsIdentifier u user) (hs : IsIdentifier u scopeId) :
    ScopeResolution.create u key t t.privacy revision namespace_ user scopeId =
      some { scopeKey := key, chatType := some t, privacyLevel := some t.privacy,
             resolverRevision := revision, identityNamespace := namespace_, stableUserId := user,
             scopeId := scopeId, resolved := true } := by
  unfold ScopeResolution.create
  simp only [snapshotField_identifier hk,snapshotField_identifier hn,snapshotField_identifier hu,
    snapshotField_identifier hs,snapshotField_identifier revision_isIdentifier]
  have hfine : ¬ (key = [] ∨ strip t.privacy ∉ ["public".toList,"shared".toList,
      "confidential".toList] ∨ revision = [] ∨ namespace_ = [] ∨ user = [] ∨ scopeId = []) := by
    rintro (h | h | h | h | h | h)
    · exact hk.nonempty h
    · exact h t.privacy_known
    · exact revision_isIdentifier (u := u).nonempty h
    · exact hn.nonempty h
    · exact hu.nonempty h
    · exact hs.nonempty h
  rw [if_neg hfine,(ChatType.privacy_isIdentifier (u := u) t).strip]

lemma create_long {key namespace_ user scopeId privacy rev : Text}
    (hs : ∀ c ∈ key, pythonIsSpace c = false) (hlong : maxScopeText < key.length) :
    ScopeResolution.create u key t privacy rev namespace_ user scopeId = none := by
  unfold ScopeResolution.create
  simp [snapshotField_long hs hlong]

/-- An agreed call resolves the scope of its identity, unless the key is too long. -/
theorem resolve_agreed (h : Agreed u r i t) :
    r.resolve u = if (scopeKeyOf u i t).length ≤ maxScopeText then some (scopeOf u i t)
    else none := by
  have hn := isIdentifier_normalizedText h.trusted.named
  have hu := isIdentifier_of_field h.trusted.user
  have hs := isIdentifier_of_field h.trusted.scope
  have hvisible := joinKey_visible (t := t) hn hs
  unfold Request.resolve Scope.resolve
  rw [if_neg (by rw [sessionAccepted.mpr h.args.session]; simp),h.identity]
  simp only [identityChatType_eq.mpr h.trusted,(argsRefused_eq h.args.session).mpr h.args,
    Bool.false_eq_true,if_false,h.trusted.subject]
  split_ifs with hlen
  · have hk : IsIdentifier u (scopeKeyOf u i t) := ⟨by simp [scopeKeyOf,joinKey],hlen,hvisible⟩
    exact create_identifiers hk hn hu hs
  · exact create_long (fun c hc => (hvisible c hc).2) (not_le.mp hlen)

lemma resolve_refused (h : ¬ ∃ i t, Agreed u r i t) : r.resolve u = some unavailable := by
  unfold Request.resolve Scope.resolve
  by_cases hsession : (r.args.sessionId.isSome &&
    decide (normalizedIdentifier u r.args.sessionId = [])) = true
  · rw [if_pos hsession]
  · rw [if_neg hsession]
    rw [Bool.not_eq_true,sessionAccepted] at hsession
    cases hi : r.identity with
    | none => rfl
    | some i =>
      cases ht : identityChatType u i with
      | none => simp [ht]
      | some t =>
        simp only [ht]
        have hrefused : argsRefused u r.args i t = true := by
          rw [← Bool.not_eq_false,argsRefused_eq hsession]
          exact fun hargs => h ⟨i,t,hi,identityChatType_eq.mp ht,hargs⟩
        rw [if_pos hrefused]

lemma resolved_agreed {s : ScopeResolution} (h : r.resolve u = some s) (hs : s.resolved = true) :
    ∃ i t, Agreed u r i t ∧ s = scopeOf u i t ∧ (scopeKeyOf u i t).length ≤ maxScopeText := by
  by_cases hagreed : ∃ i t, Agreed u r i t
  · obtain ⟨i,t,hit⟩ := hagreed
    rw [resolve_agreed hit] at h
    split_ifs at h with hlen
    exact ⟨i,t,hit,(Option.some.inj h).symm,hlen⟩
  · rw [resolve_refused hagreed] at h
    rw [← Option.some.inj h] at hs
    exact absurd hs (by decide)

lemma ChatType.colon_notMem (t : ChatType) : ':' ∉ t.text := by cases t <;> decide

/-- Keys are equal when their parts are, or when one namespace reaches into the other subject. -/
theorem joinKey_eq_iff {t t' : ChatType} {a b c d : Text} : joinKey t a b = joinKey t' c d ↔
      t = t' ∧ ((a = c ∧ b = d) ∨ Shadows ':' a b c d ∨ Shadows ':' c d a b) := by
  unfold joinKey
  rw [← join_eq_join_iff]
  constructor
  · intro h
    simp only [List.append_assoc,List.cons_append] at h
    have hspan := congrArg (List.span fun x => decide (x ≠ ':')) h
    rw [span_join t.colon_notMem,span_join t'.colon_notMem,Prod.mk.injEq,List.cons.injEq] at hspan
    exact ⟨ChatType.text_injective hspan.1,hspan.2.2⟩
  · rintro ⟨rfl,h⟩
    simp only [List.append_assoc,List.cons_append,h]

lemma namespaceFromKey_joinKey (t : ChatType) (h : namespace_ ≠ []) :
    namespaceFromKey (joinKey t namespace_ scopeId) t scopeId = some namespace_ := by
  have hspan : (joinKey t namespace_ scopeId).span (fun x => decide (x ≠ ':')) =
      (t.text,':'::(namespace_ ++ ':'::scopeId)) := by
    unfold joinKey
    rw [List.append_assoc,List.cons_append]
    exact span_join t.colon_notMem _
  have hsuffix : ':'::scopeId <:+ namespace_ ++ ':'::scopeId := List.suffix_append _ _
  have htake : (namespace_ ++ ':'::scopeId).take
      ((namespace_ ++ ':'::scopeId).length - (scopeId.length+1)) = namespace_ := by
    simp
  unfold namespaceFromKey
  rw [hspan]
  simp only [htake,if_neg h]
  rw [if_neg]
  rintro (hne | hne)
  · exact hne rfl
  · exact hne hsuffix

lemma resolvePersisted_toDict (h : TrustedIdentity u i t)
    (hlen : (scopeKeyOf u i t).length ≤ maxScopeText) : resolvePersisted u (scopeOf u i t).toDict =
      some { scopeOf u i t with stableUserId := normalizedField u i.scopeId } := by
  have hn := isIdentifier_normalizedText h.named
  have hs := isIdentifier_of_field h.scope
  have hk : IsIdentifier u (scopeKeyOf u i t) :=
    ⟨by simp [scopeKeyOf,joinKey],hlen,joinKey_visible hn hs⟩
  have htype : normalizedChatType u (some (.text t.text)) = some t :=
    normalizedChatType_eq.mpr (ChatType.isIdentifier t).normalizedText
  have hfrom : namespaceFromKey (scopeKeyOf u i t) t (normalizedField u i.scopeId) =
      some (normalizedText u i.identityNamespace) := namespaceFromKey_joinKey t h.named
  have hkey : normalizedIdentifier u (getField (scopeOf u i t).toDict "scope_key") =
      scopeKeyOf u i t := hk.normalizedText
  have hprivacy : normalizedIdentifier u (getField (scopeOf u i t).toDict "privacy_level") =
      t.privacy := (ChatType.privacy_isIdentifier t).normalizedText
  have hrevision : normalizedIdentifier u (getField (scopeOf u i t).toDict "resolver_revision") =
      revision := revision_isIdentifier.normalizedText
  have hscope : normalizedIdentifier u (getField (scopeOf u i t).toDict "scope_id") =
      normalizedField u i.scopeId := by
    have hfield : getField (scopeOf u i t).toDict "scope_id" =
        if normalizedField u i.scopeId = [] then none else some (.text (normalizedField u i.scopeId)) :=
      rfl
    rw [hfield,if_neg h.scope]
    exact hs.normalizedText
  have hchat : normalizedChatType u (getField (scopeOf u i t).toDict "chat_type") = some t := htype
  have hnone : normalizedIdentifier u (getField (scopeOf u i t).toDict "identity_namespace") = [] :=
    rfl
  have hnone' : normalizedIdentifier u (getField (scopeOf u i t).toDict "stable_user_id") = [] := rfl
  have hcomplete : ¬ (scopeKeyOf u i t = [] ∨ t.privacy = [] ∨ revision ≠ revision) := by
    rintro (hnil | hnil | hne)
    · exact hk.nonempty hnil
    · exact (ChatType.privacy_isIdentifier (u := u) t).nonempty hnil
    · exact hne rfl
  unfold resolvePersisted
  simp only [hkey,hprivacy,hrevision,hscope,hchat,hnone,hnone',hfrom]
  rw [if_neg hcomplete,if_neg (by simp),if_neg h.scope,if_neg (by simp),if_pos trivial,
    if_pos trivial]
  exact create_identifiers hk hn hs hs

/-- A call returns, resolves only what is trusted and agrees, shares its key with no other scope
and is read back from its snapshot. -/
structure KeepsScopes (u : UnicodeData) (r r' : Request) : Prop where
  returns : ∃ s, r.resolve u = some s
  agreed : ∀ s, r.resolve u = some s → s.resolved = true → ∃ i t, Agreed u r i t
  injective : ∀ s s', r.resolve u = some s → r'.resolve u = some s' → s.resolved = true →
    s'.resolved = true → s.scopeKey = s'.scopeKey →
    s.chatType = s'.chatType ∧ s.identityNamespace = s'.identityNamespace ∧ s.scopeId = s'.scopeId
  roundTrip : ∀ s, r.resolve u = some s → s.resolved = true →
    ∃ p, resolvePersisted u s.toDict = some p ∧ p.resolved = true ∧ p.scopeKey = s.scopeKey ∧
      p.chatType = s.chatType ∧ p.privacyLevel = s.privacyLevel ∧
      p.identityNamespace = s.identityNamespace ∧ p.scopeId = s.scopeId

/-- The key of an agreed call fits, and its namespace and subject are not cut at another colon
than those of the other call. -/
structure Separated (u : UnicodeData) (r r' : Request) : Prop where
  fits : ∀ i t, Agreed u r i t → (scopeKeyOf u i t).length ≤ maxScopeText
  apart : ∀ i i' t, Agreed u r i t → Agreed u r' i' t →
    ¬ Shadows ':' (normalizedText u i.identityNamespace) (normalizedField u i.scopeId)
      (normalizedText u i'.identityNamespace) (normalizedField u i'.scopeId) ∧
    ¬ Shadows ':' (normalizedText u i'.identityNamespace) (normalizedField u i'.scopeId)
      (normalizedText u i.identityNamespace) (normalizedField u i.scopeId)

lemma keys_apart {i i' : ResolvedIdentity} {t t' : ChatType}
    (hkey : scopeKeyOf u i t = scopeKeyOf u i' t') (hapart : t = t' →
      ¬ Shadows ':' (normalizedText u i.identityNamespace) (normalizedField u i.scopeId)
        (normalizedText u i'.identityNamespace) (normalizedField u i'.scopeId) ∧
      ¬ Shadows ':' (normalizedText u i'.identityNamespace) (normalizedField u i'.scopeId)
        (normalizedText u i.identityNamespace) (normalizedField u i.scopeId)) :
    t = t' ∧ normalizedText u i.identityNamespace = normalizedText u i'.identityNamespace ∧
      normalizedField u i.scopeId = normalizedField u i'.scopeId := by
  obtain ⟨ht,hparts⟩ := joinKey_eq_iff.mp hkey
  rcases hparts with hsame | hshadow | hshadow
  · exact ⟨ht,hsame⟩
  · exact absurd hshadow (hapart ht).1
  · exact absurd hshadow (hapart ht).2

/-- The resolver keeps its contract on two calls exactly when the key of the first fits and
neither of them shadows the other. -/
theorem keepsScopes_iff (u : UnicodeData) (r r' : Request) : KeepsScopes u r r' ↔
    Separated u r r' := by
  constructor
  · intro h
    have hfits : ∀ i t, Agreed u r i t → (scopeKeyOf u i t).length ≤ maxScopeText := by
      intro i t hit
      obtain ⟨s,hs⟩ := h.returns
      by_contra hlong
      rw [resolve_agreed hit,if_neg hlong] at hs
      simp at hs
    refine ⟨hfits,?_⟩
    intro i i' t hit hit'
    have hsame : scopeKeyOf u i t = scopeKeyOf u i' t →
        normalizedText u i.identityNamespace = normalizedText u i'.identityNamespace := by
      intro hkey
      have hlen := hfits i t hit
      have hlen' : (scopeKeyOf u i' t).length ≤ maxScopeText := hkey ▸ hlen
      exact (h.injective (scopeOf u i t) (scopeOf u i' t)
        ((resolve_agreed hit).trans (if_pos hlen)) ((resolve_agreed hit').trans (if_pos hlen'))
        rfl rfl hkey).2.1
    constructor
    · intro hshadow
      exact hshadow.ne (hsame (joinKey_eq_iff.mpr ⟨rfl,.inr (.inl hshadow)⟩))
    · intro hshadow
      exact hshadow.ne (hsame (joinKey_eq_iff.mpr ⟨rfl,.inr (.inr hshadow)⟩)).symm
  · intro h
    refine ⟨?_,?_,?_,?_⟩
    · by_cases hagreed : ∃ i t, Agreed u r i t
      · obtain ⟨i,t,hit⟩ := hagreed
        exact ⟨_,(resolve_agreed hit).trans (if_pos (h.fits i t hit))⟩
      · exact ⟨_,resolve_refused hagreed⟩
    · intro s hs hresolved
      obtain ⟨i,t,hit,-,-⟩ := resolved_agreed hs hresolved
      exact ⟨i,t,hit⟩
    · intro s s' hs hs' hresolved hresolved' hkey
      obtain ⟨i,t,hit,rfl,-⟩ := resolved_agreed hs hresolved
      obtain ⟨i',t',hit',rfl,-⟩ := resolved_agreed hs' hresolved'
      obtain ⟨rfl,hnamespace,hscope⟩ := keys_apart hkey fun ht => by
        subst ht
        exact h.apart i i' t hit hit'
      exact ⟨rfl,hnamespace,hscope⟩
    · intro s hs hresolved
      obtain ⟨i,t,hit,rfl,hlen⟩ := resolved_agreed hs hresolved
      exact ⟨_,resolvePersisted_toDict hit.trusted hlen,rfl,rfl,rfl,rfl,rfl,rfl⟩

def groupRequest (namespace_ groupId : Text) : Request where
  identity := some { identityNamespace := namespace_, stableUserId := some "u".toList,
                     canonicalUserId := some "u".toList, scopeType := some "group".toList,
                     scopeId := some groupId, trustStatus := .trusted }
  args := {}

def plainUnicode : UnicodeData := ⟨fun _ => false,fun _ _ _ => rfl⟩

/-- Identifiers within the limit can join to a key beyond it, and two groups can share a key. -/
theorem contract_broken : ¬ KeepsScopes plainUnicode
    (groupRequest (List.replicate 250 'a') "g".toList)
        (groupRequest (List.replicate 250 'a') "g".toList) ∧
      ¬ KeepsScopes plainUnicode (groupRequest "a".toList "b:c".toList)
        (groupRequest "a:b".toList "c".toList) := by
  constructor
  · intro h
    obtain ⟨s,hs⟩ := h.returns
    have hraises : (groupRequest (List.replicate 250 'a') "g".toList).resolve plainUnicode = none := by
      decide +kernel
    rw [hraises] at hs
    cases hs
  · intro h
    have hleft : (groupRequest "a".toList "b:c".toList).resolve plainUnicode =
        some { scopeKey := "group:a:b:c".toList, chatType := some .groupChat,
               privacyLevel := some "public".toList, resolverRevision := revision,
               identityNamespace := "a".toList, stableUserId := "u".toList,
               scopeId := "b:c".toList, resolved := true } := by decide +kernel
    have hright : (groupRequest "a:b".toList "c".toList).resolve plainUnicode =
        some { scopeKey := "group:a:b:c".toList, chatType := some .groupChat,
               privacyLevel := some "public".toList, resolverRevision := revision,
               identityNamespace := "a:b".toList, stableUserId := "u".toList,
               scopeId := "c".toList, resolved := true } := by decide +kernel
    exact absurd (h.injective _ _ hleft hright rfl rfl rfl).2.1 (by decide)

end Memora.Scope

import Memora.CanonicalModels

/-! What a trusted protocol identity is resolved to: a scope key joined from the chat type, the
namespace and the subject, and the snapshot of it that is stored and read back. Texts are lists
of code points. -/
namespace Memora.Scope
open Canonical (pythonIsSpace)

abbrev Text := List Char

/-- The Unicode categories that begin with C; printable ASCII has none of them. -/
structure UnicodeData where
  other : Char → Bool
  ascii : ∀ c : Char, 32 ≤ c.toNat → c.toNat < 127 → other c = false

inductive Arg
  | text (s : Text)
  | object
  deriving DecidableEq

inductive IdentityTrust
  | trusted | anonymous | conflict | invalid | unsupported
  deriving DecidableEq

structure ResolvedIdentity where
  identityNamespace : Text
  stableUserId : Option Text
  canonicalUserId : Option Text
  scopeType : Option Text
  scopeId : Option Text
  trustStatus : IdentityTrust

inductive ChatType
  | privateChat | groupChat
  deriving DecidableEq

def ChatType.text : ChatType → Text
  | .privateChat => "private".toList
  | .groupChat => "group".toList

def ChatType.privacy : ChatType → Text
  | .privateChat => "confidential".toList
  | .groupChat => "public".toList

/-- `SCOPE_RESOLVER_REVISION`. -/
def revision : Text := "canonical-scope-v1".toList

def maxScopeText : ℕ := 256

/-- `str.strip`. -/
def strip (s : Text) : Text := (s.dropWhile pythonIsSpace).rdropWhile pythonIsSpace

variable (u : UnicodeData)

/-- `_normalized_identifier` of a text. -/
def normalizedText (value : Text) : Text :=
  let normalized := strip value
  if normalized = [] ∨ maxScopeText < normalized.length then []
  else if normalized.any fun c => u.other c || pythonIsSpace c then []
  else normalized

/-- Whatever is no identifier becomes the empty text. -/
def normalizedIdentifier : Option Arg → Text
  | some (.text value) => normalizedText u value
  | _ => []

def normalizedField (value : Option Text) : Text := normalizedIdentifier u (value.map .text)

def normalizedChatType (value : Option Arg) : Option ChatType :=
  if normalizedIdentifier u value = ChatType.privateChat.text then some .privateChat
  else if normalizedIdentifier u value = ChatType.groupChat.text then some .groupChat
  else none

/-- An immutable scope snapshot; without `resolved` it carries nothing. -/
structure ScopeResolution where
  scopeKey : Text := []
  chatType : Option ChatType := none
  privacyLevel : Option Text := none
  resolverRevision : Text := []
  identityNamespace : Text := []
  stableUserId : Text := []
  scopeId : Text := []
  resolved : Bool := false
  deriving DecidableEq

def unavailable : ScopeResolution := {}

/-- The normalization of one field in `__post_init__`; `none` where it raises. -/
def snapshotField (value : Text) : Option Text :=
  let normalized := strip value
  if maxScopeText < normalized.length ∨ normalized.any u.other = true then none
  else some normalized

/-- The constructor of a resolved scope; `none` where `__post_init__` raises. -/
def ScopeResolution.create (scopeKey : Text) (chatType : ChatType) (privacyLevel : Text)
    (resolverRevision identityNamespace stableUserId scopeId : Text) : Option ScopeResolution :=
  match snapshotField u scopeKey, snapshotField u resolverRevision,
      snapshotField u identityNamespace, snapshotField u stableUserId, snapshotField u scopeId with
  | some key, some rev, some namespace_, some user, some scope =>
    if key = [] ∨ strip privacyLevel ∉ ["public".toList,"shared".toList,"confidential".toList] ∨
        rev = [] ∨ namespace_ = [] ∨ user = [] ∨ scope = [] then none
    else some { scopeKey := key, chatType := some chatType, privacyLevel := some (strip privacyLevel),
                resolverRevision := rev, identityNamespace := namespace_, stableUserId := user,
                scopeId := scope, resolved := true }
  | _, _, _, _, _ => none

structure ResolveArgs where
  sessionId : Option Arg := none
  chatType : Option Arg := none
  groupId : Option Arg := none
  scopeId : Option Arg := none
  scopeKey : Option Arg := none
  privacyLevel : Option Arg := none
  resolverRevision : Option Arg := none

def joinKey (chatType : ChatType) (namespace_ subject : Text) : Text :=
  chatType.text ++ ':'::namespace_ ++ ':'::subject

def identityChatType (i : ResolvedIdentity) : Option ChatType :=
  if i.trustStatus ≠ .trusted then none
  else if normalizedText u i.identityNamespace = [] ∨ normalizedField u i.stableUserId = [] ∨
      normalizedField u i.canonicalUserId = [] then none
  else match normalizedChatType u (i.scopeType.map .text) with
    | none => none
    | some chatType =>
      if normalizedField u i.scopeId = [] then none
      else if chatType = .privateChat ∧
          normalizedField u i.scopeId ≠ normalizedField u i.canonicalUserId then none
      else some chatType

/-- The subject of the key: the user of a private chat, the group of a group chat. -/
def subject (i : ResolvedIdentity) (chatType : ChatType) : Text :=
  if chatType = .privateChat then normalizedField u i.canonicalUserId
    else normalizedField u i.scopeId

def argsRefused (a : ResolveArgs) (i : ResolvedIdentity) (chatType : ChatType) : Bool :=
  (a.chatType.isSome && decide (normalizedChatType u a.chatType ≠ some chatType)) ||
  (a.groupId.isSome && (decide (chatType ≠ .groupChat) ||
    decide (normalizedIdentifier u a.groupId ≠ normalizedField u i.scopeId))) ||
  (a.scopeId.isSome && decide (normalizedIdentifier u a.scopeId ≠ normalizedField u i.scopeId)) ||
  (a.privacyLevel.any fun level => decide (level ≠ .text chatType.privacy)) ||
  (a.resolverRevision.any fun rev => decide (rev ≠ .text revision)) ||
  (a.scopeKey.isSome && decide (normalizedIdentifier u a.scopeKey ≠
    joinKey chatType (normalizedText u i.identityNamespace) (subject u i chatType)))

/-- `none` where it raises. -/
def resolve (identity : Option ResolvedIdentity) (a : ResolveArgs) : Option ScopeResolution :=
  if a.sessionId.isSome && decide (normalizedIdentifier u a.sessionId = []) then some unavailable
  else match identity with
    | none => some unavailable
    | some i => match identityChatType u i with
      | none => some unavailable
      | some chatType =>
        if argsRefused u a i chatType then some unavailable
        else ScopeResolution.create u
          (joinKey chatType (normalizedText u i.identityNamespace) (subject u i chatType))
          chatType chatType.privacy revision (normalizedText u i.identityNamespace)
          (normalizedField u i.stableUserId) (normalizedField u i.scopeId)

def textArg (s : Text) : Option Arg := some (.text s)

/-- `to_dict`, as a lookup of its fields; `None` is no text. -/
def ScopeResolution.toDict (s : ScopeResolution) : List (String × Option Arg) :=
  [("scope_key",textArg s.scopeKey), ("chat_type",s.chatType.map fun t => .text t.text),
   ("privacy_level",s.privacyLevel.map .text), ("resolver_revision",textArg s.resolverRevision),
   ("scope_id",if s.scopeId = [] then none else textArg s.scopeId),
   ("status",textArg (if s.resolved then "resolved".toList else "scope_unavailable".toList)),
   ("reason_code",textArg (if s.resolved then "scope_resolved".toList
      else "scope_unavailable".toList))]

def getField (values : List (String × Option Arg)) (key : String) : Option Arg :=
  ((values.find? fun e => e.1 = key).map Prod.snd).join

def namespaceFromKey (scopeKey : Text) (chatType : ChatType) (scopeId : Text) : Option Text :=
  -- `partition(":")` cuts at the first colon
  let (before,rest) := scopeKey.span (· ≠ ':')
  match rest with
  | [] => none
  | _::remainder =>
    if before ≠ chatType.text ∨ ¬ (':'::scopeId) <:+ remainder then none
    else
      let namespace_ := remainder.take (remainder.length - (scopeId.length+1))
      if namespace_ = [] then none else some namespace_

/-- `resolve_persisted` of a mapping; `none` where it raises. -/
def resolvePersisted (values : List (String × Option Arg)) : Option ScopeResolution :=
  let scopeKey := normalizedIdentifier u (getField values "scope_key")
  let privacy := normalizedIdentifier u (getField values "privacy_level")
  let rev := normalizedIdentifier u (getField values "resolver_revision")
  match normalizedChatType u (getField values "chat_type") with
  | none => some unavailable
  | some chatType =>
    if scopeKey = [] ∨ privacy = [] ∨ rev ≠ revision then some unavailable
    else if privacy ≠ chatType.privacy then some unavailable
    else
      let scopeValue := normalizedIdentifier u (getField values "scope_id")
      let given := normalizedIdentifier u (getField values "identity_namespace")
      let stable := normalizedIdentifier u (getField values "stable_user_id")
      if scopeValue = [] then some unavailable
      else match namespaceFromKey scopeKey chatType scopeValue with
        | none => some unavailable
        | some fromKey =>
          if given ≠ [] ∧ given ≠ fromKey then some unavailable
          else ScopeResolution.create u scopeKey chatType privacy rev
            (if given = [] then fromKey else given) (if stable = [] then scopeValue else stable) scopeValue

end Memora.Scope

import Memora.LatestWrites

/-! Each trusted observation of an identity plans its global name, its name in the group and the
aliases, and one transaction writes the plan. The rows are those of one stable identity. -/
namespace Memora.Identity

open LatestWrites

variable {τ : Type*}

inductive IdentityTrust
  | trusted | anonymous | conflict | invalid | unsupported
  deriving DecidableEq

inductive NameFieldState
  | missing | empty | invalid | valid
  deriving DecidableEq

structure ResolvedIdentity (τ : Type*) where
  identityNamespace : String
  stableUserId : Option String
  canonicalUserId : Option String
  scopeType : Option String
  scopeId : Option String
  globalName : Option String
  scopeName : Option String
  observedAt : τ
  trustStatus : IdentityTrust := .trusted
  nameFieldStates : List (String × NameFieldState)

variable (identity : ResolvedIdentity τ)

def ResolvedIdentity.nameState (field : String) : NameFieldState :=
  (identity.nameFieldStates.lookup field).getD .missing

/-- The fields that `observe` and the store ask for. -/
structure Persisted where
  identityNamespace : String
  stableUserId : String
  canonicalUserId : String
  scopeType : String
  scopeId : String
  deriving DecidableEq

def ResolvedIdentity.persisted : Option Persisted :=
  match identity.stableUserId, identity.canonicalUserId, identity.scopeType, identity.scopeId with
  | some user, some canonical, some scopeType, some scopeId =>
    if identity.trustStatus = .trusted ∧ identity.identityNamespace ≠ "" ∧ user ≠ "" ∧
        canonical ≠ "" ∧ scopeType ≠ "" then
      some ⟨identity.identityNamespace,user,canonical,scopeType,scopeId⟩
    else none
  | _, _, _, _ => none

structure UserRow (τ : Type*) where
  canonicalUserId : String
  globalName : Option String
  firstSeenAt : τ
  lastSeenAt : τ
  globalNameUpdatedAt : Option τ
  deriving DecidableEq

structure MemberRow (τ : Type*) where
  scopeName : Option String
  firstSeenAt : τ
  lastSeenAt : τ
  scopeNameUpdatedAt : Option τ
  deriving DecidableEq

/-- The rows of one identity; an alias is kept with the type and the id of its scope. -/
structure Directory (τ : Type*) where
  user : Option (UserRow τ)
  members : String × String → Option (MemberRow τ)
  aliases : Finset (String × String × String)

def Directory.empty : Directory τ := ⟨none,fun _ => none,∅⟩

structure StoredIdentity (τ : Type*) where
  canonicalUserId : String
  globalName : Option String
  scopeType : Option String
  scopeName : Option String
  firstSeenAt : τ
  lastSeenAt : τ
  globalNameUpdatedAt : Option τ
  scopeNameUpdatedAt : Option τ

def Directory.fetchIdentity (db : Directory τ) (scope : String × String) :
    Option (StoredIdentity τ) :=
  db.user.map fun u =>
    let s := db.members scope
    { canonicalUserId := u.canonicalUserId
      globalName := u.globalName
      scopeType := s.map fun _ => scope.1
      scopeName := s.bind (·.scopeName)
      firstSeenAt := u.firstSeenAt
      lastSeenAt := u.lastSeenAt
      globalNameUpdatedAt := u.globalNameUpdatedAt
      scopeNameUpdatedAt := s.bind (·.scopeNameUpdatedAt) }

structure NamePlan (τ : Type*) where
  changed : Bool
  name : Option String
  updatedAt : Option τ
  aliases : List (String × String × String)

variable [LinearOrder τ]

def planGlobalName (current : Option (StoredIdentity τ)) :
    NamePlan τ :=
  let updatedAt := current.bind (·.globalNameUpdatedAt)
  let kept : NamePlan τ := ⟨false,current.bind (·.globalName),updatedAt,[]⟩
  match identity.globalName with
  | none => kept
  | some candidate =>
    if identity.nameState "nickname" ≠ .valid ∨ candidate = "" then kept
    else match current.bind (·.globalName) with
      | none => ⟨true,some candidate,some identity.observedAt,[]⟩
      | some name =>
        if name = candidate then
          if updatedAt.all fun t => t < identity.observedAt then
            ⟨true,some candidate,some identity.observedAt,[]⟩
          else kept
        else if updatedAt.all fun t => t ≤ identity.observedAt then
          ⟨true,some candidate,some identity.observedAt,[("global","",name)]⟩
        else { kept with aliases := [("global","",candidate)] }

/-- An explicitly empty card deletes the name. -/
def planScopeName (current : Option (StoredIdentity τ)) (scope : String × String) : NamePlan τ :=
  let updatedAt := current.bind (·.scopeNameUpdatedAt)
  let name := current.bind (·.scopeName)
  let kept : NamePlan τ := ⟨false,name,updatedAt,[]⟩
  let state := identity.nameState "card"
  if scope.1 ≠ "group" then kept
  else match identity.scopeName.filter fun n => n ≠ "" && state = .valid with
    | some candidate =>
      if name = some candidate then
        if updatedAt.all fun t => t < identity.observedAt then
          ⟨true,some candidate,some identity.observedAt,[]⟩
        else kept
      else if updatedAt.all fun t => t ≤ identity.observedAt then
        ⟨true,some candidate,some identity.observedAt, name.toList.map fun n => ("group",scope.2,n)⟩
      else { kept with aliases := [("group",scope.2,candidate)] }
    | none =>
      if state = .empty ∧ updatedAt.all fun t => t ≤ identity.observedAt then
        ⟨true,none,some identity.observedAt,name.toList.map fun n => ("group",scope.2,n)⟩
      else kept

/-- `CASE WHEN ? THEN ? ELSE column END` for a name and its time. -/
def NamePlan.assign (plan : NamePlan τ) (name : Option String) (updatedAt : Option τ) :
    Option String × Option τ :=
  if plan.changed then (plan.name,plan.updatedAt) else (name,updatedAt)

/-- None where it raises, which rolls the transaction back. -/
def Directory.mergeObservation (db : Directory τ) (key : Persisted)
    (identity : ResolvedIdentity τ) :
    Option (Directory τ) :=
  let scope := (key.scopeType,key.scopeId)
  let current := db.fetchIdentity scope
  let forGlobal := planGlobalName identity current
  let forScope := planScopeName identity current scope
  let seen := identity.observedAt
  if current.any fun c => c.canonicalUserId ≠ key.canonicalUserId then none
  else
    let user : UserRow τ := match db.user with
      | none =>
        let (name,updatedAt) := forGlobal.assign none none
        ⟨key.canonicalUserId,name,seen,seen,updatedAt⟩
      | some u =>
        let (name,updatedAt) := forGlobal.assign u.globalName u.globalNameUpdatedAt
        ⟨key.canonicalUserId,name,min u.firstSeenAt seen,max u.lastSeenAt seen,updatedAt⟩
    let member : MemberRow τ := match db.members scope with
      | none =>
        let (name,updatedAt) := forScope.assign none none
        ⟨name,seen,seen,updatedAt⟩
      | some m =>
        -- without a user row the insert meets the row and overwrites its name
        let (name,updatedAt) :=
          if current.bind (·.scopeType) = some key.scopeType then
            forScope.assign m.scopeName m.scopeNameUpdatedAt
          else forScope.assign none none
        ⟨name,min m.firstSeenAt seen,max m.lastSeenAt seen,updatedAt⟩
    some ⟨some user,Function.update db.members scope (some member),
      db.aliases ∪ (forGlobal.aliases++forScope.aliases).toFinset⟩

/-- Observations that are not trusted or lack a field write nothing. -/
def Directory.observe (db : Directory τ) (identity : ResolvedIdentity τ) : Directory τ :=
  match identity.persisted with
  | none => db
  | some key => (db.mergeObservation key identity).getD db

variable (os : List (ResolvedIdentity τ))

def observeAll : Directory τ := os.foldl Directory.observe .empty

def ResolvedIdentity.nickname : Option String :=
  if identity.nameState "nickname" = .valid then identity.globalName.filter (· ≠ "") else none

def ResolvedIdentity.card (scope : String × String) : Option (Option String) :=
  let state := identity.nameState "card"
  if scope.1 ≠ "group" then none
  else match identity.scopeName.filter fun n => n ≠ "" && state = .valid with
    | some candidate => some (some candidate)
    | none => if state = .empty then some none else none

def Holds (ws : List (τ × Option String)) (name : Option String) (updatedAt : Option τ) : Prop :=
  ∃ held, Latest ws held ∧ name = held.bind Prod.snd ∧ updatedAt = held.map Prod.fst

structure NamePlan.Follows (plan : NamePlan τ) (scope : String × String)
    (ws : List (τ × Option String)) (seen : τ) (write : Option (Option String))
    (name : Option String) (updatedAt : Option τ) : Prop where
  holds : Holds (ws++write.toList.map fun v => (seen,v)) (plan.assign name updatedAt).1
    (plan.assign name updatedAt).2
  known (n : String) : ((scope.1,scope.2,n) ∈ plan.aliases ∨
    (plan.assign name updatedAt).1 = some n) ↔ (name = some n ∨ write = some (some n))
  own : ∀ a ∈ plan.aliases, (a.1,a.2.1) = scope

variable {ws : List (τ × Option String)} {name : Option String} {updatedAt : Option τ}
  {identity : ResolvedIdentity τ} {current : Option (StoredIdentity τ)}

lemma follows_kept (scope : String × String) (h : Holds ws name updatedAt) (seen : τ) :
    (⟨false,name,updatedAt,[]⟩ : NamePlan τ).Follows scope ws seen none name updatedAt := by
  refine ⟨?_,by simp [NamePlan.assign],by simp⟩
  simpa [NamePlan.assign] using h

lemma follows_write (scope : String × String) (seen : τ) {v : Option String}
    (h : Holds ws name updatedAt) (hv : v ≠ none → name ≠ v) :
    (if updatedAt.all fun t => t ≤ seen then
      (⟨true,v,some seen,name.toList.map fun n => (scope.1,scope.2,n)⟩ : NamePlan τ)
    else ⟨false,name,updatedAt,v.toList.map fun n => (scope.1,scope.2,n)⟩).Follows
      scope ws seen (some v) name updatedAt := by
  obtain ⟨held,hlatest,rfl,rfl⟩ := h
  have hkeep := hlatest.keep (seen,v)
  split
  · rename_i hle
    refine ⟨⟨_,hkeep,?_⟩,?_,?_⟩
    · cases held with
      | none => exact ⟨rfl,rfl⟩
      | some k =>
        have hk : k.1 ≤ seen := by simpa using hle
        simp [keep,NamePlan.assign,hk]
    · intro n
      simp [NamePlan.assign,eq_comm]
    · simp +contextual
  · rename_i hle
    cases held with
    | none => simp at hle
    | some k =>
      have hk : ¬ k.1 ≤ seen := by simpa using hle
      refine ⟨⟨_,hkeep,?_⟩,?_,?_⟩
      · simp [keep,NamePlan.assign,hk]
      · intro n
        simp [NamePlan.assign,eq_comm,or_comm]
      · simp +contextual

lemma follows_again (scope : String × String) {seen : τ} {n : String}
    (h : Holds ws (some n) updatedAt) :
    (if updatedAt.all fun t => t < seen then (⟨true,some n,some seen,[]⟩ : NamePlan τ)
    else ⟨false,some n,updatedAt,[]⟩).Follows scope ws seen (some (some n)) (some n)
      updatedAt := by
  obtain ⟨held,hlatest,hname,rfl⟩ := h
  have hkeep := hlatest.keep (seen,some n)
  cases held with
  | none => cases hname
  | some k =>
    obtain ⟨t,v⟩ := k
    obtain rfl : some n = v := hname
    split
    · rename_i hlt
      have ht : t < seen := by simpa using hlt
      refine ⟨⟨_,hkeep,?_⟩,by simp [NamePlan.assign],by simp⟩
      simp [keep,NamePlan.assign,ht.le]
    · rename_i hlt
      have ht : seen ≤ t := by simpa using hlt
      refine ⟨⟨_,hkeep,?_⟩,by simp [NamePlan.assign],by simp⟩
      rcases ht.lt_or_eq with hlt | rfl
      · simp [keep,NamePlan.assign,not_le.mpr hlt]
      · simp [keep,NamePlan.assign]

variable (ws) (identity) (current) in
lemma planGlobalName_follows (h : Holds ws (current.bind (·.globalName))
      (current.bind (·.globalNameUpdatedAt))) (hset : ∀ w ∈ ws, w.2 ≠ none) :
    (planGlobalName identity current).Follows ("global","") ws identity.observedAt
      (identity.nickname.map some) (current.bind (·.globalName)) (current.bind (·.globalNameUpdatedAt)) := by
  unfold planGlobalName ResolvedIdentity.nickname
  dsimp only
  generalize current.bind (·.globalName) = name at h ⊢
  generalize current.bind (·.globalNameUpdatedAt) = updatedAt at h ⊢
  cases identity.globalName with
  | none => simpa using follows_kept _ h _
  | some candidate =>
    dsimp only
    split
    · rename_i hbad
      have hnone : (if identity.nameState "nickname" = .valid then
          (some candidate).filter (· ≠ "") else none) = none := by
        rcases hbad with hstate | rfl
        · rw [if_neg hstate]
        · simp
      rw [hnone]
      exact follows_kept _ h _
    · rename_i hgood
      rw [not_or,not_not] at hgood
      have hsome : (if identity.nameState "nickname" = .valid then
          (some candidate).filter (· ≠ "") else none) = some candidate := by simp [hgood]
      rw [hsome]
      cases name with
      | none =>
        have hempty : updatedAt = none := by
          obtain ⟨held,hlatest,hname,rfl⟩ := h
          cases held with
          | none => rfl
          | some k => exact absurd hname.symm (hset k (hlatest.mem k rfl))
        subst hempty
        exact follows_write ("global","") _ h nofun
      | some name =>
        dsimp only
        split
        · rename_i heq
          subst heq
          exact follows_again _ h
        · rename_i hne
          exact follows_write ("global","") _ h fun _ heq => hne (Option.some.inj heq)

variable (ws) (identity) (current) in
lemma planScopeName_follows (scope : String × String) (h : Holds ws (current.bind (·.scopeName))
      (current.bind (·.scopeNameUpdatedAt))) :
    (planScopeName identity current scope).Follows scope ws identity.observedAt
      (identity.card scope) (current.bind (·.scopeName)) (current.bind (·.scopeNameUpdatedAt)) := by
  unfold planScopeName ResolvedIdentity.card
  dsimp only
  generalize current.bind (·.scopeName) = name at h ⊢
  generalize current.bind (·.scopeNameUpdatedAt) = updatedAt at h ⊢
  obtain ⟨scopeType,scopeId⟩ := scope
  by_cases hgroup : scopeType = "group"
  · subst hgroup
    rw [if_neg (not_not.mpr rfl),if_neg (not_not.mpr rfl)]
    cases identity.scopeName.filter fun n => n ≠ "" && identity.nameState "card" = .valid with
    | some candidate =>
      dsimp only
      split
      · rename_i heq
        subst heq
        exact follows_again _ h
      · rename_i hne
        exact follows_write ("group",scopeId) _ h fun _ => hne
    | none =>
      dsimp only
      by_cases hempty : identity.nameState "card" = .empty
      · have hwrite := follows_write ("group",scopeId) identity.observedAt (v := none) h
          (fun hne => absurd rfl hne)
        simpa [hempty] using hwrite
      · simpa [hempty] using follows_kept _ h _
  · rw [if_pos hgroup,if_pos hgroup]
    exact follows_kept _ h _

def ResolvedIdentity.Of (identityNamespace stableUserId canonicalUserId : String) : Prop :=
  ∃ scopeType scopeId, identity.persisted =
    some ⟨identityNamespace,stableUserId,canonicalUserId,scopeType,scopeId⟩

def ResolvedIdentity.scope : Option (String × String) :=
  identity.persisted.map fun key => (key.scopeType,key.scopeId)

def nicknames : List (τ × Option String) :=
  os.flatMap fun o => (o.nickname.map some).toList.map fun v => (o.observedAt,v)

def cards (scope : String × String) : List (τ × Option String) :=
  (os.filter fun o => o.scope = some scope).flatMap fun o =>
    (o.card scope).toList.map fun v => (o.observedAt,v)

def Spans (times : List τ) (span : Option (τ × τ)) : Prop :=
  (span = none → times = []) ∧
    ∀ s ∈ span, IsLeast {t | t ∈ times} s.1 ∧ IsGreatest {t | t ∈ times} s.2

structure Directory.Reflects (db : Directory τ) (canonicalUserId : String)
    (os : List (ResolvedIdentity τ)) : Prop where
  canonical : ∀ u ∈ db.user, u.canonicalUserId = canonicalUserId
  globalName : Holds (nicknames os) (db.user.bind (·.globalName))
    (db.user.bind (·.globalNameUpdatedAt))
  seen : Spans (os.map (·.observedAt)) (db.user.map fun u => (u.firstSeenAt,u.lastSeenAt))
  scopeName scope : Holds (cards os scope) ((db.members scope).bind (·.scopeName))
    ((db.members scope).bind (·.scopeNameUpdatedAt))
  seenIn scope : Spans ((os.filter fun o => o.scope = some scope).map (·.observedAt))
    ((db.members scope).map fun m => (m.firstSeenAt,m.lastSeenAt))
  globalKnown n : (("global","",n) ∈ db.aliases ∨ db.user.bind (·.globalName) = some n) ↔
    ∃ o ∈ os, o.nickname = some n
  scopeKnown scopeId n : (("group",scopeId,n) ∈ db.aliases ∨
      (db.members ("group",scopeId)).bind (·.scopeName) = some n) ↔
    ∃ o ∈ os, o.scope = some ("group",scopeId) ∧ o.card ("group",scopeId) = some (some n)

lemma reflects_empty (canonicalUserId : String) :
    (Directory.empty : Directory τ).Reflects canonicalUserId [] :=
  ⟨nofun,⟨none,latest_nil,rfl,rfl⟩,⟨fun _ => rfl,nofun⟩,fun _ => ⟨none,latest_nil,rfl,rfl⟩,
    fun _ => ⟨fun _ => rfl,nofun⟩,by simp [Directory.empty],by simp [Directory.empty]⟩

lemma spans_concat {times : List τ} {span : Option (τ × τ)} (h : Spans times span) (t : τ) :
    Spans (times++[t]) (some (span.elim (t,t) fun s => (min s.1 t,max s.2 t))) := by
  refine ⟨nofun,?_⟩
  rintro _ ⟨⟩
  cases span with
  | none =>
    rw [h.1 rfl]
    simp [IsLeast,IsGreatest,lowerBounds,upperBounds]
  | some s =>
    obtain ⟨hleast,hgreatest⟩ := h.2 s rfl
    have hset : {x | x ∈ times++[t]} = insert t {x | x ∈ times} := by
      ext x
      simp [or_comm]
    rw [hset]
    rw [Option.elim_some,min_comm,max_comm]
    exact ⟨hleast.insert t,hgreatest.insert t⟩

variable {db : Directory τ} {key : Persisted} {os : List (ResolvedIdentity τ)}

structure Directory.Written (db : Directory τ) (key : Persisted) (identity : ResolvedIdentity τ)
    (u : UserRow τ) (m : MemberRow τ) : Prop where
  canonical : u.canonicalUserId = key.canonicalUserId
  globalName : (u.globalName,u.globalNameUpdatedAt) =
    (planGlobalName identity (db.fetchIdentity (key.scopeType,key.scopeId))).assign
      (db.user.bind (·.globalName)) (db.user.bind (·.globalNameUpdatedAt))
  seen : (u.firstSeenAt,u.lastSeenAt) =
    (db.user.map fun u => (u.firstSeenAt,u.lastSeenAt)).elim
      (identity.observedAt,identity.observedAt)
      fun s => (min s.1 identity.observedAt,max s.2 identity.observedAt)
  scopeName : (m.scopeName,m.scopeNameUpdatedAt) =
    (planScopeName identity (db.fetchIdentity (key.scopeType,key.scopeId))
      (key.scopeType,key.scopeId)).assign
      ((db.members (key.scopeType,key.scopeId)).bind (·.scopeName))
      ((db.members (key.scopeType,key.scopeId)).bind (·.scopeNameUpdatedAt))
  seenIn : (m.firstSeenAt,m.lastSeenAt) =
    ((db.members (key.scopeType,key.scopeId)).map fun m => (m.firstSeenAt,m.lastSeenAt)).elim
      (identity.observedAt,identity.observedAt)
      fun s => (min s.1 identity.observedAt,max s.2 identity.observedAt)

lemma observe_written (hkey : identity.persisted = some key)
    (hcanonical : ∀ u ∈ db.user, u.canonicalUserId = key.canonicalUserId)
    (hmember : db.user = none → db.members (key.scopeType,key.scopeId) = none) :
    ∃ u m, db.Written key identity u m ∧ db.observe identity =
      ⟨some u,Function.update db.members (key.scopeType,key.scopeId) (some m),
        db.aliases ∪ ((planGlobalName identity (db.fetchIdentity (key.scopeType,key.scopeId))).aliases ++
          (planScopeName identity (db.fetchIdentity (key.scopeType,key.scopeId))
            (key.scopeType,key.scopeId)).aliases).toFinset⟩ := by
  have hallowed : ((db.fetchIdentity (key.scopeType,key.scopeId)).any fun c =>
      c.canonicalUserId ≠ key.canonicalUserId) = false := by
    unfold Directory.fetchIdentity
    cases hu : db.user with
    | none => rfl
    | some u => simpa using hcanonical u hu
  unfold Directory.observe Directory.mergeObservation
  rw [hkey]
  simp only [hallowed,Bool.false_eq_true,if_false,Option.getD_some]
  refine ⟨_,_,?_,rfl⟩
  cases hu : db.user with
  | none => constructor <;> simp [hu,hmember hu]
  | some u =>
    cases hm : db.members (key.scopeType,key.scopeId) with
    | none => constructor <;> simp [hu,hm]
    | some m => constructor <;> simp [Directory.fetchIdentity,hu,hm]

omit [LinearOrder τ] in
lemma fetch_global (db : Directory τ) (scope : String × String) :
    (db.fetchIdentity scope).bind (·.globalName) = db.user.bind (·.globalName) ∧
      (db.fetchIdentity scope).bind (·.globalNameUpdatedAt) = db.user.bind (·.globalNameUpdatedAt) := by
  unfold Directory.fetchIdentity
  cases db.user <;> exact ⟨rfl,rfl⟩

variable {scope : String × String} {canonicalUserId : String}

omit [LinearOrder τ] in
lemma fetch_scope (h : db.user = none → db.members scope = none) :
    (db.fetchIdentity scope).bind (·.scopeName) = (db.members scope).bind (·.scopeName) ∧
      (db.fetchIdentity scope).bind (·.scopeNameUpdatedAt) =
        (db.members scope).bind (·.scopeNameUpdatedAt) := by
  unfold Directory.fetchIdentity
  cases hu : db.user with
  | none => simp [h hu]
  | some u => exact ⟨rfl,rfl⟩

omit [LinearOrder τ] in
lemma nicknames_concat (os : List (ResolvedIdentity τ)) (o : ResolvedIdentity τ) :
    nicknames (os++[o]) =
      nicknames os++(o.nickname.map some).toList.map fun v => (o.observedAt,v) := by
  simp [nicknames]

omit [LinearOrder τ] in
lemma cards_concat (os : List (ResolvedIdentity τ)) {o : ResolvedIdentity τ}
    (ho : o.scope = some scope) :
    cards (os++[o]) scope = cards os scope++(o.card scope).toList.map fun v => (o.observedAt,v) := by
  simp [cards,ho]

omit [LinearOrder τ] in
lemma cards_other (os : List (ResolvedIdentity τ)) {o : ResolvedIdentity τ}
    (ho : o.scope ≠ some scope) :
    cards (os++[o]) scope = cards os scope := by
  simp [cards,ho]

lemma Directory.Reflects.observe (h : db.Reflects canonicalUserId os)
    (hkey : identity.persisted = some key) (hcanonical : key.canonicalUserId = canonicalUserId) :
    (db.observe identity).Reflects canonicalUserId (os++[identity]) := by
  subst hcanonical
  have hmember : ∀ scope, db.user = none → db.members scope = none := by
    intro scope hu
    have hnil : os = [] := by simpa using h.seen.1 (by simp [hu])
    cases hm : db.members scope with
    | none => rfl
    | some m =>
      obtain ⟨hleast,-⟩ := (h.seenIn scope).2 (m.firstSeenAt,m.lastSeenAt) (by simp [hm])
      simp [hnil,IsLeast] at hleast
  obtain ⟨u,m,hwritten,heq⟩ := observe_written hkey h.canonical (hmember _)
  have hscope : identity.scope = some (key.scopeType,key.scopeId) := by
    simp [ResolvedIdentity.scope,hkey]
  have hset : ∀ w ∈ nicknames os, w.2 ≠ none := by
    intro w hw
    simp only [nicknames,List.mem_flatMap,List.mem_map,Option.mem_toList] at hw
    obtain ⟨o,-,v,hv,rfl⟩ := hw
    obtain ⟨n,-,rfl⟩ := Option.map_eq_some_iff.mp hv
    exact nofun
  have hg := planGlobalName_follows (nicknames os) identity
    (db.fetchIdentity (key.scopeType,key.scopeId))
  have hp := planScopeName_follows (cards os (key.scopeType,key.scopeId)) identity
    (db.fetchIdentity (key.scopeType,key.scopeId)) (key.scopeType,key.scopeId)
  rw [(fetch_global db _).1,(fetch_global db _).2] at hg
  rw [(fetch_scope (hmember _)).1,(fetch_scope (hmember _)).2] at hp
  replace hg := hg h.globalName hset
  replace hp := hp (h.scopeName _)
  have hungrouped : key.scopeType ≠ "group" → (planScopeName identity
      (db.fetchIdentity (key.scopeType,key.scopeId)) (key.scopeType,key.scopeId)).aliases = [] := by
    intro hne
    simp [planScopeName,hne]
  have hname := hwritten.globalName
  have hcard := hwritten.scopeName
  generalize planGlobalName identity (db.fetchIdentity (key.scopeType,key.scopeId)) = forGlobal
    at hg hname heq
  generalize planScopeName identity (db.fetchIdentity (key.scopeType,key.scopeId))
    (key.scopeType,key.scopeId) = forScope at hp hcard hungrouped heq
  have haliases : ∀ a, a ∈ (db.observe identity).aliases ↔
      a ∈ db.aliases ∨ a ∈ forGlobal.aliases ∨ a ∈ forScope.aliases := by
    intro a
    simp [heq]
  have hu : (db.observe identity).user = some u := by rw [heq]
  have hm : ∀ scope, (db.observe identity).members scope =
      if scope = (key.scopeType,key.scopeId) then some m else db.members scope := by
    intro scope
    rw [heq]
    exact Function.update_apply ..
  constructor
  · rw [hu]
    rintro _ ⟨⟩
    exact hwritten.canonical
  · rw [hu,nicknames_concat,Option.bind_some,Option.bind_some]
    have hholds := hg.holds
    rwa [← hname] at hholds
  · rw [hu,List.map_append,Option.map_some,hwritten.seen]
    exact spans_concat h.seen _
  · intro scope
    rw [hm]
    split
    · rename_i hthis
      subst hthis
      have hholds := hp.holds
      rw [← hcard] at hholds
      rw [cards_concat _ hscope]
      exact hholds
    · rename_i hother
      rw [cards_other _ (by simpa [hscope,eq_comm] using hother)]
      exact h.scopeName scope
  · intro scope
    rw [hm]
    split
    · rename_i hthis
      subst hthis
      have hseen := spans_concat (h.seenIn (key.scopeType,key.scopeId)) identity.observedAt
      rw [← hwritten.seenIn] at hseen
      simpa [hscope] using hseen
    · rename_i hother
      have hne : ¬ (key.scopeType,key.scopeId) = scope := fun hthis => hother hthis.symm
      simpa [hscope,hne] using h.seenIn scope
  · intro n
    have hnotScope : ("global","",n) ∉ forScope.aliases := by
      intro hmem
      by_cases hgroup : key.scopeType = "group"
      · have hown := hp.own _ hmem
        rw [hgroup] at hown
        simp at hown
      · rw [hungrouped hgroup] at hmem
        cases hmem
    have hknown := hg.known n
    have hbefore := h.globalKnown n
    rw [← hname] at hknown
    rw [haliases,hu,Option.bind_some]
    simp only [List.mem_append,List.mem_singleton,or_and_right,exists_or,exists_eq_left,
      ← hbefore,hnotScope,or_false]
    have hnick : identity.nickname.map some = some (some n) ↔ identity.nickname = some n := by
      simp
    rw [hnick] at hknown
    rw [or_assoc,hknown,← or_assoc]
  · intro scopeId n
    have hnotGlobal : ("group",scopeId,n) ∉ forGlobal.aliases := by
      intro hmem
      simpa using hg.own _ hmem
    have hbefore := h.scopeKnown scopeId n
    rw [haliases,hm]
    simp only [List.mem_append,List.mem_singleton,or_and_right,exists_or,exists_eq_left,
      ← hbefore,hnotGlobal,false_or]
    by_cases hthis : ("group",scopeId) = (key.scopeType,key.scopeId)
    · have hknown := hp.known n
      rw [← hcard,← hthis] at hknown
      rw [if_pos hthis,Option.bind_some]
      have hin : identity.scope = some ("group",scopeId) := by rw [hscope,hthis]
      simp only [hin,true_and]
      rw [or_assoc,hknown,← or_assoc]
    · have hnotScope : ("group",scopeId,n) ∉ forScope.aliases := fun hmem => hthis (hp.own _ hmem)
      have hout : identity.scope ≠ some ("group",scopeId) := by
        rw [hscope]
        exact fun hin => hthis (Option.some.inj hin).symm
      simp [hthis,hnotScope,hout]

lemma reflects_observeAll {identityNamespace stableUserId canonicalUserId : String}
    (hof : ∀ o ∈ os, o.Of identityNamespace stableUserId canonicalUserId) :
    (observeAll os).Reflects canonicalUserId os := by
  induction os using List.reverseRecOn with
  | nil => exact reflects_empty canonicalUserId
  | append_singleton os o ih =>
    obtain ⟨scopeType,scopeId,hkey⟩ := hof o (by simp)
    rw [observeAll,List.foldl_append]
    exact (ih fun o' ho' => hof o' (by simp [ho'])).observe hkey rfl

variable {zs : List (τ × Option String)} {name' : Option String} {updatedAt' : Option τ}

lemma Holds.unique (h : Holds ws name updatedAt) (h' : Holds zs name' updatedAt')
    (hmem : ∀ w, w ∈ ws ↔ w ∈ zs) (hdistinct : ∀ w ∈ ws, ∀ v ∈ ws, w.1 = v.1 → w = v) :
    name = name' ∧ updatedAt = updatedAt' := by
  obtain ⟨held,hlatest,rfl,rfl⟩ := h
  obtain ⟨other,hother,rfl,rfl⟩ := h'
  rw [hlatest.unique hother hmem hdistinct]
  exact ⟨rfl,rfl⟩

lemma Spans.unique {times times' : List τ} {span span' : Option (τ × τ)} (h : Spans times span)
    (h' : Spans times' span') (hmem : ∀ t, t ∈ times ↔ t ∈ times') : span = span' := by
  have hset : {t | t ∈ times} = {t | t ∈ times'} := Set.ext hmem
  cases span with
  | none =>
    cases span' with
    | none => rfl
    | some s =>
      have hfirst : s.1 ∈ times := (hmem s.1).mpr (h'.2 s rfl).1.1
      rw [h.1 rfl] at hfirst
      cases hfirst
  | some s =>
    cases span' with
    | none =>
      have hfirst : s.1 ∈ times' := (hmem s.1).mp (h.2 s rfl).1.1
      rw [h'.1 rfl] at hfirst
      cases hfirst
    | some s' =>
      have hs := h.2 s rfl
      rw [hset] at hs
      exact congrArg some (Prod.ext (hs.1.unique (h'.2 s' rfl).1) (hs.2.unique (h'.2 s' rfl).2))

omit [LinearOrder τ] in
lemma writes_distinct (hdistinct : (os.map (·.observedAt)).Nodup)
    (write : ResolvedIdentity τ → Option (Option String)) :
    ∀ w ∈ os.flatMap fun o => (write o).toList.map fun v => (o.observedAt,v),
      ∀ w' ∈ os.flatMap fun o => (write o).toList.map fun v => (o.observedAt,v), w.1 = w'.1 → w = w' := by
  intro w hw w' hw' htime
  simp only [List.mem_flatMap,List.mem_map,Option.mem_toList] at hw hw'
  obtain ⟨o,ho,v,hv,rfl⟩ := hw
  obtain ⟨o',ho',v',hv',rfl⟩ := hw'
  obtain rfl : o = o' := List.inj_on_of_nodup_map hdistinct ho ho' htime
  rw [Option.some.inj (hv.symm.trans hv')]

lemma Directory.Reflects.unique {db' : Directory τ}
    {os' : List (ResolvedIdentity τ)} (h : db.Reflects canonicalUserId os)
    (h' : db'.Reflects canonicalUserId os') (hperm : os'.Perm os)
    (hdistinct : (os.map (·.observedAt)).Nodup) :
    db'.user = db.user ∧ db'.members = db.members := by
  constructor
  · have hspan := h.seen.unique h'.seen fun t => (hperm.map _).mem_iff.symm
    have hname := h.globalName.unique h'.globalName
      (fun w => (hperm.flatMap_right _).mem_iff.symm) (writes_distinct hdistinct _)
    cases hu : db.user with
    | none => simpa [hu] using hspan
    | some u =>
      cases hu' : db'.user with
      | none => simp [hu,hu'] at hspan
      | some u' =>
        have hcanonical := (h'.canonical u' hu').trans (h.canonical u hu).symm
        simp only [hu,hu',Option.map_some,Option.some.injEq,Prod.mk.injEq, Option.bind_some] at hspan hname
        obtain ⟨canonical,n,first,last,at_⟩ := u
        obtain ⟨canonical',n',first',last',at_'⟩ := u'
        simp_all
  · funext scope
    have hscoped := hperm.filter fun o => decide (o.scope = some scope)
    have hspan := (h.seenIn scope).unique (h'.seenIn scope) fun t => (hscoped.map _).mem_iff.symm
    have hname := (h.scopeName scope).unique (h'.scopeName scope)
      (fun w => (hscoped.flatMap_right _).mem_iff.symm)
      (writes_distinct (hdistinct.sublist (List.filter_sublist.map _)) _)
    cases hm : db.members scope with
    | none => simpa [hm] using hspan
    | some m =>
      cases hm' : db'.members scope with
      | none => simp [hm,hm'] at hspan
      | some m' =>
        simp only [hm,hm',Option.map_some,Option.some.injEq,Prod.mk.injEq, Option.bind_some] at hspan hname
        obtain ⟨n,first,last,at_⟩ := m
        obtain ⟨n',first',last',at_'⟩ := m'
        simp_all

/-- Trusted observations of one identity at distinct times leave the same names, update times and
first and last seen times in every order: those of the latest observation that set or cleared the
name. The aliases and the current names are the names ever observed. -/
theorem observations_commute (identityNamespace stableUserId canonicalUserId : String)
    (os : List (ResolvedIdentity τ)) (hof : ∀ o ∈ os, o.Of identityNamespace stableUserId canonicalUserId)
    (hdistinct : (os.map (·.observedAt)).Nodup) :
    (observeAll os).Reflects canonicalUserId os ∧ ∀ os', os'.Perm os →
      (observeAll os').user = (observeAll os).user ∧ (observeAll os').members = (observeAll os).members := by
  have hreflects := reflects_observeAll hof
  refine ⟨hreflects,fun os' hperm => ?_⟩
  have hreflects' : (observeAll os').Reflects canonicalUserId os' :=
    reflects_observeAll fun o ho => hof o (hperm.mem_iff.mp ho)
  exact hreflects.unique hreflects' hperm hdistinct

/-- A card that is set, changed and cleared, and a nickname observed late. -/
def sampleObservations : List (ResolvedIdentity ℕ) :=
  let seen (time : ℕ) (nickname : String) (card : String) : ResolvedIdentity ℕ :=
    { identityNamespace := "onebot", stableUserId := some "7", canonicalUserId := some "onebot:7"
      scopeType := some "group", scopeId := some "3", globalName := some nickname
      scopeName := if card = "" then none else some card, observedAt := time
      nameFieldStates := [("nickname",.valid),("card",if card = "" then .empty else .valid)] }
  [seen 2 "Ann" "first",seen 3 "Ann" "",seen 1 "Anna" "second"]

lemma sampleObservations_of : ∀ o ∈ sampleObservations, o.Of "onebot" "7" "onebot:7" := by
  intro o ho
  refine ⟨"group","3",?_⟩
  revert o
  decide

theorem observations_commute_sample : (observeAll sampleObservations).Reflects "onebot:7"
    sampleObservations ∧
      (observeAll sampleObservations.reverse).user = (observeAll sampleObservations).user := by
  have h := observations_commute "onebot" "7" "onebot:7" sampleObservations sampleObservations_of
    (by decide)
  exact ⟨h.1,(h.2 _ (List.reverse_perm _)).1⟩

end Memora.Identity

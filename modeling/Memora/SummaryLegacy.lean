import Memora.RepresentationModels
import Memora.RowUpsert
import Memora.SummaryTiling

/-! An old database keeps the cursor and the pending window of a session in its metadata. The schema
migration moves the cursor into the epoch row, and the start of the scheduler turns the pending
window into a job. -/
namespace Memora.Summary
open RowTable RangeChain
open Memora.Canonical (pythonStrip)
open Memora.Representation (Json)

abbrev Fields := Dict String Json

/-- The metadata column of a session: no value, a text that is not JSON, JSON that is not an
object, or an object. -/
inductive MetadataColumn
  | null | invalid | other
  | object (fields : Fields)

structure LegacySession where
  sessionId : String
  metadata : MetadataColumn

structure LegacyStore where
  store : Store
  sessions : List LegacySession

/-- `loads` is `json.loads`, none where it raises. -/
structure LegacyEnv extends Env where
  loads : String → Option Json

variable (s : Store)

/-- `SELECT COALESCE(MAX(message_seq),0)`. -/
def Store.maxMessageSeq (session : String) : ℕ :=
  ((s.sessionMessages session).filterMap Message.messageSeq).foldr max 0

variable (env : LegacyEnv) (L : LegacyStore)

def LegacyStore.setMetadata (session : String) (fields : Fields) : LegacyStore :=
  { L with
    sessions := modify (fun r => r.sessionId = session)
      (fun r => { r with metadata := .object fields }) L.sessions }

/-- An index the old version wrote: an integer that is not negative. -/
def legacyIndex : Option Json → Option ℕ
  | some (.int n) => if n < 0 then none else some n.toNat
  | _ => none

/-- The old cursor; an absent one is zero. -/
def legacyCursor (fields : Fields) : Option ℕ :=
  legacyIndex (some ((fields.get? "last_summarized_index").getD (.int 0)))

def EpochRow.fresh (e : EpochRow) : Bool := e.epoch = 1 && e.cursorSeq = 0

/-- The upsert into `session_epochs`: only a row that never moved takes the cursor. -/
def Store.migrateCursor (session : String) (cursor : ℕ) (now : Time) : Store :=
  { s with
    epochs := upsert EpochRow.sessionId session
      (fun e => if e.fresh then { e with cursorSeq := cursor, updatedAt := now } else e)
      ⟨session,1,cursor,none,none,now⟩ s.epochs }

def isObject : Option Json → Bool
  | some (.obj _) => true
  | _ => false

variable (jobIds : String → String) (now : Time)

/-- One session of the cursor migration; none when the cursor is beyond the messages. -/
def LegacyStore.migrateRow (L : LegacyStore) (row : LegacySession) :
    Option LegacyStore :=
  match row.metadata with
  | .object fields => match legacyCursor fields with
    | none => some L
    | some cursor =>
      if L.store.maxMessageSeq row.sessionId < cursor then none
      else
        let L' := { L with store := L.store.migrateCursor row.sessionId cursor now }
        -- a pending window keeps the old index beside it until it is recovered
        if isObject (fields.get? "pending_summary") then some L'
        else some (L'.setMetadata row.sessionId (fields.pop "last_summarized_index"))
  | _ => some L

def LegacyStore.migrateLegacySummaryCursors :
    Except String LegacyStore :=
  match L.sessions.foldlM (LegacyStore.migrateRow now) L with
  | none => .error "summary_legacy_cursor_invalid"
  | some L' => .ok L'

/-- None when it raises. -/
def scopeText : Option Json → Option (Option String)
  | none | some .null => some none
  | some (.str s) =>
    if pythonStrip s = "" || 256 < (pythonStrip s).length then none else some (some (pythonStrip s))
  | _ => none

structure SummaryScope where
  chatType : String
  groupId : Option String
  scopeId : String
  personaId : Option String

def messagePersona (m : Message) : Option (Option String) :=
  match env.loads (orElseText m.metadata "{}") with
  | some (.obj entries) => scopeText ((Dict.ofEntries entries).get? "persona_id")
  | _ => none

/-- None when the stored evidence is missing or contradictory. -/
def LegacyStore.getSummaryScope (session : String) :
    Option SummaryScope := do
  let row ← L.sessions.find? fun r => r.sessionId = session
  let fields ← match row.metadata with
    | .null => some {}
    | .object fields => some fields
    | _ => none
  let declaredChat ← scopeText (fields.get? "chat_type")
  let declaredGroup ← scopeText (fields.get? "group_id")
  let declaredScope ← scopeText (fields.get? "scope_id")
  let declaredPersona ← scopeText (fields.get? "persona_id")
  let messages := L.store.sessionMessages session
  let personas ← messages.mapM (messagePersona env)
  let groupValues := (messages.filterMap fun m =>
    (m.groupId.map pythonStrip).filter (· ≠ "")).dedup
  let personaValues := (declaredPersona::personas).reduceOption.dedup
  if 1 < groupValues.length || 1 < personaValues.length then none
  else match groupValues.head? with
    | some group =>
      if declaredChat = some "private" || declaredGroup.any (· ≠ group) ||
          declaredScope.any (· ≠ group) then none
      else some ⟨"group",some group,group,personaValues.head?⟩
    | none =>
      if declaredChat = some "group" || declaredGroup.isSome ||
          declaredScope.any (· ≠ session) then none
      else some ⟨"private",none,session,personaValues.head?⟩

def legacyText : Option Json → Option String
  | some (.str s) =>
    if pythonStrip s ≠ "" && (pythonStrip s).length ≤ 256 then some (pythonStrip s) else none
  | _ => none

/-- The text of a gate snapshot and its revision. -/
def legacySnapshot : Option Json → Option (String × String)
  | some (.str text) =>
    if text = "" then none
    else match env.loads text with
      | some (.obj entries) =>
        let payload : Fields := Dict.ofEntries entries
        if ["enabled","default_profile","profiles","bindings"].all fun k =>
            (payload.get? k).isSome then
          match (payload.get? "revision").getD (.str "") with
          | .str revision => if 256 < revision.length then none else some (text,pythonStrip revision)
          | _ => none
        else none
      | _ => none
  | _ => none

/-- The fields of the pending window; a value that is no object has none. -/
def pendingFields : Json → Fields
  | .obj entries => Dict.ofEntries entries
  | _ => {}

/-- The range of the window: from the cursor to the declared end, or to the last message where
no end past the cursor is declared. -/
def legacyRange (pending : Fields) (cursor last : ℕ) : ℕ × ℕ :=
  match (legacyIndex (pending.get? "end_index")).filter (cursor < ·) with
  | some stop => (cursor,stop)
  | none => (cursor,max (cursor+1) last)

def rangeValid (pending : Fields) (cursor : ℕ) : Bool :=
  match legacyIndex (pending.get? "start_index"), legacyIndex (pending.get? "end_index") with
  | some start, some stop => start = cursor && start < stop && start+2 ≤ stop
  | _, _ => false

def declaredAgrees (declared actual : Option String) : Bool :=
  declared.all fun d => actual = some d

def LegacyStore.legacyJob (session : String) (epoch : ℕ) (pending : Fields) (cursor last : ℕ)
    (jobId : String) (now : Time) : Job :=
  let range := legacyRange pending cursor last
  let rows := L.store.sourceRows session range.1 range.2
  let snapshot := legacySnapshot env (pending.get? "gate_snapshot_json")
  let declared := fun key => legacyText (pending.get? key)
  let scope := (L.getSummaryScope env session).filter fun scope =>
    declaredAgrees (declared "chat_type") (some scope.chatType) &&
      declaredAgrees (declared "group_id") scope.groupId &&
      declaredAgrees (declared "scope_id") (some scope.scopeId) &&
      scope.personaId.all fun stored => (declared "persona_id").all (· = stored)
  let stored := (L.getSummaryScope env session).map fun scope =>
    (declared "persona_id").or scope.personaId
  let scopeValid := scope.isSome && (declared "scope_key").isSome &&
    (declared "privacy_level").isSome && (declared "resolver_revision").isSome
  let digest := if rangeValid pending cursor && scope.isSome && snapshot.isSome &&
      sourceComplete rows range.1 range.2 then env.sourceWindowDigest rows else none
  { jobId := jobId
    sessionId := session
    sessionEpoch := epoch
    startSeq := range.1
    endSeq := range.2
    expectedCount := range.2 - range.1
    sourceDigest := digest.getD (env.incompleteDigest session range.1 range.2)
    personaId := stored.join
    chatType := scope.map SummaryScope.chatType
    groupId := scope.bind SummaryScope.groupId
    scopeId := scope.map SummaryScope.scopeId
    gateRevision := (declared "gate_revision").getD (snapshot.elim "" Prod.snd)
    gateSnapshotJson := snapshot.elim "{}" Prod.fst
    triggeredBy := "legacy"
    scopeKey := if scopeValid then declared "scope_key" else none
    privacyLevel := if scopeValid then declared "privacy_level" else none
    resolverRevision := if scopeValid then declared "resolver_revision" else none
    scopeProvenanceComplete := scopeValid
    createdAt := now
    status := if digest.isSome then .queued else .blocked
    nextAttemptAt := now
    reasonCode := if digest.isSome then .legacyPending else .legacyPendingInvalid
    updatedAt := now }

/-- Turn the pending window of one session into a job, unless a window of the epoch is in its
place or overlaps it. None when a statement raises. -/
def LegacyStore.recoverPending (st : LegacyStore × ℕ) (session : String) (fields : Fields)
    (pending : Json) : Option (LegacyStore × ℕ) :=
  let (s,epoch,cursor) := st.1.store.ensureEpoch session now
  let L := { st.1 with store := s }
  let last := s.maxMessageSeq session
  let range := legacyRange (pendingFields pending) cursor last
  let cleared := (fields.pop "pending_summary").pop "last_summarized_index"
  if (s.epochJobs session epoch).any fun j => j.startSeq = range.1 && j.endSeq = range.2 then
    some (L.setMetadata session cleared,st.2+1)
  else if (s.epochJobs session epoch).any fun j => j.startSeq < range.2 && range.1 < j.endSeq then
    -- a window of another range stays, and so does the pending one
    some (L,st.2)
  else do
    let s' ← s.insertJob env.toEnv
      (L.legacyJob env session epoch (pendingFields pending) cursor last (jobIds session) now)
    return (LegacyStore.setMetadata { L with store := s' } session cleared,st.2+1)

def LegacyStore.recoverRow (st : LegacyStore × ℕ) (row : LegacySession) : Option (LegacyStore × ℕ) :=
  match row.metadata with
  | .null | .other => some st
  | .invalid => none
  | .object fields => match fields.get? "pending_summary" with
    | none => some st
    | some pending => LegacyStore.recoverPending env jobIds now st row.sessionId fields pending

/-- The number of sessions it converted. -/
def LegacyStore.recoverLegacyPending : LegacyStore × Except String ℕ :=
  match L.sessions.foldlM (LegacyStore.recoverRow env jobIds now) (L,0) with
  | none => (L,.error "summary_recovery_failed")
  | some (L',converted) => (L',.ok converted)

def WindowsWithin (session : String) (epoch cursor : ℕ) : Prop :=
  ∀ j ∈ s.epochJobs session epoch, j.startSeq ≤ j.endSeq ∧
  j.endSeq ≤ max (s.maxMessageSeq session) cursor

/-- A pending window that adds no window beyond the messages: one of the epoch is in its way,
or there are messages past the cursor and the declared end is one of them. -/
def PendingFits (session : String) (epoch cursor : ℕ) (pending : Fields) : Prop :=
  (∃ j ∈ s.epochJobs session epoch,
    j.startSeq < (legacyRange pending cursor (s.maxMessageSeq session)).2 ∧ cursor < j.endSeq) ∨
  cursor < s.maxMessageSeq session ∧ ∀ stop, legacyIndex (pending.get? "end_index") = some stop →
    cursor < stop → stop ≤ s.maxMessageSeq session

def Within (session : String) : Prop :=
  ∀ j ∈ s.epochJobs session (s.getSummaryEpoch session).1,
    j.startSeq ≤ j.endSeq ∧ j.endSeq ≤ s.getMessageSeqEnd session

def LegacySession.pending (r : LegacySession) : Option Json :=
  match r.metadata with
  | .object fields => fields.get? "pending_summary"
  | _ => none

lemma getMessageSeqEnd_eq (session : String) :
    s.getMessageSeqEnd session = max (s.maxMessageSeq session) (s.getSummaryEpoch session).2 := by
  unfold Store.getMessageSeqEnd Store.getSummaryEpoch Store.maxMessageSeq
  cases s.epochRow? session <;> rfl

variable {session : String} {rows : List LegacySession} {row : LegacySession}

lemma within_iff {s : Store} : Within s session ↔
    WindowsWithin s session (s.getSummaryEpoch session).1 (s.getSummaryEpoch session).2 := by
  unfold Within WindowsWithin
  rw [getMessageSeqEnd_eq]

lemma legacyRange_fst (pending : Fields) (cursor last : ℕ) :
    (legacyRange pending cursor last).1 = cursor := by
  unfold legacyRange
  split <;> rfl

lemma legacyRange_lt (pending : Fields) (cursor last : ℕ) :
    cursor < (legacyRange pending cursor last).2 := by
  unfold legacyRange
  split
  · rename_i stop hstop
    exact of_decide_eq_true (Option.filter_eq_some_iff.mp hstop).2
  · simp only
    omega

/-- The window of a pending one stays within the messages when there are any past the cursor
and the declared end is one of them. -/
theorem legacyRange_le {pending : Fields} {cursor last : ℕ} :
    (legacyRange pending cursor last).2 ≤ max last cursor ↔
      cursor < last ∧ ∀ stop, legacyIndex (pending.get? "end_index") = some stop →
        cursor < stop → stop ≤ last := by
  have hlt := legacyRange_lt pending cursor last
  unfold legacyRange at hlt ⊢
  split at hlt
  · rename_i stop hstop
    obtain ⟨hindex,-⟩ := Option.filter_eq_some_iff.mp hstop
    constructor
    · intro hle
      refine ⟨by omega,?_⟩
      intro other hother _
      rw [hindex] at hother
      cases hother
      omega
    · rintro ⟨-,hall⟩
      have := hall stop hindex hlt
      omega
  · rename_i hnone
    constructor
    · intro hle
      refine ⟨by omega,?_⟩
      intro stop hindex hstop
      have := Option.filter_eq_some_iff (o := legacyIndex (pending.get? "end_index"))
        (p := fun stop => decide (cursor < stop)) (a := stop) |>.mpr ⟨hindex,by simpa using hstop⟩
      rw [hnone] at this
      cases this
    · rintro ⟨hpast,-⟩
      omega

structure SameSession (session : String) (s t : Store) : Prop where
  messages : t.messages = s.messages
  epoch : t.getSummaryEpoch session = s.getSummaryEpoch session
  jobs : ∀ epoch, t.epochJobs session epoch = s.epochJobs session epoch

lemma SameSession.maxMessageSeq {s t : Store} (h : SameSession session s t) :
    t.maxMessageSeq session = s.maxMessageSeq session := by
  unfold Store.maxMessageSeq Store.sessionMessages
  rw [h.messages]

lemma SameSession.trans {s t u : Store} (h : SameSession session s t)
    (h' : SameSession session t u) : SameSession session s u :=
  ⟨h'.messages.trans h.messages,h'.epoch.trans h.epoch,fun e => (h'.jobs e).trans (h.jobs e)⟩

lemma SameSession.windowsWithin {s t : Store} (h : SameSession session s t) (epoch cursor : ℕ) :
    WindowsWithin t session epoch cursor ↔ WindowsWithin s session epoch cursor := by
  unfold WindowsWithin
  rw [h.jobs,h.maxMessageSeq]

lemma SameSession.pendingFits {s t : Store} (h : SameSession session s t) (epoch cursor : ℕ)
    (pending : Fields) :
    PendingFits t session epoch cursor pending ↔ PendingFits s session epoch cursor pending := by
  unfold PendingFits
  rw [h.jobs,h.maxMessageSeq]

lemma ensureEpoch_same (session target : String) (now : Time) :
    SameSession session s (s.ensureEpoch target now).1 := by
  refine ⟨ensureEpoch_messages s target now,s.getSummaryEpoch_ensureEpoch target now session,?_⟩
  intro epoch
  unfold Store.epochJobs
  rw [ensureEpoch_jobs]

lemma insertJob_same {env : Env} {s s' : Store} {j : Job} (h : s.insertJob env j = some s')
    (hne : j.sessionId ≠ session) : SameSession session s s' := by
  obtain ⟨rfl,-,-⟩ := Store.insertJob_eq h
  refine ⟨rfl,rfl,?_⟩
  intro epoch
  simp [Store.epochJobs,hne]

section Recover

variable {env : LegacyEnv} {jobIds : String → String} {now : Time} {L L' : LegacyStore}
  {n n' : ℕ} {session : String} {fields : Fields} {pending : Json} {target : String}

theorem recoverPending_cases
    (h : LegacyStore.recoverPending env jobIds now (L,n) target fields pending = some (L',n')) :
    ∃ s epoch cursor, L.store.ensureEpoch target now = (s,epoch,cursor) ∧
      ((L'.store = s ∧ ∃ j ∈ s.epochJobs target epoch,
          j.startSeq < (legacyRange (pendingFields pending) cursor (s.maxMessageSeq target)).2 ∧
            cursor < j.endSeq) ∨
        ∃ j, s.insertJob env.toEnv j = some L'.store ∧ j.sessionId = target ∧ j.sessionEpoch = epoch ∧
          j.range = legacyRange (pendingFields pending) cursor (s.maxMessageSeq target) ∧
          ¬∃ j ∈ s.epochJobs target epoch,
            j.startSeq < (legacyRange (pendingFields pending) cursor (s.maxMessageSeq target)).2 ∧
              cursor < j.endSeq) := by
  obtain ⟨⟨s,epoch,cursor⟩,hens⟩ : ∃ r, L.store.ensureEpoch target now = r := ⟨_,rfl⟩
  refine ⟨s,epoch,cursor,hens,?_⟩
  simp only [LegacyStore.recoverPending,hens] at h
  have hfst := legacyRange_fst (pendingFields pending) cursor (s.maxMessageSeq target)
  have hlt := legacyRange_lt (pendingFields pending) cursor (s.maxMessageSeq target)
  split at h
  · rename_i hsame
    left
    simp only [List.any_eq_true,Bool.and_eq_true,decide_eq_true_eq] at hsame
    obtain ⟨j,hj,hstart,hend⟩ := hsame
    cases h
    exact ⟨rfl,j,hj,by omega,by omega⟩
  split at h
  · rename_i hover
    left
    simp only [List.any_eq_true,Bool.and_eq_true,decide_eq_true_eq,hfst] at hover
    cases h
    exact ⟨rfl,hover⟩
  · rename_i hfree
    right
    simp only [List.any_eq_true,Bool.and_eq_true,decide_eq_true_eq,hfst] at hfree
    obtain ⟨s',hs,h⟩ := Option.bind_eq_some_iff.mp h
    cases h
    exact ⟨_,hs,rfl,rfl,rfl,hfree⟩

lemma recoverPending_other (hne : target ≠ session)
    (h : LegacyStore.recoverPending env jobIds now (L,n) target fields pending = some (L',n')) :
    SameSession session L.store L'.store := by
  obtain ⟨s,epoch,cursor,hens,hcases⟩ := recoverPending_cases h
  have hs : SameSession session L.store s := by
    have := ensureEpoch_same L.store session target now
    rwa [hens] at this
  rcases hcases with ⟨heq,-⟩ | ⟨j,hj,hsession,-⟩
  · rw [heq]
    exact hs
  · exact hs.trans (insertJob_same hj (by rw [hsession]; exact hne))

lemma recoverPending_own
    (h : LegacyStore.recoverPending env jobIds now (L,n) session fields pending = some (L',n')) :
    Within L'.store session ↔ Within L.store session ∧
      PendingFits L.store session (L.store.getSummaryEpoch session).1
        (L.store.getSummaryEpoch session).2 (pendingFields pending) := by
  obtain ⟨s,epoch,cursor,hens,hcases⟩ := recoverPending_cases h
  have hs : SameSession session L.store s := by
    have := ensureEpoch_same L.store session session now
    rwa [hens] at this
  have hcur : L.store.getSummaryEpoch session = (epoch,cursor) := by
    have := ensureEpoch_current L.store session now
    rw [hens] at this
    exact this.symm
  rw [within_iff,within_iff,hcur]
  rw [← hs.windowsWithin,← hs.pendingFits]
  rcases hcases with ⟨heq,hover⟩ | ⟨j,hj,hsession,hepoch,hrange,hfree⟩
  · have hcur' : L'.store.getSummaryEpoch session = (epoch,cursor) := by
      rw [heq,hs.epoch,hcur]
    rw [hcur',heq]
    exact ⟨fun hw => ⟨hw,.inl hover⟩,fun hw => hw.1⟩
  · obtain ⟨hstore,-,-⟩ := Store.insertJob_eq hj
    have hcur' : L'.store.getSummaryEpoch session = (epoch,cursor) := by
      rw [hstore]
      exact hs.epoch.trans hcur
    have hjobs : L'.store.epochJobs session epoch = s.epochJobs session epoch++[j] := by
      rw [hstore]
      simp [Store.epochJobs,hsession,hepoch]
    have hlast : L'.store.maxMessageSeq session = s.maxMessageSeq session := by
      rw [hstore]
      rfl
    have hstart : j.startSeq = cursor := by
      have := congrArg Prod.fst hrange
      rwa [legacyRange_fst] at this
    have hend : j.endSeq = (legacyRange (pendingFields pending) cursor (s.maxMessageSeq session)).2 :=
      congrArg Prod.snd hrange
    have hlt := legacyRange_lt (pendingFields pending) cursor (s.maxMessageSeq session)
    rw [hcur']
    simp only [WindowsWithin,hjobs,hlast,List.mem_append,List.mem_singleton,or_imp, forall_and,forall_eq]
    rw [hstart,hend,legacyRange_le]
    constructor
    · rintro ⟨⟨hle,-⟩,hbound,hfits⟩
      exact ⟨⟨hle,hbound⟩,.inr hfits⟩
    · rintro ⟨⟨hle,hbound⟩,hover | hfits⟩
      · exact absurd hover hfree
      · exact ⟨⟨hle,by omega⟩,hbound,hfits⟩

def RowsFit (s : Store) (session : String) (rows : List LegacySession) : Prop :=
  ∀ row ∈ rows, row.sessionId = session → ∀ pending, row.pending = some pending →
    PendingFits s session (s.getSummaryEpoch session).1 (s.getSummaryEpoch session).2
    (pendingFields pending)

lemma recoverRow_cases (h : LegacyStore.recoverRow env jobIds now (L,n) row = some (L',n')) :
    (row.pending = none ∧ L' = L) ∨ ∃ fields pending, row.pending = some pending ∧
      LegacyStore.recoverPending env jobIds now (L,n) row.sessionId fields pending = some (L',n') := by
  unfold LegacyStore.recoverRow at h
  unfold LegacySession.pending
  cases hm : row.metadata with
  | null | other =>
    rw [hm] at h
    exact .inl ⟨rfl,(Prod.mk.inj (Option.some.inj h)).1.symm⟩
  | invalid =>
    rw [hm] at h
    cases h
  | object fields =>
    rw [hm] at h
    simp only at h ⊢
    cases hp : fields.get? "pending_summary" with
    | none =>
      rw [hp] at h
      exact .inl ⟨rfl,(Prod.mk.inj (Option.some.inj h)).1.symm⟩
    | some pending =>
      rw [hp] at h
      exact .inr ⟨fields,pending,rfl,h⟩

lemma recoverRows_within (hkeys : (rows.map LegacySession.sessionId).Nodup)
    (h : rows.foldlM (LegacyStore.recoverRow env jobIds now) (L,n) = some (L',n')) :
    Within L'.store session ↔ Within L.store session ∧ RowsFit L.store session rows := by
  induction rows generalizing L n with
  | nil =>
    cases h
    simp [RowsFit]
  | cons row rows ih =>
    rw [List.map_cons,List.nodup_cons] at hkeys
    obtain ⟨⟨L₁,n₁⟩,h1,h2⟩ := Option.bind_eq_some_iff.mp h
    rw [ih hkeys.2 h2]
    by_cases hown : row.sessionId = session
    · -- no later row is of this session
      have hrest : ∀ s, RowsFit s session rows := by
        intro s other hmem hsession
        exact absurd (List.mem_map.mpr ⟨other,hmem,hsession.trans hown.symm⟩) hkeys.1
      have hcons : RowsFit L.store session (row::rows) ↔ ∀ pending, row.pending = some pending →
          PendingFits L.store session (L.store.getSummaryEpoch session).1
            (L.store.getSummaryEpoch session).2 (pendingFields pending) := by
        constructor
        · intro hall
          exact hall row (by simp) hown
        · intro hrow other hmem hsession
          rcases List.mem_cons.mp hmem with rfl | hmem
          · exact hrow
          · exact hrest _ other hmem hsession
      rw [hcons]
      rcases recoverRow_cases h1 with ⟨hnone,rfl⟩ | ⟨fields,pending,hsome,hrec⟩
      · simp [hrest,hnone]
      · rw [hown] at hrec
        rw [recoverPending_own hrec]
        simp [hrest,hsome]
    · have hsame : SameSession session L.store L₁.store := by
        rcases recoverRow_cases h1 with ⟨-,rfl⟩ | ⟨fields,pending,-,hrec⟩
        · exact ⟨rfl,rfl,fun _ => rfl⟩
        · exact recoverPending_other hown hrec
      rw [within_iff,within_iff,hsame.epoch,hsame.windowsWithin]
      have hrows : RowsFit L₁.store session rows ↔ RowsFit L.store session (row::rows) := by
        unfold RowsFit
        simp only [hsame.epoch,hsame.pendingFits,List.forall_mem_cons]
        simp [hown]
      rw [hrows]

end Recover

def migratedEpoch (session : String) (row : LegacySession) : ℕ × ℕ :=
  match row.metadata with
  | .object fields => match legacyCursor fields with
    | some cursor =>
      if s.getSummaryEpoch session = (1,0) then (1,cursor) else s.getSummaryEpoch session
    | none => s.getSummaryEpoch session
  | _ => s.getSummaryEpoch session

def LegacyStore.migratedEpoch (session : String) : ℕ × ℕ :=
  match L.sessions.find? fun r => r.sessionId = session with
  | some row => Memora.Summary.migratedEpoch L.store session row
  | none => L.store.getSummaryEpoch session

lemma epochRow?_migrateCursor_own (session : String) (cursor : ℕ) (now : Time) :
    (s.migrateCursor session cursor now).epochRow? session = some (match s.epochRow? session with
        | some e => if e.fresh then { e with cursorSeq := cursor, updatedAt := now } else e
        | none => ⟨session,1,cursor,none,none,now⟩) := by
  unfold Store.epochRow? Store.migrateCursor upsert
  cases hrow : s.epochs.find? fun e => e.sessionId = session with
  | some e =>
    have hany : (s.epochs.any fun r => r.sessionId = session) = true :=
      List.any_eq_true.mpr ⟨e,List.mem_of_find?_eq_some hrow,by simpa using List.find?_some hrow⟩
    have he : e.sessionId = session := Store.epochRow?_session hrow
    rw [if_pos hany,find?_modify,hrow]
    · simp [he]
    · intro r
      split <;> rfl
  | none =>
    have hany : ¬(s.epochs.any fun r => r.sessionId = session) = true := by
      rw [List.any_eq_true]
      rintro ⟨e,he,hsession⟩
      exact List.find?_eq_none.mp hrow e he hsession
    rw [if_neg hany,List.find?_append,hrow]
    simp

lemma epochRow?_migrateCursor_other {session target : String} (hne : session ≠ target)
    (cursor : ℕ) (now : Time) :
    (s.migrateCursor target cursor now).epochRow? session = s.epochRow? session := by
  unfold Store.epochRow? Store.migrateCursor upsert
  by_cases hany : (s.epochs.any fun r => r.sessionId = target) = true
  · rw [if_pos hany,find?_modify]
    · cases hrow : s.epochs.find? fun e => e.sessionId = session with
      | none => rfl
      | some e =>
        have he : e.sessionId = session := Store.epochRow?_session hrow
        simp [he,hne]
    · intro r
      split <;> rfl
  · rw [if_neg hany,List.find?_append]
    simp [Ne.symm hne]

lemma getSummaryEpoch_migrateCursor (session : String) (cursor : ℕ) (now : Time) :
    (s.migrateCursor session cursor now).getSummaryEpoch session =
      if s.getSummaryEpoch session = (1,0) then (1,cursor) else s.getSummaryEpoch session := by
  unfold Store.getSummaryEpoch
  rw [epochRow?_migrateCursor_own]
  cases s.epochRow? session with
  | none => simp
  | some e =>
    by_cases hfresh : e.epoch = 1 ∧ e.cursorSeq = 0
    · simp [EpochRow.fresh,hfresh.1,hfresh.2]
    · have hf : e.fresh = false := by
        unfold EpochRow.fresh
        simpa using hfresh
      have hpair : ¬(e.epoch,e.cursorSeq) = (1,0) := by simpa using hfresh
      simp only [hf]
      rw [if_neg hpair]
      rfl

section Migrate

variable {now : Time} {L L' : LegacyStore} {session : String}

def LegacySession.view (r : LegacySession) : String × Option Json := (r.sessionId,r.pending)

lemma migrateRow_spec (hrow : ∀ r ∈ L.sessions, r.sessionId = row.sessionId →
    r.pending = row.pending)
    (h : LegacyStore.migrateRow now L row = some L') :
    L'.store.messages = L.store.messages ∧ L'.store.jobs = L.store.jobs ∧
      L'.sessions.map LegacySession.view = L.sessions.map LegacySession.view ∧
      ∀ session, L'.store.getSummaryEpoch session =
        if row.sessionId = session then migratedEpoch L.store session row
        else L.store.getSummaryEpoch session := by
  unfold LegacyStore.migrateRow at h
  unfold migratedEpoch
  split at h
  · rename_i fields hfields
    split at h
    · rename_i hcursor
      cases h
      refine ⟨rfl,rfl,rfl,?_⟩
      intro session
      rw [hcursor]
      simp
    rename_i cursor hcursor
    rw [hcursor]
    have hepoch : ∀ session, (L.store.migrateCursor row.sessionId cursor now).getSummaryEpoch session =
          if row.sessionId = session then
            (if L.store.getSummaryEpoch session = (1,0) then (1,cursor)
              else L.store.getSummaryEpoch session)
          else L.store.getSummaryEpoch session := by
      intro session
      by_cases hown : row.sessionId = session
      · rw [if_pos hown,← hown]
        exact getSummaryEpoch_migrateCursor L.store row.sessionId cursor now
      · rw [if_neg hown]
        unfold Store.getSummaryEpoch
        rw [epochRow?_migrateCursor_other L.store (Ne.symm hown)]
    split at h
    · cases h
    split at h
    · cases h
      exact ⟨rfl,rfl,rfl,hepoch⟩
    · cases h
      refine ⟨rfl,rfl,?_,hepoch⟩
      refine map_modify LegacySession.view _ _ _ ?_
      intro r hr hsession
      have hsame := hrow r hr (by simpa using hsession)
      have hpending : row.pending = fields.get? "pending_summary" := by
        unfold LegacySession.pending
        rw [hfields]
      refine Prod.ext rfl ?_
      show (fields.pop "last_summarized_index").get? "pending_summary" = r.pending
      rw [hsame,hpending]
      exact Dict.get?_pop_of_ne (by decide)
  · rename_i hfields
    cases h
    refine ⟨rfl,rfl,rfl,?_⟩
    intro session
    cases hm : row.metadata with
    | object fields => exact absurd hm (hfields fields)
    | _ => simp

lemma migrateRows_spec (hkeys : (rows.map LegacySession.sessionId).Nodup)
    (hrows : ∀ r ∈ L.sessions, ∀ row ∈ rows, r.sessionId = row.sessionId → r.pending = row.pending)
    (h : rows.foldlM (LegacyStore.migrateRow now) L = some L') :
    L'.store.messages = L.store.messages ∧ L'.store.jobs = L.store.jobs ∧
      L'.sessions.map LegacySession.view = L.sessions.map LegacySession.view ∧
      ∀ session, L'.store.getSummaryEpoch session =
        match rows.find? fun r => r.sessionId = session with
        | some row => migratedEpoch L.store session row
        | none => L.store.getSummaryEpoch session := by
  induction rows generalizing L with
  | nil =>
    cases h
    exact ⟨rfl,rfl,rfl,fun _ => rfl⟩
  | cons row rows ih =>
    rw [List.map_cons,List.nodup_cons] at hkeys
    obtain ⟨L₁,h1,h2⟩ := Option.bind_eq_some_iff.mp h
    obtain ⟨hmessages,hjobs,hviews,hepoch⟩ := migrateRow_spec (fun r hr => hrows r hr row (by simp)) h1
    have hrows₁ : ∀ r ∈ L₁.sessions, ∀ other ∈ rows, r.sessionId = other.sessionId →
        r.pending = other.pending := by
      intro r hr other hother hsession
      have hview : r.view ∈ L.sessions.map LegacySession.view := hviews ▸ List.mem_map_of_mem hr
      obtain ⟨old,hold,hsame⟩ := List.mem_map.mp hview
      obtain ⟨hid,hpending⟩ := Prod.mk.inj hsame
      rw [← hpending]
      exact hrows old hold other (by simp [hother]) (hid.trans hsession)
    obtain ⟨hmessages',hjobs',hviews',hepoch'⟩ := ih hkeys.2 hrows₁ h2
    refine ⟨hmessages'.trans hmessages,hjobs'.trans hjobs,hviews'.trans hviews,?_⟩
    intro session
    rw [hepoch',List.find?_cons]
    have hmove := hepoch session
    by_cases hown : row.sessionId = session
    · have hnone : rows.find? (fun r => r.sessionId = session) = none := by
        rw [List.find?_eq_none]
        intro other hother hsession
        have hid : other.sessionId = session := by simpa using hsession
        exact hkeys.1 (List.mem_map.mpr ⟨other,hother,hid.trans hown.symm⟩)
      rw [if_pos hown] at hmove
      simp only [hnone,hown,decide_true]
      exact hmove
    · rw [if_neg hown] at hmove
      simp only [hown,decide_false]
      cases rows.find? fun r => r.sessionId = session with
      | none => exact hmove
      | some other =>
        unfold migratedEpoch
        rw [hmove]

end Migrate

lemma Within.frontier_le {s : Store} (h : Within s session) {frontier : ℕ}
    (hf : s.validatedFrontier session (s.getSummaryEpoch session).1 (s.getSummaryEpoch session).2 = some frontier) :
    frontier ≤ s.getMessageSeqEnd session := by
  obtain ⟨chain,hperm,htiles⟩ := validatedFrontier_iff.mp hf
  rcases htiles.end_mem with heq | ⟨r,hr,hend⟩
  · rw [heq,getMessageSeqEnd_eq]
    exact le_max_right _ _
  · obtain ⟨j,hj,rfl⟩ := List.mem_map.mp hr
    rw [← hend]
    exact (h j (Store.mem_past.mp (hperm.mem_iff.mp hj)).1).2

/-- After the cursor migration and the recovery every window of the session's epoch is within
the messages exactly when it was before and no pending window reaches beyond them; the planner
then finds no frontier past the high-water mark. -/
theorem recovered_windows_within_iff (env : LegacyEnv) (L L₁ L₂ : LegacyStore)
    (jobIds : String → String) (migrated recovered : Time) (converted : ℕ) (session : String)
    (hkeys : (L.sessions.map LegacySession.sessionId).Nodup)
    (hmigrate : L.migrateLegacySummaryCursors migrated = .ok L₁)
    (hrecover : L₁.recoverLegacyPending env jobIds recovered = (L₂,.ok converted)) :
    (Within L₂.store session ↔
      WindowsWithin L.store session (L.migratedEpoch session).1 (L.migratedEpoch session).2 ∧
        ∀ row ∈ L.sessions, row.sessionId = session → ∀ pending, row.pending = some pending →
          PendingFits L.store session (L.migratedEpoch session).1 (L.migratedEpoch session).2
            (pendingFields pending)) ∧
      (Within L₂.store session → ∀ frontier, L₂.store.validatedFrontier session
        (L₂.store.getSummaryEpoch session).1 (L₂.store.getSummaryEpoch session).2 =
          some frontier → frontier ≤ L₂.store.getMessageSeqEnd session) := by
  refine ⟨?_,fun hw frontier hf => hw.frontier_le hf⟩
  unfold LegacyStore.migrateLegacySummaryCursors at hmigrate
  unfold LegacyStore.recoverLegacyPending at hrecover
  split at hmigrate
  · cases hmigrate
  rename_i hfold
  cases hmigrate
  split at hrecover
  · cases hrecover
  rename_i hfold₁
  cases hrecover
  obtain ⟨hmessages,hjobs,hviews,hepoch⟩ := migrateRows_spec hkeys (by
    intro r hr row hrow hsession
    rw [eq_of_key_eq hkeys hr hrow hsession]) hfold
  have hkeys₁ : (L₁.sessions.map LegacySession.sessionId).Nodup := by
    have hids : L₁.sessions.map LegacySession.sessionId = L.sessions.map LegacySession.sessionId := by
      have := congrArg (List.map Prod.fst) hviews
      simpa [List.map_map,Function.comp_def,LegacySession.view] using this
    rw [hids]
    exact hkeys
  have hsame : L₁.store.getSummaryEpoch session = L.migratedEpoch session := hepoch session
  have hwindows : ∀ epoch cursor, WindowsWithin L₁.store session epoch cursor ↔
      WindowsWithin L.store session epoch cursor := by
    intro epoch cursor
    unfold WindowsWithin Store.epochJobs Store.maxMessageSeq Store.sessionMessages
    rw [hjobs,hmessages]
  have hfits : ∀ epoch cursor pending, PendingFits L₁.store session epoch cursor pending ↔
      PendingFits L.store session epoch cursor pending := by
    intro epoch cursor pending
    unfold PendingFits Store.epochJobs Store.maxMessageSeq Store.sessionMessages
    rw [hjobs,hmessages]
  rw [recoverRows_within hkeys₁ hfold₁,within_iff,hsame,hwindows]
  refine and_congr_right fun _ => ?_
  unfold RowsFit
  simp only [hsame,hfits]
  have hrows : ∀ id pending, (∃ row ∈ L₁.sessions, row.view = (id,some pending)) ↔
      ∃ row ∈ L.sessions, row.view = (id,some pending) := by
    intro id pending
    rw [← List.mem_map,hviews,List.mem_map]
  constructor
  · intro h row hrow hid pending hpending
    obtain ⟨row',hrow',hview⟩ := (hrows row.sessionId pending).mpr ⟨row,hrow,by
      rw [LegacySession.view,hpending]⟩
    obtain ⟨hid',hpending'⟩ := Prod.mk.inj hview
    exact h row' hrow' (hid'.trans hid) pending hpending'
  · intro h row hrow hid pending hpending
    obtain ⟨row',hrow',hview⟩ := (hrows row.sessionId pending).mp ⟨row,hrow,by
      rw [LegacySession.view,hpending]⟩
    obtain ⟨hid',hpending'⟩ := Prod.mk.inj hview
    exact h row' hrow' (hid'.trans hid) pending hpending'

def legacyEnv : LegacyEnv where
  toEnv := sampleEnv
  loads text := if text = "{}" then some (.obj []) else none

/-- Three messages and a pending window from the first one to `stop`. -/
def pendingTo (stop : ℤ) : LegacyStore where
  store := threeMessages
  sessions := [⟨"a",.object { entries := [("pending_summary",
    .obj [("start_index",.int 0),("end_index",.int stop)])] }⟩]

def LegacyStore.started : Option (LegacyStore × LegacyStore × ℕ) :=
  match L.migrateLegacySummaryCursors 2 with
  | .error _ => none
  | .ok L₁ => match L₁.recoverLegacyPending legacyEnv (fun _ => "j") 2 with
    | (_,.error _) => none
    | (L₂,.ok converted) => some (L₁,L₂,converted)

lemma LegacyStore.started_some {L L₁ L₂ : LegacyStore} {n : ℕ}
    (h : L.started = some (L₁,L₂,n)) : L.migrateLegacySummaryCursors 2 = .ok L₁ ∧
      L₁.recoverLegacyPending legacyEnv (fun _ => "j") 2 = (L₂,.ok n) := by
  unfold LegacyStore.started at h
  split at h
  · cases h
  rename_i hmigrate
  split at h
  · cases h
  rename_i hrecover
  cases h
  exact ⟨hmigrate,hrecover⟩

instance (s : Store) (session : String) : Decidable (Within s session) := by
  unfold Within
  infer_instance

/-- A pending window of two of the three messages stays within them. -/
theorem recovered_windows_within_sample :
    ∃ r, (pendingTo 2).started = some r ∧ Within r.2.1.store "a" := by
  have hsome : (pendingTo 2).started.isSome = true := by decide +kernel
  obtain ⟨⟨L₁,L₂,converted⟩,h⟩ := Option.isSome_iff_exists.mp hsome
  obtain ⟨hmigrate,hrecover⟩ := LegacyStore.started_some h
  refine ⟨_,h,(recovered_windows_within_iff legacyEnv (pendingTo 2) L₁ L₂ (fun _ => "j") 2 2
    converted "a" (by decide +kernel) hmigrate hrecover).1.mpr ⟨?_,?_⟩⟩
  · have hnone : (pendingTo 2).store.jobs = [] := by decide +kernel
    intro j hj
    rw [Store.epochJobs,hnone] at hj
    simp at hj
  · intro row hrow _ pending hpending
    rw [pendingTo,List.mem_singleton] at hrow
    subst hrow
    cases hpending
    refine .inr ⟨by decide +kernel,?_⟩
    intro stop hstop _
    cases hstop
    decide +kernel

lemma pendingTo_started : (pendingTo 100).started.isSome = true := by decide +kernel

/-- A pending window that ends at the hundredth of three messages becomes a window past the
high-water mark, and planning at the start raises from then on. -/
theorem recovered_window_beyond_messages :
    ∃ r, (pendingTo 100).started = some r ∧ ¬Within r.2.1.store "a" ∧
      (r.2.1.store.planAndEnqueueWindows sampleEnv (sampleContext "a" 1 0)
        (r.2.1.store.getMessageSeqEnd "a") (fun _ => "k") true 3 3).2 =
          .error "summary_startup_planning_failed" := by
  refine ⟨(pendingTo 100).started.get pendingTo_started,(Option.some_get _).symm,
    by decide +kernel,?_⟩
  rfl

end Memora.Summary

import Memora.SummaryTables

/-! The cursor of an epoch walks the windows that are closed, one end after the other; the frontier
is where the next window may start. `add_message` numbers a session's messages without gaps above
the cursor, and `plan_and_enqueue_windows` cuts the numbered messages after the frontier into
windows. -/
namespace Memora.Summary
open RowTable

/-- `ORDER BY start_seq,end_seq,created_at,job_id`. -/
def Job.rangeKey (j : Job) : ℕ ×ₗ ℕ ×ₗ Time ×ₗ String :=
  toLex (j.startSeq,toLex (j.endSeq,toLex (j.createdAt,j.jobId)))

def sortByRange (jobs : List Job) : List Job :=
  jobs.insertionSort fun a b => a.rangeKey ≤ b.rangeKey

namespace Store

/-- End of the closed window that starts at `current`; the nearest one if several do. -/
def nextTerminal (s : Store) (session : String) (epoch current : ℕ) : Option ℕ :=
  (((s.epochJobs session epoch).filter fun j =>
    j.startSeq = current && j.status.terminal).map fun j => j.endSeq).min?

/-- The `while` loop of `_advance_cursor`. Each round takes another job, so as many
rounds as the table has jobs exhaust it. -/
def walkCursor (s : Store) (session : String) (epoch : ℕ) : ℕ → ℕ → ℕ
  | 0, current => current
  | rounds+1, current =>
    match s.nextTerminal session epoch current with
    | none => current
    | some e => if e ≤ current then current else s.walkCursor session epoch rounds e

def firstPending (s : Store) (session : String) (epoch current : ℕ) : Option PendingSummary :=
  ((sortByRange (s.epochJobs session epoch)).find? fun j =>
    current ≤ j.startSeq && j.status.open).map
      fun j => ⟨j.startSeq,j.endSeq,j.status,j.reasonCode⟩

/-- Where `_advance_cursor` leaves the cursor. -/
def advancedCursor (s : Store) (session : String) (epoch : ℕ) : ℕ :=
  s.walkCursor session epoch s.jobs.length (s.cursorAt session epoch)

/-- Pass the closed prefix and project the first open window. -/
def advanceCursor (s : Store) (session : String) (epoch : ℕ) (now : Time) : Store :=
  let current := s.advancedCursor session epoch
  s.updateEpochs (fun e => e.sessionId = session && e.epoch = epoch) fun e =>
    { e with
      cursorSeq := current
      pendingSummary := s.firstPending session epoch current
      updatedAt := now }

end Store

/-- One pass of `_validated_frontier` over the ordered ranges. -/
def frontierFrom (cursor : ℕ) : ℕ → List (ℕ × ℕ) → Option ℕ
  | frontier, [] => some frontier
  | frontier, (start,stop)::rest =>
    if stop ≤ cursor then frontierFrom cursor frontier rest
    else if start < cursor || start ≠ frontier || stop ≤ start then none
    else frontierFrom cursor stop rest

/-- None when the ranges past the cursor leave a gap or overlap. -/
def Store.validatedFrontier (s : Store) (session : String) (epoch cursor : ℕ) : Option ℕ :=
  frontierFrom cursor cursor ((sortByRange (s.epochJobs session epoch)).map fun j =>
    (j.startSeq,j.endSeq))

end Memora.Summary

namespace Memora.Summary
open RowTable

structure MessageInput where
  sessionId : String
  role : String
  content : String
  senderId : String := ""
  senderName : Option String := none
  groupId : Option String := none
  platform : String := ""
  timestamp : Time
  metadata : String := "{}"

def orElseText (value fallback : String) : String := if value = "" then fallback else value

def metaGet (metadata : List (String × MetaValue)) (key : String) : MetaValue :=
  (metadata.lookup key).getD .null

/-- `json_set` of one top-level key, and `dict.update` with one item. -/
def metaSet (metadata : List (String × MetaValue)) (key : String) (value : MetaValue) :
    List (String × MetaValue) :=
  if metadata.any (fun e => e.1 = key) then
    metadata.map fun e => if e.1 = key then (key,value) else e
  else metadata++[(key,value)]

def MetaValue.ofText : Option String → MetaValue
  | none => .null
  | some s => .str s

def Session.touched (r : Session) (m : MessageInput) (sender : String) : Session :=
  { r with
    messageCount := r.messageCount+1
    lastActiveAt := m.timestamp
    metadata := metaSet (metaSet (metaSet r.metadata
      "chat_type" (.str (if m.groupId.any (· ≠ "") then "group" else "private")))
      "group_id" (.ofText m.groupId)) "scope_id" (.str (orElseText (m.groupId.getD "") m.sessionId))
    participants := if sender = "" || r.participants.contains sender then r.participants
      else r.participants++[sender] }

variable (c : SummaryWindowContext) (s : Store)

/-- Number the message one above every stored one and the cursor. -/
def Store.addMessage (m : MessageInput) (now : Time) : Store × ℕ :=
  let platform := orElseText m.platform "unknown"
  let sender := orElseText m.senderId m.sessionId
  let sessions := if s.sessions.any (fun r => r.sessionId = m.sessionId) then s.sessions
    else s.sessions++[{ sessionId := m.sessionId, platform := platform, createdAt := now,
                          lastActiveAt := m.timestamp }]
  let row : Message :=
    { id := s.nextMessageId, sessionId := m.sessionId, role := m.role, content := m.content,
      senderId := sender, senderName := m.senderName, groupId := m.groupId,
      platform := platform, timestamp := m.timestamp, metadata := m.metadata,
      messageSeq := some (s.getMessageSeqEnd m.sessionId+1) }
  ({ s with
      messages := s.messages++[row]
      nextMessageId := s.nextMessageId+1
      sessions := modify (fun r => r.sessionId = m.sessionId)
        (fun r => r.touched m sender) sessions },s.nextMessageId)

structure SummaryEnqueueResult where
  accepted : Bool
  queued : ℕ := 0
  duplicates : ℕ := 0
  activeParallelism : ℕ := 0
  targetParallelism : ℕ := 0
  reasonCode : SummaryReasonCode := .unknown
  deriving DecidableEq

/-- The scope columns `_persist_summary_scope_snapshot` fixes on the session. -/
def SummaryWindowContext.scopeValues : List (String × MetaValue) :=
  [("scope_key",.str c.scopeKey),("chat_type",.ofText c.chatType),
    ("privacy_level",.ofText c.privacyLevel),("resolver_revision",.str c.resolverRevision),
    ("scope_id",.ofText c.scopeId)] ++
  if strip c.scopeSubjectId = "" then [] else
    [("scope_subject_id",.str (strip c.scopeSubjectId))]

def scopeConflict (metadata values : List (String × MetaValue)) : Bool :=
  metaGet metadata "scope_provenance_complete" = .bool true &&
    values.any fun v => metaGet metadata v.1 ≠ .null && metaGet metadata v.1 ≠ v.2

def Session.scoped (r : Session) : Session :=
  let updated := c.scopeValues.foldl (fun m v => metaSet m v.1 v.2) r.metadata
  { r with metadata := metaSet updated "scope_provenance_complete" (.bool true) }

/-- `_persist_summary_scope_snapshot`: none when a fixed snapshot disagrees. -/
def Store.persistScopeSnapshot (c : SummaryWindowContext) : Option Store :=
  if !c.scopeAvailable then some s
  else match s.sessions.find? fun r => r.sessionId = c.sessionId with
    | none => some s
    | some r =>
      if scopeConflict r.metadata c.scopeValues then none
      else some { s with
        sessions := modify (fun r => r.sessionId = c.sessionId) (Session.scoped c) s.sessions }

def Store.manualBlocker (c : SummaryWindowContext) (epoch : ℕ) :
    Option SummaryReasonCode :=
  let jobs := s.epochJobs c.sessionId epoch
  if c.triggeredBy ≠ "manual" then none
  else if jobs.any (fun j => j.status = .unknown) then some .unknown
  else if jobs.any (fun j => j.status = .blocked) then some .blocked
  else none

/-- Full windows while they fit, then a remainder of at least two messages. Each
round consumes messages, so `stop + 1` rounds exhaust the range. -/
def planRanges (size stop : ℕ) : ℕ → ℕ → List (ℕ × ℕ)
  | 0, _ => []
  | rounds+1, start =>
    if start+size ≤ stop then
      (start,start+size)::planRanges size stop rounds (start+size)
    else if start+2 ≤ stop then [(start,stop)] else []

/-- The messages of a range in sequence order. -/
def Store.sourceRows (session : String) (start stop : ℕ) : List Message :=
  ((s.sessionMessages session).filter fun m =>
    m.messageSeq.any fun q => start < q && q ≤ stop).insertionSort
      fun a b => a.messageSeq.getD 0 ≤ b.messageSeq.getD 0

def sourceComplete (rows : List Message) (start stop : ℕ) : Bool :=
  rows.map (fun m => m.messageSeq.getD 0) = List.range' (start+1) (stop - start)

def SummaryWindowContext.job (jobId : String) (start stop : ℕ) (digest : String) (complete : Bool)
    (now : Time) : Job where
  jobId := jobId
  sessionId := c.sessionId
  sessionEpoch := c.sessionEpoch
  startSeq := start
  endSeq := stop
  expectedCount := stop - start
  sourceDigest := digest
  personaId := c.personaId
  chatType := c.chatType
  groupId := c.groupId
  scopeId := c.scopeId
  gateRevision := c.gateRevision
  gateSnapshotJson := c.gateSnapshotJson
  triggeredBy := c.triggeredBy
  scopeKey := if c.scopeKey = "" then none else some c.scopeKey
  privacyLevel := c.privacyLevel
  resolverRevision := if c.resolverRevision = "" then none else some c.resolverRevision
  scopeProvenanceComplete := c.scopeAvailable
  createdAt := now
  status := if complete then .queued else .blocked
  nextAttemptAt := now
  reasonCode := if complete then .queued else .sourceIncomplete
  updatedAt := now

structure PlanTally where
  queued : ℕ := 0
  duplicates : ℕ := 0
  blocked : Bool := false
  deriving DecidableEq

/-- Insert the window of one range unless a job overlaps it; a window whose messages
are incomplete is inserted blocked. None when a statement raises. -/
def Store.enqueueWindow (env : Env) (c : SummaryWindowContext) (jobIds : ℕ → String)
    (now : Time) (st : Store × PlanTally) (range : ℕ × ℕ) : Option (Store × PlanTally) :=
  let (s,tally) := st
  let (start,stop) := range
  if (s.epochJobs c.sessionId c.sessionEpoch).any fun j =>
      j.startSeq < stop && start < j.endSeq then
    some (s,{ tally with duplicates := tally.duplicates+1 })
  else
    let rows := s.sourceRows c.sessionId start stop
    if sourceComplete rows start stop then do
      let digest ← env.sourceWindowDigest rows
      let s' ← s.insertJob env (c.job (jobIds start) start stop digest true now)
      return (s',{ tally with queued := tally.queued+1 })
    else do
      let digest := env.incompleteDigest c.sessionId start stop
      let s' ← s.insertJob env (c.job (jobIds start) start stop digest false now)
      return (s',{ tally with blocked := true })

def PlanTally.reason (t : PlanTally) : SummaryReasonCode :=
  if t.queued ≠ 0 then .queued
  else if t.duplicates ≠ 0 then .duplicate
  else if t.blocked then .sourceIncomplete
  else .noWindow

/-- The failure path of the planner: raised at start-up, reported otherwise. -/
def planFailure (strict : Bool) (reason : SummaryReasonCode) :
    Except String SummaryEnqueueResult :=
  if strict then .error "summary_startup_planning_failed"
  else .ok { accepted := false, reasonCode := reason }

/-- `jobIds` are the fresh identifiers by window start. -/
def Store.planAndEnqueueWindows (env : Env) (s : Store) (c : SummaryWindowContext)
    (observedEnd : ℤ) (jobIds : ℕ → String) (strict : Bool) (now clock : Time) :
    Store × Except String SummaryEnqueueResult :=
  if observedEnd < 0 then (s,.ok { accepted := false, reasonCode := .sourceIncomplete })
  else
    let stop := observedEnd.toNat
    let (s₁,epoch,cursor) := s.ensureEpoch c.sessionId now
    -- planning from beyond the cursor would skip messages silently
    if epoch ≠ c.sessionEpoch || cursor ≠ c.startSeq then
      (s,.ok { accepted := false, reasonCode := .epochFenced })
    else match s₁.persistScopeSnapshot c with
      | none => (s,planFailure strict .storeUnavailable)
      | some s₂ => match s₂.manualBlocker c epoch with
        | some reason => (s,.ok { accepted := false, reasonCode := reason })
        | none => match s₂.validatedFrontier c.sessionId epoch cursor with
          | none => (s,planFailure strict .sourceIncomplete)
          | some frontier =>
            if stop < frontier then (s,planFailure strict .sourceIncomplete)
            else
              let start := max frontier c.startSeq
              let duplicates := if stop ≤ start then
                (s₂.epochJobs c.sessionId epoch).countP fun j =>
                  c.startSeq ≤ j.startSeq && j.endSeq ≤ stop
                else 0
              let ranges := planRanges (max 2 c.windowSize) stop (stop+1) start
              match ranges.foldlM (Store.enqueueWindow env c jobIds now)
                  (s₂,{ duplicates := duplicates }) with
              | none => (s,planFailure strict .storeUnavailable)
              | some (s₃,tally) =>
                (s₃.advanceCursor c.sessionId epoch now,.ok
                  { accepted := tally.queued ≠ 0 || tally.duplicates ≠ 0 || tally.blocked
                    queued := tally.queued
                    duplicates := tally.duplicates
                    activeParallelism := s₃.jobs.countP fun j =>
                      j.status = .running && j.leaseUntil.any (clock < ·)
                    targetParallelism := s₃.jobs.countP fun j =>
                      j.status.claimable && decide (j.nextAttemptAt ≤ now)
                    reasonCode := tally.reason })

end Memora.Summary

import Memora.RepresentationModels

/-! The scan of the documents table by pages of ascending ids, the plan made of the rows it lists,
and the reading of a plan that an operator hands in. -/
namespace Memora.Representation
open Canonical

inductive Action
  | representationRewrite | ownerReinforce
  deriving DecidableEq

def Action.text : Action → String
  | .representationRewrite => "representation_rewrite"
  | .ownerReinforce => "owner_reinforce"

/-- One operation of a plan: ids, and the revisions seen when the plan was made. -/
structure MigrationPlanItem where
  memoryId : ℤ
  action : Action
  expectedRevision : String
  ownerMemoryId : Option ℤ := none
  ownerExpectedRevision : Option String := none
  deriving DecidableEq

def MigrationPlanItem.toPayload (item : MigrationPlanItem) : Json :=
  .obj ([("memory_id",.int item.memoryId),("action",.str item.action.text),
    ("expected_revision",.str item.expectedRevision)] ++
    if item.action = .ownerReinforce then
      [("owner_memory_id",(item.ownerMemoryId.map Json.int).getD .null),
        ("owner_expected_revision",(item.ownerExpectedRevision.map Json.str).getD .null)]
    else [])

inductive PlanError
  | planUnreadable | planJsonInvalid | planInvalid | planTargetUnsupported
  | confirmationRequired | confirmationMismatch
  deriving DecidableEq

def planSchema : String := "memora-memory-representation-plan-v1"

structure MigrationPlan where
  operatorConfirmation : String
  items : List MigrationPlanItem
  fingerprint : String
  deriving DecidableEq

def MigrationPlan.payload (plan : MigrationPlan) : List (String × Json) :=
  [("plan_schema",.str planSchema), ("target_representation_version",.str
    targetRepresentationVersion),
    ("operator_confirmation",.str plan.operatorConfirmation),
    ("items",.arr (plan.items.map MigrationPlanItem.toPayload))]

/-- What a plan is read with: `json.dumps` and the hash. -/
structure Codec where
  dumps : Json → String
  sha256 : String → String

/-- The confirmation is not part of it. -/
def planFingerprint (codec : Codec) (items : List MigrationPlanItem) : String :=
  let canonical := codec.dumps (.arr (items.map MigrationPlanItem.toPayload))
  String.ofList ((codec.sha256
    (planSchema++"\x00"++targetRepresentationVersion++"\x00"++canonical)).toList.take 32)

def sortItems (items : List MigrationPlanItem) : List MigrationPlanItem :=
  items.mergeSort fun a b => a.memoryId ≤ b.memoryId

def buildMigrationPlan (codec : Codec) (items : List MigrationPlanItem)
    (operatorConfirmation : String) : Except PlanError MigrationPlan :=
  let confirmation := pythonStrip operatorConfirmation
  if confirmation = "" then .error .confirmationRequired
  else if items = [] then .error .planInvalid
  else
    let ordered := sortItems items
    if ¬(ordered.map MigrationPlanItem.memoryId).Nodup then .error .planInvalid
    else .ok ⟨confirmation,ordered,planFingerprint codec ordered⟩

/-- What an operator hands in: a mapping, a text with what JSON makes of it, or neither. -/
inductive Payload
  | mapping (entries : List (String × Json))
  | encoded (decoded : Option Json)
  | unreadable

def loadJsonPayload : Payload → Except PlanError (List (String × Json))
  | .mapping entries => .ok entries
  | .encoded (some (.obj entries)) => .ok entries
  | .encoded (some _) => .error .planInvalid
  | .encoded none => .error .planJsonInvalid
  | .unreadable => .error .planUnreadable

/-- `dict.get`. -/
def lookup (key : String) (entries : List (String × Json)) : Option Json :=
  (entries.find? fun e => e.1 = key).map Prod.snd

def planKeys : List String :=
  ["plan_schema","target_representation_version","operator_confirmation","items"]

def planItemKeys : List String :=
  ["memory_id","action","expected_revision","owner_memory_id","owner_expected_revision"]

def readId : Option Json → Except PlanError ℤ
  | some (.int n) => if n < 1 then .error .planInvalid else .ok n
  | _ => .error .planInvalid

def readAction : Option Json → Except PlanError Action
  | some (.str s) =>
    if s = "representation_rewrite" then .ok .representationRewrite
    else if s = "owner_reinforce" then .ok .ownerReinforce
    else .error .planInvalid
  | _ => .error .planInvalid

def readRevision : Option Json → Except PlanError String
  | some (.str s) => if blank s then .error .planInvalid else .ok (pythonStrip s)
  | _ => .error .planInvalid

/-- `value is None`. -/
def isNone : Option Json → Bool
  | none | some .null => true
  | _ => false

def refuseIf (bad : Bool) (error : PlanError) : Except PlanError Unit :=
  if bad then .error error else .ok ()

def parsePlanItem : Json → Except PlanError MigrationPlanItem
  | .obj entry => do
    refuseIf (entry.any fun e => e.1 ∉ planItemKeys) .planInvalid
    let memoryId ← readId (lookup "memory_id" entry)
    let action ← readAction (lookup "action" entry)
    let expectedRevision ← readRevision (lookup "expected_revision" entry)
    match action with
    | .ownerReinforce =>
      let ownerMemoryId ← readId (lookup "owner_memory_id" entry)
      let ownerExpectedRevision ← readRevision (lookup "owner_expected_revision" entry)
      pure ⟨memoryId,action,expectedRevision,some ownerMemoryId,some ownerExpectedRevision⟩
    | .representationRewrite =>
      refuseIf (!isNone (lookup "owner_memory_id" entry) ||
        !isNone (lookup "owner_expected_revision" entry)) .planInvalid
      pure ⟨memoryId,action,expectedRevision,none,none⟩
  | _ => .error .planInvalid

def readItems : Option Json → Except PlanError (List MigrationPlanItem)
  | some (.arr []) => .error .planInvalid
  | some (.arr entries) => entries.mapM parsePlanItem
  | _ => .error .planInvalid

def readConfirmation : Option Json → Except PlanError String
  | some (.str s) => if blank s then .error .planInvalid else .ok (pythonStrip s)
  | _ => .error .planInvalid

def MigrationPlan.parse (codec : Codec) (payload : Payload) : Except PlanError MigrationPlan := do
  let document ← loadJsonPayload payload
  refuseIf (document.any fun e => e.1 ∉ planKeys) .planInvalid
  refuseIf (!isText (lookup "plan_schema" document) planSchema) .planInvalid
  refuseIf (!isText (lookup "target_representation_version" document) targetRepresentationVersion)
    .planTargetUnsupported
  let confirmation ← readConfirmation (lookup "operator_confirmation" document)
  let items ← readItems (lookup "items" document)
  refuseIf (¬(items.map MigrationPlanItem.memoryId).Nodup) .planInvalid
  let items := sortItems items
  pure ⟨confirmation,items,planFingerprint codec items⟩

structure Table where
  rows : List Row
  sorted : (rows.map Row.id).Pairwise (· < ·)

def Table.fetchPage (table : Table) (afterId : ℤ) (limit : ℕ) : List Row :=
  (table.rows.filter fun r => afterId < r.id).take limit

/-- The rows of a page that have another revision by now. -/
def Table.pageRevisionConflicts (table : Table) (page : List Row) : List ℤ :=
  match page.head?, page.getLast? with
  | some first, some last =>
    let observed := table.rows.filter fun r => first.id ≤ r.id ∧ r.id ≤ last.id
    (page.filter fun r =>
      ((observed.find? fun o => o.id = r.id).map Row.revision).getD "" ≠ r.revision).map Row.id
  | _, _ => []

structure ActionCounts where
  content : ℕ := 0
  metadata : ℕ := 0
  none : ℕ := 0
  unavailable : ℕ := 0
  deriving DecidableEq

structure DryRun where
  scanned : ℕ := 0
  eligible : ℕ := 0
  changed : ℕ := 0
  unchanged : ℕ := 0
  unavailable : ℕ := 0
  conflicts : ℕ := 0
  exhausted : Bool := false
  actionCounts : ActionCounts := {}
  reasonCounts : Dict Reason ℕ := {}
  planItems : List MigrationPlanItem := []

def bump (counts : Dict Reason ℕ) (reason : Reason) : Dict Reason ℕ :=
  counts.set reason ((counts.get? reason).getD 0+1)

def ActionCounts.count (counts : ActionCounts) : WriteKind → ActionCounts
  | .content => { counts with content := counts.content+1 }
  | .metadata => { counts with metadata := counts.metadata+1 }
  | .none => { counts with none := counts.none+1 }

def Row.item (r : Row) : MigrationPlanItem where
  memoryId := r.id
  action := .representationRewrite
  expectedRevision := r.revision

def DryRun.scanRow (conflicted : List ℤ) (scan : DryRun) (r : Row) : DryRun :=
  let scan := { scan with scanned := scan.scanned+1 }
  let target := r.target
  if r.id ∈ conflicted then
    { scan with
      conflicts := scan.conflicts+1, reasonCounts := bump scan.reasonCounts .revisionConflict }
  else
    match target.reasonCode with
    | some reason =>
      { scan with
        unavailable := scan.unavailable+1
        actionCounts :=
          { scan.actionCounts with unavailable := scan.actionCounts.unavailable+1 }
        reasonCounts := bump scan.reasonCounts reason }
    | none =>
      let scan := { scan with eligible := scan.eligible+1 }
      if !target.changed then
        { scan with
          unchanged := scan.unchanged+1, actionCounts := scan.actionCounts.count .none }
      else
        { scan with
          changed := scan.changed+1
          actionCounts := scan.actionCounts.count target.writeKind
          planItems := scan.planItems++[r.item] }

/-- The loop over the pages; every round reads a row, so that the number of rows bounds them. -/
def Table.scanPages (table : Table) (batchSize : ℕ+) (limit : ℕ) : ℕ → ℤ → DryRun → DryRun
  | 0, _, scan => scan
  | rounds+1, afterId, scan =>
    if limit ≠ 0 ∧ limit ≤ scan.scanned then scan
    else
      let pageSize := if limit = 0 then (batchSize : ℕ) else min batchSize (limit - scan.scanned)
      let page := table.fetchPage afterId pageSize
      match page.getLast? with
      | none => { scan with exhausted := true }
      | some last =>
        let scan := page.foldl (DryRun.scanRow (table.pageRevisionConflicts page)) scan
        if limit ≠ 0 ∧ limit ≤ scan.scanned then scan
        else table.scanPages batchSize limit rounds last.id scan

def Table.dryRun (table : Table) (batchSize : ℕ+) (limit : ℕ := 0) : DryRun :=
  table.scanPages batchSize limit (table.rows.length+1) 0 {}

end Memora.Representation

import CcPanes.TaskBindings.MergePatch
import CcPanes.TaskBindings.Repository

/-!
# The service of the task bindings

The calls of `task_binding_service.rs` that change bindings: their accesses to the repository, and
which of them hold `update_lock`.

A call is given the ids that it draws and the times that it reads.  The reads that are made for the
answer alone, after the last write of a call, are its `Answer`.
-/

namespace CcPanes.TaskBindings

open SerialCalls

inductive Response where
  | binding (b : TaskBinding)
  | maybe (b : Option TaskBinding)
  | previous (status : Option TaskBindingStatus) (b : TaskBinding)
  | collaboration (c : PlanCollaboration)

abbrev Program := Body Found (fun _ : Change => Bool) AppError
abbrev Answer := Reads Found AppError
abbrev ServiceCall := SerialCalls.Call Found (fun _ : Change => Bool) AppError Response

def find (q : Query) : Program (Found q) := .read q .done
def write (u : Change) : Program Bool := .write u .done
def again (q : Query) : Answer (Found q) := .read q .done

def liftResult {α : Type} : AppResult α → Program α
  | .ok a => .done a
  | .error e => .fail e

def Answer.fail {α : Type} (text : String) : Answer α := Reads.fail (failure text)

/-! ## what the calls share -/

def findBinding (id : String) : Program (Option TaskBinding) := find (.get id)

def existing (id : String) : Program TaskBinding := do
  match ← findBinding id with
  | some b => return b
  | none => .fail (failure ("TaskBinding '" ++ id ++ "' not found"))

def refreshed (id : String) : Answer (Option TaskBinding) := again (.get id)

/-- the checks of a request, and the plan path in its normal form -/
def checkedUpdate (req : UpdateTaskBindingRequest) : AppResult UpdateTaskBindingRequest :=
  if req.title.any fun title => trim title = "" then
    .error (failure "TaskBinding title cannot be empty")
  else if req.progress.any fun progress => ¬(0 ≤ progress ∧ progress ≤ 100) then
    .error (failure "Progress must be between 0 and 100")
  else
    .ok { req with
      normalizedPlanPath := req.normalizedPlanPath.or (req.planPath.map normalizePlanPath) }

def updateWithEmit (id : String) (req : UpdateTaskBindingRequest) (now : Nat) :
    Program (Answer TaskBinding) := do
  let req ← liftResult (checkedUpdate req)
  let _ ← write (.update id req now)
  return do
    match ← refreshed id with
    | some b => return b
    | none => Answer.fail ("TaskBinding '" ++ id ++ "' not found")

def CreateTaskBindingRequest.binding (req : CreateTaskBindingRequest) (id : String) (now : Nat) :
    TaskBinding :=
  let planPath := cleanOptional req.planPath
  { id
    title := trim req.title
    role := req.role.getD .task
    parentId := cleanOptional req.parentId
    planPath
    normalizedPlanPath := (cleanOptional req.normalizedPlanPath).or (planPath.map normalizePlanPath)
    prompt := req.prompt
    sessionId := cleanOptional req.sessionId
    resumeId := cleanOptional req.resumeId
    paneId := cleanOptional req.paneId
    tabId := cleanOptional req.tabId
    todoId := cleanOptional req.todoId
    projectPath := req.projectPath
    workspaceName := cleanOptional req.workspaceName
    cliTool := (cleanOptional req.cliTool).getD "claude"
    status := .pending
    progress := 0
    completionSummary := none
    exitCode := none
    sortOrder := 0
    workerKind := cleanOptional req.workerKind
    metadata := req.metadata
    createdAt := now
    updatedAt := now }

def createWithEmit (req : CreateTaskBindingRequest) (id : String) (now : Nat) :
    Program TaskBinding := do
  if trim req.title = "" then
    .fail (failure "TaskBinding title cannot be empty")
  else
    let inserted ← write (.insert (req.binding id now))
    if inserted then return req.binding id now
    else .fail (failure "UNIQUE constraint failed: task_bindings.id")

def findLeader (plan : String) (project : Option String) : Program (Option TaskBinding) :=
  find (.findLeaderByPlan plan project)

def resolveLeader (key : PlanCollaborationKey) : Program TaskBinding := do
  match key.leaderId.filter fun id => trim id ≠ "" with
  | some leaderId =>
    match ← findBinding leaderId with
    | none => .fail (failure ("Plan leader '" ++ leaderId ++ "' not found"))
    | some b =>
      if b.role ≠ .leader then
        .fail (failure ("TaskBinding '" ++ leaderId ++ "' is not a plan leader"))
      else return b
  | none =>
    match key.normalizedPlanPath.or (key.planPath.map normalizePlanPath) with
    | none => .fail (failure "leaderId or planPath is required")
    | some plan =>
      match ← findLeader plan none with
      | some leader => return leader
      | none =>
        .fail (failure ("Plan leader for '" ++ key.planPath.getD plan ++ "' not found"))

def completedByWorker (b : TaskBinding) : Bool :=
  b.status = .completed ∧ b.completionSummary.any fun summary => trim summary ≠ ""

/-- `-1` is no code of a process: it never replaces one -/
def shouldUpdateExitCode (b : TaskBinding) (exitCode : Int) : Bool :=
  match b.exitCode with
  | some current => if exitCode = -1 ∧ current ≠ -1 then false else current ≠ exitCode
  | none => true

def exitUpdate (b : TaskBinding) (exitCode : Int) : UpdateTaskBindingRequest where
  status := if ¬completedByWorker b ∧ b.status ≠ .failed then some .failed else none
  exitCode := if shouldUpdateExitCode b exitCode then some exitCode else none

def findBySession (sessionId : String) : Program (Option TaskBinding) :=
  find (.findBySessionId sessionId)

def recordTerminalExit (sessionId : String) (exitCode : Int) (now : Nat) : ServiceCall :=
  let sessionId := trim sessionId
  if sessionId = "" then ⟨false, return (return .maybe none)⟩
  else
    { locked := true
      body := do
        match ← findBySession sessionId with
        | none => return (return .maybe none)
        | some b =>
          if (exitUpdate b exitCode).status = none ∧ (exitUpdate b exitCode).exitCode = none then
            return (return .maybe (some b))
          else
            let answer ← updateWithEmit b.id (exitUpdate b exitCode) now
            return do return .maybe (some (← answer)) }

/-! ## updates -/

def updateCall (id : String) (req : UpdateTaskBindingRequest) (now : Nat) : ServiceCall where
  locked := false
  body := do
    let answer ← updateWithEmit id req now
    return do return .binding (← answer)

def updateReturningPreviousStatus (id : String) (req : UpdateTaskBindingRequest) (now : Nat) :
    ServiceCall where
  locked := true
  body := do
    let old ← findBinding id
    let answer ← updateWithEmit id req now
    return do return .previous (old.map (·.status)) (← answer)

def updatePatch (serde : Serde) (id : String) (patch : Json) (now : Nat) : ServiceCall where
  locked := true
  body := do
    let b ← existing id
    let req ← liftResult (taskBindingPatchToUpdateRequest serde b patch)
    let answer ← updateWithEmit id req now
    return do return .binding (← answer)

/-- the array under the key, and the item behind it; the oldest items are dropped -/
def appendedItems (items : List Json) (item : Json) (maxItems : Nat) : List Json :=
  (items ++ [item]).drop ((items ++ [item]).length - maxItems)

/-- the fields of the metadata: of an empty object, if they are not an object -/
def metadataFields (b : TaskBinding) : List (String × Json) :=
  ((b.metadata.getD (.object [])).asObject).getD []

/-- the array under a key of the metadata: an empty one, if there is no array -/
def metadataItems (b : TaskBinding) (key : String) : List Json :=
  match (Json.object (metadataFields b)).get key with
  | some (.array items) => items
  | _ => []

def appendMetadataArrayItem (id key : String) (item : Json) (maxItems now : Nat) : ServiceCall :=
  if trim key = "" then
    ⟨false, .fail (failure "TaskBinding metadata array key cannot be empty")⟩
  else if maxItems = 0 then
    ⟨false, .fail (failure "TaskBinding metadata array max_items must be greater than zero")⟩
  else
    { locked := true
      body := do
        let b ← existing id
        let items := appendedItems (metadataItems b key) item maxItems
        let metadata := Json.object (Json.insertField key (.array items) (metadataFields b))
        let answer ← updateWithEmit id { metadata := some metadata } now
        return do return .binding (← answer) }

/-! ## plans -/

def leaderSession (sessionId : Option String) : AppResult String :=
  match cleanOptional sessionId with
  | some sessionId => .ok sessionId
  | none => .error (failure ("Plan leader requires sessionId; read CC_PANES_PTY_SESSION_ID from " ++
      "the current CC-Panes-launched session before calling register_plan_leader"))

def newLeader (req : RegisterPlanLeaderRequest) (plan normalized project session : String) :
    CreateTaskBindingRequest where
  title := req.title.getD ("Plan: " ++ planFileName plan)
  role := some .leader
  planPath := some plan
  normalizedPlanPath := some normalized
  prompt := req.prompt
  sessionId := some session
  resumeId := req.resumeId
  paneId := req.paneId
  tabId := req.tabId
  projectPath := project
  workspaceName := req.workspaceName
  cliTool := req.cliTool.or (some "claude")
  metadata := req.metadata

def knownLeader (req : RegisterPlanLeaderRequest) (plan normalized session : String) :
    UpdateTaskBindingRequest where
  title := req.title
  role := some .leader
  planPath := some plan
  normalizedPlanPath := some normalized
  prompt := req.prompt
  sessionId := some session
  resumeId := req.resumeId
  paneId := req.paneId
  tabId := req.tabId
  metadata := req.metadata

def createRunning (req : CreateTaskBindingRequest) (id : String) (created updated : Nat) :
    Program (Answer Response) := do
  let b ← createWithEmit req id created
  let answer ← updateWithEmit b.id { status := some .running } updated
  return do return .binding (← answer)

def registerPlanLeader (req : RegisterPlanLeaderRequest) (id : String) (created updated : Nat) :
    ServiceCall where
  locked := false
  body := do
    let plan := trim req.planPath
    let project := trim req.projectPath
    if plan = "" then .fail (failure "planPath cannot be empty")
    else if project = "" then .fail (failure "projectPath cannot be empty")
    else
      let session ← liftResult (leaderSession req.sessionId)
      match ← findLeader (normalizePlanPath plan) (some project) with
      | some b =>
        let answer ← updateWithEmit b.id
          (knownLeader req plan (normalizePlanPath plan) session) updated
        return do return .binding (← answer)
      | none =>
        createRunning (newLeader req plan (normalizePlanPath plan) project session) id created
          updated

def workerTool (req : RegisterPlanWorkerRequest) : String := (cleanOptional req.cliTool).getD "codex"

def workerTitle (req : RegisterPlanWorkerRequest) : String :=
  req.title.getD ("Worker: " ++ workerTool req)

def newWorker (req : RegisterPlanWorkerRequest) (leaderId plan : String) :
    CreateTaskBindingRequest where
  title := workerTitle req
  role := some .worker
  parentId := some leaderId
  planPath := some plan
  normalizedPlanPath := some (normalizePlanPath plan)
  prompt := req.prompt
  sessionId := some req.sessionId
  resumeId := req.resumeId
  paneId := req.paneId
  tabId := req.tabId
  projectPath := req.projectPath
  workspaceName := req.workspaceName
  cliTool := some (workerTool req)
  workerKind := normalizeWorkerKind req.workerKind
  metadata := req.metadata

def knownWorker (req : RegisterPlanWorkerRequest) (leaderId plan : String) :
    UpdateTaskBindingRequest where
  title := some (workerTitle req)
  role := some .worker
  parentId := some leaderId
  planPath := some plan
  normalizedPlanPath := some (normalizePlanPath plan)
  prompt := req.prompt
  sessionId := some req.sessionId
  resumeId := req.resumeId
  paneId := req.paneId
  tabId := req.tabId
  status := some .running
  workerKind := normalizeWorkerKind req.workerKind
  metadata := req.metadata

def findWorker (leaderId sessionId : String) (resumeId : Option String) :
    Program (Option TaskBinding) := find (.findWorkerForRegistration leaderId sessionId resumeId)

def registerPlanWorker (req : RegisterPlanWorkerRequest) (id : String) (created updated : Nat) :
    ServiceCall where
  locked := false
  body := do
    let leader ← resolveLeader
      { leaderId := req.leaderId
        planPath := req.planPath
        normalizedPlanPath := req.planPath.map normalizePlanPath }
    match req.planPath.or leader.planPath with
    | none => .fail (failure "Plan worker requires planPath or a leader with planPath")
    | some plan =>
      match ← findWorker leader.id req.sessionId req.resumeId with
      | some b =>
        let answer ← updateWithEmit b.id (knownWorker req leader.id plan) updated
        return do return .binding (← answer)
      | none => createRunning (newWorker req leader.id plan) id created updated

/-! ## reconciling a plan with the live sessions -/

def liveSession (live : List PlanLiveSession) (sessionId : String) : Option PlanLiveSession :=
  live.reverse.find? fun session => session.sessionId = sessionId

def entryFromBinding (live : List PlanLiveSession) (verbose : Bool) (b : TaskBinding) :
    PlanCollaborationEntry :=
  let session := b.sessionId.bind (liveSession live)
  { id := b.id
    title := b.title
    role := b.role
    parentId := b.parentId
    planPath := b.planPath
    normalizedPlanPath := b.normalizedPlanPath
    projectPath := b.projectPath
    workspaceName := b.workspaceName
    cliTool := b.cliTool
    status := b.status
    progress := b.progress
    workerKind := b.workerKind
    sessionId := b.sessionId
    resumeId := b.resumeId
    paneId := b.paneId
    tabId := b.tabId
    isLive := session.isSome
    canRelaunch := b.resumeId.isSome || b.planPath.isSome || b.prompt.isSome
    livePaneId := session.bind (·.paneId)
    liveTabId := session.bind (·.tabId)
    prompt := if verbose then b.prompt else none
    completionSummary := if verbose then b.completionSummary else none
    metadata := if verbose then b.metadata else none
    createdAt := b.createdAt
    updatedAt := b.updatedAt }

def collaborationFromBindings (live : List PlanLiveSession) (verbose : Bool) (leader : TaskBinding)
    (workers : List TaskBinding) : PlanCollaboration where
  leader := entryFromBinding live verbose leader
  workers := workers.map (entryFromBinding live verbose)
  total := workers.length

/-- what reconciling does to a binding as it was read -/
def reconcileUpdate (live : List PlanLiveSession) (b : TaskBinding) :
    Option UpdateTaskBindingRequest :=
  match b.sessionId with
  | none => none
  | some sessionId =>
    match liveSession live sessionId with
    | some session =>
      if session.paneId ≠ b.paneId ∨ session.tabId ≠ b.tabId then
        some { paneId := session.paneId, tabId := session.tabId }
      else none
    | none =>
      if b.role = .worker ∧ b.status = .running then some { status := some .waiting } else none

def reconcileEach (live : List PlanLiveSession) (clock : String → Nat) :
    List TaskBinding → Program Unit
  | [] => return ()
  | b :: bs =>
    match reconcileUpdate live b with
    | none => reconcileEach live clock bs
    | some req => do
      let _ ← write (.update b.id req (clock b.id))
      reconcileEach live clock bs

def findWorkers (leaderId : String) : Program (List TaskBinding) := find (.findWorkersOf leaderId)

def refreshedWorkers (leaderId : String) : Answer (List TaskBinding) :=
  again (.findWorkersOf leaderId)

/-- `clock id` is the time that the loop reads at the binding `id` -/
def reconcilePlanCollaboration (key : PlanCollaborationKey) (live : List PlanLiveSession)
    (verbose : Bool) (clock : String → Nat) : ServiceCall where
  locked := false
  body := do
    let leader ← resolveLeader key
    let workers ← findWorkers leader.id
    reconcileEach live clock (leader :: workers)
    return do
      match ← refreshed leader.id with
      | none => Answer.fail "Plan leader disappeared during reconcile"
      | some leader =>
        let workers ← refreshedWorkers leader.id
        return .collaboration (collaborationFromBindings live verbose leader workers)

inductive Request where
  | recordTerminalExit (sessionId : String) (exitCode : Int) (now : Nat)
  | update (id : String) (req : UpdateTaskBindingRequest) (now : Nat)
  | updateReturningPreviousStatus (id : String) (req : UpdateTaskBindingRequest) (now : Nat)
  | updatePatch (id : String) (patch : Json) (now : Nat)
  | appendMetadataArrayItem (id key : String) (item : Json) (maxItems now : Nat)
  | registerPlanLeader (req : RegisterPlanLeaderRequest) (id : String) (created updated : Nat)
  | registerPlanWorker (req : RegisterPlanWorkerRequest) (id : String) (created updated : Nat)
  | reconcilePlanCollaboration (key : PlanCollaborationKey) (live : List PlanLiveSession)
      (verbose : Bool) (clock : String → Nat)

def Request.call (serde : Serde) : Request → ServiceCall
  | .recordTerminalExit sessionId exitCode now =>
    TaskBindings.recordTerminalExit sessionId exitCode now
  | .update id req now => updateCall id req now
  | .updateReturningPreviousStatus id req now =>
    TaskBindings.updateReturningPreviousStatus id req now
  | .updatePatch id patch now => TaskBindings.updatePatch serde id patch now
  | .appendMetadataArrayItem id key item maxItems now =>
    TaskBindings.appendMetadataArrayItem id key item maxItems now
  | .registerPlanLeader req id created updated =>
    TaskBindings.registerPlanLeader req id created updated
  | .registerPlanWorker req id created updated =>
    TaskBindings.registerPlanWorker req id created updated
  | .reconcilePlanCollaboration key live verbose clock =>
    TaskBindings.reconcilePlanCollaboration key live verbose clock

end CcPanes.TaskBindings

import CcPanes.Foundation.Json
import CcPanes.TaskQueue.Models

/-!
# Data of the task bindings

The types of `models/task_binding.rs`, and the functions of `task_binding_service.rs` that clean the
values of a request: `normalize_plan_path`, `plan_file_name`, `clean_optional` and
`normalize_worker_kind`.

A row is the value that it encodes: the text columns of the enumerations are the enumerations (the
old text `child` is a worker), and the JSON column is the value.  Only the order of the times is
used, so a time is a natural number.
-/

namespace CcPanes.TaskBindings

inductive TaskBindingStatus where
  | pending | running | waiting | completed | failed
  deriving DecidableEq

inductive TaskBindingRole where
  | task | leader | worker
  deriving DecidableEq

structure TaskBinding where
  id : String
  title : String
  role : TaskBindingRole
  parentId : Option String := none
  planPath : Option String := none
  normalizedPlanPath : Option String := none
  prompt : Option String := none
  sessionId : Option String := none
  resumeId : Option String := none
  paneId : Option String := none
  tabId : Option String := none
  todoId : Option String := none
  projectPath : String
  workspaceName : Option String := none
  cliTool : String
  status : TaskBindingStatus
  progress : Int := 0
  completionSummary : Option String := none
  exitCode : Option Int := none
  sortOrder : Int := 0
  workerKind : Option String := none
  metadata : Option Json := none
  createdAt : Nat
  updatedAt : Nat
  deriving DecidableEq

structure CreateTaskBindingRequest where
  title : String
  role : Option TaskBindingRole := none
  parentId : Option String := none
  planPath : Option String := none
  normalizedPlanPath : Option String := none
  prompt : Option String := none
  sessionId : Option String := none
  resumeId : Option String := none
  paneId : Option String := none
  tabId : Option String := none
  todoId : Option String := none
  projectPath : String
  workspaceName : Option String := none
  cliTool : Option String := none
  workerKind : Option String := none
  metadata : Option Json := none

structure UpdateTaskBindingRequest where
  title : Option String := none
  role : Option TaskBindingRole := none
  parentId : Option String := none
  planPath : Option String := none
  normalizedPlanPath : Option String := none
  prompt : Option String := none
  sessionId : Option String := none
  resumeId : Option String := none
  paneId : Option String := none
  tabId : Option String := none
  status : Option TaskBindingStatus := none
  progress : Option Int := none
  completionSummary : Option String := none
  exitCode : Option Int := none
  sortOrder : Option Int := none
  workerKind : Option String := none
  metadata : Option Json := none
  deriving DecidableEq

structure RegisterPlanLeaderRequest where
  planPath : String
  projectPath : String
  title : Option String := none
  prompt : Option String := none
  sessionId : Option String := none
  resumeId : Option String := none
  paneId : Option String := none
  tabId : Option String := none
  workspaceName : Option String := none
  cliTool : Option String := none
  metadata : Option Json := none

structure RegisterPlanWorkerRequest where
  leaderId : Option String := none
  planPath : Option String := none
  sessionId : String
  projectPath : String
  title : Option String := none
  prompt : Option String := none
  resumeId : Option String := none
  paneId : Option String := none
  tabId : Option String := none
  workspaceName : Option String := none
  cliTool : Option String := none
  workerKind : Option String := none
  metadata : Option Json := none

structure PlanCollaborationKey where
  leaderId : Option String := none
  planPath : Option String := none
  normalizedPlanPath : Option String := none

structure PlanLiveSession where
  sessionId : String
  paneId : Option String := none
  tabId : Option String := none

/-- one binding of a plan, with where its session is live -/
structure PlanCollaborationEntry where
  id : String
  title : String
  role : TaskBindingRole
  parentId : Option String
  planPath : Option String
  normalizedPlanPath : Option String
  projectPath : String
  workspaceName : Option String
  cliTool : String
  status : TaskBindingStatus
  progress : Int
  workerKind : Option String
  sessionId : Option String
  resumeId : Option String
  paneId : Option String
  tabId : Option String
  isLive : Bool
  canRelaunch : Bool
  livePaneId : Option String
  liveTabId : Option String
  prompt : Option String
  completionSummary : Option String
  metadata : Option Json
  createdAt : Nat
  updatedAt : Nat

structure PlanCollaboration where
  leader : PlanCollaborationEntry
  workers : List PlanCollaborationEntry
  total : Nat

/-! ## the values of a request -/

def cleanOptional (value : Option String) : Option String :=
  (value.map trim).filter fun value => value ≠ ""

def normalizeWorkerKind (value : Option String) : Option String :=
  (cleanOptional value).filter fun value => value = "reviewer"

def slashes (path : List Char) : List Char := path.map fun c => if c = '\\' then '/' else c

/-- `contains("//")` -/
def containsDouble : List Char → Bool
  | '/' :: '/' :: _ => true
  | _ :: cs => containsDouble cs
  | [] => false

/-- `replace("//", "/")` -/
def replaceDouble : List Char → List Char
  | '/' :: '/' :: cs => '/' :: replaceDouble cs
  | c :: cs => c :: replaceDouble cs
  | [] => []

theorem replaceDouble_length_le (cs : List Char) : (replaceDouble cs).length ≤ cs.length := by
  fun_induction replaceDouble cs with
  | case1 cs ih => exact Nat.succ_le_succ (Nat.le_succ_of_le ih)
  | case2 c cs _ ih => exact Nat.succ_le_succ ih
  | case3 => exact Nat.le_refl 0

theorem replaceDouble_length_lt (cs : List Char) (h : containsDouble cs = true) :
    (replaceDouble cs).length < cs.length := by
  fun_induction replaceDouble cs with
  | case1 cs ih => exact Nat.succ_lt_succ (Nat.lt_succ_of_le (replaceDouble_length_le cs))
  | case2 c cs hne ih =>
    refine Nat.succ_lt_succ (ih ?_)
    rw [containsDouble] at h
    · exact h
    · exact hne
  | case3 => cases h

/-- the loop that leaves no two slashes in a row -/
def collapseSlashes (cs : List Char) : List Char :=
  if _h : containsDouble cs then collapseSlashes (replaceDouble cs) else cs
termination_by cs.length
decreasing_by exact replaceDouble_length_lt cs ‹_›

def trimEndSlashes (cs : List Char) : List Char :=
  (cs.reverse.dropWhile fun c => c = '/').reverse

/-- after `/mnt/`: one letter and the rest of the path are a path of that drive -/
def drivePath : List Char → Option (List Char)
  | drive :: '/' :: rest => if drive.isAlpha then some (drive :: ':' :: '/' :: rest) else none
  | _ => none

/-- what follows the first `/mnt/` -/
def afterMnt : List Char → Option (List Char)
  | '/' :: 'm' :: 'n' :: 't' :: '/' :: rest => some rest
  | _ :: cs => afterMnt cs
  | [] => none

def startsWithDrive : List Char → Bool
  | c :: ':' :: '/' :: _ => c.toNat < 128
  | _ => false

def normalizePlanPath (path : String) : String :=
  let normalized := trimEndSlashes (collapseSlashes (slashes (trim path).toList))
  let lower := normalized.map Char.toLower
  String.ofList <|
    match (afterMnt lower).bind drivePath with
    | some path => path
    | none => if startsWithDrive lower then lower else normalized

def planFileName (path : String) : String :=
  let name := ((slashes path.toList).reverse.takeWhile fun c => c ≠ '/').reverse
  if name.isEmpty then "plan.md" else String.ofList name

end CcPanes.TaskBindings

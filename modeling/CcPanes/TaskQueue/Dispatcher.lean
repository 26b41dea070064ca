import CcPanes.Foundation.Interleaving
import CcPanes.Session.StateMachine
import CcPanes.TaskQueue.PromptDelivery
import CcPanes.TaskQueue.Repository

/-!
# The task queue dispatcher

`TaskQueueDispatcher::check_session` of `task_queue_dispatcher.rs`, one repository transaction or
one gateway call at a time.  An execution is a thread: `DispatchPc` is the next thing it does, with
what it has read so far.  What the backend, the state machine and the file system answer is the
argument `Answers` of the step, and a `Uuid` is never used twice.
-/

namespace CcPanes

open Interleaving

/-! ## gateway -/

inductive TaskQueueReadiness where
  | ready
  | globalDisabled
  | confirmingIdle
  | waitingInput
  | automaticWriteUnavailable
  | sessionError
  | sessionExited
  deriving DecidableEq

inductive AutomaticWriteAuthority where
  | exclusiveInProcess
  | enforcedLease (ownerInstanceId : String)
  | unavailable
  deriving DecidableEq

/-- what is answered while a step runs: the status of the session that is effective for automatic
submits, the authority to write, the paths of the images, a fresh `Uuid`, and the submit -/
structure Answers where
  effective : AppResult (Option SessionStatus)
  authority : AppResult AutomaticWriteAuthority
  imagePaths : AppResult (List String)
  uuid : String
  submit : AppResult Unit

def Answers.readiness (a : Answers) : AppResult TaskQueueReadiness := do
  match ← a.effective with
  | none => .ok .sessionExited
  | some .idle =>
    match ← a.authority with
    | .unavailable => .ok .automaticWriteUnavailable
    | _ => .ok .ready
  | some .waitingInput => .ok .waitingInput
  | some .error => .ok .sessionError
  | some .exited => .ok .sessionExited
  | some _ => .ok .confirmingIdle

def composePrompt (imagePaths : List String) (text : String) : String :=
  let imagePart := " ".intercalate imagePaths
  let text := trim text
  if imagePart ≠ "" ∧ text ≠ "" then imagePart ++ "\n" ++ text
  else if imagePart ≠ "" then imagePart
  else text

def effectivePrompt (sessionId : String) (item : TaskQueueItem)
    (imagePaths : AppResult (List String)) : AppResult String :=
  if item.sessionId ≠ sessionId then
    .error (.coded "IMAGE_REF_INVALID" "Queued task belongs to another terminal session")
  else do
    let paths ← imagePaths
    .ok (composePrompt paths item.text)

/-! ## dispatcher -/

inductive TaskQueueDispatchOutcome where
  | noop
  | blocked (readiness : TaskQueueReadiness)
  | submitted (itemId : String)
  | requeued (itemId : String) (readiness : TaskQueueReadiness)
  | failed (itemId : String)
  | deliveryUnknown (itemId : String)

/-- the arguments of a call of `check_session` -/
structure CheckSession where
  sessionId : String
  now : Int

inductive DispatchPc where
  | runtime
  | snapshot (generation : Nat)
  | readiness (generation : Nat)
  | persistBlocked (readiness : TaskQueueReadiness)
  | claimNext (generation : Nat)
  | runtimeBlocker (claim : TaskQueueClaim)
  | secondReadiness (claim : TaskQueueClaim)
  | effectivePrompt (claim : TaskQueueClaim)
  | secondBlocker (claim : TaskQueueClaim) (prompt : String)
  | submitReadiness (claim : TaskQueueClaim) (prompt : String)
  | submitText (claim : TaskQueueClaim) (prompt : String)
  | submitting (claim : TaskQueueClaim) (prompt : String)
  | markSubmitStarted (claim : TaskQueueClaim)
  | completeSnapshot (claim : TaskQueueClaim)
  | completeClaim (claim : TaskQueueClaim)
  | requeueClaim (claim : TaskQueueClaim) (readiness : TaskQueueReadiness)
  | persistRequeued (claim : TaskQueueClaim) (readiness : TaskQueueReadiness)
  | failClaim (claim : TaskQueueClaim) (error : AppError)
  | markDeliveryUnknown (claim : TaskQueueClaim) (error : AppError)
  | done (result : AppResult TaskQueueDispatchOutcome)

/-- the database, the uuids handed out so far, and what happened to which session -/
structure DispatchShared where
  db : TaskQueueDb
  used : List String
  history : List (String × Entry)

namespace DispatchShared

/-- a transaction of an execution, which ends with the error if there is one -/
def transact {α : Type} (s : DispatchShared) (r : AppResult (α × TaskQueueDb))
    (next : α → DispatchPc) : DispatchShared × DispatchPc :=
  match r with
  | .ok (a, db) => ({ s with db := db }, next a)
  | .error e => (s, .done (.error e))

end DispatchShared

/-- the status `persist_readiness` stores -/
def persistedStatus : TaskQueueReadiness → Option (TaskQueueState × Option TaskQueueReason)
  | .ready => some (.running, none)
  | .globalDisabled => none
  | .confirmingIdle => some (.confirmingIdle, none)
  | .waitingInput => some (.actionRequired, some .waitingInput)
  | .automaticWriteUnavailable => some (.actionRequired, some .automaticWriteUnavailable)
  | .sessionError => some (.actionRequired, some .sessionError)
  | .sessionExited => some (.sessionEnded, some .sessionExited)

def persistReadiness (db : TaskQueueDb) (sessionId : String) (readiness : TaskQueueReadiness)
    (now : Int) : AppResult (Unit × TaskQueueDb) :=
  match persistedStatus readiness with
  | none => .ok ((), db)
  | some (state, reason) => do
    let (_, db) ← db.setRuntimeStatus sessionId state reason now
    .ok ((), db)

def runtimeBlocker (db : TaskQueueDb) (dispatchGeneration : Nat) :
    AppResult (Option TaskQueueReadiness) := do
  let runtime ← db.readRuntime
  if !runtime.enabled then .ok (some .globalDisabled)
  else if runtime.dispatchGeneration ≠ dispatchGeneration then .ok (some .confirmingIdle)
  else .ok none

def claimConflict (text : String) : DispatchPc :=
  .done (.error (.coded "QUEUE_CLAIM_CONFLICT" text))

/-- where an execution goes on with the answer of a read -/
def proceed {α : Type} (r : AppResult α) (next : α → DispatchPc) : DispatchPc :=
  match r with
  | .ok a => next a
  | .error e => .done (.error e)

/-- one step of `check_session` -/
def checkSession (call : CheckSession) (a : Answers) (s : DispatchShared) :
    DispatchPc → DispatchShared × DispatchPc
  | .runtime => (s, proceed s.db.readRuntime fun runtime =>
      if !runtime.enabled then .done (.ok (.blocked .globalDisabled))
      else .snapshot runtime.dispatchGeneration)
  | .snapshot generation => s.transact (s.db.snapshot call.sessionId) fun snapshot =>
      match snapshot.items.head? with
      | none => .done (.ok .noop)
      | some head =>
        if snapshot.paused || head.state ≠ .queued then .done (.ok .noop)
        else .readiness generation
  | .readiness generation => (s, proceed a.readiness fun readiness =>
      if readiness ≠ .ready then .persistBlocked readiness else .claimNext generation)
  | .persistBlocked readiness =>
    s.transact (persistReadiness s.db call.sessionId readiness call.now) fun _ =>
      .done (.ok (.blocked readiness))
  | .claimNext generation =>
    if a.uuid ∈ s.used then (s, .claimNext generation)
    else
      let s := { s with used := a.uuid :: s.used }
      s.transact (s.db.claimNext call.sessionId generation a.uuid call.now) fun
        | none => .done (.ok .noop)
        | some claim => .runtimeBlocker claim
  | .runtimeBlocker claim => (s, proceed (runtimeBlocker s.db claim.dispatchGeneration) fun
      | some readiness =>
        if readiness ≠ .ready then .requeueClaim claim readiness else .effectivePrompt claim
      | none => .secondReadiness claim)
  | .secondReadiness claim => (s, proceed a.readiness fun readiness =>
      if readiness ≠ .ready then .requeueClaim claim readiness else .effectivePrompt claim)
  | .effectivePrompt claim => (s,
      match CcPanes.effectivePrompt call.sessionId claim.item a.imagePaths with
      | .ok prompt => .secondBlocker claim prompt
      | .error error => .failClaim claim error)
  | .secondBlocker claim prompt => (s, proceed (runtimeBlocker s.db claim.dispatchGeneration) fun
      | some readiness => .requeueClaim claim readiness
      | none => .submitReadiness claim prompt)
  | .submitReadiness claim prompt => (s,
      match a.readiness with
      | .error error => .failClaim claim error
      | .ok readiness =>
        if readiness ≠ .ready then .requeueClaim claim readiness else .submitText claim prompt)
  | .submitText claim prompt =>
    ({ s with history := s.history ++ [(call.sessionId, .submitted claim.item.id)] },
      .submitting claim prompt)
  | .submitting claim _ => (s,
      match a.submit with
      | .ok () => .markSubmitStarted claim
      | .error error => .markDeliveryUnknown claim error)
  | .markSubmitStarted claim => (s, .completeSnapshot claim)
  | .completeSnapshot claim => s.transact (s.db.snapshot call.sessionId) fun _ =>
      .completeClaim claim
  | .completeClaim claim =>
    s.transact (s.db.completeClaim call.sessionId claim.item.id claim.token call.now) fun
      | true => .done (.ok (.submitted claim.item.id))
      | false => claimConflict "Acknowledged task queue claim is no longer current"
  | .requeueClaim claim readiness =>
    s.transact (s.db.returnClaimToQueue call.sessionId claim.item.id claim.token call.now) fun
      | true => .persistRequeued claim readiness
      | false => claimConflict "Task queue claim is no longer current"
  | .persistRequeued claim readiness =>
    s.transact (persistReadiness s.db call.sessionId readiness call.now) fun _ =>
      .done (.ok (.requeued claim.item.id readiness))
  | .failClaim claim error =>
    s.transact (s.db.failClaim call.sessionId claim.item.id claim.token
        (error.code.getD "SUBMIT_FAILED") error.text call.now) fun
      | true => .done (.ok (.failed claim.item.id))
      | false => claimConflict "Failed task queue claim is no longer current"
  | .markDeliveryUnknown claim error =>
    s.transact (s.db.markDeliveryUnknown call.sessionId claim.item.id claim.token error.text
        call.now) fun
      | true => .done (.ok (.deliveryUnknown claim.item.id))
      | false => claimConflict "Unknown-delivery task queue claim is no longer current"
  | .done result => (s, .done result)

inductive UserOp where
  | snapshot (sid : String)
  | addItem (sid : String) (draft : TaskQueueItemDraft) (id : String) (now : Int)
  | deleteItem (sid itemId : String) (now : Int)
  | clearQueue (sid : String) (now : Int)
  | updateControl (sid : String) (patch : TaskQueueControlPatch) (now : Int)
  | retryItem (sid itemId : String) (now : Int)
  | setGlobalEnabled (enabled : Bool) (now : Int)

/-- a transaction of a user, recorded if it succeeds -/
def DispatchShared.perform {α : Type} (s : DispatchShared) (r : AppResult (α × TaskQueueDb))
    (entry : Option (String × Entry)) : DispatchShared :=
  match r with
  | .ok (_, db) => { s with db := db, history := s.history ++ entry.toList }
  | .error _ => s

def userStep (s : DispatchShared) : UserOp → DispatchShared
  | .snapshot sid => s.perform (s.db.snapshot sid) none
  | .addItem sid draft id now =>
    if id ∈ s.used then s
    else
      let s := { s with used := id :: s.used }
      s.perform (s.db.addItem sid draft id now) (some (sid, .added id))
  | .deleteItem sid itemId now => s.perform (s.db.deleteItem sid itemId now) none
  | .clearQueue sid now => s.perform (s.db.clearQueue sid now) none
  | .updateControl sid patch now => s.perform (s.db.updateControl sid patch now) none
  | .retryItem sid itemId now =>
    s.perform (s.db.retryItem sid itemId now) (some (sid, .retried itemId))
  | .setGlobalEnabled enabled now => s.perform (s.db.setGlobalEnabled enabled now) none

variable {ι : Type} [DecidableEq ι]

abbrev DispatchWorld (ι : Type) := World ι DispatchShared DispatchPc

def dispatchInit (start : Int) : DispatchWorld ι where
  shared := ⟨TaskQueueDb.init start, [], []⟩
  pc _ := .runtime

inductive DispatchAction (ι : Type) where
  | user (op : UserOp)
  | advance (i : ι) (a : Answers)
  | abort (i : ι) (error : AppError)
  | recoverInflight (now : Int)

/-- `calls i` are the arguments of the execution `i`; an execution aborts when the database cannot
be reached, or with its process -/
def dispatchStep (calls : ι → CheckSession) (w : DispatchWorld ι) :
    DispatchAction ι → DispatchWorld ι
  | .user op => { w with shared := userStep w.shared op }
  | .advance i a => stepThread (checkSession (calls i) a) w i
  | .abort i error => setPc w i (.done (.error error))
  | .recoverInflight now =>
    { w with shared := w.shared.perform (w.shared.db.recoverInflight now) none }

end CcPanes

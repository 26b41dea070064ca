import CcPanes.Foundation.CallProgram
import CcPanes.Media.MediaRuns
import CcPanes.TaskQueue.Models

/-!
# What is done with a media run

The functions of `MediaService` (`media_service.rs`) that touch a run, and a worker's processing of a
run that it has claimed (`MediaJobWorker` of `media_runtime.rs`), as programs whose calls are the
statements of the repository and the requests to the provider.  A call of the service that fails
ends the program, as `?` does.  A submit is two calls, its request and its answer, which may never
come.  What does not touch a run is a call that the environment answers: the lookup of the node, the
adapter and the request (`prepare`), and the writing of an output file (`persist`); the registration
in the cache is left out.
-/

namespace CcPanes

/-- an error of an adapter, whose code may be missing -/
structure ProviderError where
  code : Option String
  message : String
deriving DecidableEq

/-- why a run cannot be sent to its provider -/
inductive PrepareError where
  | profile (e : ProviderError)
  | registry (e : AppError)
  | adapter (e : ProviderError)
  | request (e : ProviderError)

abbrev RemoteOutput := String

/-- a job of the provider, as `submit` and `poll` report it -/
structure RemoteJob where
  id : String
  status : MediaRunStatus
  progress : Option Int
  outputs : List RemoteOutput
  error : Option ProviderError
deriving DecidableEq

inductive MediaCall where
  | getRun (id : String)
  | updateRunForOwnerFromStatus (id owner : String) (expected : MediaRunStatus)
      (req : UpdateMediaRunRequest)
  | updateRunFromStatus (id : String) (expected : MediaRunStatus) (req : UpdateMediaRunRequest)
  | renewRunLease (id owner : String) (leaseDuration : Nat)
  | clearRunLease (id owner : String)
  | retryRun (id : String)
  | updatePriority (id : String) (priority : Int)
  | findRunByRemoteJobId (providerId remoteJobId : String)
  | updateFromEvent (id providerId remoteJobId : String) (req : UpdateMediaRunRequest)
  | insertAssetForRunOwner (runId owner : String) (output : RemoteOutput) (assetId : String)
  | getNode (runId : String)
  | prepare (runId : String)
  | requireAdapter (runId : String)
  | submit (runId : String) (attempt : Nat)
  | submitAnswer (runId : String) (attempt : Nat)
  | poll (runId remoteJobId : String)
  | cancel (runId remoteJobId : String)
  | download (runId : String) (output : RemoteOutput)
  | persist (runId : String) (output : RemoteOutput)

abbrev MediaCall.Answer : MediaCall → Type
  | .getRun _ => Option MediaRun × Nat
  | .findRunByRemoteJobId _ _ => Option MediaRun
  | .submit _ _ => Unit
  | .submitAnswer _ _ | .poll _ _ => Except ProviderError RemoteJob
  | .prepare _ => Except PrepareError Unit
  | .requireAdapter _ | .cancel _ _ | .download _ _ => Except ProviderError Unit
  | .persist _ _ => Except AppError String
  | _ => Bool

abbrev MediaProgram := CallProgram MediaCall.Answer AppError

namespace MediaService

/-! ## checks -/

abbrev ask (c : MediaCall) : MediaProgram c.Answer := CallProgram.ask c

def raise {α : Type} (e : AppError) : MediaProgram α := .fail e

def ensure (cond : Bool) (e : AppError) : MediaProgram Unit := if cond then pure () else raise e

def isIdChar (c : Char) : Bool :=
  c.toNat < 128 && c.isAlphanum || c = '-' || c = '_' || c = '.'

def validId (value : String) : Bool :=
  let value := trim value
  value ≠ "" && value ≠ "." && value ≠ ".." && value.utf8ByteSize ≤ 256 &&
    value.toList.all isIdChar

def validLeaseOwner (owner : String) : Bool :=
  let owner := trim owner
  owner ≠ "" && owner.utf8ByteSize ≤ 128 && owner.toList.all isIdChar

def validProgress (progress : Option Int) : Bool :=
  progress.all fun value => 0 ≤ value && value ≤ 100

def validRemoteJobId (remoteJobId : String) : Bool :=
  trim remoteJobId ≠ "" && remoteJobId.utf8ByteSize ≤ 512

def statusText : MediaRunStatus → String
  | .queued => "queued"
  | .submitting => "submitting"
  | .processing => "processing"
  | .downloading => "downloading"
  | .canceling => "canceling"
  | .succeeded => "succeeded"
  | .failed => "failed"
  | .canceled => "canceled"

def leaseLost (message : String) : AppError := .coded "MEDIA_LEASE_LOST" message

def invalidTransition (status next : MediaRunStatus) : AppError :=
  .coded "MEDIA_INVALID_TRANSITION"
    ("cannot transition media run from " ++ statusText status ++ " to " ++ statusText next)

/-! ## the leased updates -/

/-- `get_run` of the repository; a run that is missing is an error -/
def requireRow (id message : String) : MediaProgram (MediaRun × Nat) := do
  let read : Option MediaRun × Nat ← ask (.getRun id)
  match read.1 with
  | none => raise (.coded "MEDIA_RUN_NOT_FOUND" message)
  | some run => pure (run, read.2)

/-- `get_run` of the service -/
def requireRun (id message : String) : MediaProgram (MediaRun × Nat) := do
  ensure (validId id) (.coded "MEDIA_ID_INVALID" "runId is invalid")
  requireRow id message

def renewRunLease (id owner : String) (leaseDuration : Nat) : MediaProgram MediaRun := do
  ensure (validId id) (.coded "MEDIA_ID_INVALID" "runId is invalid")
  ensure (validLeaseOwner owner) (.coded "MEDIA_LEASE_OWNER_INVALID" "lease owner cannot be empty")
  ensure (0 < leaseDuration) (.coded "MEDIA_LEASE_DURATION_INVALID" "lease duration must be positive")
  let changed : Bool ← ask (.renewRunLease id owner leaseDuration)
  if changed then do
    let (run, _) ← requireRun id "media run disappeared after lease renewal"
    ensure (run.heldBy owner) (leaseLost "media run lease is owned by another worker")
    pure run
  else do
    let _ ← requireRun id "media run not found"
    raise (leaseLost "media run lease is owned by another worker or has expired")

def clearRunLease (id owner : String) : MediaProgram Unit := do
  ensure (validId id) (.coded "MEDIA_ID_INVALID" "runId is invalid")
  ensure (validLeaseOwner owner) (.coded "MEDIA_LEASE_OWNER_INVALID" "lease owner is invalid")
  let (run, _) ← requireRun id "media run not found"
  ensure (run.heldBy owner) (leaseLost "media run lease is owned by another worker")
  let changed : Bool ← ask (.clearRunLease id owner)
  ensure changed (leaseLost "media run lease is no longer owned by this worker")

def ensureLiveLease (id owner : String) : MediaProgram Unit := do
  ensure (validId id) (.coded "MEDIA_ID_INVALID" "runId is invalid")
  ensure (validLeaseOwner owner) (.coded "MEDIA_LEASE_OWNER_INVALID" "lease owner is invalid")
  let (run, now) ← requireRun id "media run not found"
  ensure (run.heldBy owner && run.leaseLive now) (leaseLost "media run lease is no longer live")

def transitionRequest (next : MediaRunStatus) (progress : Option Int)
    (errorCode errorMessage : Option String) : UpdateMediaRunRequest where
  status := some next
  progress := some progress
  remoteJobId := none
  errorCode := some errorCode
  errorMessage := some errorMessage

/-- of the row as it was read; `update` is fenced for a worker, and not for a user -/
def transitionRunWithUpdate (id : String) (next : MediaRunStatus) (progress : Option Int)
    (errorCode errorMessage : Option String) (lost : AppError)
    (update : MediaRunStatus → UpdateMediaRunRequest → MediaProgram Bool) :
    MediaProgram MediaRun := do
  let (existing, _) ← requireRow id "media run not found"
  ensure (existing.status.canTransitionTo next) (invalidTransition existing.status next)
  ensure (validProgress progress) (.coded "MEDIA_PROGRESS_INVALID" "progress must be 0..100")
  let changed ← update existing.status (transitionRequest next progress errorCode errorMessage)
  ensure changed lost
  let (run, _) ← requireRun id "media run disappeared"
  pure run

def transitionRun (id : String) (next : MediaRunStatus) (progress : Option Int)
    (errorCode errorMessage : Option String) : MediaProgram MediaRun :=
  transitionRunWithUpdate id next progress errorCode errorMessage
    (.coded "MEDIA_RUN_NOT_FOUND" "media run not found")
    fun expected req => ask (.updateRunFromStatus id expected req)

def transitionRunForOwner (id owner : String) (next : MediaRunStatus) (progress : Option Int)
    (errorCode errorMessage : Option String) : MediaProgram MediaRun := do
  ensureLiveLease id owner
  transitionRunWithUpdate id next progress errorCode errorMessage
    (leaseLost "media run lease is no longer owned by this worker")
    fun expected req => ask (.updateRunForOwnerFromStatus id owner expected req)

def recordRequest (next : MediaRunStatus) (remoteJobId : String) (progress : Option Int) :
    UpdateMediaRunRequest where
  status := some next
  progress := some progress
  remoteJobId := some (some remoteJobId)
  errorCode := none
  errorMessage := none

def recordRemoteJob (id owner remoteJobId : String) (next : MediaRunStatus)
    (progress : Option Int) : MediaProgram MediaRun := do
  ensure (validId id) (.coded "MEDIA_ID_INVALID" "runId is invalid")
  ensure (validLeaseOwner owner) (.coded "MEDIA_LEASE_OWNER_INVALID" "lease owner is invalid")
  ensure (validRemoteJobId remoteJobId)
    (.coded "MEDIA_REMOTE_JOB_INVALID" "provider returned an invalid remote job id")
  let (existing, now) ← requireRun id "media run not found"
  ensure (existing.heldBy owner) (leaseLost "media run lease is owned by another worker")
  ensure (existing.leaseLive now) (leaseLost "media run lease has expired")
  ensure (existing.status.canTransitionTo next) (invalidTransition existing.status next)
  ensure (validProgress progress) (.coded "MEDIA_PROGRESS_INVALID" "progress must be 0..100")
  let changed : Bool ← ask (.updateRunForOwnerFromStatus id owner existing.status
    (recordRequest next remoteJobId progress))
  ensure changed (leaseLost "media run lease is no longer owned by this worker")
  let (run, _) ← requireRun id "media run disappeared"
  pure run

/-- the id of the asset that is linked to the run -/
def persistProviderOutputForOwner (runId owner : String) (output : RemoteOutput) :
    MediaProgram String := do
  ensureLiveLease runId owner
  let written : Except AppError String ← ask (.persist runId output)
  match written with
  | .error e => raise e
  | .ok assetId => do
    let inserted : Bool ← ask (.insertAssetForRunOwner runId owner output assetId)
    ensure inserted (leaseLost "media run lease is no longer owned by this worker")
    pure assetId

def cancelRun (id : String) : MediaProgram MediaRun := do
  let (run, _) ← requireRun id "media run not found"
  if run.status.isTerminal then pure run
  else
    let next := if run.status = .queued then MediaRunStatus.canceled else .canceling
    transitionRun id next run.progress none none

def retryRun (id : String) : MediaProgram MediaRun := do
  let (run, _) ← requireRun id "media run not found"
  ensure (run.status = .failed || run.status = .canceled)
    (.coded "MEDIA_RETRY_NOT_ALLOWED" "only failed or canceled media runs can be retried")
  let changed : Bool ← ask (.retryRun id)
  ensure changed (.coded "MEDIA_RETRY_CONFLICT" "media run changed before it could be retried")
  let (run, _) ← requireRun id "media run disappeared"
  pure run

def setPriority (id : String) (priority : Int) : MediaProgram MediaRun := do
  ensure (validId id) (.coded "MEDIA_ID_INVALID" "runId is invalid")
  ensure (-100 ≤ priority && priority ≤ 100)
    (.coded "MEDIA_PRIORITY_INVALID" "media priority must be between -100 and 100")
  let (run, _) ← requireRun id "media run not found"
  ensure (run.status = .queued)
    (.coded "MEDIA_PRIORITY_NOT_ALLOWED" "only queued media runs can change priority")
  let changed : Bool ← ask (.updatePriority id priority)
  ensure changed
    (.coded "MEDIA_PRIORITY_CONFLICT" "media run changed before priority could be updated")
  let (run, _) ← requireRun id "media run disappeared after priority update"
  pure run

def nextProgress : Option Int → Option Int → Option Int
  | some current, some next => some (max current next)
  | none, some next => some next
  | current, none => current

def eventRequest (existing : MediaRun) (progress : Option Int)
    (errorCode errorMessage : Option String) : UpdateMediaRunRequest where
  status := none
  progress :=
    if nextProgress existing.progress progress = existing.progress then none
    else some (nextProgress existing.progress progress)
  remoteJobId := none
  errorCode := errorCode.map some
  errorMessage := errorMessage.map some

def applyProviderEvent (providerId remoteJobId : String) (progress : Option Int)
    (errorCode errorMessage : Option String) : MediaProgram (Option MediaRun) := do
  ensure (validId providerId) (.coded "MEDIA_ID_INVALID" "providerId is invalid")
  ensure (validId remoteJobId) (.coded "MEDIA_ID_INVALID" "remoteJobId is invalid")
  ensure (validProgress progress) (.coded "MEDIA_PROGRESS_INVALID" "progress must be 0..100")
  ensure (errorCode.all fun value => value ≠ "" && value.utf8ByteSize ≤ 128)
    (.coded "MEDIA_EVENT_INVALID" "provider event error code is invalid")
  ensure (errorMessage.all fun value => value.utf8ByteSize ≤ 4096)
    (.coded "MEDIA_EVENT_INVALID" "provider event error message is too long")
  let found : Option MediaRun ← ask (.findRunByRemoteJobId providerId remoteJobId)
  match found with
  | none => pure none
  | some existing =>
    if existing.status.isTerminal then pure (some existing)
    else do
      let _ : Bool ← ask (.updateFromEvent existing.id providerId remoteJobId
        (eventRequest existing progress errorCode errorMessage))
      let read : Option MediaRun × Nat ← ask (.getRun existing.id)
      pure read.1

end MediaService

namespace MediaJobWorker
open MediaService

/-! ## the worker -/

def clearLease (owner id : String) : MediaProgram MediaRun := do
  clearRunLease id owner
  let (run, _) ← requireRun id "media run disappeared"
  pure run

def failRun (owner runId code message : String) : MediaProgram MediaRun := do
  let (run, _) ← requireRun runId "media run not found"
  let failed ← transitionRunForOwner runId owner .failed run.progress (some code) (some message)
  clearLease owner failed.id

def failWith (owner runId code : String) (e : ProviderError) : MediaProgram MediaRun :=
  failRun owner runId (e.code.getD code) e.message

def failJob (owner runId message : String) (e : Option ProviderError) : MediaProgram MediaRun :=
  failRun owner runId ((e.bind ProviderError.code).getD "MEDIA_PROVIDER_FAILED")
    ((e.map ProviderError.message).getD message)

def finishCancel (owner : String) (run : MediaRun) : MediaProgram MediaRun := do
  let canceled ← transitionRunForOwner run.id owner .canceled run.progress none none
  clearLease owner canceled.id

def cancelClaimed (owner : String) (run : MediaRun) : MediaProgram MediaRun :=
  match run.remoteJobId with
  | none => finishCancel owner run
  | some remoteJobId => do
    let answer : Except ProviderError Unit ← ask (.cancel run.id remoteJobId)
    match answer with
    | .error e => failWith owner run.id "MEDIA_PROVIDER_CANCEL" e
    | .ok () => finishCancel owner run

def downloadOutputs (owner : String) (leaseDuration : Nat) (runId : String) :
    List RemoteOutput → MediaProgram MediaRun
  | [] => do
    let succeeded ← transitionRunForOwner runId owner .succeeded (some 100) none none
    clearLease owner succeeded.id
  | output :: outputs => do
    let _ ← renewRunLease runId owner leaseDuration
    let answer : Except ProviderError Unit ← ask (.download runId output)
    match answer with
    | .error e => failWith owner runId "MEDIA_PROVIDER_DOWNLOAD" e
    | .ok () => do
      let _ ← persistProviderOutputForOwner runId owner output
      downloadOutputs owner leaseDuration runId outputs

def finishSuccess (owner : String) (leaseDuration : Nat) (runId : String) (status : RemoteJob) :
    MediaProgram MediaRun :=
  if status.outputs.isEmpty then
    failRun owner runId "MEDIA_PROVIDER_EMPTY_OUTPUT" "provider returned no media outputs"
  else do
    let downloading ← transitionRunForOwner runId owner .downloading (some 95) none none
    let read : Option MediaRun × Nat ← ask (.getRun runId)
    ensure read.1.isSome (.coded "MEDIA_NODE_NOT_FOUND" "media node not found")
    let node : Bool ← ask (.getNode runId)
    ensure node (.coded "MEDIA_NODE_NOT_FOUND" "media node not found")
    match downloading.providerId with
    | none => failRun owner runId "MEDIA_PROVIDER_REQUIRED" "media provider missing"
    | some _ => do
      let adapter : Except ProviderError Unit ← ask (.requireAdapter runId)
      match adapter with
      | .error e => failWith owner runId "MEDIA_PROVIDER_NOT_FOUND" e
      | .ok () => downloadOutputs owner leaseDuration runId status.outputs

/-- what becomes of the answer to `poll` -/
def settle (owner : String) (leaseDuration : Nat) (runId : String) (status : RemoteJob) :
    MediaProgram MediaRun :=
  match status.status with
  | .succeeded => finishSuccess owner leaseDuration runId status
  | .failed => failJob owner runId "provider reported a failed media job" status.error
  | .canceled => do
    let canceled ← transitionRunForOwner runId owner .canceled status.progress none none
    clearLease owner canceled.id
  | _ => do
    let processing ← transitionRunForOwner runId owner .processing status.progress none none
    renewRunLease processing.id owner leaseDuration

def trackRemote (owner : String) (leaseDuration : Nat) (runId : String) (remote : RemoteJob) :
    MediaProgram MediaRun :=
  if remote.status = .succeeded && !remote.outputs.isEmpty then
    finishSuccess owner leaseDuration runId remote
  else if remote.status = .failed then
    failJob owner runId "provider rejected the media job" remote.error
  else do
    let (current, _) ← requireRun runId "media run disappeared"
    if current.status = .canceling then cancelClaimed owner current
    else do
      let _ ← renewRunLease runId owner leaseDuration
      let answer : Except ProviderError RemoteJob ← ask (.poll runId remote.id)
      match answer with
      | .error e => failWith owner runId "MEDIA_PROVIDER_POLL" e
      | .ok status => settle owner leaseDuration runId status

def knownRemote (run : MediaRun) (remoteJobId : String) : RemoteJob where
  id := remoteJobId
  status := .processing
  progress := run.progress
  outputs := []
  error := none

def submitRun (owner : String) (leaseDuration : Nat) (run : MediaRun) :
    MediaProgram MediaRun := do
  let _ ← renewRunLease run.id owner leaseDuration
  ask (.submit run.id run.attempt)
  let answer : Except ProviderError RemoteJob ← ask (.submitAnswer run.id run.attempt)
  match answer with
  | .error e => failWith owner run.id "MEDIA_PROVIDER_SUBMIT" e
  | .ok submitted => do
    let _ ← recordRemoteJob run.id owner submitted.id .processing
      (submitted.progress.or (some 0))
    trackRemote owner leaseDuration run.id submitted

def processClaimed (owner : String) (leaseDuration : Nat) (run : MediaRun) :
    MediaProgram MediaRun := do
  let node : Bool ← ask (.getNode run.id)
  ensure node (.coded "MEDIA_NODE_NOT_FOUND" "media node not found")
  match run.providerId with
  | none => failRun owner run.id "MEDIA_PROVIDER_REQUIRED" "media node has no provider"
  | some _ => do
    let prepared : Except PrepareError Unit ← ask (.prepare run.id)
    match prepared with
    | .error (.profile e) => failWith owner run.id "MEDIA_PROVIDER_INVALID" e
    | .error (.registry e) => raise e
    | .error (.adapter e) => failWith owner run.id "MEDIA_PROVIDER_NOT_FOUND" e
    | .error (.request e) => failWith owner run.id "MEDIA_REQUEST_INVALID" e
    | .ok () =>
      if run.status = .canceling then cancelClaimed owner run
      else
        match run.remoteJobId with
        | some remoteJobId => trackRemote owner leaseDuration run.id (knownRemote run remoteJobId)
        | none => submitRun owner leaseDuration run

end MediaJobWorker

end CcPanes

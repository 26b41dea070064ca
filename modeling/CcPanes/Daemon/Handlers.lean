import CcPanes.Daemon.SessionReaper
import CcPanes.TaskQueue.Models

/-!
# The handlers of the daemon

The routes of `server.rs` that read or write the maps of the daemon.  A handler is a program of
small steps: a step reads the clock, one map or the backend, and has at most one effect on them.
The token of the request has been checked; which handler holds which side of `session_visibility`
is the matter of `DaemonWorld`.
-/

namespace CcPanes
open Option

inductive Effect where
  | none
  | op (op : MapOp)
  | grant (sessionId : String) (claim : SessionClaim)
  | release (sessionId : String)
  | pruneClaims (now : Nat)
  | retainClaims (liveIds : List String)
  | retainProvenance (liveIds : List String)
  | insertProvenance (provenance : TerminalSessionProvenance)
  | insertReplacement (expected replacement : String)
  | removeReplacement (expected : String)
  | register (id : String) (status : SessionStatus)
  | kill (id : String)

structure Daemon where
  state : DaemonState
  /-- every id that a session has had or a request has named; `Uuid::new_v4` gives none of them -/
  known : List String
  now : Nat
  epochMillis : Nat

namespace Daemon

def has (d : Daemon) (id : String) : Bool := d.state.sessions.any fun s => s.sessionId = id

def write (s : DaemonState) (now epochMillis : Nat) : Effect → DaemonState
  | .none => s
  | .op op => s.apply now op
  | .grant id claim => { s with sessionClaims := s.sessionClaims.insert id claim }
  | .release id => { s with sessionClaims := s.sessionClaims.erase id }
  | .pruneClaims now => s.pruneExpiredClaims now
  | .retainClaims liveIds =>
    { s with sessionClaims := FiniteMap.retain (fun id _ => liveIds.contains id) s.sessionClaims }
  | .retainProvenance liveIds =>
    { s with
      sessionProvenance := FiniteMap.retain (fun id _ => liveIds.contains id) s.sessionProvenance }
  | .insertProvenance p =>
    { s with sessionProvenance := s.sessionProvenance.insert p.sessionId p }
  | .insertReplacement expected replacement =>
    { s with restoreReplacements := s.restoreReplacements.insert expected replacement }
  | .removeReplacement expected =>
    { s with restoreReplacements := s.restoreReplacements.erase expected }
  | .register id status => { s with sessions := s.sessions ++ [⟨id, status, epochMillis⟩] }
  | .kill id => Sweep.killSession s id

def perform (d : Daemon) (e : Effect) : Daemon :=
  { d with
    state := write d.state d.now d.epochMillis e
    known :=
      match e with
      | .register id _ => id :: d.known
      | _ => d.known }

end Daemon

inductive HttpStatus where
  | badRequest
  | notFound
  | conflict
  | internalServerError
  | gatewayTimeout
  deriving DecidableEq

inductive Response where
  | ok
  | granted (sessionId owner : String)
  | created (sessionId : String) (reusedExisting : Bool)
  | error (status : HttpStatus) (code message : String)

namespace Response

def notFound (message : String) : Response := .error .notFound "NOT_FOUND" message

def conflict (code message : String) : Response := .error .conflict code message

def claimedByAnother (owner : String) : Response :=
  .conflict "SESSION_CLAIMED" ("session is claimed by another instance: " ++ owner)

end Response

/-! ## the identity a caller declares -/

/-- what `HeaderValue::to_str` accepts -/
def isVisibleAscii (c : Char) : Bool := (' ' ≤ c && c ≤ '~') || c = '\t'

/-- `caller_instance`; a header that is not visible ASCII counts as absent -/
def callerInstance (header : Option String) : Option String :=
  ((header.filter fun value => value.toList.all isVisibleAscii).map trim).filter
    fun value => value ≠ ""

inductive GuardedRoute where
  | write
  | submit
  | resize
  | kill
  /-- `Message::Text` and `Message::Binary` of the WebSocket of a session -/
  | wsText
  | wsBinary
  deriving DecidableEq

namespace GuardedRoute

def isWs : GuardedRoute → Bool
  | wsText | wsBinary => true
  | _ => false

/-- `touch_session` between the check and the call of the backend -/
def touches : GuardedRoute → Bool
  | write | submit | resize => true
  | _ => false

end GuardedRoute

/-- an operation behind the lease; `declared` is the header `X-CC-Panes-Instance` or, on a
WebSocket, the query parameter `instanceId` -/
structure GuardedOp where
  route : GuardedRoute
  sessionId : String
  declared : Option String

def GuardedOp.caller (g : GuardedOp) : Option String :=
  if g.route.isWs then g.declared else callerInstance g.declared

/-! ## the creation of a session -/

inductive CliTool where
  | none | claude | codex | gemini | kimi | opencode | cursor | grok | pi | omp
  deriving DecidableEq

def CliTool.asId : CliTool → String
  | none => "none"
  | claude => "claude"
  | codex => "codex"
  | gemini => "gemini"
  | kimi => "kimi"
  | opencode => "opencode"
  | cursor => "cursor"
  | grok => "grok"
  | pi => "pi"
  | omp => "omp"

structure CreateSessionRequest where
  launchId : Option String
  projectPath : Option String
  cwd : Option String
  originLayoutId : Option String
  originTabId : Option String
  originTerminalPaneId : Option String
  expectedSavedSessionId : Option String
  launchClaude : Bool
  cliTool : CliTool
  resumeId : Option String
  ssh : Bool
  wsl : Bool

/-- what the handlers ask the host about paths -/
structure Host where
  defaultCwd : String
  runningUnderWsl : Bool
  pathForWsl : CreateSessionRequest → String → String
  projectPathsEquivalent : String → String → Bool

/-- a request to create a session, its owner and the anchors `mint_birth_anchors` gave it -/
structure Creation where
  request : CreateSessionRequest
  owner : Option String
  fallbackTabId : String
  fallbackTerminalPaneId : String

def normalizedResumeId (value : Option String) : Option String :=
  (value.map trim).filter fun value => value ≠ "" && value ≠ "new"

namespace CreateSessionRequest

def path (host : Host) (r : CreateSessionRequest) : String :=
  (r.projectPath.or r.cwd).getD host.defaultCwd

def runtimeKind (ssh wsl : Bool) : String := if ssh then "ssh" else if wsl then "wsl" else "local"

def effectiveCliTool (r : CreateSessionRequest) : CliTool :=
  if r.cliTool = .none && r.launchClaude then .claude else r.cliTool

/-- `normalize_session_request_for_current_host`: the path and the `wsl` options -/
def normalized (host : Host) (r : CreateSessionRequest) : String × Bool :=
  if !host.runningUnderWsl || r.ssh then (r.path host, r.wsl)
  else (host.pathForWsl r (r.path host), false)

def restoreIdentityMatches (host : Host) (r : CreateSessionRequest)
    (provenance : TerminalSessionProvenance) : Bool :=
  host.projectPathsEquivalent (r.normalized host).1 provenance.projectPath &&
    runtimeKind r.ssh (r.normalized host).2 = provenance.runtimeKind &&
    r.effectiveCliTool.asId = provenance.cliTool &&
    normalizedResumeId r.resumeId = normalizedResumeId provenance.resumeId

end CreateSessionRequest

/-- the birth record, from the request as it was sent -/
def Creation.provenance (host : Host) (c : Creation) (d : Daemon) (id birthNonce : String) :
    TerminalSessionProvenance where
  sessionId := id
  daemonGeneration := d.state.startedAt
  birthNonce := birthNonce
  originInstanceId := c.owner
  originLayoutId := c.request.originLayoutId
  originTabId := c.request.originTabId.or (some c.fallbackTabId)
  originTerminalPaneId := c.request.originTerminalPaneId.or (some c.fallbackTerminalPaneId)
  projectPath := c.request.path host
  runtimeKind := CreateSessionRequest.runtimeKind c.request.ssh c.request.wsl
  cliTool := c.request.cliTool.asId
  resumeId := c.request.resumeId
  createdAtMs := d.epochMillis

/-! ## handlers -/

inductive GuardedPc where
  /-- text on a WebSocket counts as activity before it is checked -/
  | touching
  | entered
  | timed (now : Nat)
  | refused
  /-- the check has passed; `touch` says that the activity is still to be refreshed -/
  | allowed (touch : Bool)
  /-- a kill has succeeded -/
  | cleaning (ops : List MapOp)

inductive ClaimPc where
  | entered
  | found
  | pruneTimed (now : Nat)
  | pruned
  | timed (now : Nat)
  | granted

inductive AdoptionPc where
  | entered
  | listed (liveIds : List String)
  | pruneTimed (liveIds : List String) (now : Nat)
  | pruned (liveIds : List String)
  | claimsRetained (liveIds : List String)

inductive CreatePc where
  /-- `reuse_expected_session` -/
  | entered
  | lookingUp (expected : String)
  | checking (expected replacement : String)
  | forgetting (expected : String)
  | reusing (id : String)
  | claiming (id : String)
  | claimTimed (id : String) (now : Nat)
  | reused (id : String)
  /-- the backend creates the session, and may have registered it -/
  | launching (registered : Option String)
  /-- the deadline has passed and has been answered, the backend goes on -/
  | late (registered : Option String)
  | lateReturned (id : String)
  | created (id : String)
  | touched (id : String)
  | ownTimed (id : String) (now : Nat)
  | rejected (id existing : String)
  | cleaning (ops : List MapOp) (existing : String)
  | owned (id : String)
  | recorded (id : String)

inductive Handler where
  | guarded (g : GuardedOp) (pc : GuardedPc)
  | claim (sessionId owner : String) (ttlMs : Option Nat) (pc : ClaimPc)
  | release (sessionId owner : String) (timed : Option Nat)
  | status (sessionId : String) (touched : Bool)
  | claims (timed : Option Nat)
  | adoption (pc : AdoptionPc)
  | create (c : Creation) (pc : CreatePc)
  | done (response : Response)

inductive Request where
  | guarded (g : GuardedOp)
  | claim (sessionId : String) (appInstanceId header : Option String) (ttlMs : Option Nat)
  | release (sessionId : String) (appInstanceId header : Option String)
  | status (sessionId : String)
  | claims
  | adoption
  | create (request : CreateSessionRequest) (header : Option String)
      (fallbackTabId fallbackTerminalPaneId : String)

/-- the owner a claim is made for; the id in the body is taken as it is -/
def claimOwner (appInstanceId header : Option String) : Option String :=
  (appInstanceId.or (callerInstance header)).filter fun value => trim value ≠ ""

def Request.start : Request → Handler
  | .guarded g => .guarded g (if g.route = .wsText then .touching else .entered)
  | .claim id appInstanceId header ttlMs =>
    match claimOwner appInstanceId header with
    | some owner => .claim id owner ttlMs .entered
    | none => .done (.error .badRequest "MISSING_INSTANCE_ID"
        "appInstanceId is required to claim a session")
  | .release id appInstanceId header =>
    .release id ((appInstanceId.or (callerInstance header)).getD "") none
  | .status id => .status id false
  | .claims => .claims none
  | .adoption => .adoption .entered
  | .create request header fallbackTabId fallbackTerminalPaneId =>
    if request.ssh && request.wsl then
      .done (.error .badRequest "INVALID_LAUNCH_OPTIONS"
        "SSH and WSL launch options cannot be combined")
    else .create ⟨request, callerInstance header, fallbackTabId, fallbackTerminalPaneId⟩ .entered

inductive HandlerAction where
  | next
  /-- `get_session_status` of a claim; `buffered` is a session that has left and whose output the
  backend still keeps -/
  | lookUp (buffered : Bool)
  /-- the backend registers the session it creates -/
  | register (id : String) (status : SessionStatus)
  | returned
  | failed (response : Response)
  | deadline
  | record (birthNonce : String)

/-! ## one step -/

def GuardedOp.execute (d : Daemon) (g : GuardedOp) : Effect × Handler :=
  if d.has g.sessionId then
    if g.route = .kill then
      (.kill g.sessionId, .guarded g (.cleaning (DaemonState.removeSessionActivity g.sessionId)))
    else (.none, .done .ok)
  else (.none, .done (.notFound ("Session not found: " ++ g.sessionId)))

def GuardedOp.step (d : Daemon) (g : GuardedOp) : GuardedPc → Effect × Handler
  | .touching => (.op (.touch g.sessionId), .guarded g .entered)
  | .entered => (.none, .guarded g (.timed d.now))
  | .timed now =>
    if d.state.mayWriteSession g.sessionId g.caller now then
      (.none, .guarded g (.allowed g.route.touches))
    else (.none, .guarded g .refused)
  | .refused =>
    (.none, .done (.claimedByAnother ((d.state.sessionClaimOwner g.sessionId d.now).getD "")))
  | .allowed true => (.op (.touch g.sessionId), .guarded g (.allowed false))
  | .allowed false => g.execute d
  | .cleaning (op :: ops) => (.op op, .guarded g (.cleaning ops))
  | .cleaning [] => (.none, .done .ok)

def stepClaim (d : Daemon) (id owner : String) (ttlMs : Option Nat) :
    ClaimPc → HandlerAction → Option (Effect × Handler)
  | .entered, .lookUp buffered =>
    if d.has id || (buffered && d.known.contains id) then
      some (.none, .claim id owner ttlMs .found)
    else some (.none, .done (.error .notFound "SESSION_NOT_FOUND"
      "cannot claim a session that does not exist"))
  | .found, .next => some (.none, .claim id owner ttlMs (.pruneTimed d.now))
  | .pruneTimed now, .next => some (.pruneClaims now, .claim id owner ttlMs .pruned)
  | .pruned, .next => some (.none, .claim id owner ttlMs (.timed d.now))
  | .timed now, .next =>
    match d.state.tryClaimSession id owner ttlMs now with
    | .ok (claim, _) => some (.grant id claim, .claim id owner ttlMs .granted)
    | .error existing => some (.none, .done (.claimedByAnother existing))
  | .granted, .next => some (.op (.touch id), .done (.granted id owner))
  | _, _ => none

def stepRelease (d : Daemon) (id owner : String) : Option Nat → Effect × Handler
  | none => (.none, .release id owner (some d.now))
  | some now =>
    match d.state.sessionClaims.lookup id, d.state.releaseSessionClaim id owner now with
    | some _, (true, _) => (.release id, .done .ok)
    | none, (true, _) => (.none, .done .ok)
    | _, (false, _) => (.none,
        .done (.conflict "SESSION_CLAIMED" "session is claimed by another instance"))

def stepStatus (d : Daemon) (id : String) : Bool → Effect × Handler
  | false => (.op (.touch id), .status id true)
  | true => (.none, .done (if d.has id then .ok else .notFound "Session not found"))

def stepClaims (d : Daemon) : Option Nat → Effect × Handler
  | none => (.none, .claims (some d.now))
  | some now => (.pruneClaims now, .done .ok)

def stepAdoption (d : Daemon) : AdoptionPc → Effect × Handler
  | .entered =>
    (.none, .adoption (.listed
      ((d.state.sessions.filter fun s => s.status ≠ .exited).map (·.sessionId))))
  | .listed liveIds => (.none, .adoption (.pruneTimed liveIds d.now))
  | .pruneTimed liveIds now => (.pruneClaims now, .adoption (.pruned liveIds))
  | .pruned liveIds => (.retainClaims liveIds, .adoption (.claimsRetained liveIds))
  | .claimsRetained liveIds => (.retainProvenance liveIds, .done .ok)

/-- `reuse_expected_session` on a session that is alive: the owner and the birth record -/
def Creation.reuse (host : Host) (d : Daemon) (c : Creation) (id : String) : Except Response Unit :=
  match c.owner, d.state.sessionProvenance.lookup id with
  | none, _ => .error (.conflict "RESTORE_OWNER_MISSING"
      "live expected session requires an instance identity")
  | some _, none => .error (.conflict "RESTORE_PROVENANCE_MISSING"
      "live expected session has no immutable provenance")
  | some _, some provenance =>
    if c.request.restoreIdentityMatches host provenance then .ok ()
    else .error (.conflict "RESTORE_IDENTITY_MISMATCH"
      "live expected session does not match the restore request")

def launchTimeout : Response :=
  .error .gatewayTimeout "LAUNCH_TIMEOUT" "Terminal launch exceeded 45000ms"

def stepCreate (host : Host) (d : Daemon) (c : Creation) :
    CreatePc → HandlerAction → Option (Effect × Handler)
  | .entered, .next =>
    match c.request.expectedSavedSessionId with
    | none => some (.none, .create c (.launching none))
    | some expected =>
      if d.state.alive expected then some (.none, .create c (.reusing expected))
      else some (.none, .create c (.lookingUp expected))
  | .lookingUp expected, .next =>
    match d.state.restoreReplacements.lookup expected with
    | none => some (.none, .create c (.launching none))
    | some replacement => some (.none, .create c (.checking expected replacement))
  | .checking expected replacement, .next =>
    if d.state.alive replacement then some (.none, .create c (.reusing replacement))
    else some (.none, .create c (.forgetting expected))
  | .forgetting expected, .next =>
    some (.removeReplacement expected, .create c (.launching none))
  | .reusing id, .next =>
    match c.reuse host d id with
    | .ok () => some (.none, .create c (.claiming id))
    | .error response => some (.none, .done response)
  | .claiming id, .next => some (.none, .create c (.claimTimed id d.now))
  | .claimTimed id now, .next =>
    match d.state.tryClaimSession id (c.owner.getD "") none now with
    | .ok (claim, _) => some (.grant id claim, .create c (.reused id))
    | .error existing => some (.none, .done (.conflict "SESSION_CLAIMED"
        ("expected session is already claimed by " ++ existing)))
  | .reused id, .next => some (.op (.touch id), .done (.created id true))
  | .launching none, .register id status =>
    if id ∈ d.known then none
    else some (.register id status, .create c (.launching (some id)))
  | .launching none, .failed response => some (.none, .done response)
  | .launching (some id), .returned => some (.none, .create c (.created id))
  | .launching registered, .deadline => some (.none, .create c (.late registered))
  | .late none, .register id status =>
    if id ∈ d.known then none
    else some (.register id status, .create c (.late (some id)))
  | .late none, .failed _ => some (.none, .done launchTimeout)
  | .late (some id), .returned => some (.none, .create c (.lateReturned id))
  | .lateReturned id, .next => some (.kill id, .done launchTimeout)
  | .created id, .next => some (.op (.touch id), .create c (.touched id))
  | .touched id, .next =>
    match c.owner with
    | none => some (.none, .create c (.owned id))
    | some _ => some (.none, .create c (.ownTimed id d.now))
  | .ownTimed id now, .next =>
    match d.state.tryClaimSession id (c.owner.getD "") none now with
    | .ok (claim, _) => some (.grant id claim, .create c (.owned id))
    | .error existing => some (.none, .create c (.rejected id existing))
  | .rejected id existing, .next =>
    some (.kill id, .create c (.cleaning (DaemonState.removeSessionActivity id) existing))
  | .cleaning (op :: ops) existing, .next => some (.op op, .create c (.cleaning ops existing))
  | .cleaning [] existing, .next =>
    some (.none, .done (.conflict "SESSION_CLAIMED"
      ("fresh session id is already claimed by " ++ existing)))
  | .owned id, .record birthNonce =>
    some (.insertProvenance (c.provenance host d id birthNonce), .create c (.recorded id))
  | .recorded id, .next =>
    match c.request.expectedSavedSessionId with
    | none => some (.none, .done (.created id false))
    | some expected => some (.insertReplacement expected id, .done (.created id false))
  | _, _ => none

def Handler.step (host : Host) (d : Daemon) :
    Handler → HandlerAction → Option (Effect × Handler)
  | .guarded g pc, .next => some (g.step d pc)
  | .claim id owner ttlMs pc, a => stepClaim d id owner ttlMs pc a
  | .release id owner timed, .next => some (stepRelease d id owner timed)
  | .status id touched, .next => some (stepStatus d id touched)
  | .claims timed, .next => some (stepClaims d timed)
  | .adoption pc, .next => some (stepAdoption d pc)
  | .create c pc, a => stepCreate host d c pc a
  | _, _ => none

/-! ## what a step that is enabled does -/

inductive Handler.Step (host : Host) (d : Daemon) :
    Handler → HandlerAction → Effect → Handler → Prop where
  | counted {g : GuardedOp} :
    Step host d (.guarded g .touching) .next (.op (.touch g.sessionId)) (.guarded g .entered)
  | timed {g : GuardedOp} :
    Step host d (.guarded g .entered) .next .none (.guarded g (.timed d.now))
  | allowed {g : GuardedOp} {now : Nat}
      (h : d.state.mayWriteSession g.sessionId g.caller now = true) :
    Step host d (.guarded g (.timed now)) .next .none (.guarded g (.allowed g.route.touches))
  | refused {g : GuardedOp} {now : Nat} :
    Step host d (.guarded g (.timed now)) .next .none (.guarded g .refused)
  | refusedAnswer {g : GuardedOp} {response : Response} :
    Step host d (.guarded g .refused) .next .none (.done response)
  | touched {g : GuardedOp} :
    Step host d (.guarded g (.allowed true)) .next (.op (.touch g.sessionId))
      (.guarded g (.allowed false))
  | killed {g : GuardedOp} (h : g.route = .kill) (h' : d.has g.sessionId = true) :
    Step host d (.guarded g (.allowed false)) .next (.kill g.sessionId)
      (.guarded g (.cleaning (DaemonState.removeSessionActivity g.sessionId)))
  | executed {g : GuardedOp} {response : Response} :
    Step host d (.guarded g (.allowed false)) .next .none (.done response)
  | guardedOp {g : GuardedOp} {op : MapOp} {ops : List MapOp} :
    Step host d (.guarded g (.cleaning (op :: ops))) .next (.op op) (.guarded g (.cleaning ops))
  | guardedEnd {g : GuardedOp} {response : Response} :
    Step host d (.guarded g (.cleaning [])) .next .none (.done response)
  | claimFound {id owner : String} {ttlMs : Option Nat} {buffered : Bool}
      (h : d.has id = true ∨ id ∈ d.known) :
    Step host d (.claim id owner ttlMs .entered) (.lookUp buffered) .none
      (.claim id owner ttlMs .found)
  | claimMissing {id owner : String} {ttlMs : Option Nat} {buffered : Bool} {response : Response} :
    Step host d (.claim id owner ttlMs .entered) (.lookUp buffered) .none (.done response)
  | claimPruneTimed {id owner : String} {ttlMs : Option Nat} :
    Step host d (.claim id owner ttlMs .found) .next .none
      (.claim id owner ttlMs (.pruneTimed d.now))
  | claimPruned {id owner : String} {ttlMs : Option Nat} {now : Nat} :
    Step host d (.claim id owner ttlMs (.pruneTimed now)) .next (.pruneClaims now)
      (.claim id owner ttlMs .pruned)
  | claimTimed {id owner : String} {ttlMs : Option Nat} :
    Step host d (.claim id owner ttlMs .pruned) .next .none (.claim id owner ttlMs (.timed d.now))
  | claimGranted {id owner : String} {ttlMs : Option Nat} {now : Nat} {claim : SessionClaim}
      {s : DaemonState} (h : d.state.tryClaimSession id owner ttlMs now = .ok (claim, s)) :
    Step host d (.claim id owner ttlMs (.timed now)) .next (.grant id claim)
      (.claim id owner ttlMs .granted)
  | claimRefused {id owner : String} {ttlMs : Option Nat} {now : Nat} {response : Response} :
    Step host d (.claim id owner ttlMs (.timed now)) .next .none (.done response)
  | claimTouched {id owner : String} {ttlMs : Option Nat} :
    Step host d (.claim id owner ttlMs .granted) .next (.op (.touch id)) (.done (.granted id owner))
  | releaseTimed {id owner : String} :
    Step host d (.release id owner none) .next .none (.release id owner (some d.now))
  | released {id owner : String} {now : Nat} {existing : SessionClaim}
      (h : d.state.sessionClaims.lookup id = some existing)
      (h' : existing.owner = owner ∨ existing.isLive now = false) :
    Step host d (.release id owner (some now)) .next (.release id) (.done .ok)
  | notReleased {id owner : String} {now : Nat} {response : Response} :
    Step host d (.release id owner (some now)) .next .none (.done response)
  | statusTouched {id : String} :
    Step host d (.status id false) .next (.op (.touch id)) (.status id true)
  | statusRead {id : String} {response : Response} :
    Step host d (.status id true) .next .none (.done response)
  | claimsTimed : Step host d (.claims none) .next .none (.claims (some d.now))
  | claimsPruned {now : Nat} :
    Step host d (.claims (some now)) .next (.pruneClaims now) (.done .ok)
  | adoptionListed {liveIds : List String}
      (h : liveIds = (d.state.sessions.filter fun s => s.status ≠ .exited).map (·.sessionId)) :
    Step host d (.adoption .entered) .next .none (.adoption (.listed liveIds))
  | adoptionPruneTimed {liveIds : List String} :
    Step host d (.adoption (.listed liveIds)) .next .none
      (.adoption (.pruneTimed liveIds d.now))
  | adoptionPruned {liveIds : List String} {now : Nat} :
    Step host d (.adoption (.pruneTimed liveIds now)) .next (.pruneClaims now)
      (.adoption (.pruned liveIds))
  | claimsRetained {liveIds : List String} :
    Step host d (.adoption (.pruned liveIds)) .next (.retainClaims liveIds)
      (.adoption (.claimsRetained liveIds))
  | provenanceRetained {liveIds : List String} :
    Step host d (.adoption (.claimsRetained liveIds)) .next (.retainProvenance liveIds) (.done .ok)
  | unexpected {c : Creation} (h : c.request.expectedSavedSessionId = none) :
    Step host d (.create c .entered) .next .none (.create c (.launching none))
  | expectedAlive {c : Creation} {expected : String}
      (h : c.request.expectedSavedSessionId = some expected)
      (h' : d.state.alive expected = true) :
    Step host d (.create c .entered) .next .none (.create c (.reusing expected))
  | expectedGone {c : Creation} {expected : String}
      (h : c.request.expectedSavedSessionId = some expected)
      (h' : d.state.alive expected = false) :
    Step host d (.create c .entered) .next .none (.create c (.lookingUp expected))
  | unreplaced {c : Creation} {expected : String}
      (h : d.state.restoreReplacements.lookup expected = none) :
    Step host d (.create c (.lookingUp expected)) .next .none (.create c (.launching none))
  | replaced {c : Creation} {expected replacement : String}
      (h : d.state.restoreReplacements.lookup expected = some replacement) :
    Step host d (.create c (.lookingUp expected)) .next .none
      (.create c (.checking expected replacement))
  | replacementAlive {c : Creation} {expected replacement : String}
      (h : d.state.alive replacement = true) :
    Step host d (.create c (.checking expected replacement)) .next .none
      (.create c (.reusing replacement))
  | replacementGone {c : Creation} {expected replacement : String}
      (h : d.state.alive replacement = false) :
    Step host d (.create c (.checking expected replacement)) .next .none
      (.create c (.forgetting expected))
  | forgotten {c : Creation} {expected : String} :
    Step host d (.create c (.forgetting expected)) .next (.removeReplacement expected)
      (.create c (.launching none))
  | reuseMatches {c : Creation} {id : String} (h : c.reuse host d id = .ok ()) :
    Step host d (.create c (.reusing id)) .next .none (.create c (.claiming id))
  | reuseRefused {c : Creation} {id : String} {response : Response}
      (h : c.reuse host d id = .error response) :
    Step host d (.create c (.reusing id)) .next .none (.done response)
  | reuseTimed {c : Creation} {id : String} :
    Step host d (.create c (.claiming id)) .next .none (.create c (.claimTimed id d.now))
  | reuseGranted {c : Creation} {id : String} {now : Nat} {claim : SessionClaim} {s : DaemonState}
      (h : d.state.tryClaimSession id (c.owner.getD "") none now = .ok (claim, s)) :
    Step host d (.create c (.claimTimed id now)) .next (.grant id claim) (.create c (.reused id))
  | reuseClaimed {c : Creation} {id : String} {now : Nat} {message : String} :
    Step host d (.create c (.claimTimed id now)) .next .none
      (.done (.conflict "SESSION_CLAIMED" message))
  | reuseTouched {c : Creation} {id : String} :
    Step host d (.create c (.reused id)) .next (.op (.touch id)) (.done (.created id true))
  | registered {c : Creation} {id : String} {status : SessionStatus} (h : id ∉ d.known) :
    Step host d (.create c (.launching none)) (.register id status) (.register id status)
      (.create c (.launching (some id)))
  | failed {c : Creation} {response : Response} :
    Step host d (.create c (.launching none)) (.failed response) .none (.done response)
  | returned {c : Creation} {id : String} :
    Step host d (.create c (.launching (some id))) .returned .none (.create c (.created id))
  | deadline {c : Creation} {id : Option String} :
    Step host d (.create c (.launching id)) .deadline .none (.create c (.late id))
  | lateRegistered {c : Creation} {id : String} {status : SessionStatus} (h : id ∉ d.known) :
    Step host d (.create c (.late none)) (.register id status) (.register id status)
      (.create c (.late (some id)))
  | lateFailed {c : Creation} {response : Response} :
    Step host d (.create c (.late none)) (.failed response) .none (.done launchTimeout)
  | lateReturned {c : Creation} {id : String} :
    Step host d (.create c (.late (some id))) .returned .none (.create c (.lateReturned id))
  | lateKilled {c : Creation} {id : String} :
    Step host d (.create c (.lateReturned id)) .next (.kill id) (.done launchTimeout)
  | createTouched {c : Creation} {id : String} :
    Step host d (.create c (.created id)) .next (.op (.touch id)) (.create c (.touched id))
  | anonymous {c : Creation} {id : String} (h : c.owner = none) :
    Step host d (.create c (.touched id)) .next .none (.create c (.owned id))
  | ownTimed {c : Creation} {id owner : String} (h : c.owner = some owner) :
    Step host d (.create c (.touched id)) .next .none (.create c (.ownTimed id d.now))
  | ownGranted {c : Creation} {id : String} {now : Nat} {claim : SessionClaim} {s : DaemonState}
      (h : d.state.tryClaimSession id (c.owner.getD "") none now = .ok (claim, s)) :
    Step host d (.create c (.ownTimed id now)) .next (.grant id claim) (.create c (.owned id))
  | ownRejected {c : Creation} {id : String} {now : Nat} {existing : String}
      (h : d.state.tryClaimSession id (c.owner.getD "") none now = .error existing) :
    Step host d (.create c (.ownTimed id now)) .next .none (.create c (.rejected id existing))
  | rejectKilled {c : Creation} {id existing : String} :
    Step host d (.create c (.rejected id existing)) .next (.kill id)
      (.create c (.cleaning (DaemonState.removeSessionActivity id) existing))
  | rejectOp {c : Creation} {op : MapOp} {ops : List MapOp} {existing : String} :
    Step host d (.create c (.cleaning (op :: ops) existing)) .next (.op op)
      (.create c (.cleaning ops existing))
  | rejectEnd {c : Creation} {existing message : String} :
    Step host d (.create c (.cleaning [] existing)) .next .none
      (.done (.conflict "SESSION_CLAIMED" message))
  | recorded {c : Creation} {id birthNonce : String} :
    Step host d (.create c (.owned id)) (.record birthNonce)
      (.insertProvenance (c.provenance host d id birthNonce)) (.create c (.recorded id))
  | createEnd {c : Creation} {id : String} (h : c.request.expectedSavedSessionId = none) :
    Step host d (.create c (.recorded id)) .next .none (.done (.created id false))
  | aliased {c : Creation} {id expected : String}
      (h : c.request.expectedSavedSessionId = some expected) :
    Step host d (.create c (.recorded id)) .next (.insertReplacement expected id)
      (.done (.created id false))

namespace Handler

variable (host : Host) (d : Daemon) {e : Effect} {h' : Handler} {a : HandlerAction}

theorem step_guarded_spec {g : GuardedOp} {pc : GuardedPc} (h : g.step d pc = (e, h')) :
    Step host d (.guarded g pc) .next e h' := by
  unfold GuardedOp.step GuardedOp.execute at h
  split at h <;> try split at h
  all_goals try split at h
  all_goals
    cases h
    constructor
  all_goals assumption

theorem step_claim_spec {id owner : String} {ttlMs : Option Nat} {pc : ClaimPc}
    (h : stepClaim d id owner ttlMs pc a = some (e, h')) :
    Step host d (.claim id owner ttlMs pc) a e h' := by
  unfold stepClaim at h
  split at h
  case h_1 buffered =>
    split at h
    next hfound =>
      cases h
      refine .claimFound ?_
      obtain hhas | hbuf := Bool.or_eq_true_iff.mp hfound
      · exact .inl hhas
      · exact .inr (List.contains_iff_mem.mp (Bool.and_eq_true_iff.mp hbuf).2)
    next =>
      cases h
      exact .claimMissing
  case h_5 now =>
    split at h
    next hclaim =>
      cases h
      exact .claimGranted hclaim
    next =>
      cases h
      exact .claimRefused
  all_goals cases h
  all_goals constructor

theorem step_release_spec {id owner : String} {timed : Option Nat}
    (h : stepRelease d id owner timed = (e, h')) :
    Step host d (.release id owner timed) .next e h' := by
  unfold stepRelease at h
  split at h
  · cases h
    exact .releaseTimed
  split at h
  next existing _ hlookup hrelease =>
    cases h
    refine .released hlookup ?_
    unfold DaemonState.releaseSessionClaim at hrelease
    rw [hlookup] at hrelease
    dsimp only at hrelease
    split at hrelease
    next hok =>
      obtain howner | hdead := Bool.or_eq_true_iff.mp hok
      · exact .inl (of_decide_eq_true howner)
      · exact .inr ((Bool.not_eq_true' _).mp hdead)
    next => cases hrelease
  next => cases h; exact .notReleased
  next => cases h; exact .notReleased

theorem step_create_spec {c : Creation} {pc : CreatePc}
    (h : stepCreate host d c pc a = some (e, h')) : Step host d (.create c pc) a e h' := by
  revert h
  fun_cases stepCreate host d c pc a
  all_goals intro h
  all_goals cases h
  all_goals first
    | constructor; assumption
    | constructor
  -- the sessions the two lookups found alive or gone
  all_goals first
    | assumption
    | exact Bool.eq_false_iff.mpr (by assumption)

theorem step_spec {h h' : Handler} (hstep : h.step host d a = some (e, h')) :
    Step host d h a e h' := by
  unfold Handler.step at hstep
  split at hstep
  case h_1 => exact step_guarded_spec host d (some.inj hstep)
  case h_2 => exact step_claim_spec host d hstep
  case h_3 => exact step_release_spec host d (some.inj hstep)
  case h_4 id touched =>
    cases touched with
    | false =>
      cases hstep
      exact .statusTouched
    | true =>
      cases hstep
      exact .statusRead
  case h_5 timed =>
    cases timed with
    | none =>
      cases hstep
      exact .claimsTimed
    | some now =>
      cases hstep
      exact .claimsPruned
  case h_6 pc =>
    cases pc with
    | entered =>
      cases hstep
      exact .adoptionListed rfl
    | listed | pruneTimed | pruned | claimsRetained =>
      cases hstep
      constructor
  case h_7 => exact step_create_spec host d hstep
  case h_8 => cases hstep

end Handler

namespace DaemonState

theorem tryClaim_ok {d d' : DaemonState} {id owner : String} {ttlMs : Option Nat} {now : Nat}
    {claim : SessionClaim} (h : d.tryClaimSession id owner ttlMs now = .ok (claim, d')) :
    claim.owner = owner ∧ claim.isLive now = true ∧
      ∀ existing, d.sessionClaims.lookup id = some existing → existing.isLive now = true →
        existing.owner = owner := by
  have hlive : ∀ ttl : Nat, decide (now + min (max ttl claimTtlMinMs) claimTtlMaxMs * 1000000 > now)
      = true := by
    intro ttl
    refine decide_eq_true ?_
    unfold claimTtlMinMs claimTtlMaxMs
    omega
  unfold tryClaimSession at h
  split at h
  next existing hlookup =>
    split at h
    · cases h
    next hfree =>
      cases h
      refine ⟨rfl, hlive _, ?_⟩
      intro existing' hlookup' hlive'
      cases hlookup.symm.trans hlookup'
      refine Classical.byContradiction fun hne => hfree ?_
      exact Bool.and_eq_true_iff.mpr ⟨hlive', decide_eq_true hne⟩
  next hnone =>
    cases h
    refine ⟨rfl, hlive _, ?_⟩
    intro existing hlookup
    cases hnone.symm.trans hlookup

theorem mayWrite_iff {d : DaemonState} {id : String} {caller : Option String} {now : Nat} :
    d.mayWriteSession id caller now = true ↔
      ∀ claim, d.sessionClaims.lookup id = some claim → claim.isLive now = true →
        caller = some claim.owner := by
  unfold mayWriteSession sessionClaimOwner
  cases hlookup : d.sessionClaims.lookup id with
  | none => exact ⟨fun _ _ h => (nomatch h), fun _ => rfl⟩
  | some claim =>
    cases hlive : claim.isLive now with
    | false =>
      rw [filter_some, if_neg (by rw [hlive]; exact Bool.false_ne_true)]
      refine ⟨fun _ claim' h h' => ?_, fun _ => rfl⟩
      cases h
      rw [hlive] at h'
      cases h'
    | true =>
      rw [filter_some, if_pos hlive]
      constructor
      · intro h claim' hclaim' _
        cases hclaim'
        exact eq_of_beq h
      · intro h
        exact beq_iff_eq.mpr (h claim rfl hlive)

end DaemonState

end CcPanes

import CcPanes.Foundation.FiniteMap
import CcPanes.Foundation.Run
import CcPanes.Session.StateMachine
import Mathlib.Data.List.Sort

/-!
# The maps of the daemon and the session reaper

`DaemonState` of `server.rs`: the sessions of the terminal backend and the four maps the daemon
keeps about them.  Every map has a lock of its own, so an operation on one map is one step;
`remove_session_activity` is four of them.  An `Instant` is a number of nanoseconds, a wall clock
time a number of milliseconds.
-/

namespace CcPanes

structure SessionClaim where
  owner : String
  expiresAt : Nat

def SessionClaim.isLive (claim : SessionClaim) (now : Nat) : Bool := claim.expiresAt > now

def claimTtlDefaultMs : Nat := 30000
def claimTtlMinMs : Nat := 5000
def claimTtlMaxMs : Nat := 300000

structure TerminalSessionProvenance where
  sessionId : String
  daemonGeneration : Nat
  birthNonce : String
  originInstanceId : Option String
  originLayoutId : Option String
  originTabId : Option String
  originTerminalPaneId : Option String
  projectPath : String
  runtimeKind : String
  cliTool : String
  resumeId : Option String
  createdAtMs : Nat

/-- what the backend reports of a session -/
structure BackendSession where
  sessionId : String
  status : SessionStatus
  lastOutputAt : Nat
  deriving DecidableEq

structure DaemonState where
  startedAt : Nat
  /-- `terminal_backend` -/
  sessions : List BackendSession
  /-- `has_active_subscriber` -/
  subscribed : String → Bool
  lastActivity : FiniteMap String Nat
  sessionClaims : FiniteMap String SessionClaim
  sessionProvenance : FiniteMap String TerminalSessionProvenance
  restoreReplacements : FiniteMap String String

inductive MapOp where
  | touch (sessionId : String)
  | forgetClaim (sessionId : String)
  | removeProvenance (sessionId : String)
  | removeReplacements (sessionId : String)
  | removeActivity (sessionId : String)

namespace DaemonState

def empty (startedAt : Nat) : DaemonState :=
  ⟨startedAt, [], fun _ => false, ∅, ∅, ∅, ∅⟩

def alive (d : DaemonState) (sessionId : String) : Bool :=
  d.sessions.any fun s => s.sessionId = sessionId && s.status ≠ .exited

def apply (d : DaemonState) (now : Nat) : MapOp → DaemonState
  | .touch id => { d with lastActivity := d.lastActivity.insert id now }
  | .forgetClaim id => { d with sessionClaims := d.sessionClaims.erase id }
  | .removeProvenance id => { d with sessionProvenance := d.sessionProvenance.erase id }
  | .removeReplacements id =>
    { d with
      restoreReplacements := FiniteMap.retain
        (fun expected replacement => expected ≠ id && replacement ≠ id) d.restoreReplacements }
  | .removeActivity id => { d with lastActivity := d.lastActivity.erase id }

/-- `remove_session_activity`; its `cleanup_session` only drops subscribers that are closed -/
def removeSessionActivity (sessionId : String) : List MapOp :=
  [.forgetClaim sessionId, .removeProvenance sessionId, .removeReplacements sessionId,
    .removeActivity sessionId]

/-! ## leases; `now` is the instant the operation read before it took the lock -/

def tryClaimSession (d : DaemonState) (sessionId owner : String) (ttlMs : Option Nat)
    (now : Nat) : Except String (SessionClaim × DaemonState) :=
  let ttl := min (max (ttlMs.getD claimTtlDefaultMs) claimTtlMinMs) claimTtlMaxMs
  let claim : SessionClaim := ⟨owner, now + ttl * 1000000⟩
  let granted := { d with sessionClaims := d.sessionClaims.insert sessionId claim }
  match d.sessionClaims.lookup sessionId with
  | some existing =>
    if existing.isLive now && existing.owner ≠ owner then .error existing.owner
    else .ok (claim, granted)
  | none => .ok (claim, granted)

def releaseSessionClaim (d : DaemonState) (sessionId owner : String) (now : Nat) :
    Bool × DaemonState :=
  match d.sessionClaims.lookup sessionId with
  | some existing =>
    if existing.owner = owner || !existing.isLive now then
      (true, { d with sessionClaims := d.sessionClaims.erase sessionId })
    else (false, d)
  | none => (true, d)

def sessionClaimOwner (d : DaemonState) (sessionId : String) (now : Nat) : Option String :=
  ((d.sessionClaims.lookup sessionId).filter fun claim => claim.isLive now).map (·.owner)

def mayWriteSession (d : DaemonState) (sessionId : String) (caller : Option String) (now : Nat) :
    Bool :=
  match d.sessionClaimOwner sessionId now with
  | none => true
  | some owner => caller == some owner

def pruneExpiredClaims (d : DaemonState) (now : Nat) : DaemonState :=
  { d with sessionClaims := FiniteMap.retain (fun _ claim => claim.isLive now) d.sessionClaims }

end DaemonState

/-! ## the session reaper

`session_reaper.rs`: a sweep lists the sessions of the backend, samples their activity, selects the
expired ones and kills them one after the other.  It runs on a thread of its own and takes no lock
that outlives a single read or write, so every step of it may be followed by any steps of the
sessions and their viewers.  A step ends where the sweep has read or written something others write
or read. -/

structure ReaperEntry where
  sessionId : String
  lastViewerActivity : Nat
  hasActiveSubscriber : Bool
  status : SessionStatus
  lastOutputAt : Nat

def isReapProtectedStatus (status : SessionStatus) : Bool :=
  status.isBusy || status = .initializing || status = .waitingInput

/-- `Duration::as_millis` -/
def ttlMillis (ttl : Nat) : Nat := ttl / 1000000

def ReaperEntry.isExpired (entry : ReaperEntry) (ttl now nowEpochMillis : Nat) : Bool :=
  !entry.hasActiveSubscriber && !isReapProtectedStatus entry.status &&
    now - entry.lastViewerActivity > ttl && nowEpochMillis - entry.lastOutputAt > ttlMillis ttl

/-- the expired sessions, the least recently viewed first -/
def selectExpired (entries : List ReaperEntry) (ttl now nowEpochMillis : Nat) : List String :=
  ((entries.filter fun entry => entry.isExpired ttl now nowEpochMillis).insertionSort
    fun a b => a.lastViewerActivity ≤ b.lastViewerActivity).map (·.sessionId)

/-- `None`: the reaper is off, or its ttl is zero -/
def sweepTtl (daemonOrphanReaperDisabled : Bool) (daemonOrphanTtlMinutes : Nat) : Option Nat :=
  if daemonOrphanReaperDisabled || daemonOrphanTtlMinutes = 0 then none
  else some (daemonOrphanTtlMinutes * 60 * 1000000000)

/-- what the sweep has found out about a session it is about to kill -/
inductive RecheckStage where
  | unsubscribed
  | timed (recheckNow : Nat)
  | unvisited

structure SweepSample where
  sessions : List BackendSession
  now : Nat
  nowEpochMillis : Nat
  activity : FiniteMap String Nat

inductive SweepPc where
  | sleeping
  | started (ttl : Nat)
  | listed (ttl : Nat) (sessions : List BackendSession)
  | timed (ttl : Nat) (sessions : List BackendSession) (now : Nat)
  | dated (ttl : Nat) (sessions : List BackendSession) (now nowEpochMillis : Nat)
  /-- the keys of `activity` that are still to be looked up -/
  | cleaning (ttl : Nat) (sample : SweepSample) (todo : List String)
  | building (ttl : Nat) (sample : SweepSample) (todo : List BackendSession)
      (entries : List ReaperEntry)
  | reaping (ttl : Nat) (todo : List String)
  | checking (ttl : Nat) (id : String) (stage : RecheckStage) (todo : List String)

/-- the thread of the reaper; `pending` is what is left of a `remove_session_activity` -/
structure Sweep where
  pending : List MapOp
  pc : SweepPc

inductive SweepAction where
  | wake (daemonOrphanReaperDisabled : Bool) (daemonOrphanTtlMinutes : Nat)
  /-- `get_all_status`, in the order of its hash map; `none` is an error -/
  | list (order : Option (List BackendSession))
  | readNow
  | readEpoch
  /-- `session_activity_snapshot`; `order` is the order of its keys -/
  | sample (order : List String)
  | clean
  | build
  | select
  | checkSubscriber
  | readRecheckNow
  | checkActivity
  | kill (ok : Bool)
  | op

namespace Sweep

def asleep : Sweep := ⟨[], .sleeping⟩

/-- one entry, where a session without activity is registered now -/
def buildEntry (d : DaemonState) (sample : SweepSample) (session : BackendSession)
    (clock : Nat) : DaemonState × ReaperEntry :=
  let known := sample.activity.lookup session.sessionId
  (match known with
    | some _ => d
    | none => d.apply clock (.touch session.sessionId),
    { sessionId := session.sessionId
      lastViewerActivity := known.getD sample.now
      hasActiveSubscriber := d.subscribed session.sessionId
      status := session.status
      lastOutputAt := session.lastOutputAt })

def reattached (d : DaemonState) (id : String) (recheckNow ttl : Nat) : Bool :=
  ((d.lastActivity.lookup id).map fun last => decide (recheckNow - last ≤ ttl)).getD false

def killSession (d : DaemonState) (id : String) : DaemonState :=
  { d with sessions := d.sessions.filter fun s => s.sessionId ≠ id }

def step (d : DaemonState) (clock wallClock : Nat) (sw : Sweep) :
    SweepAction → DaemonState × Sweep
  | .op =>
    match sw.pending with
    | o :: pending => (d.apply clock o, { sw with pending := pending })
    | [] => (d, sw)
  | a =>
    if sw.pending ≠ [] then (d, sw)
    else
      match a, sw.pc with
      | .wake disabled minutes, .sleeping =>
        match sweepTtl disabled minutes with
        | some ttl => (d, ⟨[], .started ttl⟩)
        | none => (d, sw)
      | .list none, .started _ => (d, asleep)
      | .list (some order), .started ttl =>
        if order.isPerm d.sessions then (d, ⟨[], .listed ttl order⟩) else (d, sw)
      | .readNow, .listed ttl sessions => (d, ⟨[], .timed ttl sessions clock⟩)
      | .readEpoch, .timed ttl sessions now => (d, ⟨[], .dated ttl sessions now wallClock⟩)
      | .sample order, .dated ttl sessions now nowEpochMillis =>
        if order.isPerm d.lastActivity.keys then
          (d, ⟨[], .cleaning ttl ⟨sessions, now, nowEpochMillis, d.lastActivity⟩ order⟩)
        else (d, sw)
      | .clean, .cleaning ttl sample [] => (d, ⟨[], .building ttl sample sample.sessions []⟩)
      | .clean, .cleaning ttl sample (id :: todo) =>
        if sample.sessions.any fun s => s.sessionId = id then
          (d, ⟨[], .cleaning ttl sample todo⟩)
        else (d, ⟨DaemonState.removeSessionActivity id, .cleaning ttl sample todo⟩)
      | .build, .building ttl sample (session :: todo) entries =>
        let (d', entry) := buildEntry d sample session clock
        (d', ⟨[], .building ttl sample todo (entries ++ [entry])⟩)
      | .select, .building ttl sample [] entries =>
        (d, ⟨[], .reaping ttl (selectExpired entries ttl sample.now sample.nowEpochMillis)⟩)
      | .checkSubscriber, .reaping _ [] => (d, asleep)
      | .checkSubscriber, .reaping ttl (id :: todo) =>
        if d.subscribed id then (d, ⟨[], .reaping ttl todo⟩)
        else (d, ⟨[], .checking ttl id .unsubscribed todo⟩)
      | .readRecheckNow, .checking ttl id .unsubscribed todo =>
        (d, ⟨[], .checking ttl id (.timed clock) todo⟩)
      | .checkActivity, .checking ttl id (.timed recheckNow) todo =>
        if reattached d id recheckNow ttl then (d, ⟨[], .reaping ttl todo⟩)
        else (d, ⟨[], .checking ttl id .unvisited todo⟩)
      | .kill ok, .checking ttl id .unvisited todo =>
        -- a failed kill is logged, the maps are cleaned all the same
        (if ok then killSession d id else d,
          ⟨DaemonState.removeSessionActivity id, .reaping ttl todo⟩)
      | _, _ => (d, sw)

inductive Step (d : DaemonState) (clock wallClock : Nat) :
    SweepAction → Sweep → DaemonState → Sweep → Prop where
  | op {o : MapOp} {pending : List MapOp} {pc : SweepPc} :
    Step d clock wallClock .op ⟨o :: pending, pc⟩ (d.apply clock o) ⟨pending, pc⟩
  | wake {disabled : Bool} {minutes ttl : Nat} (h : sweepTtl disabled minutes = some ttl) :
    Step d clock wallClock (.wake disabled minutes) asleep d ⟨[], .started ttl⟩
  | listFailed {ttl : Nat} : Step d clock wallClock (.list none) ⟨[], .started ttl⟩ d asleep
  | list {ttl : Nat} {order : List BackendSession} (h : order.Perm d.sessions) :
    Step d clock wallClock (.list (some order)) ⟨[], .started ttl⟩ d ⟨[], .listed ttl order⟩
  | readNow {ttl : Nat} {sessions : List BackendSession} :
    Step d clock wallClock .readNow ⟨[], .listed ttl sessions⟩ d ⟨[], .timed ttl sessions clock⟩
  | readEpoch {ttl : Nat} {sessions : List BackendSession} {now : Nat} :
    Step d clock wallClock .readEpoch ⟨[], .timed ttl sessions now⟩ d
      ⟨[], .dated ttl sessions now wallClock⟩
  | sample {ttl : Nat} {sessions : List BackendSession} {now nowEpochMillis : Nat}
      {order : List String} (h : order.Perm d.lastActivity.keys) :
    Step d clock wallClock (.sample order) ⟨[], .dated ttl sessions now nowEpochMillis⟩ d
      ⟨[], .cleaning ttl ⟨sessions, now, nowEpochMillis, d.lastActivity⟩ order⟩
  | cleanEnd {ttl : Nat} {sample : SweepSample} :
    Step d clock wallClock .clean ⟨[], .cleaning ttl sample []⟩ d
      ⟨[], .building ttl sample sample.sessions []⟩
  | cleanListed {ttl : Nat} {sample : SweepSample} {id : String} {todo : List String}
      (h : ∃ s ∈ sample.sessions, s.sessionId = id) :
    Step d clock wallClock .clean ⟨[], .cleaning ttl sample (id :: todo)⟩ d
      ⟨[], .cleaning ttl sample todo⟩
  | cleanGone {ttl : Nat} {sample : SweepSample} {id : String} {todo : List String}
      (h : ∀ s ∈ sample.sessions, s.sessionId ≠ id) :
    Step d clock wallClock .clean ⟨[], .cleaning ttl sample (id :: todo)⟩ d
      ⟨DaemonState.removeSessionActivity id, .cleaning ttl sample todo⟩
  | build {ttl : Nat} {sample : SweepSample} {session : BackendSession}
      {todo : List BackendSession} {entries : List ReaperEntry} {d' : DaemonState}
      {entry : ReaperEntry} (h : buildEntry d sample session clock = (d', entry)) :
    Step d clock wallClock .build ⟨[], .building ttl sample (session :: todo) entries⟩ d'
      ⟨[], .building ttl sample todo (entries ++ [entry])⟩
  | select {ttl : Nat} {sample : SweepSample} {entries : List ReaperEntry} :
    Step d clock wallClock .select ⟨[], .building ttl sample [] entries⟩ d
      ⟨[], .reaping ttl (selectExpired entries ttl sample.now sample.nowEpochMillis)⟩
  | rest {ttl : Nat} : Step d clock wallClock .checkSubscriber ⟨[], .reaping ttl []⟩ d asleep
  | subscribed {ttl : Nat} {id : String} {todo : List String} (h : d.subscribed id = true) :
    Step d clock wallClock .checkSubscriber ⟨[], .reaping ttl (id :: todo)⟩ d
      ⟨[], .reaping ttl todo⟩
  | unsubscribed {ttl : Nat} {id : String} {todo : List String} (h : d.subscribed id = false) :
    Step d clock wallClock .checkSubscriber ⟨[], .reaping ttl (id :: todo)⟩ d
      ⟨[], .checking ttl id .unsubscribed todo⟩
  | readRecheckNow {ttl : Nat} {id : String} {todo : List String} :
    Step d clock wallClock .readRecheckNow ⟨[], .checking ttl id .unsubscribed todo⟩ d
      ⟨[], .checking ttl id (.timed clock) todo⟩
  | visited {ttl : Nat} {id : String} {recheckNow : Nat} {todo : List String} :
    Step d clock wallClock .checkActivity ⟨[], .checking ttl id (.timed recheckNow) todo⟩ d
      ⟨[], .reaping ttl todo⟩
  | unvisited {ttl : Nat} {id : String} {recheckNow : Nat} {todo : List String}
      (h : ∀ last, d.lastActivity.lookup id = some last → ttl < recheckNow - last) :
    Step d clock wallClock .checkActivity ⟨[], .checking ttl id (.timed recheckNow) todo⟩ d
      ⟨[], .checking ttl id .unvisited todo⟩
  | kill {ttl : Nat} {id : String} {todo : List String} (ok : Bool) :
    Step d clock wallClock (.kill ok) ⟨[], .checking ttl id .unvisited todo⟩
      (if ok then killSession d id else d)
      ⟨DaemonState.removeSessionActivity id, .reaping ttl todo⟩

theorem step_spec (d : DaemonState) (clock wallClock : Nat) (sw : Sweep) (a : SweepAction) :
    step d clock wallClock sw a = (d, sw) ∨
      ∃ d' sw', step d clock wallClock sw a = (d', sw') ∧ Step d clock wallClock a sw d' sw' := by
  obtain ⟨pending, pc⟩ := sw
  fun_cases step d clock wallClock ⟨pending, pc⟩ a
  all_goals first
    | exact .inl rfl
    | refine .inr ⟨_, _, rfl, ?_⟩
      simp only [ne_eq, not_not] at *
      subst_vars
      constructor
  case case4 h _ => exact h
  case case7 h _ => exact List.isPerm_iff.mp h
  case case11 h _ => exact List.isPerm_iff.mp h
  case case14 h _ =>
    obtain ⟨s, hs, hid⟩ := List.any_eq_true.mp h
    exact ⟨s, hs, of_decide_eq_true hid⟩
  case case15 h _ =>
    intro s hs hid
    exact h (List.any_eq_true.mpr ⟨s, hs, decide_eq_true hid⟩)
  case case16 h _ => exact h
  case case19 h _ => exact h
  case case20 h _ => exact Bool.eq_false_iff.mpr h
  case case23 h _ =>
    intro last hlast
    unfold reattached at h
    rw [Bool.not_eq_true, hlast] at h
    exact Nat.lt_of_not_le (of_decide_eq_false h)

end Sweep

end CcPanes

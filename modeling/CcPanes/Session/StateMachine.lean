import CcPanes.Foundation.RecentMemory
import Mathlib.Logic.Function.Basic

/-!
# The session state machine

`SessionStateMachine` of `session_state_machine.rs`: one entry for each PTY session, moved by the
hook events that arrive over HTTP and over the OSC marks in the terminal output, and read by the
worker that submits queued prompts.  The mutex makes every operation one step.  An `Instant` is a
number of nanoseconds; the clock readings of an operation are its `Clock` argument.  A payload is
what the four `extract_*` functions find in the JSON, the matcher of a tool event is never read.
-/

namespace CcPanes
open Function

inductive SessionStatus where
  | initializing
  | idle
  | thinking
  | toolRunning
  | compacting
  | waitingInput
  | error
  | exited
  | active
  deriving DecidableEq

def SessionStatus.isBusy : SessionStatus → Bool
  | thinking | toolRunning | compacting | active => true
  | _ => false

inductive CcPaneEvent where
  | sessionInit
  | sessionResume
  | sessionEnd
  | promptBefore
  | toolBefore
  | toolAfter
  | turnEnd
  | beforeCompact
  | waitingInput
  | error
  deriving DecidableEq

def ccPaneEventName : CcPaneEvent → String
  | .sessionInit => "session-init"
  | .sessionResume => "session-resume"
  | .sessionEnd => "session-end"
  | .promptBefore => "prompt-before"
  | .toolBefore => "tool-before"
  | .toolAfter => "tool-after"
  | .turnEnd => "turn-end"
  | .beforeCompact => "before-compact"
  | .waitingInput => "waiting-input"
  | .error => "error"

/-- the event of an OSC mark, which carries only the name -/
def parseCcPaneEventName (name : String) : Option CcPaneEvent :=
  if name = "session-init" then some .sessionInit
  else if name = "session-resume" then some .sessionResume
  else if name = "session-end" then some .sessionEnd
  else if name = "prompt-before" then some .promptBefore
  else if name = "tool-before" then some .toolBefore
  else if name = "tool-after" then some .toolAfter
  else if name = "turn-end" then some .turnEnd
  else if name = "before-compact" then some .beforeCompact
  else if name = "waiting-input" then some .waitingInput
  else if name = "error" then some .error
  else none

theorem parse_ccPaneEventName (event : CcPaneEvent) :
    parseCcPaneEventName (ccPaneEventName event) = some event := by
  cases event <;> decide

theorem ccPaneEventName_inj {a b : CcPaneEvent} (h : ccPaneEventName a = ccPaneEventName b) :
    a = b := by
  have hsome : some a = some b := by
    rw [← parse_ccPaneEventName a, h, parse_ccPaneEventName b]
  exact Option.some.inj hsome

inductive EventChannel where
  | http
  | osc
  deriving DecidableEq

def crossChannelDedupWindowSecs : Nat := 2
def dedupMemory : Nat := 4
def automaticSubmitPtyIdleMs : Nat := 800
def automaticSubmitFallbackIdleMs : Nat := 6000

structure Clock where
  instant : Nat
  epochMillis : Nat

structure HookPayload where
  toolName : Option String
  toolUseId : Option String
  toolSummary : Option String
  errorType : Option String

structure AppliedEvent where
  name : String
  at_ : Nat
  channel : EventChannel

structure SessionStateEntry where
  status : SessionStatus
  currentToolName : Option String
  currentToolSummary : Option String
  lastHookEventAt : Nat
  lastAppliedEvents : List AppliedEvent
  updatedAt : Nat
  currentToolUseId : Option String
  turnSeq : Nat
  taskBindingId : Option String
  automaticSubmitObserved : Bool
  automaticSubmitPtyGuard : Bool

structure StateTransition where
  ptySessionId : String
  fromStatus : SessionStatus
  toStatus : SessionStatus
  turnSeq : Nat
  toolUseId : Option String
  toolName : Option String
  taskBindingId : Option String
  triggerEvent : String
  errorType : Option String

def elapsed (now since : Nat) : Nat := now - since
def asSecs (nanos : Nat) : Nat := nanos / 1000000000
def asMillis (nanos : Nat) : Nat := nanos / 1000000

namespace SessionStateEntry

def new (clock : Clock) : SessionStateEntry where
  status := .initializing
  currentToolName := none
  currentToolSummary := none
  lastHookEventAt := clock.instant
  lastAppliedEvents := []
  updatedAt := clock.epochMillis
  currentToolUseId := none
  turnSeq := 0
  taskBindingId := none
  automaticSubmitObserved := true
  automaticSubmitPtyGuard := false

def newAutomaticSubmitBaseline (clock : Clock) : SessionStateEntry :=
  { new clock with automaticSubmitObserved := false }

def isCrossChannelDup (e : SessionStateEntry) (eventName : String) (channel : EventChannel)
    (now : Nat) : Bool :=
  e.lastAppliedEvents.any fun a =>
    a.name == eventName && a.channel != channel &&
      decide (asSecs (elapsed now a.at_) < crossChannelDedupWindowSecs)

def observe (e : SessionStateEntry) (eventName : String) (taskBindingId : Option String)
    (channel : EventChannel) (clock : Clock) : SessionStateEntry :=
  { e with
    automaticSubmitObserved := true
    lastAppliedEvents :=
      RecentMemory.remember dedupMemory e.lastAppliedEvents ⟨eventName, clock.instant, channel⟩
    taskBindingId := taskBindingId.or e.taskBindingId
    lastHookEventAt := clock.instant
    updatedAt := clock.epochMillis }

def clearTool (e : SessionStateEntry) : SessionStateEntry :=
  { e with currentToolName := none, currentToolSummary := none }

/-- the state table; the last two components are `tool_use_id_change` and `tool_name_change` -/
def transfer (e : SessionStateEntry) (payload : HookPayload) :
    CcPaneEvent → SessionStateEntry × Option String × Option String
  | .sessionInit | .sessionResume => ({ e with status := .initializing }, none, none)
  | .promptBefore => ({ e with status := .thinking }, none, none)
  | .toolBefore =>
    let toolName := payload.toolName.getD "tool"
    ({ e with
        currentToolUseId := payload.toolUseId
        currentToolName := some toolName
        currentToolSummary := payload.toolSummary
        status := .toolRunning }, payload.toolUseId, some toolName)
  | .toolAfter =>
    ({ e.clearTool with
        currentToolUseId := none
        status := if e.status = .toolRunning then .thinking else e.status },
      e.currentToolUseId, none)
  | .turnEnd => ({ e.clearTool with turnSeq := e.turnSeq + 1, status := .idle }, none, none)
  | .beforeCompact => ({ e.clearTool with status := .compacting }, none, none)
  | .waitingInput => ({ e.clearTool with status := .waitingInput }, payload.toolUseId, none)
  | .error => ({ e.clearTool with status := .error }, none, none)
  | .sessionEnd => ({ e.clearTool with status := .exited }, none, none)

end SessionStateEntry

open SessionStateEntry

structure SessionStateMachine where
  entries : String → Option SessionStateEntry

namespace SessionStateMachine

def new : SessionStateMachine := ⟨fun _ => none⟩

def setEntry (m : SessionStateMachine) (ptySessionId : String) (e : SessionStateEntry) :
    SessionStateMachine :=
  ⟨Function.update m.entries ptySessionId (some e)⟩

/-- the entry `or_insert_with(SessionStateEntry::new)` finds or makes -/
def entryOrNew (m : SessionStateMachine) (ptySessionId : String) (clock : Clock) :
    SessionStateEntry :=
  (m.entries ptySessionId).getD (SessionStateEntry.new clock)

def entryOrBaseline (m : SessionStateMachine) (ptySessionId : String) (clock : Clock) :
    SessionStateEntry :=
  (m.entries ptySessionId).getD (newAutomaticSubmitBaseline clock)

def registerForAutomaticSubmit (m : SessionStateMachine) (ptySessionId : String)
    (clock : Clock) : SessionStateMachine × Nat :=
  let e := m.entryOrBaseline ptySessionId clock
  (m.setEntry ptySessionId { e with automaticSubmitPtyGuard := true }, e.lastHookEventAt)

def markAutomaticSubmitStarted (m : SessionStateMachine) (ptySessionId : String)
    (clock : Clock) : SessionStateMachine :=
  m.setEntry ptySessionId
    { m.entryOrBaseline ptySessionId clock with
      automaticSubmitObserved := false
      lastHookEventAt := clock.instant
      updatedAt := clock.epochMillis }

/-- the machine, the pair the hook gets back, and the transition the listeners get -/
def onEventWithChannel (m : SessionStateMachine) (ptySessionId : String) (event : CcPaneEvent)
    (taskBindingId : Option String) (payload : HookPayload) (channel : EventChannel)
    (clock : Clock) :
    SessionStateMachine × (SessionStatus × SessionStatus) × Option StateTransition :=
  let e := m.entryOrNew ptySessionId clock
  if e.isCrossChannelDup (ccPaneEventName event) channel clock.instant then
    (m.setEntry ptySessionId e, (e.status, e.status), none)
  else
    let observed := e.observe (ccPaneEventName event) taskBindingId channel clock
    let (e', toolUseIdChange, toolNameChange) := observed.transfer payload event
    let transition : StateTransition :=
      { ptySessionId := ptySessionId
        fromStatus := e.status
        toStatus := e'.status
        turnSeq := e'.turnSeq
        toolUseId := toolUseIdChange
        toolName := toolNameChange
        taskBindingId := e'.taskBindingId
        triggerEvent := ccPaneEventName event
        errorType := if event = .error then payload.errorType else none }
    let shouldNotify := e.status ≠ e'.status ∨ event = .toolBefore
    (m.setEntry ptySessionId e', (e.status, e'.status),
      if shouldNotify then some transition else none)

def onEvent (m : SessionStateMachine) (ptySessionId : String) (event : CcPaneEvent)
    (taskBindingId : Option String) (payload : HookPayload) (clock : Clock) :
    SessionStateMachine × (SessionStatus × SessionStatus) × Option StateTransition :=
  m.onEventWithChannel ptySessionId event taskBindingId payload .http clock

def forceExited (m : SessionStateMachine) (ptySessionId : String) (clock : Clock) :
    SessionStateMachine × Option StateTransition :=
  match m.entries ptySessionId with
  | none => (m, none)
  | some e =>
    if e.status = .exited then (m, none)
    else
      (m.setEntry ptySessionId
          { e.clearTool with
            status := .exited
            currentToolUseId := none
            updatedAt := clock.epochMillis },
        some
          { ptySessionId := ptySessionId
            fromStatus := e.status
            toStatus := .exited
            turnSeq := e.turnSeq
            toolUseId := none
            toolName := none
            taskBindingId := e.taskBindingId
            triggerEvent := "pty-exit"
            errorType := none })

def statusForAutomaticSubmitAt (m : SessionStateMachine) (ptySessionId : String)
    (backendStatus : SessionStatus) (ptyOutputStale : Bool) (now : Nat) : SessionStatus :=
  if backendStatus = .exited ∨ backendStatus = .error then backendStatus
  else
    match m.entries ptySessionId with
    | none => .initializing
    | some e =>
      let stale := decide
        (asMillis (elapsed now e.lastHookEventAt) ≥ automaticSubmitFallbackIdleMs)
      if !e.automaticSubmitObserved then
        if backendStatus = .idle && stale && ptyOutputStale then .idle else .initializing
      else if e.status = .idle then
        if !e.automaticSubmitPtyGuard || ptyOutputStale then .idle else .initializing
      else if e.status = .waitingInput then .waitingInput
      else if e.status.isBusy then
        if stale && ptyOutputStale then .idle else e.status
      else e.status

def statusForAutomaticSubmit (m : SessionStateMachine) (ptySessionId : String)
    (backendStatus : SessionStatus) (lastOutputAt : Nat) (clock : Clock) : SessionStatus :=
  let ptyOutputStale := decide (clock.epochMillis - lastOutputAt > automaticSubmitPtyIdleMs)
  m.statusForAutomaticSubmitAt ptySessionId backendStatus ptyOutputStale clock.instant

end SessionStateMachine

def nextStatus (s : SessionStatus) : CcPaneEvent → SessionStatus
  | .sessionInit | .sessionResume => .initializing
  | .promptBefore => .thinking
  | .toolBefore => .toolRunning
  | .toolAfter => if s = .toolRunning then .thinking else s
  | .turnEnd => .idle
  | .beforeCompact => .compacting
  | .waitingInput => .waitingInput
  | .error => .error
  | .sessionEnd => .exited

def nextTurnSeq (n : Nat) (event : CcPaneEvent) : Nat := if event = .turnEnd then n + 1 else n

section
variable (e : SessionStateEntry) (payload : HookPayload) (event : CcPaneEvent)
include e payload event

theorem transfer_status :
    (e.transfer payload event).1.status = nextStatus e.status event := by
  cases event <;> rfl

theorem transfer_turnSeq :
    (e.transfer payload event).1.turnSeq = nextTurnSeq e.turnSeq event := by
  cases event <;> rfl

theorem transfer_bookkeeping :
    (e.transfer payload event).1.lastAppliedEvents = e.lastAppliedEvents ∧
    (e.transfer payload event).1.lastHookEventAt = e.lastHookEventAt ∧
    (e.transfer payload event).1.automaticSubmitObserved = e.automaticSubmitObserved ∧
    (e.transfer payload event).1.automaticSubmitPtyGuard = e.automaticSubmitPtyGuard := by
  cases event <;> exact ⟨rfl, rfl, rfl, rfl⟩

end

namespace SessionStateMachine

theorem setEntry_self (m : SessionStateMachine) (sid : String) (e : SessionStateEntry) :
    (m.setEntry sid e).entries sid = some e := by
  show update m.entries sid (some e) sid = some e
  rw [update_self]

theorem setEntry_other (m : SessionStateMachine) {sid sid' : String} (e : SessionStateEntry)
    (h : sid' ≠ sid) : (m.setEntry sid e).entries sid' = m.entries sid' := by
  show update m.entries sid (some e) sid' = m.entries sid'
  rw [update_of_ne h]

def appliedEntry (m : SessionStateMachine) (sid : String) (event : CcPaneEvent)
    (taskBindingId : Option String) (payload : HookPayload) (channel : EventChannel)
    (clock : Clock) : SessionStateEntry :=
  (((m.entryOrNew sid clock).observe (ccPaneEventName event) taskBindingId channel
    clock).transfer payload event).1

theorem onEvent_dropped {m : SessionStateMachine} {sid : String} {event : CcPaneEvent}
    {channel : EventChannel} {clock : Clock} (taskBindingId : Option String)
    (payload : HookPayload)
    (h : (m.entryOrNew sid clock).isCrossChannelDup (ccPaneEventName event) channel
      clock.instant = true) :
    (m.onEventWithChannel sid event taskBindingId payload channel clock).1 =
      m.setEntry sid (m.entryOrNew sid clock) := by
  unfold onEventWithChannel
  simp only [h, if_true]

theorem onEvent_applied {m : SessionStateMachine} {sid : String} {event : CcPaneEvent}
    {channel : EventChannel} {clock : Clock} (taskBindingId : Option String)
    (payload : HookPayload)
    (h : (m.entryOrNew sid clock).isCrossChannelDup (ccPaneEventName event) channel
      clock.instant = false) :
    (m.onEventWithChannel sid event taskBindingId payload channel clock).1 =
      m.setEntry sid (m.appliedEntry sid event taskBindingId payload channel clock) := by
  unfold onEventWithChannel appliedEntry
  simp only [h, Bool.false_eq_true, if_false]

end SessionStateMachine
end CcPanes

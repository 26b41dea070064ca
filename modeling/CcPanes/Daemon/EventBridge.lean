import CcPanes.Foundation.MarkedStream
import CcPanes.Terminal.ReplayBuffer

/-!
# The event bridge of a daemon session

`TerminalDaemonEventBridge::run_session` passes the output of one daemon session on to the webview:
over a websocket while there is one, by polling snapshots while there is none.

A poll asks the daemon and handles the answer later (`ask`, `receive`); meanwhile the session goes
on.  The server subscribes some time after the client is connected (`connect`, `subscribe`).
Sequence numbers are byte positions, text is its UTF-8 bytes.  The status events are left out.
History, which no function reads: `produced`, the `stop` of a frame, `start` in an output event,
`viewStart`, `reading` and what an answer says beside the snapshot.
-/

namespace CcPanes.EventBridge

open MarkedStream

/-! ## the cursor -/

inductive CursorDelta where
  | unchanged
  | data (d : Bytes)
  | resync
  deriving DecidableEq

structure OutputCursor where
  epoch : Option Nat
  endSeq : Option Nat

/-- `str::is_char_boundary`: no continuation byte stands there -/
def isCharBoundary (data : Bytes) (i : Nat) : Bool :=
  i == 0 || i == data.length || data[i]?.any fun b => b < 0x80 || 0xc0 ≤ b

/-- `data.get(offset..)` -/
def getFrom (data : Bytes) (offset : Nat) : Option Bytes :=
  if isCharBoundary data offset then some (data.drop offset) else none

namespace OutputCursor

def reset : OutputCursor := ⟨none, none⟩

def stream (c : OutputCursor) (endSeq : Nat) (data : Bytes) : OutputCursor × CursorDelta :=
  if c.endSeq.any (endSeq ≤ ·) then (c, .unchanged)
  else
    let c' := { c with endSeq := some endSeq }
    if endSeq < data.length then (c', .resync)
    else
      match c.endSeq with
      | none => (c', .data data)
      | some previous =>
        if previous < endSeq - data.length then (c', .resync)
        else
          match getFrom data (previous - (endSeq - data.length)) with
          | some [] => (c', .unchanged)
          | some delta => (c', .data delta)
          | none => (c', .resync)

def recovery (c : OutputCursor) (epoch endSeq : Nat) (data : Bytes) : OutputCursor × CursorDelta :=
  let epochChanged := c.epoch.any (· ≠ epoch)
  let c' := { c with epoch := some epoch }
  if epochChanged || c.endSeq.isNone then ({ c' with endSeq := some endSeq }, .resync)
  else if c.endSeq.any (endSeq < ·) then ({ c' with endSeq := some endSeq }, .resync)
  else c'.stream endSeq data

end OutputCursor

inductive SnapshotDelta where
  | unchanged
  | delta (d : Bytes)
  | mismatch

def replaySnapshotDelta (previous current : Bytes) : SnapshotDelta :=
  if current = [] then .unchanged
  else if previous = [] then .delta current
  else if current = previous then .unchanged
  else if previous.isPrefixOf current then .delta (current.drop previous.length)
  else .mismatch

/-! ## the frames of a websocket -/

structure OutputFrame where
  data : Bytes
  endSeq : Option Nat
  /-- where in the session's output the frame ends -/
  stop : Nat

namespace OutputFrame

def start (f : OutputFrame) : Nat := f.stop - f.data.length

end OutputFrame

/-- the messages without output -/
inductive Notice where
  | exit (exitCode : Int)
  | killed (reason : Option String)
  | unknown

/-- `DaemonStreamMessage` -/
inductive Frame where
  | output (f : OutputFrame)
  | desync
  | notice (n : Notice)

def Frame.item : Frame → Option (Item UInt8)
  | .output f => some (.stretch f.start f.data)
  | .desync => some .mark
  | .notice _ => none

/-- the daemon's subscriber: what it enqueued and the client has not read, and the flags -/
structure Subscription where
  frames : List Frame
  desynced : Bool
  hidden : Bool
  droppedWhileHidden : Bool

/-! Every operation says how much room the channel has. -/

namespace Subscription

def new : Subscription := ⟨[], false, false, false⟩

def enqueue (s : Subscription) (f : Frame) : Subscription :=
  { s with frames := s.frames ++ [f] }

def deliverMessage (s : Subscription) (f : Frame) (dropOnFull : Bool) (room : Nat) :
    Subscription :=
  match room with
  | 0 => if dropOnFull then { s with desynced := true } else s
  | _ + 1 => s.enqueue f

def deliver (s : Subscription) (f : Frame) (dropOnFull : Bool) (room : Nat) : Subscription :=
  if s.hidden && dropOnFull then { s with droppedWhileHidden := true }
  else if s.desynced then
    -- the mark goes in first; while it does not fit, everything is skipped
    match room with
    | 0 => s
    | room + 1 => deliverMessage { s.enqueue .desync with desynced := false } f dropOnFull room
  else s.deliverMessage f dropOnFull room

/-- the body of the loop of `signal_desync` -/
def signal (s : Subscription) (room : Nat) : Subscription :=
  if s.hidden then { s with droppedWhileHidden := true }
  else
    match room with
    | 0 => { s with desynced := true }
    | _ + 1 => { s.enqueue .desync with desynced := false }

/-- the body of the loop of `set_hidden_sessions` -/
def setHidden (s : Subscription) (shouldHide : Bool) (room : Nat) : Subscription :=
  if shouldHide then { s with hidden := true }
  else if s.hidden then
    if s.droppedWhileHidden then
      let s := { s with hidden := false, droppedWhileHidden := false }
      match room with
      | 0 => { s with desynced := true }
      | _ + 1 => s.enqueue .desync
    else { s with hidden := false }
  else s

def clearHidden (s : Subscription) : Subscription :=
  { s with hidden := false, droppedWhileHidden := false }

end Subscription

/-! ## the bridge -/

/-- what the webview gets; `start` is where in the session's output the data begins -/
inductive ViewEvent where
  | output (data : Bytes) (endSeq : Option Nat) (start : Nat)
  | desync
  | killed (reason : String)
  | exit (exitCode : Int)

def ViewEvent.item : ViewEvent → Option (Item UInt8)
  | .output data _ start => some (.stretch start data)
  | .desync => some .mark
  | .killed _ => none
  | .exit _ => none

structure SessionBridgeState where
  lastSnapshot : Bytes
  terminalExitEmitted : Bool
  outputCursor : OutputCursor
  legacySnapshots : Bool

/-- where `run_session` is; `attached` holds a snapshot and has not been started -/
inductive Phase where
  | idle
  | attached
  | connecting
  | streaming
  | polling
  | catchUp
  | ended
  deriving DecidableEq

/-- what the daemon answers; a legacy snapshot was taken at `stop` and ends with `tail` bytes of the
session's output -/
inductive Answer where
  | recovery (s : TerminalRecoverySnapshot)
  | replay (s : TerminalReplaySnapshot) (stop tail : Nat)
  | gone
  | unsupported
  | failed
  deriving DecidableEq

inductive Poll where
  | idle
  | asking
  | answered (a : Answer)
  deriving DecidableEq

inductive Outcome where
  | answered
  | gone
  | unsupported
  | failed
  deriving DecidableEq

structure BridgeWorld where
  produced : Bytes
  replay : ReplayBuffer
  batch : Bytes
  batchEndSeq : Nat
  subscription : Option Subscription
  phase : Phase
  poll : Poll
  state : SessionBridgeState
  events : List ViewEvent
  /-- where the view begins -/
  viewStart : Nat
  /-- where the last output frame of this connection ended, unless a gap was announced since -/
  reading : Option Nat

namespace BridgeWorld

def init (maxBytes epoch : Nat) : BridgeWorld where
  produced := []
  replay := .new maxBytes epoch
  batch := []
  batchEndSeq := 0
  subscription := none
  phase := .idle
  poll := .idle
  state := ⟨[], false, .reset, false⟩
  events := []
  viewStart := 0
  reading := none

/-! ### the daemon -/

/-- the PTY reader: the chunk goes into the replay buffer and, if the channel has room, into the
batch; a chunk that is skipped is announced at once -/
def produce (w : BridgeWorld) (data : Bytes) (queued : Bool) (room : Nat) : BridgeWorld :=
  let replay := w.replay.push data
  let w' := { w with produced := w.produced ++ data, replay := replay }
  if queued then { w' with batch := w.batch ++ data, batchEndSeq := replay.pushedSeq }
  else { w' with subscription := w.subscription.map (·.signal room) }

/-- the batching thread; `seq` is false where the last chunk had no sequence number -/
def flush (w : BridgeWorld) (seq : Bool) (room : Nat) : BridgeWorld :=
  if w.batch = [] then w
  else
    let f : OutputFrame := ⟨w.batch, if seq then some w.batchEndSeq else none, w.batchEndSeq⟩
    { w with
      batch := []
      subscription := w.subscription.map (·.deliver (.output f) true room) }

def notify (w : BridgeWorld) (n : Notice) (room : Nat) : BridgeWorld :=
  { w with subscription := w.subscription.map (·.deliver (.notice n) false room) }

def signalDesync (w : BridgeWorld) (room : Nat) : BridgeWorld :=
  { w with subscription := w.subscription.map (·.signal room) }

def setHiddenSession (w : BridgeWorld) (shouldHide : Bool) (room : Nat) : BridgeWorld :=
  { w with subscription := w.subscription.map (·.setHidden shouldHide room) }

def clearConnectionHidden (w : BridgeWorld) : BridgeWorld :=
  { w with subscription := w.subscription.map (·.clearHidden) }

/-- `handle_ws`, after the upgrade -/
def subscribe (w : BridgeWorld) : BridgeWorld :=
  if w.subscription = none then { w with subscription := some .new } else w

/-! ### the events -/

/-- `emit_to_webview` -/
def emit (w : BridgeWorld) (e : ViewEvent) : BridgeWorld := { w with events := w.events ++ [e] }

/-- `emit_cursor_delta`, for data that ends at `stop` -/
def emitCursorDelta (w : BridgeWorld) (delta : CursorDelta) (endSeq : Option Nat) (stop : Nat) :
    BridgeWorld :=
  match delta with
  | .unchanged => w
  | .data d => w.emit (.output d endSeq (stop - d.length))
  | .resync => w.emit .desync

def emitTerminalExitOnce (w : BridgeWorld) (exitCode : Int) : BridgeWorld :=
  if w.state.terminalExitEmitted then w
  else ({ w with state := { w.state with terminalExitEmitted := true } }).emit (.exit exitCode)

def setCursor (w : BridgeWorld) (c : OutputCursor) : BridgeWorld :=
  { w with state := { w.state with outputCursor := c } }

/-! ### the websocket -/

def handleOutput (w : BridgeWorld) (f : OutputFrame) : BridgeWorld :=
  let (cursor, delta) := match f.endSeq with
    | some seq => w.state.outputCursor.stream seq f.data
    | none => (.reset, .data f.data)
  ({ w.setCursor cursor with reading := some (f.start + f.data.length) }).emitCursorDelta
    delta f.endSeq f.stop

/-- `run_session` returns and drops the socket -/
def finish (w : BridgeWorld) : BridgeWorld :=
  { w with phase := .ended, subscription := none, reading := none }

def handleNotice (w : BridgeWorld) : Notice → BridgeWorld
  | .exit exitCode => (w.emitTerminalExitOnce exitCode).finish
  | .killed reason =>
    ((w.emit (.killed (reason.getD "unknown"))).emitTerminalExitOnce (-1)).finish
  | .unknown => w

def handleStreamMessage (w : BridgeWorld) : Frame → BridgeWorld
  | .output f => w.handleOutput f
  | .desync => ({ w.setCursor .reset with reading := none }).emit .desync
  | .notice n => w.handleNotice n

def read (w : BridgeWorld) : BridgeWorld :=
  match w.phase, w.subscription with
  | .streaming, some s =>
    match s.frames with
    | f :: rest => ({ w with subscription := some { s with frames := rest } }).handleStreamMessage f
    | [] => w
  | _, _ => w

/-! ### the snapshots -/

def ask (w : BridgeWorld) (outcome : Outcome) : BridgeWorld :=
  if w.poll = .asking ∨ (w.phase = .polling ∧ w.poll = .idle) then
    let answer := match outcome with
      | .answered =>
        if w.state.legacySnapshots then
          .replay w.replay.snapshot w.produced.length w.replay.chunks.flatten.length
        else .recovery w.replay.recoverySnapshot
      | .gone => .gone
      | .unsupported => if w.state.legacySnapshots then .failed else .unsupported
      | .failed => .failed
    { w with poll := .answered answer }
  else w

/-- `apply_snapshot_delta` and the events of `poll_legacy_snapshot` -/
def applySnapshotDelta (w : BridgeWorld) (current : Bytes) (stop : Nat) : BridgeWorld :=
  match replaySnapshotDelta w.state.lastSnapshot current with
  | .unchanged => w
  | .delta d =>
    ({ w with state := { w.state with lastSnapshot := current } }).emit
      (.output d none (stop - d.length))
  | .mismatch => ({ w with state := { w.state with lastSnapshot := current } }).emit .desync

def applyRecovery (w : BridgeWorld) (s : TerminalRecoverySnapshot) : BridgeWorld :=
  let (cursor, delta) := w.state.outputCursor.recovery s.checkpointEpoch s.endSeq s.delta
  (w.setCursor cursor).emitCursorDelta delta (some s.endSeq) s.endSeq

/-- after a reconnect, a failed catch-up asks for a screen recovery -/
def catchUpFailed (w : BridgeWorld) : BridgeWorld :=
  if w.phase = .catchUp then w.emitCursorDelta .resync none 0 else w

/-- the poll is over: a reconnected bridge goes on with its websocket -/
def pollDone (w : BridgeWorld) : BridgeWorld :=
  { w with poll := .idle, phase := if w.phase = .catchUp then .streaming else w.phase }

/-- `poll_snapshot`, once the daemon has answered -/
def receive (w : BridgeWorld) : BridgeWorld :=
  match w.poll with
  | .answered (.recovery s) => (w.applyRecovery s).pollDone
  | .answered (.replay s stop _) => (w.applySnapshotDelta s.data stop).pollDone
  | .answered .gone => w.pollDone
  | .answered .failed => w.catchUpFailed.pollDone
  | .answered .unsupported =>
    { w with
      poll := .asking
      state := { w.state with legacySnapshots := true, outputCursor := .reset } }
  | _ => w

/-! ### the life of a bridge -/

/-- the snapshot of `start_session_after_replay` -/
def attach (w : BridgeWorld) : BridgeWorld :=
  if w.phase = .idle then
    { w with
      phase := .attached
      viewStart := w.produced.length
      state := { w.state with lastSnapshot := w.replay.snapshot.data } }
  else w

def startSession (w : BridgeWorld) : BridgeWorld :=
  if w.phase = .idle ∨ w.phase = .attached then { w with phase := .connecting } else w

def connect (w : BridgeWorld) : BridgeWorld :=
  if w.phase = .connecting then { w with phase := .streaming }
  else if w.phase = .polling ∧ w.poll = .idle then { w with phase := .catchUp, poll := .asking }
  else w

/-- `initial_websocket` gives up -/
def unavailable (w : BridgeWorld) : BridgeWorld :=
  if w.phase = .connecting then { w with phase := .polling, subscription := none } else w

/-- the connection is lost, with the frames in flight; or a handshake failed half-way -/
def lose (w : BridgeWorld) : BridgeWorld :=
  if w.phase = .streaming then
    { w with phase := .polling, subscription := none, reading := none }
  else if w.phase = .connecting ∨ w.phase = .polling then { w with subscription := none }
  else w

def stop (w : BridgeWorld) : BridgeWorld :=
  if (w.phase = .streaming ∨ w.phase = .polling) ∧ w.poll = .idle then
    (w.emitTerminalExitOnce (-1)).finish
  else w

end BridgeWorld

inductive BridgeAction where
  | produce (data : Bytes) (queued : Bool) (room : Nat)
  | flush (seq : Bool) (room : Nat)
  | notify (n : Notice) (room : Nat)
  | signalDesync (room : Nat)
  | setHiddenSession (shouldHide : Bool) (room : Nat)
  | clearConnectionHidden
  | shrink (maxBytes : Nat)
  | storeCheckpoint (cp : TerminalCheckpoint)
  | subscribe
  | attach
  | startSession
  | connect
  | unavailable
  | lose
  | read
  | ask (outcome : Outcome)
  | receive
  | stop

def step (w : BridgeWorld) : BridgeAction → BridgeWorld
  | .produce data queued room => w.produce data queued room
  | .flush seq room => w.flush seq room
  | .notify n room => w.notify n room
  | .signalDesync room => w.signalDesync room
  | .setHiddenSession shouldHide room => w.setHiddenSession shouldHide room
  | .clearConnectionHidden => w.clearConnectionHidden
  | .shrink maxBytes => { w with replay := w.replay.shrink maxBytes }
  | .storeCheckpoint cp => { w with replay := (w.replay.storeCheckpoint cp).1 }
  | .subscribe => w.subscribe
  | .attach => w.attach
  | .startSession => w.startSession
  | .connect => w.connect
  | .unavailable => w.unavailable
  | .lose => w.lose
  | .read => w.read
  | .ask outcome => w.ask outcome
  | .receive => w.receive
  | .stop => w.stop

end CcPanes.EventBridge

import Mathlib.Logic.Function.Basic
import CcPanes.Foundation.BoundedChannel

/-!
# The daemon's session stream

`WsEmitter` mirrors the output of every session to its websocket subscribers, each behind a bounded
channel.  A subscriber that misses output must hear of it: `desync` tells the client to rebuild the
screen from a snapshot.

`trace` and `offered` are history variables: they record what happened to a subscriber and nothing
reads them.
-/

namespace CcPanes

open BoundedChannel

def sessionChannelCapacity : Nat := 256

structure Output where
  data : String
  endSeq : Option Nat

/-- the JSON messages of a session websocket -/
inductive Message
  | output (o : Output)
  | desync
  | exit (exitCode : Int)
  | killed (reason : String)

/-- the messages that go over control when the session stream did not take them -/
inductive ControlMessage
  | sessionExited (sessionId : String) (exitCode : Int)
  | sessionKilled (sessionId : String) (reason : String)

/-- what happens to a subscriber, in order -/
inductive StreamEvent
  | enqueued (m : Message)
  | missed (o : Output)
  | signalled

structure SessionSubscriber where
  tx : Channel Message sessionChannelCapacity
  desynced : Bool
  connectionId : Option String
  hidden : Bool
  droppedWhileHidden : Bool
  trace : List StreamEvent
  offered : List Output

namespace SessionSubscriber

def new (connectionId : Option String) : SessionSubscriber where
  tx := Channel.new
  desynced := false
  connectionId := connectionId
  hidden := false
  droppedWhileHidden := false
  trace := []
  offered := []

/-- `sub.tx.try_send(msg)` -/
def trySend (sub : SessionSubscriber) (msg : Message) : Except TrySendError SessionSubscriber :=
  match sub.tx.trySend msg with
  | .ok tx => .ok { sub with tx := tx, trace := sub.trace ++ [.enqueued msg] }
  | .error e => .error e

/-- the second half of `deliver`: the message itself -/
def deliverMessage (sub : SessionSubscriber) (msg : Message) (dropOnFull : Bool) :
    SessionSubscriber × Bool :=
  match sub.trySend msg with
  | .ok sub' => (sub', true)
  | .error .full => (if dropOnFull then { sub with desynced := true } else sub, false)
  | .error .closed => (sub, false)

def deliver (sub : SessionSubscriber) (msg : Message) (dropOnFull : Bool) :
    SessionSubscriber × Bool :=
  if sub.hidden && dropOnFull then ({ sub with droppedWhileHidden := true }, false)
  else if sub.desynced then
    -- the mark goes in first; while it does not fit, everything is skipped
    match sub.trySend .desync with
    | .ok sub' => deliverMessage { sub' with desynced := false } msg dropOnFull
    | .error _ => (sub, false)
  else deliverMessage sub msg dropOnFull

/-- history: an output was offered, and perhaps missed -/
def note (msg : Message) (accepted : Bool) (sub : SessionSubscriber) : SessionSubscriber :=
  match msg with
  | .output o =>
    { sub with
      offered := sub.offered ++ [o]
      trace := if accepted then sub.trace else sub.trace ++ [.missed o] }
  | _ => sub

def deliverNoted (msg : Message) (dropOnFull : Bool) (sub : SessionSubscriber) :
    SessionSubscriber × Bool :=
  let (sub', accepted) := sub.deliver msg dropOnFull
  (note msg accepted sub', accepted)

/-- the body of the loop of `set_hidden_sessions`, for a subscriber of the connection -/
def setHidden (shouldHide : Bool) (sub : SessionSubscriber) : SessionSubscriber :=
  if shouldHide then { sub with hidden := true }
  else if sub.hidden then
    if sub.droppedWhileHidden then
      let sub := { sub with hidden := false, droppedWhileHidden := false }
      match sub.trySend .desync with
      | .ok sub' => sub'
      | .error _ => { sub with desynced := true }
    else { sub with hidden := false }
  else sub

/-- the body of the loop of `signal_desync` -/
def signal (sub : SessionSubscriber) : SessionSubscriber :=
  let sub := { sub with trace := sub.trace ++ [StreamEvent.signalled] }
  if sub.hidden then { sub with droppedWhileHidden := true }
  else
    match sub.trySend .desync with
    | .ok sub' => { sub' with desynced := false }
    | .error _ => { sub with desynced := true }

/-- the body of the loop of `clear_connection_hidden`, for a subscriber of the connection -/
def clearHidden (sub : SessionSubscriber) : SessionSubscriber :=
  { sub with hidden := false, droppedWhileHidden := false }

def recv (sub : SessionSubscriber) : SessionSubscriber := { sub with tx := sub.tx.recv }

def close (sub : SessionSubscriber) : SessionSubscriber := { sub with tx := sub.tx.close }

end SessionSubscriber

/-- `detached` holds the subscribers whose sender the daemon dropped while the receiver still
drains its queue -/
structure WsEmitter where
  subscribers : String → List SessionSubscriber
  detached : List SessionSubscriber
  control : List ControlMessage

namespace WsEmitter

open SessionSubscriber

def new : WsEmitter where
  subscribers _ := []
  detached := []
  control := []

def subscribeWithConnection (e : WsEmitter) (sessionId : String) (connectionId : Option String) :
    WsEmitter :=
  { e with
    subscribers := Function.update e.subscribers sessionId
      (e.subscribers sessionId ++ [SessionSubscriber.new connectionId]) }

def setHiddenSessions (e : WsEmitter) (connectionId : String) (hiddenSessions : List String) :
    WsEmitter :=
  { e with
    subscribers sessionId := (e.subscribers sessionId).map fun sub =>
      if sub.connectionId = some connectionId then sub.setHidden (hiddenSessions.contains sessionId)
      else sub }

def signalDesync (e : WsEmitter) (sessionId : String) : WsEmitter :=
  { e with
    subscribers := Function.update e.subscribers sessionId ((e.subscribers sessionId).map signal) }

def clearConnectionHidden (e : WsEmitter) (connectionId : String) : WsEmitter :=
  { e with
    subscribers sessionId := (e.subscribers sessionId).map fun sub =>
      if sub.connectionId = some connectionId then sub.clearHidden else sub }

def publishWith (e : WsEmitter) (sessionId : String) (msg : Message) (dropOnFull : Bool) :
    WsEmitter × Bool :=
  let senders := (e.subscribers sessionId).filter fun sub => !sub.tx.closed
  let results := senders.map (deliverNoted msg dropOnFull)
  ({ e with subscribers := Function.update e.subscribers sessionId (results.map Prod.fst) },
    results.any Prod.snd)

def publish (e : WsEmitter) (sessionId : String) (msg : Message) : WsEmitter × Bool :=
  e.publishWith sessionId msg true

def publishControl (e : WsEmitter) (msg : ControlMessage) : WsEmitter :=
  { e with control := e.control ++ [msg] }

def dropSessionSubscribers (e : WsEmitter) (sessionId : String) : WsEmitter :=
  { e with
    subscribers := Function.update e.subscribers sessionId []
    detached := e.detached ++ e.subscribers sessionId }

/-- the events of the bus that carry a `sessionId` and concern the session stream -/
inductive BusEvent
  | terminalOutput (sessionId : String) (o : Output)
  | terminalExit (sessionId : String) (exitCode : Int)
  | sessionKilled (sessionId : String) (reason : String)
  | terminalDesync (sessionId : String)

def outputDropped : String := "terminal-output dropped before any subscriber (hidden/none/full)"

def emit (e : WsEmitter) : BusEvent → WsEmitter × Except String Unit
  | .terminalOutput sessionId o =>
    let (e', delivered) := e.publish sessionId (.output o)
    (e', if delivered then .ok () else .error outputDropped)
  | .terminalExit sessionId exitCode =>
    let (e', delivered) := e.publishWith sessionId (.exit exitCode) false
    let e' := if delivered then e' else e'.publishControl (.sessionExited sessionId exitCode)
    (e'.dropSessionSubscribers sessionId, .ok ())
  | .sessionKilled sessionId reason =>
    let (e', delivered) := e.publishWith sessionId (.killed reason) false
    let e' := if delivered then e' else e'.publishControl (.sessionKilled sessionId reason)
    (e'.dropSessionSubscribers sessionId, .ok ())
  | .terminalDesync sessionId => (e.signalDesync sessionId, .ok ())

def recv (e : WsEmitter) (sessionId : String) (i : Nat) : WsEmitter :=
  { e with
    subscribers := Function.update e.subscribers sessionId
      ((e.subscribers sessionId).modify i SessionSubscriber.recv) }

def recvDetached (e : WsEmitter) (i : Nat) : WsEmitter :=
  { e with detached := e.detached.modify i SessionSubscriber.recv }

/-- the `i`-th websocket of a session closes; `cleanup_session` then drops the closed senders -/
def disconnect (e : WsEmitter) (sessionId : String) (i : Nat) : WsEmitter :=
  { e with
    subscribers := Function.update e.subscribers sessionId
      (((e.subscribers sessionId).modify i SessionSubscriber.close).filter
        fun sub => !sub.tx.closed) }

inductive Action
  | subscribe (sessionId : String) (connectionId : Option String)
  | emit (event : BusEvent)
  | setHidden (connectionId : String) (hiddenSessions : List String)
  | clearHidden (connectionId : String)
  | recv (sessionId : String) (i : Nat)
  | recvDetached (i : Nat)
  | disconnect (sessionId : String) (i : Nat)

def step (e : WsEmitter) : Action → WsEmitter
  | .subscribe sessionId connectionId => e.subscribeWithConnection sessionId connectionId
  | .emit event => (e.emit event).1
  | .setHidden connectionId hiddenSessions => e.setHiddenSessions connectionId hiddenSessions
  | .clearHidden connectionId => e.clearConnectionHidden connectionId
  | .recv sessionId i => e.recv sessionId i
  | .recvDetached i => e.recvDetached i
  | .disconnect sessionId i => e.disconnect sessionId i

end WsEmitter

end CcPanes

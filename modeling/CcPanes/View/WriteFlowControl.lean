import CcPanes.Foundation.JsString
import CcPanes.Foundation.Run
import Mathlib.Algebra.Order.Group.Int
import Mathlib.Algebra.Ring.Int.Defs

/-!
# Flow control of the writes to xterm

`createTerminalWriteFlowControl` of `terminalWriteFlowControl.ts`.  The code calls out in two places:
`target.write` from the loop of `pump`, and `onWritten` from the callback of a write.  Code outside may
call `write`, `reset`, `dispose` and the callbacks it has been given before it returns or throws, and
also while no call is open.
-/

namespace CcPanes.WriteFlow

structure TerminalWriteFlowControlOptions where
  enabled : Option Bool
  bytesThreshold : Option Int
  highWatermark : Option Int
  lowWatermark : Option Int

/-- the options with their defaults and bounds -/
structure Settings where
  enabled : Bool
  bytesThreshold : Int
  highWatermark : Int
  lowWatermark : Int
  low_lt_high : lowWatermark < highWatermark

def defaultBytesThreshold : Int := 16 * 1024
def defaultHighWatermark : Int := 4
def defaultLowWatermark : Int := 2

def settings (options : TerminalWriteFlowControlOptions) : Settings where
  enabled := options.enabled.getD true
  bytesThreshold := max 1 (options.bytesThreshold.getD defaultBytesThreshold)
  highWatermark := max 1 (options.highWatermark.getD defaultHighWatermark)
  lowWatermark := min (max 1 (options.highWatermark.getD defaultHighWatermark) - 1)
    (max 0 (options.lowWatermark.getD defaultLowWatermark))
  low_lt_high := by omega

/-- `promise` is the number of the call to `write` -/
structure PendingWrite where
  promise : Nat
  data : JsString
  /-- there is an `onWritten` -/
  onWritten : Bool

def PendingWrite.chars (entry : PendingWrite) : Int := entry.data.length

inductive Settlement where
  | resolved
  | rejected
deriving DecidableEq

/-- a call to `target.write`, with the variables of its callback -/
structure WriteCall where
  entry : PendingWrite
  shouldTrackCallback : Bool
  callbackCompleted : Bool

inductive Frame where
  | targetWrite (call : Nat)
  | onWritten (entry : PendingWrite)

structure State where
  queue : List PendingWrite
  calls : List WriteCall
  /-- the innermost first -/
  stack : List Frame
  settled : List (Nat × Settlement)
  queuedChars : Int
  inFlightChars : Int
  inFlightWrites : Int
  receivedChars : Int
  writeCalls : Nat
  failedWrites : Nat
  blocked : Bool
  pumping : Bool
  pendingCallbacks : Int
  bytesWritten : Int

def createTerminalWriteFlowControl : State where
  queue := []
  calls := []
  stack := []
  settled := []
  queuedChars := 0
  inFlightChars := 0
  inFlightWrites := 0
  receivedChars := 0
  writeCalls := 0
  failedWrites := 0
  blocked := false
  pumping := false
  pendingCallbacks := 0
  bytesWritten := 0

namespace State

def isSettled (s : State) (promise : Nat) : Bool := promise ∈ s.settled.map Prod.fst

/-- `resolve` or `reject`; a promise that is settled stays as it is -/
def settle (s : State) (promise : Nat) (settlement : Settlement) : State :=
  if s.isSettled promise then s
  else { s with settled := s.settled ++ [(promise, settlement)] }

/-- one round of the loop of `pump`, up to the call to `target.write` -/
def take (o : Settings) (s : State) (entry : PendingWrite) (rest : List PendingWrite) : State :=
  let bytesWritten := s.bytesWritten + entry.chars
  let shouldTrackCallback := o.enabled && o.bytesThreshold ≤ bytesWritten
  let pendingCallbacks := if shouldTrackCallback then s.pendingCallbacks + 1 else s.pendingCallbacks
  { s with
    queue := rest
    queuedChars := s.queuedChars - entry.chars
    inFlightChars := s.inFlightChars + entry.chars
    inFlightWrites := s.inFlightWrites + 1
    bytesWritten := if shouldTrackCallback then 0 else bytesWritten
    pendingCallbacks := pendingCallbacks
    blocked := if shouldTrackCallback ∧ o.highWatermark ≤ pendingCallbacks then true else s.blocked
    calls := s.calls ++ [⟨entry, shouldTrackCallback, false⟩]
    stack := .targetWrite s.calls.length :: s.stack }

/-- behind the loop of `pump` -/
def finish (o : Settings) (s : State) : State :=
  let s := { s with pumping := false }
  match s.queue with
  | [] => s
  | entry :: rest => if s.blocked then s else take o { s with pumping := true } entry rest

/-- the loop of `pump` -/
def loop (o : Settings) (s : State) : State :=
  match s.queue with
  | [] => finish o s
  | entry :: rest => if s.blocked then finish o s else take o s entry rest

def pump (o : Settings) (s : State) : State :=
  if s.pumping ∨ s.blocked then s else loop o { s with pumping := true }

def release (o : Settings) (s : State) : State :=
  let pendingCallbacks := max 0 (s.pendingCallbacks - 1)
  { s with
    pendingCallbacks := pendingCallbacks
    blocked := if s.blocked ∧ pendingCallbacks ≤ o.lowWatermark then false else s.blocked }

def land (s : State) (index : Nat) (call : WriteCall) : State :=
  { s with
    calls := s.calls.set index { call with callbackCompleted := true }
    inFlightChars := s.inFlightChars - call.entry.chars
    inFlightWrites := s.inFlightWrites - 1 }

/-- the callback `complete` of a call to `target.write` -/
def complete (o : Settings) (s : State) (index : Nat) : State :=
  match s.calls[index]? with
  | none => s
  | some call =>
    if call.callbackCompleted then s
    else
      let s := s.land index call
      let s := if call.shouldTrackCallback then s.release o else s
      if call.entry.onWritten then { s with stack := .onWritten call.entry :: s.stack }
      else (s.settle call.entry.promise .resolved).pump o

/-- `catch` in the loop of `pump` -/
def failed (o : Settings) (s : State) (index : Nat) : State :=
  match s.calls[index]? with
  | none => s
  | some call =>
    if call.callbackCompleted then s.settle call.entry.promise .rejected
    else
      let s := { s.land index call with failedWrites := s.failedWrites + 1 }
      let s := if call.shouldTrackCallback then s.release o else s
      s.settle call.entry.promise .rejected

def write (o : Settings) (s : State) (data : JsString) (onWritten : Bool) : State :=
  pump o { s with
    queuedChars := s.queuedChars + data.length
    receivedChars := s.receivedChars + data.length
    writeCalls := s.writeCalls + 1
    queue := s.queue ++ [⟨s.writeCalls, data, onWritten⟩] }

def reset (o : Settings) (s : State) : State :=
  pump o { s with bytesWritten := 0, pendingCallbacks := 0, blocked := false }

def dispose (s : State) : State :=
  s.queue.foldl (fun s entry => s.settle entry.promise .rejected)
    { s with queue := [], queuedChars := 0, bytesWritten := 0, pendingCallbacks := 0, blocked := false }

end State

/-- what code outside does; `returns` and `throws` end the innermost call that is open -/
inductive Event where
  | write (data : JsString) (onWritten : Bool)
  | complete (call : Nat)
  | reset
  | dispose
  | returns
  | throws

open State in
def step (o : Settings) (s : State) : Event → State
  | .write data onWritten => write o s data onWritten
  | .complete call => complete o s call
  | .reset => reset o s
  | .dispose => dispose s
  | .returns =>
    match s.stack with
    | [] => s
    | .targetWrite _ :: stack => loop o { s with stack := stack }
    | .onWritten entry :: stack =>
      pump o (settle { s with stack := stack } entry.promise .resolved)
  | .throws =>
    match s.stack with
    | [] => s
    | .targetWrite index :: stack => loop o (failed o { s with stack := stack } index)
    | .onWritten entry :: stack =>
      pump o (settle { s with stack := stack } entry.promise .rejected)

end CcPanes.WriteFlow

import CcPanes.Foundation.JsString
import CcPanes.Foundation.Run

/-!
# The input queue of a terminal

Input of a session is gathered for some milliseconds, and a batch is written run by run, a run being
what comes from one source in a row.  A queue is there from the first input to the moment at which
nothing is left of it, or to `clearTerminalInputQueue`; a later input makes another one, also while a
batch of the first is still being written.
-/

namespace CcPanes.InputQueue

open Run

inductive TerminalWriteSource where
  | userKeyboard
  | mcp
  | system
deriving DecidableEq

/-- `promise` is the number of the promise that `resolve` and `reject` belong to -/
structure QueuedTerminalInput where
  promise : Nat
  data : JsString
  source : TerminalWriteSource
deriving DecidableEq

structure InputRun where
  source : TerminalWriteSource
  items : List QueuedTerminalInput

def InputRun.data (run : InputRun) : JsString := run.items.flatMap QueuedTerminalInput.data

/-- one round of the loop of `splitInputRunsBySource` -/
def addToRuns (runs : List InputRun) (item : QueuedTerminalInput) : List InputRun :=
  match runs.getLast? with
  | none => runs ++ [⟨item.source, [item]⟩]
  | some tail =>
    if tail.source = item.source then runs.dropLast ++ [⟨tail.source, tail.items ++ [item]⟩]
    else runs ++ [⟨item.source, [item]⟩]

def splitInputRunsBySource (batch : List QueuedTerminalInput) : List InputRun :=
  batch.foldl addToRuns []

/-- `id` tells one queue object from another -/
structure TerminalInputQueue where
  id : Nat
  pending : List QueuedTerminalInput
  timer : Bool
  flushing : Bool
  /-- the drain promises that wait -/
  idleResolvers : List Nat

/-- a call to `flushTerminalInputQueue` that waits for the write of `run` -/
structure Flight where
  queue : Nat
  batch : List QueuedTerminalInput
  run : InputRun
  rest : List InputRun

inductive Settlement where
  | fulfilled
  | rejected
deriving DecidableEq

/-- a call to `submitToSession`: its drain promise, and how many inputs had been enqueued before it -/
structure Submit where
  drain : Nat
  before : Nat
  started : Bool
deriving DecidableEq

structure State where
  /-- the inputs so far, each with its promise -/
  enqueued : List QueuedTerminalInput
  /-- the entry of the session in `inputQueues` -/
  queue : Option TerminalInputQueue
  queues : Nat
  flights : List Flight
  /-- the calls to `writeTerminalInputNow`, and those that have come to an end -/
  handed : List InputRun
  written : List InputRun
  failed : List InputRun
  settled : List (Nat × Settlement)
  /-- what `clearTerminalInputQueue` has taken from a queue, and how many queues it has found -/
  cleared : List QueuedTerminalInput
  clears : Nat
  /-- the calls to `drainTerminalInputQueue`, and those whose promise is resolved -/
  drains : Nat
  drained : List Nat
  submits : List Submit

def init : State where
  enqueued := []
  queue := none
  queues := 0
  flights := []
  handed := []
  written := []
  failed := []
  settled := []
  cleared := []
  clears := 0
  drains := 0
  drained := []
  submits := []

namespace State

def isSettled (s : State) (item : QueuedTerminalInput) : Bool :=
  item.promise ∈ s.settled.map Prod.fst

/-- `resolve` or `reject` for each item; a promise that is settled stays as it is -/
def settle (s : State) (items : List QueuedTerminalInput) (how : Settlement) : State :=
  { s with
    settled := s.settled ++ ((items.filter (!s.isSettled ·)).map fun item => (item.promise, how)) }

/-- `enqueueTerminalInput`; without data its promise is resolved at once -/
def enqueue (s : State) (data : JsString) (source : TerminalWriteSource) : State :=
  if data = [] then s
  else
    let item : QueuedTerminalInput := ⟨s.enqueued.length, data, source⟩
    match s.queue with
    | some queue =>
      { s with
        enqueued := s.enqueued ++ [item]
        queue := some { queue with
          pending := queue.pending ++ [item]
          timer := if !queue.timer && !queue.flushing then true else queue.timer } }
    | none =>
      { s with
        enqueued := s.enqueued ++ [item]
        queue := some ⟨s.queues, [item], true, false, []⟩
        queues := s.queues + 1 }

/-- the `finally` block of `flushTerminalInputQueue` -/
def finallyBlock (s : State) (id : Nat) : State :=
  match s.queue with
  | none => s
  | some current =>
    if current.id ≠ id then s
    else if current.pending ≠ [] then
      { s with queue := some { current with flushing := false, timer := true } }
    else { s with queue := none, drained := s.drained ++ current.idleResolvers }

/-- the loop over the runs, up to its next write -/
def loop (s : State) (id : Nat) (batch : List QueuedTerminalInput) : List InputRun → State
  | [] => (s.settle batch .fulfilled).finallyBlock id
  | run :: rest =>
    { s with
      handed := s.handed ++ [run]
      flights := s.flights ++ [⟨id, batch, run, rest⟩] }

/-- `flushTerminalInputQueue` up to its first write -/
def flush (s : State) : State :=
  match s.queue with
  | none => s
  | some queue =>
    if queue.flushing then s
    else if queue.pending = [] then { s with queue := some { queue with timer := false } }
    else
      { s with
        queue := some { queue with timer := false, pending := [], flushing := true }
      }.loop queue.id queue.pending (splitInputRunsBySource queue.pending)

/-- the write that a flight waits for has been done -/
def writeDone (s : State) (index : Nat) : State :=
  match s.flights[index]? with
  | none => s
  | some flight =>
    { s with
      flights := s.flights.eraseIdx index
      written := s.written ++ [flight.run] }.loop flight.queue flight.batch flight.rest

/-- `catch`: the write that a flight waits for has failed -/
def writeFailed (s : State) (index : Nat) : State :=
  match s.flights[index]? with
  | none => s
  | some flight =>
    ({ s with
        flights := s.flights.eraseIdx index
        failed := s.failed ++ [flight.run] }.settle flight.batch .rejected).finallyBlock flight.queue

/-- `drainTerminalInputQueue` -/
def drain (s : State) : State :=
  let promise := s.drains
  let s := { s with drains := s.drains + 1 }
  match s.queue with
  | none => { s with drained := s.drained ++ [promise] }
  | some queue =>
    let s := if queue.timer then { s with queue := some { queue with timer := false } }.flush else s
    match s.queue with
    | none => { s with drained := s.drained ++ [promise] }
    | some queue =>
      if !queue.flushing && queue.pending.isEmpty then
        { s with queue := none, drained := s.drained ++ [promise] }
      else
        { s with queue := some { queue with idleResolvers := queue.idleResolvers ++ [promise] } }

/-- `clearTerminalInputQueue` -/
def clear (s : State) : State :=
  match s.queue with
  | none => s
  | some queue =>
    { s.settle queue.pending .fulfilled with
      cleared := s.cleared ++ queue.pending
      clears := s.clears + 1
      drained := s.drained ++ queue.idleResolvers
      queue := none }

/-- `submitToSession` up to `await drainTerminalInputQueue` -/
def submit (s : State) : State :=
  { s.drain with submits := s.submits ++ [⟨s.drains, s.enqueued.length, false⟩] }

/-- `submitToSession` behind it: its own call -/
def submitStarts (s : State) (index : Nat) : State :=
  match s.submits[index]? with
  | none => s
  | some submit =>
    if submit.drain ∈ s.drained then
      { s with submits := s.submits.set index { submit with started := true } }
    else s

def timerFires (s : State) : State :=
  match s.queue with
  | none => s
  | some queue => if queue.timer then s.flush else s

end State

inductive Event where
  | enqueue (data : JsString) (source : TerminalWriteSource)
  | timerFires
  /-- by the number of the flight -/
  | writeDone (index : Nat)
  | writeFailed (index : Nat)
  | drain
  | clear
  | submit
  | submitStarts (index : Nat)
deriving DecidableEq

def step (s : State) : Event → State
  | .enqueue data source => s.enqueue data source
  | .timerFires => s.timerFires
  | .writeDone index => s.writeDone index
  | .writeFailed index => s.writeFailed index
  | .drain => s.drain
  | .clear => s.clear
  | .submit => s.submit
  | .submitStarts index => s.submitStarts index

/-! ## what is expected -/

namespace State

def pending (s : State) : List QueuedTerminalInput :=
  match s.queue with
  | none => []
  | some queue => queue.pending

/-- the inputs that have been handed to `writeTerminalInputNow` -/
def handedItems (s : State) : List QueuedTerminalInput := s.handed.flatMap InputRun.items

def Rejected (s : State) (item : QueuedTerminalInput) : Prop :=
  (item.promise, Settlement.rejected) ∈ s.settled

def Fulfilled (s : State) (item : QueuedTerminalInput) : Prop :=
  (item.promise, Settlement.fulfilled) ∈ s.settled

/-- what has been handed over is what has been enqueued, in order and once each, up to what waits and
what was given up behind a failed write -/
def HandedInOrder (s : State) : Prop :=
  ∃ done waiting, s.enqueued = done ++ waiting ∧ s.handedItems.Sublist done ∧
    (∀ item ∈ done, item ∈ s.handedItems ∨ s.Rejected item) ∧
    (∀ item ∈ waiting, s.isSettled item = false) ∧
    (s.failed = [] → s.handedItems = done)

def Own (s : State) : Event → Prop
  | .timerFires => ∃ queue ∈ s.queue, queue.timer = true
  | .writeDone index => index < s.flights.length
  | .writeFailed index => index < s.flights.length
  | _ => False

end State

structure Kept (s : State) : Prop where
  inOrder : s.clears = 0 → s.HandedInOrder
  data : s.handed.flatMap InputRun.data = s.handedItems.flatMap QueuedTerminalInput.data
  sources : ∀ run ∈ s.handed, ∀ item ∈ run.items, item.source = run.source
  rejected : ∀ item ∈ s.enqueued, s.Rejected item →
    (∃ run ∈ s.failed, item ∈ run.items) ∨ item ∉ s.handedItems
  fulfilled : ∀ item ∈ s.enqueued, s.Fulfilled item →
    (∃ run ∈ s.written, item ∈ run.items) ∨ item ∈ s.cleared
  submitted : ∀ submit ∈ s.submits, submit.started = true →
    ∀ item ∈ s.enqueued, item.promise < submit.before → s.isSettled item = true
  /-- the timer and the writes come to an end, and then every drain promise is resolved -/
  drained : ∃ bound, ∀ es, StepsOk step State.Own s es → es.length ≤ bound ∧
    ((∀ e, ¬ (run step s es).Own e) → ∀ promise < s.drains, promise ∈ (run step s es).drained)

end CcPanes.InputQueue

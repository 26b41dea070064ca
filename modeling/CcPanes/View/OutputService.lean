import CcPanes.Foundation.JsString
import CcPanes.View.SeqTracker

/-!
# The front end's output service, for one session

The views of a session subscribe to its output and to its desync signal.  Output without a
subscriber waits in a bounded pending buffer for the first one; when the buffer overflows, its
contents are void and a latch remembers that a desync is owed.

Every operation returns the callbacks that it invokes, in order.
-/

namespace CcPanes

structure PendingChunk where
  data : JsString
  /-- the chunk's end in the byte space of the daemon; absent in the polling fallback -/
  endSeq : Option Nat
  deriving DecidableEq

structure PendingBufferState where
  chunks : List PendingChunk
  chars : Nat
  /-- the contents are void, and so is every chunk until a subscriber arrives -/
  overflowed : Bool

inductive AppendPendingOutcome
  | buffered
  | overflowed
  | discarded
  | trimmedOldest
  deriving DecidableEq

/-- an invocation of the callback of a view -/
inductive Callback
  | output (view : Nat) (chunk : PendingChunk)
  | desync (view : Nat)

def pendingBufferMaxChars : Nat := 2 * 1024 * 1024

def desyncOnPendingOverflow : Bool := true

def legacyMaxPendingChunks : Nat := 1000

structure OutputService where
  /-- the subscribers in the order in which they came -/
  outputCallbacks : List Nat
  desyncCallbacks : List Nat
  buffer : Option PendingBufferState
  latchedDesync : Bool
  tracker : SeqTracker

namespace OutputService

def new : OutputService where
  outputCallbacks := []
  desyncCallbacks := []
  buffer := none
  latchedDesync := false
  tracker := none

def stateOf (s : OutputService) : PendingBufferState := s.buffer.getD ⟨[], 0, false⟩

def appendPendingOutput (s : OutputService) (chunk : PendingChunk) :
    OutputService × AppendPendingOutcome :=
  let state := s.stateOf
  if !desyncOnPendingOverflow then
    let chunks := state.chunks ++ [chunk]
    if chunks.length > legacyMaxPendingChunks then
      ({ s with
          buffer := some { state with
            chunks := chunks.drop (chunks.length - legacyMaxPendingChunks / 2) } }, .trimmedOldest)
    else ({ s with buffer := some { state with chunks := chunks } }, .buffered)
  else if state.overflowed then ({ s with buffer := some state }, .discarded)
  else if state.chars + chunk.data.length ≤ pendingBufferMaxChars then
    ({ s with
        buffer := some ⟨state.chunks ++ [chunk], state.chars + chunk.data.length, false⟩ },
      .buffered)
  else ({ s with buffer := some ⟨[], 0, true⟩, latchedDesync := true }, .overflowed)

def takePendingOutput (s : OutputService) : OutputService × List PendingChunk :=
  match s.buffer with
  | none => (s, [])
  | some state => ({ s with buffer := none }, if state.overflowed then [] else state.chunks)

def consumeLatchedDesync (s : OutputService) : OutputService × Bool :=
  ({ s with latchedDesync := false }, s.latchedDesync)

def clearPendingOutput (s : OutputService) : OutputService :=
  { s with buffer := none, latchedDesync := false }

/-- the callbacks of the subscribers; none of them is invoked if there is no subscriber -/
def dispatchOutput (s : OutputService) (chunk : PendingChunk) :
    OutputService × List Callback × Bool :=
  let s := match chunk.endSeq with
    | some endSeq => { s with tracker := s.tracker.noteReceived endSeq }
    | none => s
  if s.outputCallbacks.isEmpty then (s, [], false)
  else (s, s.outputCallbacks.map fun view => .output view chunk, true)

def dispatchDesync (s : OutputService) : OutputService × List Callback :=
  ({ s with tracker := s.tracker.invalidateSeq }, s.desyncCallbacks.map .desync)

def onOutput (s : OutputService) (chunk : PendingChunk) : OutputService × List Callback :=
  match s.dispatchOutput chunk with
  | (s, calls, true) => (s, calls)
  | (s, _, false) =>
    match s.appendPendingOutput chunk with
    | (s, .overflowed) => s.dispatchDesync
    | (s, _) => (s, [])

def onDesync (s : OutputService) : OutputService × List Callback := s.dispatchDesync

/-! ## subscriptions -/

/-- a `Set` keeps the place of a callback that is added again -/
def addSubscriber (callbacks : List Nat) (view : Nat) : List Nat :=
  if view ∈ callbacks then callbacks else callbacks ++ [view]

def removeSubscriber (callbacks : List Nat) (view : Nat) : List Nat :=
  callbacks.filter (· ≠ view)

def registerOutput (s : OutputService) (view : Nat) : OutputService × List Callback :=
  let isFirstSubscriber := s.outputCallbacks.isEmpty
  let s := { s with outputCallbacks := addSubscriber s.outputCallbacks view }
  if isFirstSubscriber then
    let (s, buffered) := s.takePendingOutput
    (s, buffered.map fun chunk => .output view chunk)
  else (s, [])

def registerDesync (s : OutputService) (view : Nat) : OutputService × List Callback :=
  let s := { s with desyncCallbacks := addSubscriber s.desyncCallbacks view }
  match s.consumeLatchedDesync with
  | (s, true) => (s, [.desync view])
  | (s, false) => (s, [])

def unsubscribeOutput (s : OutputService) (view : Nat) : OutputService :=
  { s with outputCallbacks := removeSubscriber s.outputCallbacks view }

def unsubscribeDesync (s : OutputService) (view : Nat) : OutputService :=
  { s with desyncCallbacks := removeSubscriber s.desyncCallbacks view }

/-- also `unregisterOutput` -/
def detachOutput (s : OutputService) : OutputService :=
  { s with outputCallbacks := [] }.clearPendingOutput

/-! ## what an output event does -/

def Overflows (s : OutputService) (chunk : PendingChunk) : Prop :=
  s.outputCallbacks = [] ∧ (s.appendPendingOutput chunk).2 = .overflowed

section
variable (s : OutputService) (chunk : PendingChunk)
include s chunk

theorem dispatchOutput_eq : ∃ t : SeqTracker,
    s.dispatchOutput chunk = ({ s with tracker := t },
      if s.outputCallbacks.isEmpty then ([], false)
      else (s.outputCallbacks.map fun view => .output view chunk, true)) := by
  unfold dispatchOutput
  cases chunk.endSeq with
  | none =>
    refine ⟨s.tracker, ?_⟩
    dsimp only
    split <;> rfl
  | some endSeq =>
    refine ⟨s.tracker.noteReceived endSeq, ?_⟩
    dsimp only
    split <;> rfl

theorem appendPendingOutput_eq :
    s.appendPendingOutput chunk =
      if s.stateOf.overflowed then ({ s with buffer := some s.stateOf }, .discarded)
      else if s.stateOf.chars + chunk.data.length ≤ pendingBufferMaxChars then
        ({ s with
            buffer := some
              ⟨s.stateOf.chunks ++ [chunk], s.stateOf.chars + chunk.data.length, false⟩ },
          .buffered)
      else ({ s with buffer := some ⟨[], 0, true⟩, latchedDesync := true }, .overflowed) := rfl

theorem appendPendingOutput_outcome :
    (s.appendPendingOutput chunk).2 =
      if s.stateOf.overflowed then .discarded
      else if s.stateOf.chars + chunk.data.length ≤ pendingBufferMaxChars then .buffered
      else .overflowed := by
  rw [appendPendingOutput_eq]
  split
  · rfl
  · split <;> rfl

theorem appendPendingOutput_cases :
    (s.stateOf.overflowed = true ∧
      s.appendPendingOutput chunk = ({ s with buffer := some s.stateOf }, .discarded)) ∨
    (s.stateOf.overflowed = false ∧ ∃ chars, s.appendPendingOutput chunk
      = ({ s with buffer := some ⟨s.stateOf.chunks ++ [chunk], chars, false⟩ }, .buffered)) ∨
    s.appendPendingOutput chunk
      = ({ s with buffer := some ⟨[], 0, true⟩, latchedDesync := true }, .overflowed) := by
  rw [appendPendingOutput_eq]
  split
  · next h => exact .inl ⟨h, rfl⟩
  next h =>
  have hfalse : s.stateOf.overflowed = false := by simpa using h
  split
  · exact .inr (.inl ⟨hfalse, _, rfl⟩)
  · exact .inr (.inr rfl)

theorem onOutput_cases : ∃ t : SeqTracker,
    (s.outputCallbacks ≠ [] ∧ s.onOutput chunk
      = ({ s with tracker := t }, s.outputCallbacks.map fun view => .output view chunk)) ∨
    (s.outputCallbacks = [] ∧ s.stateOf.overflowed = true ∧ ¬ s.Overflows chunk ∧
      s.onOutput chunk = ({ s with tracker := t, buffer := some s.stateOf }, [])) ∨
    (s.outputCallbacks = [] ∧ s.stateOf.overflowed = false ∧ ¬ s.Overflows chunk ∧
      ∃ chars, s.onOutput chunk = ({ s with
        tracker := t
        buffer := some ⟨s.stateOf.chunks ++ [chunk], chars, false⟩ }, [])) ∨
    (s.Overflows chunk ∧ s.onOutput chunk = ({ s with
        tracker := t
        buffer := some ⟨[], 0, true⟩
        latchedDesync := true }, s.desyncCallbacks.map .desync)) := by
  obtain ⟨t, hd⟩ := dispatchOutput_eq s chunk
  have hon : s.onOutput chunk = if s.outputCallbacks.isEmpty then
      (match { s with tracker := t }.appendPendingOutput chunk with
        | (s, .overflowed) => s.dispatchDesync
        | (s, _) => (s, []))
      else ({ s with tracker := t }, s.outputCallbacks.map fun view => .output view chunk) := by
    unfold onOutput
    rw [hd]
    cases s.outputCallbacks with
    | nil => rfl
    | cons => rfl
  -- the pending buffer does not look at the tracker
  have hsame : ({ s with tracker := t }.appendPendingOutput chunk).2
      = (s.appendPendingOutput chunk).2 :=
    (appendPendingOutput_outcome _ chunk).trans (appendPendingOutput_outcome s chunk).symm
  by_cases he : s.outputCallbacks = []
  · rw [if_pos (List.isEmpty_iff.mpr he)] at hon
    rcases appendPendingOutput_cases { s with tracker := t } chunk with
      ⟨ho, ha⟩ | ⟨ho, chars, ha⟩ | ha
    · rw [ha] at hsame hon
      exact ⟨t, .inr (.inl ⟨he, ho, fun h => absurd (hsame.trans h.2) (by simp), hon⟩)⟩
    · rw [ha] at hsame hon
      exact ⟨t, .inr (.inr (.inl
        ⟨he, ho, fun h => absurd (hsame.trans h.2) (by simp), chars, hon⟩))⟩
    · rw [ha] at hsame hon
      exact ⟨t.invalidateSeq, .inr (.inr (.inr ⟨⟨he, hsame.symm⟩, hon⟩))⟩
  · rw [if_neg fun h => he (List.isEmpty_iff.mp h)] at hon
    exact ⟨t, .inl ⟨he, hon⟩⟩

end

end OutputService

end CcPanes

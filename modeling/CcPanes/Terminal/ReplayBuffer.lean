import CcPanes.Foundation.ChunkWindow
import CcPanes.Foundation.Run

/-!
# The replay buffer of a terminal session

`ReplayBuffer` of `terminal_service.rs`: the raw VT output kept for attach and recovery, with the
sequence counters and the picture (`TerminalCheckpoint`) a client uploaded.  A Rust `String` is
its UTF-8 bytes; the `u64` counters are natural numbers; `generate_checkpoint_epoch` is the
`epoch` argument of `new`.

The two front-drop loops (`evict_front`, `trim_before_anchor`) are `ChunkWindow.popWhile` with
their own test.  `debug_assert!` of `concat_chunks_from` is the second component of its result:
`true` if the assertion is reached, the first component is what a release build returns.
-/

namespace CcPanes

abbrev Bytes := List UInt8

inductive TerminalBufferMode where
  | normal
  | alternate
  deriving DecidableEq

structure TerminalCheckpoint where
  checkpointEpoch : Nat
  anchorSeq : Nat
  snapshotAnsi : Bytes
  bufferMode : TerminalBufferMode
  cols : UInt16
  rows : UInt16
  checkpointedAtMs : Nat
  deriving DecidableEq

inductive StoreCheckpointOutcome where
  | accepted (anchorSeq : Nat)
  | rejectedEpochMismatch
  | rejectedStaleAnchor
  | rejectedAnchorGap
  | rejectedFutureAnchor
  | rejectedTooLarge

structure TerminalReplaySnapshot where
  data : Bytes
  bufferMode : TerminalBufferMode
  deriving DecidableEq

structure TerminalRecoverySnapshot where
  checkpoint : Option TerminalCheckpoint
  delta : Bytes
  bufferMode : TerminalBufferMode
  endSeq : Nat
  checkpointEpoch : Nat
  deriving DecidableEq

structure ReplayBuffer where
  chunks : List Bytes
  totalBytes : Nat
  maxBytes : Nat
  bufferMode : TerminalBufferMode
  epoch : Nat
  pushedSeq : Nat
  windowStartSeq : Nat
  checkpoint : Option TerminalCheckpoint

def checkpointAnchoringEnabled : Bool := true
def checkpointSnapshotMaxBytes : Nat := 8 * 1024 * 1024

/-! ## the alternate-screen scan -/

def isAsciiDigit (b : UInt8) : Bool := 0x30 ≤ b && b ≤ 0x39

/-- the codes `47`, `1047` and `1049` -/
def isAltScreenCode (code : Bytes) : Bool :=
  code = [0x34, 0x37] || code = [0x31, 0x30, 0x34, 0x37] || code = [0x31, 0x30, 0x34, 0x39]

/-- the loop of `update_buffer_mode`; `skip` bytes belong to a sequence already read -/
def scanBufferMode : (skip : Nat) → TerminalBufferMode → Bytes → TerminalBufferMode
  | _, mode, [] => mode
  | skip + 1, mode, _ :: rest => scanBufferMode skip mode rest
  | 0, mode, b :: rest =>
    -- `while i + 4 < bytes.len()`
    if rest.length < 4 then mode
    else if b = 0x1b ∧ rest.take 2 = [0x5b, 0x3f] then
      let code := (rest.drop 2).takeWhile isAsciiDigit
      match (rest.drop 2).dropWhile isAsciiDigit with
      | [] => mode
      | action :: _ =>
        let mode' :=
          if isAltScreenCode code then
            if action = 0x68 then .alternate else if action = 0x6c then .normal else mode
          else mode
        scanBufferMode (code.length + 3) mode' rest
    else scanBufferMode 0 mode rest

namespace ReplayBuffer

def new (maxBytes epoch : Nat) : ReplayBuffer where
  chunks := []
  totalBytes := 0
  maxBytes := maxBytes
  bufferMode := .normal
  epoch := epoch
  pushedSeq := 0
  windowStartSeq := 0
  checkpoint := none

def window (b : ReplayBuffer) : ChunkWindow UInt8 := ⟨b.chunks, b.totalBytes, b.windowStartSeq⟩

def setWindow (b : ReplayBuffer) (w : ChunkWindow UInt8) : ReplayBuffer :=
  { b with chunks := w.chunks, totalBytes := w.total, windowStartSeq := w.start }

/-- drop chunks until `max_bytes` is met; a picture whose anchor fell out of the window goes -/
def evictFront (b : ReplayBuffer) : ReplayBuffer :=
  let b' := b.setWindow (b.window.popWhile fun _ total _ => total > b.maxBytes)
  if b'.checkpoint.any (fun cp => cp.anchorSeq < b'.windowStartSeq) then
    { b' with checkpoint := none }
  else b'

def updateBufferMode (b : ReplayBuffer) (data : Bytes) : ReplayBuffer :=
  { b with bufferMode := scanBufferMode 0 b.bufferMode data }

/-- `push` before its `evict_front` -/
def appendChunk (b : ReplayBuffer) (data : Bytes) : ReplayBuffer :=
  { (b.updateBufferMode data).setWindow (b.window.push data) with
    pushedSeq := b.pushedSeq + data.length }

def push (b : ReplayBuffer) (data : Bytes) : ReplayBuffer :=
  if data = [] then b else (b.appendChunk data).evictFront

def shrink (b : ReplayBuffer) (maxBytes : Nat) : ReplayBuffer :=
  evictFront { b with maxBytes := maxBytes }

def trimBeforeAnchor (b : ReplayBuffer) (anchorSeq : Nat) : ReplayBuffer :=
  b.setWindow (b.window.popWhile (ChunkWindow.endsBefore anchorSeq))

def storeCheckpoint (b : ReplayBuffer) (cp : TerminalCheckpoint) :
    ReplayBuffer × StoreCheckpointOutcome :=
  if cp.snapshotAnsi.length > checkpointSnapshotMaxBytes then (b, .rejectedTooLarge)
  else if cp.checkpointEpoch ≠ b.epoch then (b, .rejectedEpochMismatch)
  else if b.checkpoint.any (fun existing => cp.anchorSeq ≤ existing.anchorSeq) then
    (b, .rejectedStaleAnchor)
  else if cp.anchorSeq < b.windowStartSeq then (b, .rejectedAnchorGap)
  else if cp.anchorSeq > b.pushedSeq then (b, .rejectedFutureAnchor)
  else
    let b' := { b with checkpoint := some cp }
    let b' := if checkpointAnchoringEnabled then b'.trimBeforeAnchor cp.anchorSeq else b'
    (b', .accepted cp.anchorSeq)

def validCheckpoint (b : ReplayBuffer) : Option TerminalCheckpoint :=
  b.checkpoint.filter fun cp =>
    decide (cp.checkpointEpoch = b.epoch) && decide (cp.anchorSeq ≥ b.windowStartSeq)

def needsCheckpoint (b : ReplayBuffer) (thresholdBytes : Nat) : Bool :=
  match b.validCheckpoint with
  | some cp => b.pushedSeq - cp.anchorSeq > thresholdBytes
  | none => false

def concatChunksFrom (b : ReplayBuffer) (anchorSeq : Nat) : Bytes × Bool :=
  ChunkWindow.concatFrom anchorSeq b.windowStartSeq b.chunks

def snapshot (b : ReplayBuffer) : TerminalReplaySnapshot :=
  let photo :=
    match b.validCheckpoint with
    | some cp => if checkpointAnchoringEnabled then cp.snapshotAnsi else []
    | none => []
  ⟨photo ++ b.chunks.flatten, b.bufferMode⟩

def recoverySnapshot (b : ReplayBuffer) : TerminalRecoverySnapshot where
  checkpoint := b.validCheckpoint
  delta :=
    match b.validCheckpoint with
    | some cp => (b.concatChunksFrom cp.anchorSeq).1
    | none => b.snapshot.data
  bufferMode := b.bufferMode
  endSeq := b.pushedSeq
  checkpointEpoch := b.epoch

/-- `recovery_snapshot` reaches the `debug_assert!(false)` of `concat_chunks_from` -/
def recoveryAsserts (b : ReplayBuffer) : Bool :=
  match b.validCheckpoint with
  | some cp => (b.concatChunksFrom cp.anchorSeq).2
  | none => false

end ReplayBuffer

inductive ReplayOp where
  | push (data : Bytes)
  | shrink (maxBytes : Nat)
  | storeCheckpoint (cp : TerminalCheckpoint)

namespace ReplayOp

def apply (b : ReplayBuffer) : ReplayOp → ReplayBuffer
  | .push data => b.push data
  | .shrink maxBytes => b.shrink maxBytes
  | .storeCheckpoint cp => (b.storeCheckpoint cp).1

def data : ReplayOp → Bytes
  | .push data => data
  | _ => []

end ReplayOp

def pushedStream (ops : List ReplayOp) : Bytes := ops.flatMap ReplayOp.data

/-- the buffer after the operations `ops` -/
def replayAfter (maxBytes epoch : Nat) (ops : List ReplayOp) : ReplayBuffer :=
  Run.run ReplayOp.apply (ReplayBuffer.new maxBytes epoch) ops

/-! ## spec lemmas of the operations -/

namespace ReplayBuffer

section
variable (b : ReplayBuffer) (w : ChunkWindow UInt8)
include b w

@[simp] theorem setWindow_window :
    (b.setWindow w).window = w := rfl
@[simp] theorem setWindow_pushedSeq :
    (b.setWindow w).pushedSeq = b.pushedSeq := rfl
@[simp] theorem setWindow_maxBytes :
    (b.setWindow w).maxBytes = b.maxBytes := rfl
@[simp] theorem setWindow_epoch :
    (b.setWindow w).epoch = b.epoch := rfl
@[simp] theorem setWindow_checkpoint :
    (b.setWindow w).checkpoint = b.checkpoint := rfl

end

/-- the window `evict_front` leaves -/
def evicted (b : ReplayBuffer) : ChunkWindow UInt8 :=
  b.window.popWhile fun _ total _ => total > b.maxBytes

theorem evictFront_spec (b : ReplayBuffer) :
    b.evictFront = { b.setWindow b.evicted with
      checkpoint := b.checkpoint.filter fun cp => decide (b.evicted.start ≤ cp.anchorSeq) } := by
  show (if b.checkpoint.any (fun cp => decide (cp.anchorSeq < b.evicted.start)) then
    { b.setWindow b.evicted with checkpoint := none } else b.setWindow b.evicted) = _
  cases hcp : b.checkpoint with
  | none => simp [setWindow, hcp]
  | some cp =>
    by_cases h : cp.anchorSeq < b.evicted.start
    · have h' : ¬ b.evicted.start ≤ cp.anchorSeq := Nat.not_le_of_lt h
      simp [setWindow, h, Option.filter_some, h']
    · have h' : b.evicted.start ≤ cp.anchorSeq := Nat.le_of_not_lt h
      simp [setWindow, hcp, h, Option.filter_some, h']

theorem storeCheckpoint_cases (b : ReplayBuffer) (cp : TerminalCheckpoint) :
    ((b.storeCheckpoint cp).1 = b ∧ ∀ a, (b.storeCheckpoint cp).2 ≠ .accepted a) ∨
    (cp.checkpointEpoch = b.epoch ∧ b.windowStartSeq ≤ cp.anchorSeq ∧ cp.anchorSeq ≤ b.pushedSeq ∧
      b.storeCheckpoint cp =
        (({ b with checkpoint := some cp } : ReplayBuffer).trimBeforeAnchor cp.anchorSeq,
          .accepted cp.anchorSeq)) := by
  unfold storeCheckpoint
  split
  · exact .inl ⟨rfl, nofun⟩
  split
  · exact .inl ⟨rfl, nofun⟩
  rename_i hepoch
  split
  · exact .inl ⟨rfl, nofun⟩
  split
  · exact .inl ⟨rfl, nofun⟩
  rename_i hgap
  split
  · exact .inl ⟨rfl, nofun⟩
  rename_i hfuture
  exact .inr ⟨Decidable.not_not.mp hepoch, Nat.le_of_not_lt hgap, Nat.le_of_not_lt hfuture, rfl⟩

end ReplayBuffer

end CcPanes

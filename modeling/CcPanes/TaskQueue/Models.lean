/-!
# Data of the task queue

The types of `models/task_queue.rs` and the rows of the tables `task_queue_runtime`,
`terminal_task_queues` and `terminal_task_queue_items`.  A text column that only ever holds the
database words of an enumeration is that enumeration, the JSON column of the image references is
the list it encodes, and an `i64` that only counts is a natural number.
-/

namespace CcPanes

def taskQueueMaxItems : Nat := 100
def taskQueueMaxTextBytes : Nat := 65536
def taskQueueMaxImageRefs : Nat := 10

inductive AppError where
  | message (code : Option String) (text : String)
  | notFound (text : String)

abbrev AppResult := Except AppError

theorem bind_ok {α β : Type} {x : AppResult α} {f : α → AppResult β} {b : β}
    (h : x >>= f = .ok b) : ∃ a, x = .ok a ∧ f a = .ok b := by
  cases x with
  | error => cases h
  | ok a => exact ⟨a, rfl, h⟩

namespace AppError

def coded (code text : String) : AppError := message (some code) text

def code : AppError → Option String
  | message code _ => code
  | notFound _ => some "NOT_FOUND"

def text : AppError → String
  | message _ text => text
  | notFound text => text

end AppError

inductive TaskQueueState where
  | disabled
  | running
  | paused
  | confirmingIdle
  | dispatching
  | actionRequired
  | sendFailed
  | sessionEnded
  deriving DecidableEq

/-- the `CHECK` on `runtime_state` -/
def TaskQueueState.storable : TaskQueueState → Bool
  | disabled | paused => false
  | _ => true

inductive TaskQueueReason where
  | globalDisabled
  | userPaused
  | waitingInput
  | unknownPrompt
  | unattendedUnsupported
  | automaticWriteUnavailable
  | sessionClaimLost
  | sessionError
  | sessionExited
  | deliveryUnknown
  | submitFailed
  deriving DecidableEq

inductive QueueItemState where
  | queued
  | dispatching
  | failed
  | deliveryUnknown
  deriving DecidableEq

structure TaskQueueItemDraft where
  text : String
  imageRefs : List String

structure TaskQueueControlPatch where
  paused : Option Bool
  unattended : Option Bool

structure TaskQueueItem where
  id : String
  sessionId : String
  position : Nat
  text : String
  imageRefs : List String
  state : QueueItemState
  createdAt : Int
  lastError : Option String
  deriving DecidableEq

structure TaskQueueSnapshot where
  sessionId : String
  paused : Bool
  unattended : Bool
  unattendedSupported : Bool
  state : TaskQueueState
  reason : Option TaskQueueReason
  items : List TaskQueueItem
  revision : Nat
  updatedAt : Int

structure TaskQueueRuntime where
  enabled : Bool
  dispatchGeneration : Nat
  updatedAt : Int

structure TaskQueueClaim where
  token : String
  dispatchGeneration : Nat
  item : TaskQueueItem

/-- the characters `str::trim` removes -/
def isWhitespace (c : Char) : Bool :=
  ('\t' ≤ c && c ≤ '\r') || c = ' ' || c = '\u0085' || c = '\u00a0' || c = '\u1680' ||
    ('\u2000' ≤ c && c ≤ '\u200a') || c = '\u2028' || c = '\u2029' || c = '\u202f' ||
    c = '\u205f' || c = '\u3000'

def trim (s : String) : String :=
  String.ofList (((s.toList.dropWhile isWhitespace).reverse.dropWhile isWhitespace).reverse)

def TaskQueueItemDraft.validated (d : TaskQueueItemDraft) : AppResult TaskQueueItemDraft :=
  let text := trim d.text
  if text = "" ∧ d.imageRefs = [] then
    .error (.coded "QUEUE_ITEM_INVALID" "A queued task must contain text or an image")
  else if text.utf8ByteSize > taskQueueMaxTextBytes then
    .error (.coded "QUEUE_ITEM_INVALID" "Queued task text exceeds 65536 UTF-8 bytes")
  else if d.imageRefs.length > taskQueueMaxImageRefs then
    .error (.coded "QUEUE_ITEM_INVALID" "A queued task accepts at most 10 images")
  else if d.imageRefs.any fun value => trim value = "" then
    .error (.coded "IMAGE_REF_INVALID" "Image references must not be empty")
  else .ok ⟨text, d.imageRefs⟩

def TaskQueueControlPatch.validate (p : TaskQueueControlPatch) : AppResult Unit :=
  if p.paused = none ∧ p.unattended = none then
    .error (.coded "QUEUE_ITEM_INVALID" "Task queue control patch is empty")
  else .ok ()

/-! ## rows -/

structure QueueRow where
  paused : Bool
  unattended : Bool
  runtimeState : TaskQueueState
  reason : Option TaskQueueReason
  revision : Nat
  activeDispatchToken : Option String
  dispatchStartedAt : Option Int
  createdAt : Int
  updatedAt : Int

structure ItemRow where
  id : String
  sessionId : String
  position : Nat
  text : String
  imageRefs : List String
  state : QueueItemState
  dispatchToken : Option String
  lastErrorCode : Option String
  lastErrorMessage : Option String
  createdAt : Int
  updatedAt : Int
  deriving DecidableEq

/-- the row `INSERT OR IGNORE` makes for a session -/
def QueueRow.fresh (now : Int) : QueueRow where
  paused := false
  unattended := false
  runtimeState := .running
  reason := none
  revision := 0
  activeDispatchToken := none
  dispatchStartedAt := none
  createdAt := now
  updatedAt := now

def QueueRow.bump (q : QueueRow) (now : Int) : QueueRow :=
  { q with revision := q.revision + 1, updatedAt := now }

def QueueRow.setPaused (q : QueueRow) (paused : Bool) (now : Int) : QueueRow :=
  { q with paused := paused, updatedAt := now }

def QueueRow.setUnattended (q : QueueRow) (unattended : Bool) (now : Int) : QueueRow :=
  { q with unattended := unattended, updatedAt := now }

/-- the assignments that give up the dispatch claim of a queue -/
def QueueRow.unclaim (q : QueueRow) (state : TaskQueueState) (reason : Option TaskQueueReason)
    (now : Int) : QueueRow :=
  { q.bump now with
    runtimeState := state
    reason := reason
    activeDispatchToken := none
    dispatchStartedAt := none }

/-- the assignments of `claim_next` to the queue -/
def QueueRow.claim (q : QueueRow) (token : String) (now : Int) : QueueRow :=
  { q.bump now with
    runtimeState := .dispatching
    reason := none
    activeDispatchToken := some token
    dispatchStartedAt := some now }

/-- the assignments of `claim_next` to the item -/
def ItemRow.dispatch (r : ItemRow) (token : String) (now : Int) : ItemRow :=
  { r with state := .dispatching, dispatchToken := some token, updatedAt := now }

/-- the assignments that end the dispatch of an item, or its failure -/
def ItemRow.settle (r : ItemRow) (state : QueueItemState) (code message : Option String)
    (now : Int) : ItemRow :=
  { r with
    state := state
    dispatchToken := none
    lastErrorCode := code
    lastErrorMessage := message
    updatedAt := now }

def ItemRow.moveUp (r : ItemRow) (now : Int) : ItemRow :=
  { r with position := r.position - 1, updatedAt := now }

/-- `parse_raw_item` -/
def ItemRow.toItem (r : ItemRow) : TaskQueueItem where
  id := r.id
  sessionId := r.sessionId
  position := r.position
  text := r.text
  imageRefs := r.imageRefs
  state := r.state
  createdAt := r.createdAt
  lastError := r.lastErrorMessage.or r.lastErrorCode

end CcPanes

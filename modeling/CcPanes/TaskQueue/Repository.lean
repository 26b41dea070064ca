import CcPanes.Foundation.DensePositions
import CcPanes.TaskQueue.Models
import Mathlib.Data.List.Sort
import Mathlib.Logic.Function.Basic

/-!
# The task queue repository

`TaskQueueRepository` of `task_queue_repository.rs` over its three tables.  Every operation is one
transaction: it returns its answer with the database it commits, or an error, and then nothing
changes (`commit`).  The SQL statements are the functions of the first section, under the condition
of their `WHERE`.  A fresh `Uuid` is an argument.  The `CHECK` and `UNIQUE` constraints appear
where a statement can violate them: at the primary key of an inserted item and at `runtime_state`.
The decrement of the positions visits the rows in the order of the index on the positions, so no
two rows ever share one.
-/

namespace CcPanes

open DensePositions

structure TaskQueueDb where
  runtime : Option TaskQueueRuntime
  queues : String → Option QueueRow
  items : List ItemRow

namespace TaskQueueDb

def init (now : Int) : TaskQueueDb := ⟨some ⟨true, 0, now⟩, fun _ => none, []⟩

def rows (db : TaskQueueDb) (sid : String) : List ItemRow :=
  db.items.filter fun r => r.sessionId = sid

/-! ## statements -/

def ensureRuntime (db : TaskQueueDb) (now : Int) : TaskQueueDb :=
  { db with runtime := some (db.runtime.getD ⟨true, 0, now⟩) }

def ensureQueue (db : TaskQueueDb) (sid : String) (now : Int) : TaskQueueDb :=
  { db with
    queues := Function.update db.queues sid (some ((db.queues sid).getD (QueueRow.fresh now))) }

def updateQueue (db : TaskQueueDb) (sid : String) (f : QueueRow → QueueRow) : TaskQueueDb :=
  { db with queues := Function.update db.queues sid ((db.queues sid).map f) }

def bumpQueueRevision (db : TaskQueueDb) (sid : String) (now : Int) : TaskQueueDb :=
  db.updateQueue sid fun q => q.bump now

def insertItem (db : TaskQueueDb) (row : ItemRow) : AppResult TaskQueueDb :=
  if db.items.any fun r => r.id = row.id then
    .error (.message none "UNIQUE constraint failed: terminal_task_queue_items.id")
  else .ok { db with items := db.items ++ [row] }

def deleteItems (db : TaskQueueDb) (sid : String) (p : ItemRow → Bool) : TaskQueueDb :=
  { db with items := db.items.filter fun r => !(r.sessionId = sid && p r) }

def updateItems (db : TaskQueueDb) (sid : String) (p : ItemRow → Bool)
    (f : ItemRow → ItemRow) : TaskQueueDb :=
  { db with items := db.items.map fun r => if r.sessionId = sid && p r then f r else r }

/-- `position = position - 1` where it is greater than `position` -/
def closePositions (db : TaskQueueDb) (sid : String) (position : Nat) (now : Int) :
    TaskQueueDb :=
  db.updateItems sid (fun r => r.position > position) fun r => r.moveUp now

def readRuntime (db : TaskQueueDb) : AppResult TaskQueueRuntime :=
  match db.runtime with
  | none => .error (.coded "QUEUE_RUNTIME_MISSING" "Task queue runtime row is missing")
  | some runtime => .ok runtime

/-- `ORDER BY position ASC` -/
def fetchItems (db : TaskQueueDb) (sid : String) : List TaskQueueItem :=
  ((db.rows sid).insertionSort fun a b => a.position ≤ b.position).map ItemRow.toItem

def fetchHead (db : TaskQueueDb) (sid : String) : Option TaskQueueItem := (db.fetchItems sid).head?

def readSnapshot (db : TaskQueueDb) (sid : String) : AppResult TaskQueueSnapshot := do
  let runtime ← db.readRuntime
  match db.queues sid with
  | none => .error (.coded "SESSION_NOT_FOUND" "Task queue session is missing")
  | some q =>
    let (state, reason) :=
      if !runtime.enabled then (TaskQueueState.disabled, some TaskQueueReason.globalDisabled)
      else if q.paused then (.paused, some .userPaused)
      else (q.runtimeState, q.reason)
    .ok
      { sessionId := sid
        paused := q.paused
        unattended := q.unattended
        unattendedSupported := false
        state := state
        reason := reason
        items := db.fetchItems sid
        revision := q.revision
        updatedAt := q.updatedAt }

/-- the snapshot an operation returns, beside the database it commits -/
def withSnapshot (db : TaskQueueDb) (sid : String) : AppResult (TaskQueueSnapshot × TaskQueueDb) :=
  do
    let snapshot ← db.readSnapshot sid
    .ok (snapshot, db)

/-! ## operations -/

def setGlobalEnabled (db : TaskQueueDb) (enabled : Bool) (now : Int) :
    AppResult (TaskQueueRuntime × TaskQueueDb) := do
  let runtime ← (db.ensureRuntime now).readRuntime
  let runtime := ⟨enabled, runtime.dispatchGeneration + 1, now⟩
  .ok (runtime, { db with runtime := some runtime })

def snapshot (db : TaskQueueDb) (sid : String) : AppResult (TaskQueueSnapshot × TaskQueueDb) :=
  ((db.ensureRuntime 0).ensureQueue sid 0).withSnapshot sid

def addItem (db : TaskQueueDb) (sid : String) (draft : TaskQueueItemDraft) (id : String)
    (now : Int) : AppResult (TaskQueueSnapshot × TaskQueueDb) := do
  let draft ← draft.validated
  let db := (db.ensureRuntime now).ensureQueue sid now
  if (db.rows sid).length ≥ taskQueueMaxItems then
    .error (.coded "QUEUE_FULL" "Task queue cannot contain more than 100 active items")
  else
    let db ← db.insertItem
      { id := id
        sessionId := sid
        position := nextPosition ((db.rows sid).map ItemRow.position)
        text := draft.text
        imageRefs := draft.imageRefs
        state := .queued
        dispatchToken := none
        lastErrorCode := none
        lastErrorMessage := none
        createdAt := now
        updatedAt := now }
    (db.bumpQueueRevision sid now).withSnapshot sid

def deleteItem (db : TaskQueueDb) (sid itemId : String) (now : Int) :
    AppResult (TaskQueueSnapshot × TaskQueueDb) :=
  let db := db.ensureQueue sid now
  match (db.rows sid).find? fun r => r.id = itemId with
  | none => .error (.coded "QUEUE_ITEM_NOT_FOUND" "Task queue item not found")
  | some row =>
    if row.state = .dispatching then
      .error (.coded "QUEUE_ITEM_INVALID" "A dispatching task cannot be cancelled")
    else
      let db := (db.deleteItems sid fun r => r.id = itemId).closePositions sid row.position now
      (db.bumpQueueRevision sid now).withSnapshot sid

def clearQueue (db : TaskQueueDb) (sid : String) (now : Int) :
    AppResult (TaskQueueSnapshot × TaskQueueDb) :=
  let db := (db.ensureQueue sid now).deleteItems sid fun r => r.state ≠ .dispatching
  let db := db.updateQueue sid fun q =>
    if q.activeDispatchToken = none then q.unclaim .running none now else q
  db.withSnapshot sid

def updateControl (db : TaskQueueDb) (sid : String) (patch : TaskQueueControlPatch)
    (now : Int) : AppResult (TaskQueueSnapshot × TaskQueueDb) := do
  patch.validate
  let db := db.ensureQueue sid now
  let db := match patch.paused with
    | none => db
    | some paused => db.updateQueue sid fun q => q.setPaused paused now
  let db := match patch.unattended with
    | none => db
    | some unattended => db.updateQueue sid fun q => q.setUnattended unattended now
  (db.bumpQueueRevision sid now).withSnapshot sid

/-- `state IN ('failed', 'delivery_unknown')` -/
def retryable (r : ItemRow) : Bool := r.state = .failed || r.state = .deliveryUnknown

def retryItem (db : TaskQueueDb) (sid itemId : String) (now : Int) :
    AppResult (TaskQueueSnapshot × TaskQueueDb) :=
  let db := db.ensureQueue sid now
  let matched := fun r : ItemRow => r.id = itemId && retryable r
  if (db.rows sid).countP matched = 0 then
    if (db.rows sid).any fun r => r.id = itemId then
      .error (.coded "QUEUE_ITEM_INVALID" "Only failed or unknown tasks can be retried")
    else .error (.coded "QUEUE_ITEM_NOT_FOUND" "Task queue item not found")
  else
    let db := db.updateItems sid matched fun r => r.settle .queued none none now
    (db.updateQueue sid fun q => q.unclaim .running none now).withSnapshot sid

def setRuntimeStatus (db : TaskQueueDb) (sid : String) (state : TaskQueueState)
    (reason : Option TaskQueueReason) (now : Int) :
    AppResult (TaskQueueSnapshot × TaskQueueDb) :=
  let db := (db.ensureRuntime now).ensureQueue sid now
  let matched := fun q : QueueRow =>
    q.activeDispatchToken = none && (q.runtimeState ≠ state || q.reason ≠ reason)
  if (db.queues sid).any matched && !state.storable then
    .error (.message none "CHECK constraint failed: runtime_state")
  else
    let db := db.updateQueue sid fun q =>
      if matched q then { q.bump now with runtimeState := state, reason := reason } else q
    db.withSnapshot sid

/-- `state = 'queued' AND dispatch_token IS NULL` -/
def claimable (itemId : String) (r : ItemRow) : Bool :=
  r.id = itemId && r.state = .queued && r.dispatchToken = none

def claimNext (db : TaskQueueDb) (sid : String) (expectedGeneration : Nat) (token : String)
    (now : Int) : AppResult (Option TaskQueueClaim × TaskQueueDb) := do
  let runtime ← db.readRuntime
  if !runtime.enabled || runtime.dispatchGeneration ≠ expectedGeneration then .ok (none, db)
  else
    match db.queues sid with
    | none => .ok (none, db)
    | some q =>
      if q.paused || q.activeDispatchToken.isSome then .ok (none, db)
      else
        match db.fetchHead sid with
        | none => .ok (none, db)
        | some item =>
          if item.state ≠ .queued then .ok (none, db)
          else
            let db' := db.updateItems sid (claimable item.id) fun r => r.dispatch token now
            if (db.rows sid).countP (claimable item.id) ≠ 1 then .ok (none, db')
            else if !(db'.queues sid).any fun q => q.activeDispatchToken = none then
              .error (.coded "QUEUE_CLAIM_CONFLICT"
                "Task queue dispatch claim changed concurrently")
            else
              let db' := db'.updateQueue sid fun q =>
                if q.activeDispatchToken = none then q.claim token now else q
              .ok (some ⟨token, expectedGeneration, { item with state := .dispatching }⟩, db')

/-- the item a claim is on, `state = 'dispatching' AND dispatch_token = token` -/
def claimed (itemId token : String) (r : ItemRow) : Bool :=
  r.id = itemId && r.state = .dispatching && r.dispatchToken = some token

/-- `active_dispatch_token = token` -/
def heldBy (token : String) (q : QueueRow) : Bool := q.activeDispatchToken = some token

def completeClaim (db : TaskQueueDb) (sid itemId token : String) (now : Int) :
    AppResult (Bool × TaskQueueDb) :=
  match (db.rows sid).find? fun r =>
      claimed itemId token r && (db.queues sid).any (heldBy token) with
  | none => .ok (false, db)
  | some row =>
    let db := (db.deleteItems sid (claimed itemId token)).closePositions sid row.position now
    let affected := (db.queues sid).any (heldBy token)
    .ok (affected, db.updateQueue sid fun q =>
      if heldBy token q then q.unclaim .running none now else q)

/-- the state of the queue for the state its claimed item is left in -/
def finishedQueueState : QueueItemState → TaskQueueState
  | .queued => .running
  | .failed => .sendFailed
  | .deliveryUnknown => .actionRequired
  | .dispatching => .dispatching

def finishedReason : QueueItemState → Option TaskQueueReason
  | .queued => none
  | .failed => some .submitFailed
  | .deliveryUnknown => some .deliveryUnknown
  | .dispatching => none

def finishClaim (db : TaskQueueDb) (sid itemId token : String) (state : QueueItemState)
    (code message : Option String) (now : Int) : AppResult (Bool × TaskQueueDb) :=
  let matched := fun r => claimed itemId token r && (db.queues sid).any (heldBy token)
  if (db.rows sid).countP matched = 0 then .ok (false, db)
  else
    let db := db.updateItems sid matched fun r => r.settle state code message now
    if !(db.queues sid).any (heldBy token) then
      .error (.coded "QUEUE_CLAIM_CONFLICT" "Task queue dispatch claim changed concurrently")
    else
      .ok (true, db.updateQueue sid fun q =>
        if heldBy token q then q.unclaim (finishedQueueState state) (finishedReason state) now
        else q)

def returnClaimToQueue (db : TaskQueueDb) (sid itemId token : String) (now : Int) :
    AppResult (Bool × TaskQueueDb) :=
  db.finishClaim sid itemId token .queued none none now

def failClaim (db : TaskQueueDb) (sid itemId token code message : String) (now : Int) :
    AppResult (Bool × TaskQueueDb) :=
  db.finishClaim sid itemId token .failed (some code) (some message) now

def markDeliveryUnknown (db : TaskQueueDb) (sid itemId token message : String) (now : Int) :
    AppResult (Bool × TaskQueueDb) :=
  db.finishClaim sid itemId token .deliveryUnknown (some "DELIVERY_UNKNOWN") (some message) now

def isDispatching (r : ItemRow) : Bool := r.state = .dispatching

/-- what recovery makes of an item whose dispatch was interrupted -/
def interrupted (now : Int) (r : ItemRow) : ItemRow :=
  r.settle .deliveryUnknown (some "DELIVERY_UNKNOWN")
    (some "Dispatch was interrupted before acknowledgement") now

def recoverInflight (db : TaskQueueDb) (now : Int) : AppResult (Nat × TaskQueueDb) :=
  let db' : TaskQueueDb :=
    { db with
      queues sid := (db.queues sid).map fun q =>
        if q.activeDispatchToken.isSome || (db.rows sid).any isDispatching then
          q.unclaim .actionRequired (some .deliveryUnknown) now
        else q
      items := db.items.map fun r => if isDispatching r then interrupted now r else r }
  .ok (db.items.countP isDispatching, db')

/-- the database after a transaction: an error rolls it back -/
def commit {α : Type} (db : TaskQueueDb) : AppResult (α × TaskQueueDb) → TaskQueueDb
  | .ok (_, db') => db'
  | .error _ => db

end TaskQueueDb

inductive QueueOp where
  | snapshot (sid : String)
  | addItem (sid : String) (draft : TaskQueueItemDraft) (id : String) (now : Int)
  | deleteItem (sid itemId : String) (now : Int)
  | clearQueue (sid : String) (now : Int)
  | updateControl (sid : String) (patch : TaskQueueControlPatch) (now : Int)
  | retryItem (sid itemId : String) (now : Int)
  | setRuntimeStatus (sid : String) (state : TaskQueueState) (reason : Option TaskQueueReason)
      (now : Int)
  | setGlobalEnabled (enabled : Bool) (now : Int)
  | claimNext (sid : String) (expectedGeneration : Nat) (token : String) (now : Int)
  | completeClaim (sid itemId token : String) (now : Int)
  | returnClaimToQueue (sid itemId token : String) (now : Int)
  | failClaim (sid itemId token code message : String) (now : Int)
  | markDeliveryUnknown (sid itemId token message : String) (now : Int)
  | recoverInflight (now : Int)

namespace QueueOp

def apply (db : TaskQueueDb) : QueueOp → TaskQueueDb
  | snapshot sid => db.commit (db.snapshot sid)
  | addItem sid draft id now => db.commit (db.addItem sid draft id now)
  | deleteItem sid itemId now => db.commit (db.deleteItem sid itemId now)
  | clearQueue sid now => db.commit (db.clearQueue sid now)
  | updateControl sid patch now => db.commit (db.updateControl sid patch now)
  | retryItem sid itemId now => db.commit (db.retryItem sid itemId now)
  | setRuntimeStatus sid state reason now => db.commit (db.setRuntimeStatus sid state reason now)
  | setGlobalEnabled enabled now => db.commit (db.setGlobalEnabled enabled now)
  | claimNext sid generation token now => db.commit (db.claimNext sid generation token now)
  | completeClaim sid itemId token now => db.commit (db.completeClaim sid itemId token now)
  | returnClaimToQueue sid itemId token now =>
    db.commit (db.returnClaimToQueue sid itemId token now)
  | failClaim sid itemId token code message now =>
    db.commit (db.failClaim sid itemId token code message now)
  | markDeliveryUnknown sid itemId token message now =>
    db.commit (db.markDeliveryUnknown sid itemId token message now)
  | recoverInflight now => db.commit (db.recoverInflight now)

end QueueOp

end CcPanes

import CcPanes.Foundation.BoundedChannel
import CcPanes.Foundation.FiniteMap
import CcPanes.Foundation.Run
import Mathlib.Data.Finset.Card
import Mathlib.Data.Finset.Dedup
import Mathlib.Data.List.Induction

/-!
# The events of the history watchers

`enqueue_history_batch`, `DebounceBatch` and `event_loop` of `history_service.rs`.  A watcher hands
over its events batch by batch, through a channel that may be full: then the modifications are given
up, and the caller waits with the removals until there is room.  The loop collects the batches of a
window, gives the modifications up if they are of more than 128 files, and handles the last event of
each file.
-/

namespace CcPanes
open BoundedChannel List

abbrev PathBuf := List String

inductive HistoryEvent where
  | fileChanged (projectPath filePath : PathBuf) (branch : String)
  | fileRemoved (projectPath filePath : PathBuf) (branch : String)
  | branchSwitched (projectPath : PathBuf) (oldBranch newBranch : String)
deriving DecidableEq

namespace HistoryEvent

def isChanged : HistoryEvent → Bool
  | .fileChanged .. => true
  | _ => false

def isRemoved : HistoryEvent → Bool
  | .fileRemoved .. => true
  | _ => false

def isSwitched : HistoryEvent → Bool
  | .branchSwitched .. => true
  | _ => false

def filePath? : HistoryEvent → Option PathBuf
  | .fileChanged _ filePath _ => some filePath
  | .fileRemoved _ filePath _ => some filePath
  | .branchSwitched .. => none

def changedPath? : HistoryEvent → Option PathBuf
  | .fileChanged _ filePath _ => some filePath
  | _ => none

section
variable {event : HistoryEvent}

theorem isRemoved_of_isChanged (h : event.isChanged = true) : event.isRemoved = false := by
  cases event <;> first | rfl | cases h

theorem isRemoved_of_isSwitched (h : event.isSwitched = true) : event.isRemoved = false := by
  cases event <;> first | rfl | cases h

theorem isChanged_of_isRemoved (h : event.isRemoved = true) : event.isChanged = false := by
  cases event <;> first | rfl | cases h

theorem isChanged_of_isSwitched (h : event.isSwitched = true) : event.isChanged = false := by
  cases event <;> first | rfl | cases h

theorem filePath_cases {file : PathBuf} (h : event.filePath? = some file) :
    event.isChanged = true ∧ event.changedPath? = some file ∨
      event.isRemoved = true ∧ event.isChanged = false := by
  cases event with
  | fileChanged => exact .inl ⟨rfl, h⟩
  | fileRemoved => exact .inr ⟨rfl, rfl⟩
  | branchSwitched => cases h

end

end HistoryEvent

def historyEventBufferCapacity : Nat := 30000

def debounceBatchPathLimit : Nat := 128

/-! ## the window -/

structure DebounceBatch where
  events : List HistoryEvent
  changedPaths : Finset PathBuf
  changesOverflowed : Bool

namespace DebounceBatch

def default : DebounceBatch := ⟨[], ∅, false⟩

/-- one event of `push`; the flag is `overflow_started` -/
def pushEvent (acc : Bool × DebounceBatch) (event : HistoryEvent) : Bool × DebounceBatch :=
  match event with
  | .fileChanged _ filePath _ =>
    if acc.2.changesOverflowed then acc
    else
      let changedPaths := insert filePath acc.2.changedPaths
      if changedPaths.card > debounceBatchPathLimit then
        (true,
          { events := acc.2.events.filter fun event => !event.isChanged
            changedPaths := ∅
            changesOverflowed := true })
      else (acc.1, { acc.2 with events := acc.2.events ++ [event], changedPaths := changedPaths })
  | _ => (acc.1, { acc.2 with events := acc.2.events ++ [event] })

def push (batch : DebounceBatch) (events : List HistoryEvent) : Bool × DebounceBatch :=
  events.foldl pushEvent (false, batch)

def intoEvents (batch : DebounceBatch) : Option (List HistoryEvent) := some batch.events

end DebounceBatch

namespace HistoryEvent

def branchEvents (events : List HistoryEvent) : List HistoryEvent := events.filter isSwitched

def deduped (events : List HistoryEvent) : FiniteMap PathBuf HistoryEvent :=
  (events.filter fun event => !event.isSwitched).foldl
    (fun deduped event =>
      match event.filePath? with
      | none => deduped
      | some key => deduped.insert key event) ∅

end HistoryEvent

/-! ## the channel and the loop -/

inductive LoopPhase where
  | waiting
  | collecting (batch : DebounceBatch)
  | returned

/-- a call of `enqueue_history_batch`, and whether the channel was full -/
structure EnqueueCall where
  batch : List HistoryEvent
  full : Bool

structure HistoryEventLoop where
  channel : Channel (List HistoryEvent) historyEventBufferCapacity
  /-- the batch that a `send` waits with -/
  blocked : Option (List HistoryEvent)
  overflowWarned : Bool
  /-- the senders are gone -/
  disconnected : Bool
  phase : LoopPhase
  calls : List EnqueueCall
  /-- `into_events` of the windows that were handled -/
  windows : List (List HistoryEvent)

inductive LoopAction where
  | enqueue (batch : List HistoryEvent)
  | resume
  | recv
  | deadline
  | disconnect

namespace LoopAction

def isLoop : LoopAction → Bool
  | .resume | .recv | .deadline => true
  | _ => false

end LoopAction

namespace HistoryEventLoop

def start : HistoryEventLoop where
  channel := Channel.new
  blocked := none
  overflowWarned := false
  disconnected := false
  phase := .waiting
  calls := []
  windows := []

/-- the flag is `should_warn`; the call returns when no `send` waits any more -/
def enqueueHistoryBatch (s : HistoryEventLoop) (batch : List HistoryEvent) :
    Bool × HistoryEventLoop :=
  if batch.isEmpty then (false, s)
  else
    match s.channel.trySend batch with
    | .ok channel => (false, { s with channel := channel })
    | .error .full =>
      let removals := batch.filter HistoryEvent.isRemoved
      (!s.overflowWarned, { s with
          overflowWarned := true
          blocked := if removals.isEmpty then none else some removals })
    | .error .closed => (false, s)

def isFull (s : HistoryEventLoop) : Bool :=
  historyEventBufferCapacity ≤ s.channel.queue.length

/-- the batch at the head of the queue comes into the window -/
def collect (s : HistoryEventLoop) (window : DebounceBatch) : HistoryEventLoop :=
  match s.channel.queue with
  | [] =>
    if s.disconnected then { s with channel := s.channel.close, phase := .returned } else s
  | events :: _ =>
    { s with channel := s.channel.recv, phase := .collecting (window.push events).2 }

def step (s : HistoryEventLoop) : LoopAction → HistoryEventLoop
  | .enqueue batch =>
    if s.disconnected || s.blocked.isSome then s
    else { (s.enqueueHistoryBatch batch).2 with calls := s.calls ++ [⟨batch, s.isFull⟩] }
  | .resume =>
    match s.blocked with
    | none => s
    | some removals =>
      match s.channel.trySend removals with
      | .ok channel => { s with channel := channel, blocked := none }
      | .error .full => s
      | .error .closed => { s with blocked := none }
  | .recv =>
    match s.phase with
    | .waiting => s.collect DebounceBatch.default
    | .collecting window => s.collect window
    | .returned => s
  | .deadline =>
    match s.phase with
    | .collecting window =>
      match window.intoEvents with
      | none => { s with phase := .waiting }
      | some events => { s with phase := .waiting, windows := s.windows ++ [events] }
    | _ => s
  | .disconnect => if s.blocked.isSome then s else { s with disconnected := true }

end HistoryEventLoop

/-! ## what is left of the batches of a window -/

namespace HistoryEvent

def changedPaths (events : List HistoryEvent) : Finset PathBuf :=
  (events.filterMap changedPath?).toFinset

theorem changedPaths_snoc_changed (events : List HistoryEvent) (project file : PathBuf)
    (branch : String) :
    changedPaths (events ++ [.fileChanged project file branch]) =
      insert file (changedPaths events) := by
  unfold changedPaths
  rw [filterMap_append, toFinset_append, Finset.insert_eq, Finset.union_comm]
  rfl

theorem changedPaths_snoc_other {events : List HistoryEvent} {event : HistoryEvent}
    (h : event.isChanged = false) : changedPaths (events ++ [event]) = changedPaths events := by
  unfold changedPaths
  rw [filterMap_append]
  cases event with
  | fileChanged => cases h
  | fileRemoved => exact congrArg toFinset (append_nil _)
  | branchSwitched => exact congrArg toFinset (append_nil _)

/-- the events of a window that changes the files of `events` -/
def withinLimit (events : List HistoryEvent) : List HistoryEvent :=
  if (changedPaths events).card ≤ debounceBatchPathLimit then events
  else events.filter fun event => !event.isChanged

def lastEvent (events : List HistoryEvent) (file : PathBuf) : Option HistoryEvent :=
  (events.filter fun event => event.filePath? = some file).getLast?

theorem lookup_deduped (events : List HistoryEvent) (file : PathBuf) :
    (deduped events).lookup file = lastEvent events file := by
  have hfold : ∀ rest : List HistoryEvent,
      (rest.foldl (fun deduped event =>
        match event.filePath? with
        | none => deduped
        | some key => deduped.insert key event) (∅ : FiniteMap PathBuf HistoryEvent)).lookup file =
      lastEvent rest file := by
    intro rest
    induction rest using reverseRecOn with
    | nil => rfl
    | append_singleton rest event ih =>
      unfold lastEvent at ih ⊢
      rw [foldl_append, foldl_cons, foldl_nil, filter_append]
      by_cases hfile : event.filePath? = some file
      · rw [filter_cons_of_pos (by simpa using hfile), filter_nil, getLast?_concat]
        simp only [hfile]
        exact AList.lookup_insert _
      rw [filter_cons_of_neg (by simpa using hfile), filter_nil, append_nil, ← ih]
      split
      · rfl
      next key hkey =>
        refine AList.lookup_insert_ne ?_
        rintro rfl
        exact hfile hkey
  unfold deduped
  rw [hfold, lastEvent, lastEvent, filter_filter]
  congr 1
  refine filter_congr fun event _ => ?_
  cases event with
  | fileChanged => simp [isSwitched]
  | fileRemoved => simp [isSwitched]
  | branchSwitched => simp [filePath?]

end HistoryEvent

namespace DebounceBatch
open HistoryEvent

variable {events : List HistoryEvent} {acc : Bool × DebounceBatch}

/-- the window after the events -/
structure Holds (window : DebounceBatch) (events : List HistoryEvent) : Prop where
  kept : window.events = withinLimit events
  overflow : window.changesOverflowed = decide
    (debounceBatchPathLimit < (HistoryEvent.changedPaths events).card)
  paths : window.changesOverflowed = false →
    window.changedPaths = HistoryEvent.changedPaths events

theorem default_holds : default.Holds [] := ⟨rfl, rfl, fun _ => rfl⟩

theorem Holds.pushOther (h : acc.2.Holds events) {event : HistoryEvent}
    (hevent : event.isChanged = false) : (pushEvent acc event).2.Holds (events ++ [event]) := by
  have hpush : pushEvent acc event =
      (acc.1, { acc.2 with events := acc.2.events ++ [event] }) := by
    cases event with
    | fileChanged => cases hevent
    | fileRemoved => rfl
    | branchSwitched => rfl
  rw [hpush]
  refine ⟨?_, ?_, ?_⟩
  · show acc.2.events ++ [event] = withinLimit (events ++ [event])
    unfold withinLimit
    rw [h.kept, changedPaths_snoc_other hevent, withinLimit]
    split
    · rfl
    · rw [filter_append, filter_cons_of_pos (by simp [hevent]), filter_nil]
  · rw [changedPaths_snoc_other hevent]
    exact h.overflow
  · rw [changedPaths_snoc_other hevent]
    exact h.paths

theorem Holds.pushChanged (h : acc.2.Holds events) (project file : PathBuf) (branch : String) :
    (pushEvent acc (.fileChanged project file branch)).2.Holds
      (events ++ [.fileChanged project file branch]) := by
  have hgrow : (HistoryEvent.changedPaths events).card ≤
      (insert file (HistoryEvent.changedPaths events)).card :=
    Finset.card_le_card (Finset.subset_insert _ _)
  unfold pushEvent
  dsimp only
  split
  next hover =>
    -- the changes have been given up already
    have hlimit : debounceBatchPathLimit < (HistoryEvent.changedPaths events).card := by
      rw [h.overflow, decide_eq_true_eq] at hover
      exact hover
    refine ⟨?_, ?_, ?_⟩
    · rw [h.kept, withinLimit, withinLimit, changedPaths_snoc_changed, if_neg (by omega),
        if_neg (by omega), filter_append, filter_cons_of_neg (by simp [isChanged]),
        filter_nil, append_nil]
    · rw [changedPaths_snoc_changed, hover, eq_comm, decide_eq_true_eq]
      omega
    · intro hfalse
      rw [hover] at hfalse
      cases hfalse
  next hover =>
    have hfalse : acc.2.changesOverflowed = false := by simpa using hover
    have hlimit : (HistoryEvent.changedPaths events).card ≤ debounceBatchPathLimit := by
      rw [h.overflow, decide_eq_false_iff_not] at hfalse
      omega
    have hevents : acc.2.events = events := by
      rw [h.kept, withinLimit, if_pos hlimit]
    rw [h.paths hfalse, hevents]
    split
    next hfull =>
      refine ⟨?_, ?_, nofun⟩
      · rw [withinLimit, changedPaths_snoc_changed, if_neg (by omega), filter_append,
          filter_cons_of_neg (by simp [isChanged]), filter_nil, append_nil]
      · rw [changedPaths_snoc_changed, eq_comm, decide_eq_true_eq]
        exact hfull
    next hroom =>
      refine ⟨?_, ?_, fun _ => ?_⟩
      · rw [withinLimit, changedPaths_snoc_changed, if_pos (by omega)]
      · rw [changedPaths_snoc_changed]
        rw [hfalse, eq_comm, decide_eq_false_iff_not]
        exact hroom
      · rw [changedPaths_snoc_changed]

/-- **What a window holds after a batch**: all events, or all but the modifications. -/
theorem Holds.push {window : DebounceBatch} (h : window.Holds events) (batch : List HistoryEvent) :
    (window.push batch).2.Holds (events ++ batch) := by
  unfold DebounceBatch.push
  induction batch using reverseRecOn with
  | nil =>
    rw [append_nil]
    exact h
  | append_singleton batch event ih =>
    rw [foldl_append, foldl_cons, foldl_nil, ← append_assoc]
    cases event with
    | fileChanged project file branch => exact ih.pushChanged project file branch
    | fileRemoved => exact ih.pushOther rfl
    | branchSwitched => exact ih.pushOther rfl

end DebounceBatch

/-! ## what arrives of the calls -/

namespace EnqueueCall
open HistoryEvent

variable {p : HistoryEvent → Bool}

def arrived (call : EnqueueCall) : List HistoryEvent :=
  if call.full then call.batch.filter isRemoved else call.batch

def kept (call : EnqueueCall) : Option (List HistoryEvent) :=
  if call.arrived.isEmpty then none else some call.arrived

def arrivals (calls : List EnqueueCall) : List (List HistoryEvent) := calls.filterMap kept

def pushed (calls : List EnqueueCall) : List HistoryEvent := calls.flatMap batch

def accepted (calls : List EnqueueCall) : List HistoryEvent :=
  pushed (calls.filter fun call => !call.full)

theorem arrived_isEmpty {call : EnqueueCall} (h : call.kept = none) : call.arrived = [] := by
  unfold kept at h
  split at h
  next hempty => exact isEmpty_iff.mp hempty
  · cases h

theorem flatten_arrivals (calls : List EnqueueCall) :
    (arrivals calls).flatten = calls.flatMap arrived := by
  unfold arrivals
  induction calls with
  | nil => rfl
  | cons call calls ih =>
    rw [flatMap_cons, ← ih]
    cases hkept : call.kept with
    | none => rw [filterMap_cons_none hkept, arrived_isEmpty hkept, nil_append]
    | some =>
      rw [filterMap_cons_some hkept, flatten_cons]
      unfold kept at hkept
      split at hkept
      · cases hkept
      · rw [Option.some.inj hkept]

theorem arrivals_snoc (calls : List EnqueueCall) (call : EnqueueCall) :
    arrivals (calls ++ [call]) = arrivals calls ++ call.kept.toList := by
  unfold arrivals
  rw [filterMap_append]
  cases hkept : call.kept with
  | none => rw [filterMap_cons_none hkept]; rfl
  | some => rw [filterMap_cons_some hkept]; rfl

theorem filter_arrived {call : EnqueueCall}
    (h : call.full = true → ∀ event ∈ call.batch, p event = true → event.isRemoved = true) :
    call.arrived.filter p = call.batch.filter p := by
  unfold arrived
  split
  next hfull =>
    rw [filter_filter]
    refine filter_congr fun event hmem => ?_
    cases hp : p event with
    | false => rfl
    | true => rw [h hfull event hmem hp, Bool.and_true]
  · rfl

theorem filter_flatten_arrivals {calls : List EnqueueCall}
    (h : ∀ call ∈ calls, call.full = true →
      ∀ event ∈ call.batch, p event = true → event.isRemoved = true) :
    (arrivals calls).flatten.filter p = (pushed calls).filter p := by
  rw [flatten_arrivals, pushed, filter_flatMap, filter_flatMap]
  exact flatMap_congr fun call hcall => filter_arrived (h call hcall)

theorem filter_accepted (h : ∀ event, p event = true → event.isRemoved = false)
    (calls : List EnqueueCall) : (arrivals calls).flatten.filter p = (accepted calls).filter p := by
  rw [flatten_arrivals, accepted, pushed, filter_flatMap, filter_flatMap]
  induction calls with
  | nil => rfl
  | cons call calls ih =>
    rw [flatMap_cons, ih]
    unfold arrived
    cases hfull : call.full with
    | false =>
      rw [filter_cons_of_pos (by simp [hfull]), flatMap_cons]
      rfl
    | true =>
      rw [filter_cons_of_neg (by simp [hfull]), if_pos rfl, filter_filter,
        filter_eq_nil_iff.mpr, nil_append]
      intro event _ hboth
      rw [Bool.and_eq_true] at hboth
      rw [h event hboth.1] at hboth
      cases hboth.2

end EnqueueCall

/-! ## the calls of a window -/

section
open HistoryEvent EnqueueCall

variable {calls : List EnqueueCall}

/-- a modification of the file was given up, by a full channel or for the limit of the window -/
def ChangeDropped (calls : List EnqueueCall) (file : PathBuf) : Prop :=
  (∃ call ∈ calls, call.full = true ∧ ∃ event ∈ call.batch, event.changedPath? = some file) ∨
    debounceBatchPathLimit < (changedPaths (accepted calls)).card ∧
      ∃ event ∈ accepted calls, event.changedPath? = some file

/-- what is left of the calls of a window -/
structure WindowKeeps (calls : List EnqueueCall) (events : List HistoryEvent) : Prop where
  /-- all removals -/
  removals : events.filter isRemoved = (pushed calls).filter isRemoved
  /-- the branch switches that found room -/
  switches : branchEvents events = (accepted calls).filter isSwitched
  /-- the modifications that found room, if they are of no more files than a window takes -/
  changes : (changedPaths (accepted calls)).card ≤ debounceBatchPathLimit →
    events.filter isChanged = (accepted calls).filter isChanged
  /-- the last event of a file, if no modification of it was given up -/
  survivor : ∀ file, ¬ ChangeDropped calls file →
    (deduped events).lookup file = lastEvent (pushed calls) file

theorem changedPaths_arrivals (calls : List EnqueueCall) :
    changedPaths (arrivals calls).flatten = changedPaths (accepted calls) := by
  have hfilter : ∀ events : List HistoryEvent,
      events.filterMap changedPath? = (events.filter isChanged).filterMap changedPath? := by
    intro events
    rw [filterMap_filter]
    refine filterMap_congr fun event _ => ?_
    cases event <;> rfl
  unfold changedPaths
  rw [hfilter, filter_accepted (fun _ h => isRemoved_of_isChanged h), ← hfilter]

theorem filter_withinLimit {p : HistoryEvent → Bool} (h : ∀ event, p event = true →
    event.isChanged = false) (events : List HistoryEvent) :
    (withinLimit events).filter p = events.filter p := by
  unfold withinLimit
  split
  · rfl
  rw [filter_filter]
  refine filter_congr fun event _ => ?_
  cases hp : p event with
  | false => rfl
  | true => rw [h event hp]; rfl

theorem filter_file_withinLimit {file : PathBuf} (h : ¬ ChangeDropped calls file) :
    (withinLimit (arrivals calls).flatten).filter (fun event => event.filePath? = some file) =
      (arrivals calls).flatten.filter fun event => event.filePath? = some file := by
  unfold withinLimit
  split
  · rfl
  next hlimit =>
    rw [filter_filter]
    refine filter_congr fun event hmem => ?_
    by_cases hfile : event.filePath? = some file
    · rcases filePath_cases hfile with ⟨hchanged, hpath⟩ | ⟨-, hchanged⟩
      · -- a modification of the file would have been given up
        have haccepted : event ∈ (accepted calls).filter isChanged := by
          rw [← filter_accepted (fun _ h => isRemoved_of_isChanged h)]
          exact mem_filter.mpr ⟨hmem, hchanged⟩
        rw [changedPaths_arrivals] at hlimit
        refine absurd (.inr ⟨Nat.lt_of_not_le hlimit, event, ?_, hpath⟩) h
        exact (mem_filter.mp haccepted).1
      · rw [hchanged]
        exact Bool.and_true _
    · rw [decide_eq_false hfile, Bool.false_and]

theorem filter_file_arrivals {file : PathBuf} (h : ¬ ChangeDropped calls file) :
    (arrivals calls).flatten.filter (fun event => event.filePath? = some file) =
      (pushed calls).filter fun event => event.filePath? = some file := by
  refine filter_flatten_arrivals fun call hcall hfull event hmem hfile => ?_
  rcases filePath_cases (of_decide_eq_true hfile) with ⟨-, hpath⟩ | ⟨hremoved, -⟩
  · exact absurd (.inl ⟨call, hcall, hfull, event, hmem, hpath⟩) h
  · exact hremoved

/-- **What is left of the calls of a window is what it must keep of them.** -/
theorem windowKeeps (calls : List EnqueueCall) :
    WindowKeeps calls (withinLimit (arrivals calls).flatten) := by
  refine ⟨?_, ?_, ?_, ?_⟩
  · rw [filter_withinLimit fun _ h => isChanged_of_isRemoved h]
    exact filter_flatten_arrivals fun _ _ _ _ _ hremoved => hremoved
  · unfold branchEvents
    rw [filter_withinLimit fun _ h => isChanged_of_isSwitched h]
    exact filter_accepted (fun _ h => isRemoved_of_isSwitched h) calls
  · intro hlimit
    rw [← changedPaths_arrivals] at hlimit
    rw [withinLimit, if_pos hlimit]
    exact filter_accepted (fun _ h => isRemoved_of_isChanged h) calls
  · intro file hdropped
    rw [lookup_deduped, lastEvent, lastEvent, filter_file_withinLimit hdropped,
      filter_file_arrivals hdropped]

end

end CcPanes

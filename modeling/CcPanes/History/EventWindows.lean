import CcPanes.History.EventBatches
import Mathlib.Data.List.Forall2

/-!
# The windows of the history loop

What the loop of `history_service.rs` makes of any calls of `enqueue_history_batch`.  The calls fall
into windows, in their order; a window has the removals of its calls, and the other events of those
that found room in the channel, but for the modifications if they are too many.
-/

namespace CcPanes
open BoundedChannel List Option

def LoopPhase.Collected : LoopPhase → List (List HistoryEvent) → Prop
  | .waiting, batches => batches = []
  | .collecting window, batches => window.Holds batches.flatten
  | .returned, _ => True

namespace HistoryEventLoop
open HistoryEvent EnqueueCall

/-- The calls fall into the windows that were handled and those on their way: in the window of the
loop, in the queue, or waiting for room. -/
structure Cut (s : HistoryEventLoop) (segments : List (List EnqueueCall)) (rest : List EnqueueCall)
    (batches : List (List HistoryEvent)) : Prop where
  calls : s.calls = segments.flatten ++ rest
  windows : s.windows = segments.map fun calls => withinLimit (arrivals calls).flatten
  arrivals : arrivals rest = batches ++ (s.channel.queue ++ s.blocked.toList)
  collected : s.phase.Collected batches

structure Tracked (s : HistoryEventLoop) : Prop where
  closed : s.channel.closed = true → s.disconnected = true
  returned : s.phase = .returned → s.disconnected = true
  sending : s.disconnected = true → s.blocked = none
  cut : ∃ segments rest batches, s.Cut segments rest batches

variable {s : HistoryEventLoop}

theorem tracked_start : start.Tracked where
  closed h := by cases h
  returned h := by cases h
  sending _ := rfl
  cut := ⟨[], [], [], rfl, rfl, rfl, rfl⟩

theorem Tracked.open (h : s.Tracked) (hsenders : s.disconnected = false) :
    s.channel.closed = false := by
  rw [← Bool.not_eq_true]
  intro hclosed
  rw [h.closed hclosed] at hsenders
  cases hsenders

theorem enqueueHistoryBatch_spec (hopen : s.channel.closed = false) (hfree : s.blocked = none)
    (batch : List HistoryEvent) :
    ∃ channel blocked overflowWarned,
      (s.enqueueHistoryBatch batch).2 =
        { s with channel := channel, blocked := blocked, overflowWarned := overflowWarned } ∧
      channel.closed = false ∧
      channel.queue ++ blocked.toList =
        s.channel.queue ++ (EnqueueCall.kept ⟨batch, s.isFull⟩).toList := by
  unfold enqueueHistoryBatch
  by_cases hempty : batch.isEmpty = true
  · rw [if_pos hempty]
    refine ⟨s.channel, s.blocked, s.overflowWarned, rfl, hopen, ?_⟩
    obtain rfl := isEmpty_iff.mp hempty
    rw [hfree, kept, arrived, filter_nil, ite_self]
    rfl
  rw [if_neg hempty]
  rcases Nat.lt_or_ge s.channel.queue.length historyEventBufferCapacity with hroom | hfull
  · obtain ⟨channel, hsend, hqueue, hclosed⟩ := Channel.trySend_of_room hopen hroom batch
    rw [hsend]
    refine ⟨channel, s.blocked, s.overflowWarned, rfl, hclosed, ?_⟩
    have hkept : EnqueueCall.kept ⟨batch, s.isFull⟩ = some batch := by
      rw [kept, arrived, isFull, decide_eq_false (Nat.not_le.mpr hroom),
        if_neg Bool.false_ne_true, if_neg hempty]
    rw [hqueue, hfree, hkept]
    exact append_nil _
  · rw [Channel.trySend_of_full hopen hfull]
    refine ⟨s.channel, _, true, rfl, hopen, ?_⟩
    rw [kept, arrived, isFull, decide_eq_true hfull, if_pos rfl]

section
variable (h : s.Tracked)
include h

theorem Tracked.enqueue (batch : List HistoryEvent) :
    (s.step (.enqueue batch)).Tracked := by
  by_cases hready : s.disconnected = false ∧ s.blocked = none
  · obtain ⟨channel, blocked, overflowWarned, hcall, hclosed, hqueue⟩ :=
      enqueueHistoryBatch_spec (h.open hready.1) hready.2 batch
    have hstep : s.step (.enqueue batch) =
        { (s.enqueueHistoryBatch batch).2 with calls := s.calls ++ [⟨batch, s.isFull⟩] } := by
      refine if_neg ?_
      rw [hready.1, hready.2]
      exact Bool.false_ne_true
    rw [hstep, hcall]
    refine ⟨?_, h.returned, ?_, ?_⟩
    · intro htrue
      rw [hclosed] at htrue
      cases htrue
    · intro htrue
      rw [hready.1] at htrue
      cases htrue
    obtain ⟨segments, rest, batches, hcut⟩ := h.cut
    refine ⟨segments, rest ++ [⟨batch, s.isFull⟩], batches, ?_, hcut.windows, ?_, hcut.collected⟩
    · rw [hcut.calls, append_assoc]
    · rw [arrivals_snoc, hcut.arrivals, hready.2, append_assoc, hqueue]
      simp
  · have hstay : s.step (.enqueue batch) = s := by
      refine if_pos ?_
      rw [Bool.or_eq_true, isSome_iff_ne_none]
      by_contra hnot
      rw [not_or, Bool.not_eq_true, not_not] at hnot
      exact hready hnot
    rw [hstay]
    exact h

theorem Tracked.resume : (s.step .resume).Tracked := by
  unfold step
  dsimp only
  split
  · exact h
  next removals hblocked =>
    have hsenders : s.disconnected = false := by
      rw [← Bool.not_eq_true]
      intro hgone
      rw [h.sending hgone] at hblocked
      cases hblocked
    have hopen := h.open hsenders
    rcases Nat.lt_or_ge s.channel.queue.length historyEventBufferCapacity with hroom | hfull
    · obtain ⟨channel, hsend, hqueue, hclosed⟩ := Channel.trySend_of_room hopen hroom removals
      rw [hsend]
      refine ⟨?_, h.returned, fun _ => rfl, ?_⟩
      · intro htrue
        rw [hclosed] at htrue
        cases htrue
      obtain ⟨segments, rest, batches, hcut⟩ := h.cut
      refine ⟨segments, rest, batches, hcut.calls, hcut.windows, ?_, hcut.collected⟩
      rw [hcut.arrivals, hqueue, hblocked]
      exact congrArg (batches ++ ·) (append_nil _).symm
    · rw [Channel.trySend_of_full hopen hfull]
      exact h

theorem Tracked.collect {window : DebounceBatch}
    (hwindow : ∀ batches, s.phase.Collected batches → window.Holds batches.flatten) :
    (s.collect window).Tracked := by
  obtain ⟨segments, rest, batches, hcut⟩ := h.cut
  unfold HistoryEventLoop.collect
  split
  next hqueue =>
    split
    next hgone =>
      exact ⟨fun _ => hgone, fun _ => hgone, h.sending,
        ⟨segments, rest, batches, hcut.calls, hcut.windows, hcut.arrivals, trivial⟩⟩
    · exact h
  next events queue hqueue =>
    refine ⟨?_, nofun, h.sending, ⟨segments, rest, batches ++ [events], hcut.calls, hcut.windows,
      ?_, ?_⟩⟩
    · show s.channel.recv.closed = true → _
      rw [Channel.closed_recv]
      exact h.closed
    · show _ = _ ++ (s.channel.recv.queue ++ _)
      rw [hcut.arrivals, hqueue, Channel.queue_recv hqueue]
      simp
    · show ((window.push events).2).Holds _
      rw [flatten_append, flatten_singleton]
      exact (hwindow batches hcut.collected).push events

theorem Tracked.recv : (s.step .recv).Tracked := by
  unfold step
  dsimp only
  split
  next hphase =>
    refine h.collect fun batches hcollected => ?_
    rw [hphase] at hcollected
    obtain rfl : batches = [] := hcollected
    exact DebounceBatch.default_holds
  next window hphase =>
    refine h.collect fun batches hcollected => ?_
    rw [hphase] at hcollected
    exact hcollected
  · exact h

theorem Tracked.deadline : (s.step .deadline).Tracked := by
  unfold step
  dsimp only
  split
  next window hphase =>
    obtain ⟨segments, rest, batches, hcut⟩ := h.cut
    refine ⟨h.closed, nofun, h.sending, ?_⟩
    -- the calls whose batches the window has taken
    obtain ⟨calls, later, rfl, hbatches, hlater⟩ := filterMap_eq_append_iff.mp hcut.arrivals
    refine ⟨segments ++ [calls], later, [], ?_, ?_, hlater, rfl⟩
    · rw [flatten_append, flatten_singleton, append_assoc]
      exact hcut.calls
    have hcollected := hcut.collected
    rw [hphase] at hcollected
    have hkept : window.events = withinLimit batches.flatten := hcollected.kept
    show s.windows ++ [window.events] = _
    rw [map_append, map_singleton, hcut.windows, hkept, ← hbatches]
    rfl
  · exact h

theorem Tracked.disconnect : (s.step .disconnect).Tracked := by
  unfold step
  dsimp only
  split
  · exact h
  next hfree =>
    have hnone : s.blocked = none := by
      rwa [Bool.not_eq_true, isSome_eq_false_iff, isNone_iff_eq_none] at hfree
    obtain ⟨segments, rest, batches, hcut⟩ := h.cut
    exact ⟨fun _ => rfl, fun _ => rfl, fun _ => hnone,
      ⟨segments, rest, batches, hcut.calls, hcut.windows, hcut.arrivals, hcut.collected⟩⟩

theorem Tracked.step (action : LoopAction) : (s.step action).Tracked := by
  cases action with
  | enqueue batch => exact h.enqueue batch
  | resume => exact h.resume
  | recv => exact h.recv
  | deadline => exact h.deadline
  | disconnect => exact h.disconnect

theorem Tracked.run (actions : List LoopAction) :
    (Run.run HistoryEventLoop.step s actions).Tracked :=
  Run.run_inv (I := Tracked) (fun _ action h => h.step action) h actions

end

/-! ## all calls come to their window -/

theorem step_loop {action : LoopAction} (h : action.isLoop = true) :
    (s.step action).calls = s.calls ∧ (s.step action).disconnected = s.disconnected := by
  have hcollect : ∀ window, (s.collect window).calls = s.calls ∧
      (s.collect window).disconnected = s.disconnected := by
    intro window
    unfold HistoryEventLoop.collect
    split
    · split <;> exact ⟨rfl, rfl⟩
    · exact ⟨rfl, rfl⟩
  unfold HistoryEventLoop.step
  cases action with
  | enqueue => cases h
  | disconnect => cases h
  | resume =>
    dsimp only
    split
    · exact ⟨rfl, rfl⟩
    · split <;> exact ⟨rfl, rfl⟩
  | recv =>
    dsimp only
    split
    · exact hcollect _
    · exact hcollect _
    · exact ⟨rfl, rfl⟩
  | deadline =>
    dsimp only
    split
    · exact ⟨rfl, rfl⟩
    · exact ⟨rfl, rfl⟩

theorem run_loop {actions : List LoopAction} (h : ∀ action ∈ actions, action.isLoop = true) :
    (Run.run HistoryEventLoop.step s actions).calls = s.calls ∧
      (Run.run HistoryEventLoop.step s actions).disconnected = s.disconnected := by
  induction actions generalizing s with
  | nil => exact ⟨rfl, rfl⟩
  | cons action actions ih =>
    obtain ⟨hcalls, hgone⟩ := step_loop (s := s) (h action (mem_cons_self ..))
    obtain ⟨hcalls', hgone'⟩ := ih (s := s.step action) fun a ha => h a (mem_cons_of_mem _ ha)
    exact ⟨hcalls'.trans hcalls, hgone'.trans hgone⟩

section
variable (h : s.Tracked) (hsenders : s.disconnected = false)
include h hsenders

theorem recv_cons {events : List HistoryEvent} {queue : List (List HistoryEvent)}
    (hqueue : s.channel.queue = events :: queue) :
    (s.step .recv).channel.queue = queue ∧ (s.step .recv).blocked = s.blocked := by
  have hcollect : ∀ window, (s.collect window).channel.queue = queue ∧
      (s.collect window).blocked = s.blocked := by
    intro window
    unfold HistoryEventLoop.collect
    rw [hqueue]
    exact ⟨Channel.queue_recv hqueue, rfl⟩
  unfold HistoryEventLoop.step
  dsimp only
  split
  · exact hcollect _
  · exact hcollect _
  next hphase =>
    rw [h.returned hphase] at hsenders
    cases hsenders

theorem queue_drains :
    ∃ actions : List LoopAction, (∀ action ∈ actions, action.isLoop = true) ∧
      (Run.run HistoryEventLoop.step s actions).channel.queue = [] ∧
      (Run.run HistoryEventLoop.step s actions).blocked = s.blocked := by
  generalize hqueue : s.channel.queue = queue
  induction queue generalizing s with
  | nil => exact ⟨[], nofun, hqueue, rfl⟩
  | cons events queue ih =>
    obtain ⟨hrest, hblocked⟩ := recv_cons h hsenders hqueue
    obtain ⟨actions, hloop, hempty, hkept⟩ :=
      ih (h.step .recv) ((step_loop rfl).2.trans hsenders) hrest
    refine ⟨.recv :: actions, ?_, hempty, hkept.trans hblocked⟩
    intro action hmem
    rcases mem_cons.mp hmem with rfl | hmem
    · rfl
    · exact hloop action hmem

theorem resume_empty (hqueue : s.channel.queue = []) : (s.step .resume).blocked = none := by
  unfold HistoryEventLoop.step
  dsimp only
  split
  next hblocked => exact hblocked
  next removals hblocked =>
    have hroom : s.channel.queue.length < historyEventBufferCapacity := by
      rw [hqueue]
      decide
    obtain ⟨channel, hsend, -⟩ := Channel.trySend_of_room (h.open hsenders) hroom removals
    rw [hsend]

theorem deadline_waiting :
    (s.step .deadline).phase = .waiting ∧
      (s.step .deadline).channel.queue = s.channel.queue ∧
      (s.step .deadline).blocked = s.blocked := by
  unfold HistoryEventLoop.step
  dsimp only
  split
  · exact ⟨rfl, rfl, rfl⟩
  next hphase =>
    refine ⟨?_, rfl, rfl⟩
    cases hnow : s.phase with
    | waiting => rfl
    | collecting window => exact absurd hnow (hphase window)
    | returned =>
      rw [h.returned hnow] at hsenders
      cases hsenders

theorem loop_settles :
    ∃ actions : List LoopAction, (∀ action ∈ actions, action.isLoop = true) ∧
      (Run.run HistoryEventLoop.step s actions).phase = .waiting ∧
      (Run.run HistoryEventLoop.step s actions).channel.queue = [] ∧
      (Run.run HistoryEventLoop.step s actions).blocked = none := by
  obtain ⟨first, hfirst, hempty, -⟩ := queue_drains h hsenders
  have hopen₁ := (run_loop (s := s) hfirst).2.trans hsenders
  have htracked₁ := h.run first
  have hfree := resume_empty htracked₁ hopen₁ hempty
  have hresume : LoopAction.isLoop .resume = true := rfl
  have hopen₂ := (step_loop hresume).2.trans hopen₁
  obtain ⟨second, hsecond, hempty', hkept⟩ := queue_drains (htracked₁.step .resume) hopen₂
  have hopen₃ := (run_loop hsecond).2.trans hopen₂
  have htracked₃ := (htracked₁.step .resume).run second
  obtain ⟨hwaiting, hqueue, hblocked⟩ := deadline_waiting htracked₃ hopen₃
  refine ⟨first ++ .resume :: (second ++ [.deadline]), ?_, ?_⟩
  · intro action hmem
    rw [mem_append, mem_cons, mem_append, mem_singleton] at hmem
    rcases hmem with hmem | rfl | hmem | rfl
    · exact hfirst action hmem
    · rfl
    · exact hsecond action hmem
    · rfl
  · rw [Run.run_append, Run.run_cons, Run.run_append]
    exact ⟨hwaiting, hqueue.trans hempty', hblocked.trans (hkept.trans hfree)⟩

end

def Keeps (s : HistoryEventLoop) (rest : List EnqueueCall) : Prop :=
  ∃ segments, s.calls = segments.flatten ++ rest ∧ List.Forall₂ WindowKeeps segments s.windows

theorem Cut.keeps {segments : List (List EnqueueCall)} {rest : List EnqueueCall}
    {batches : List (List HistoryEvent)} (h : s.Cut segments rest batches) : s.Keeps rest := by
  refine ⟨segments, h.calls, ?_⟩
  rw [h.windows, forall₂_map_right_iff, forall₂_same]
  exact fun calls _ => windowKeeps calls

/-- **The calls fall into the windows of the loop, and every window keeps what it must**; while there
are senders, the channel and the loop can bring all calls to their window. -/
theorem events_kept (actions : List LoopAction) :
    (∃ rest, (Run.run HistoryEventLoop.step start actions).Keeps rest) ∧
    ((Run.run HistoryEventLoop.step start actions).disconnected = false →
      ∃ further : List LoopAction, (∀ action ∈ further, action.isLoop = true) ∧
        (Run.run HistoryEventLoop.step start (actions ++ further)).calls =
          (Run.run HistoryEventLoop.step start actions).calls ∧
        ∃ rest, (Run.run HistoryEventLoop.step start (actions ++ further)).Keeps rest ∧
          ∀ call ∈ rest, call.arrived = []) := by
  have h := tracked_start.run actions
  constructor
  · obtain ⟨segments, rest, batches, hcut⟩ := h.cut
    exact ⟨rest, hcut.keeps⟩
  intro hsenders
  obtain ⟨further, hloop, hwaiting, hqueue, hblocked⟩ := loop_settles h hsenders
  rw [← Run.run_append] at hwaiting hqueue hblocked
  refine ⟨further, hloop, ?_, ?_⟩
  · rw [Run.run_append]
    exact (run_loop hloop).1
  obtain ⟨segments, rest, batches, hcut⟩ := (tracked_start.run (actions ++ further)).cut
  refine ⟨rest, hcut.keeps, ?_⟩
  have hcollected := hcut.collected
  have harrivals := hcut.arrivals
  rw [hwaiting] at hcollected
  obtain rfl : batches = [] := hcollected
  rw [hqueue, hblocked] at harrivals
  exact fun call hcall => arrived_isEmpty (filterMap_eq_nil_iff.mp harrivals call hcall)

theorem mem_window (h : s.Tracked) {events : List HistoryEvent} (hevents : events ∈ s.windows)
    {event : HistoryEvent} (hevent : event ∈ events) : ∃ call ∈ s.calls, event ∈ call.arrived := by
  obtain ⟨segments, rest, batches, hcut⟩ := h.cut
  rw [hcut.windows] at hevents
  obtain ⟨calls, hcalls, rfl⟩ := mem_map.mp hevents
  have harrived : event ∈ (arrivals calls).flatten := by
    unfold withinLimit at hevent
    split at hevent
    · exact hevent
    · exact (mem_filter.mp hevent).1
  rw [flatten_arrivals] at harrived
  obtain ⟨call, hcall, hmem⟩ := mem_flatMap.mp harrived
  refine ⟨call, ?_, hmem⟩
  rw [hcut.calls]
  exact mem_append_left _ (mem_flatten.mpr ⟨calls, hcalls, hcall⟩)

def edited (name : String) : HistoryEvent :=
  .fileChanged ["/", "project"] ["/", "project", name] "main"

def removed (name : String) : HistoryEvent :=
  .fileRemoved ["/", "project"] ["/", "project", name] "main"

theorem channel_fills (n : Nat) (hn : n ≤ historyEventBufferCapacity) :
    ∃ channel, Run.run HistoryEventLoop.step start
        (replicate n (.enqueue [edited "open.rs"])) =
        { start with
          channel := channel
          calls := replicate n ⟨[edited "open.rs"], false⟩ } ∧
      channel.queue.length = n := by
  induction n with
  | zero => exact ⟨start.channel, rfl, rfl⟩
  | succ n ih =>
    obtain ⟨channel, hrun, hlen⟩ := ih (Nat.le_of_succ_le hn)
    have hclosed : channel.closed = false := by
      have htracked := tracked_start.run (replicate n (.enqueue [edited "open.rs"]))
      rw [hrun] at htracked
      exact htracked.open rfl
    obtain ⟨channel', hsend, hqueue, -⟩ :=
      Channel.trySend_of_room hclosed (hlen ▸ hn) [edited "open.rs"]
    refine ⟨channel', ?_, ?_⟩
    · have hfull : ¬ historyEventBufferCapacity ≤ channel.queue.length := by omega
      rw [replicate_succ', Run.run_snoc, hrun, replicate_succ']
      unfold HistoryEventLoop.step enqueueHistoryBatch isFull
      dsimp only
      rw [decide_eq_false hfull, hsend]
      rfl
    · rw [hqueue, length_append, hlen]
      rfl

def oneTooMany (event : HistoryEvent) : List LoopAction :=
  replicate historyEventBufferCapacity (.enqueue [edited "open.rs"]) ++ [.enqueue [event]]

theorem oneTooMany_calls (event : HistoryEvent) :
    (Run.run HistoryEventLoop.step start (oneTooMany event)).calls =
      replicate historyEventBufferCapacity ⟨[edited "open.rs"], false⟩ ++
        [⟨[event], true⟩] := by
  obtain ⟨channel, hrun, hlen⟩ := channel_fills historyEventBufferCapacity (Nat.le_refl _)
  unfold oneTooMany
  rw [Run.run_snoc, hrun]
  unfold HistoryEventLoop.step isFull
  rw [hlen, decide_eq_true (Nat.le_refl historyEventBufferCapacity)]
  rfl

theorem oneTooMany_lost {event : HistoryEvent} (hne : event ≠ edited "open.rs")
    (hremoved : event.isRemoved = false) :
    event ∈ pushed (Run.run HistoryEventLoop.step start (oneTooMany event)).calls ∧
      ∀ further : List LoopAction, (∀ action ∈ further, action.isLoop = true) →
        ∀ events ∈ (Run.run HistoryEventLoop.step start (oneTooMany event ++ further)).windows,
          event ∉ events := by
  constructor
  · rw [oneTooMany_calls, pushed, flatMap_append]
    exact mem_append_right _ (mem_singleton.mpr rfl)
  intro further hloop events hevents hevent
  obtain ⟨call, hcall, harrived⟩ :=
    mem_window (tracked_start.run (oneTooMany event ++ further)) hevents hevent
  rw [Run.run_append, (run_loop hloop).1, oneTooMany_calls] at hcall
  rcases mem_append.mp hcall with hcall | hcall
  · obtain rfl := eq_of_mem_replicate hcall
    exact hne (mem_singleton.mp harrived)
  obtain rfl := mem_singleton.mp hcall
  have hnone : EnqueueCall.arrived ⟨[event], true⟩ = [] :=
    filter_cons_of_neg (by simp [hremoved])
  rw [hnone] at harrived
  cases harrived

theorem oneTooMany_paths (name : String) :
    (changedPaths (pushed
      (Run.run HistoryEventLoop.step start (oneTooMany (edited name))).calls)).card ≤
      debounceBatchPathLimit := by
  have hsub : changedPaths (pushed
      (Run.run HistoryEventLoop.step start (oneTooMany (edited name))).calls) ⊆
      {["/", "project", "open.rs"], ["/", "project", name]} := by
    intro file hfile
    rw [changedPaths, List.mem_toFinset, mem_filterMap, oneTooMany_calls] at hfile
    obtain ⟨event, hevent, hpath⟩ := hfile
    rw [Finset.mem_insert, Finset.mem_singleton]
    obtain ⟨call, hcall, hmem⟩ := mem_flatMap.mp hevent
    rcases mem_append.mp hcall with hcall | hcall
    · obtain rfl := eq_of_mem_replicate hcall
      obtain rfl := mem_singleton.mp hmem
      exact .inl (some.inj hpath).symm
    · obtain rfl := mem_singleton.mp hcall
      obtain rfl := mem_singleton.mp hmem
      exact .inr (some.inj hpath).symm
  exact (Finset.card_le_card hsub).trans (Finset.card_le_two.trans (by decide))

/-- a file that is removed and comes back, and many others, in one window -/
def rewritten (many : List HistoryEvent) : List LoopAction :=
  [.enqueue [removed "main.rs"], .enqueue [edited "main.rs"], .enqueue many,
    .recv, .recv, .recv, .deadline]

theorem rewritten_windows (event : HistoryEvent) (more : List HistoryEvent) :
    (Run.run HistoryEventLoop.step start (rewritten (event :: more))).windows =
      [withinLimit ([removed "main.rs", edited "main.rs"] ++ event :: more)] := by
  have h := ((DebounceBatch.default_holds.push [removed "main.rs"]).push
    [edited "main.rs"]).push (event :: more)
  exact congrArg (fun events => [events]) h.kept

theorem rewritten_pushed (event : HistoryEvent) (more : List HistoryEvent) :
    pushed (Run.run HistoryEventLoop.step start (rewritten (event :: more))).calls =
      [removed "main.rs", edited "main.rs"] ++ event :: more := by
  show [removed "main.rs"] ++ ([edited "main.rs"] ++ ((event :: more) ++ [])) = _
  rw [append_nil]
  rfl

/-- **Too many others, and the file has a tombstone though it was there last.** -/
theorem rewritten_tombstone {many : List HistoryEvent}
    (hmany : debounceBatchPathLimit < (changedPaths many).card)
    (hchanged : ∀ event ∈ many, event.isChanged = true ∧
      event.filePath? ≠ some ["/", "project", "main.rs"]) :
    ((Run.run HistoryEventLoop.step start (rewritten many)).windows.map fun events =>
        (deduped events).lookup ["/", "project", "main.rs"]) = [some (removed "main.rs")] ∧
      lastEvent (pushed (Run.run HistoryEventLoop.step start (rewritten many)).calls)
        ["/", "project", "main.rs"] = some (edited "main.rs") := by
  cases many with
  | nil => cases hmany
  | cons event more =>
    have hothers : (event :: more).filter (fun event =>
        event.filePath? = some ["/", "project", "main.rs"]) = [] :=
      filter_eq_nil_iff.mpr fun event hmem => by simpa using (hchanged event hmem).2
    have hgiven : (event :: more).filter (fun event => !event.isChanged) = [] :=
      filter_eq_nil_iff.mpr fun event hmem => by simp [(hchanged event hmem).1]
    have hover : ¬ (changedPaths ([removed "main.rs", edited "main.rs"] ++ event :: more)).card ≤
        debounceBatchPathLimit := by
      refine Nat.not_le.mpr (Nat.lt_of_lt_of_le hmany (Finset.card_le_card ?_))
      intro file hfile
      rw [changedPaths, List.mem_toFinset] at hfile ⊢
      rw [filterMap_append]
      exact mem_append_right _ hfile
    constructor
    · rw [rewritten_windows, withinLimit, if_neg hover, filter_append, hgiven,
        append_nil, map_singleton, lookup_deduped]
      decide
    · rw [rewritten_pushed, lastEvent, filter_append, hothers, append_nil]
      decide

def nestedPath (depth : Nat) : PathBuf :=
  ["/", "project", "src"] ++ replicate depth "sub" ++ ["mod.rs"]

def nested (depth : Nat) : HistoryEvent := .fileChanged ["/", "project"] (nestedPath depth) "main"

theorem nestedPath_injective : Function.Injective nestedPath := by
  intro a b h
  have hlen := congrArg length h
  unfold nestedPath at hlen
  rw [length_append, length_append, length_append, length_append,
    length_replicate, length_replicate] at hlen
  omega

theorem nested_paths (n : Nat) : (changedPaths ((range n).map nested)).card = n := by
  have hpaths : ((range n).map nested).filterMap changedPath? =
      (range n).map nestedPath := by
    rw [filterMap_map]
    exact congrFun (filterMap_eq_map (f := nestedPath)) (range n)
  rw [changedPaths, hpaths, toFinset_card_of_nodup
    (nodup_range.map nestedPath_injective), length_map, length_range]

/-- A full channel loses a branch switch, and a modification in a window of two files; and beyond
the limit of a window a file that is there gets the tombstone of its removal. -/
theorem events_lost :
    (∃ event : HistoryEvent, event.isSwitched = true ∧
      event ∈ pushed (Run.run HistoryEventLoop.step start (oneTooMany event)).calls ∧
      ∀ further : List LoopAction, (∀ action ∈ further, action.isLoop = true) →
        ∀ events ∈ (Run.run HistoryEventLoop.step start (oneTooMany event ++ further)).windows,
          event ∉ events) ∧
    (∃ event : HistoryEvent, event.isChanged = true ∧
      event ∈ pushed (Run.run HistoryEventLoop.step start (oneTooMany event)).calls ∧
      (changedPaths (pushed (Run.run HistoryEventLoop.step start (oneTooMany event)).calls)).card ≤
        debounceBatchPathLimit ∧
      ∀ further : List LoopAction, (∀ action ∈ further, action.isLoop = true) →
        ∀ events ∈ (Run.run HistoryEventLoop.step start (oneTooMany event ++ further)).windows,
          event ∉ events) ∧
    ((Run.run HistoryEventLoop.step start
        (rewritten ((range 129).map nested))).windows.map fun events =>
        (deduped events).lookup ["/", "project", "main.rs"]) = [some (removed "main.rs")] ∧
      lastEvent (pushed (Run.run HistoryEventLoop.step start
        (rewritten ((range 129).map nested))).calls)
        ["/", "project", "main.rs"] = some (edited "main.rs") := by
  refine ⟨?_, ?_, ?_⟩
  · exact ⟨.branchSwitched ["/", "project"] "main" "dev", rfl, oneTooMany_lost (by decide) rfl⟩
  · have hne : edited "main.rs" ≠ edited "open.rs" := by decide
    obtain ⟨hpushed, hlost⟩ := oneTooMany_lost hne rfl
    exact ⟨edited "main.rs", rfl, hpushed, oneTooMany_paths "main.rs", hlost⟩
  refine rewritten_tombstone ?_ ?_
  · rw [nested_paths]
    decide
  intro event hmem
  obtain ⟨depth, -, rfl⟩ := mem_map.mp hmem
  refine ⟨rfl, fun hpath => ?_⟩
  have hsrc := congrArg (fun path => path[2]?) (some.inj hpath)
  revert hsrc
  show ¬ some "src" = some "main.rs"
  decide

end HistoryEventLoop

end CcPanes

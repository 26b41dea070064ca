import Mathlib.Data.List.Pairwise
import CcPanes.Foundation.Run

/-!
# The pipe events that the canvas keeps

`reducePipeEvents` on `event` actions.  Two events are the same if they share the id or the
lifecycle.  Only the first event that is the same is compared with an arrival, and all of them are
replaced; a terminal event is forgotten when its time is over.
-/

namespace CcPanes.PipeEvents
open Run List

inductive PipeEventKind where
  | dispatch | message | report
  deriving DecidableEq

inductive PipeEventPhase where
  | queued | flowing | delivered | failed
  deriving DecidableEq

structure CanvasPipeEvent where
  eventId : String
  correlationId : String
  attempt : Option Int
  sequence : Int
  kind : PipeEventKind
  phase : PipeEventPhase
  fromBinding : Option String
  toBinding : Option String
  fromSession : Option String
  toSession : Option String
  createdAt : String
  deriving DecidableEq

def pipeEventTerminalTtlMs : Int := 5000

def isTerminalPipeEventPhase (phase : PipeEventPhase) : Bool :=
  phase = .delivered || phase = .failed

/-- The source writes the five values as a JSON text, from which they can be read back. -/
def pipeEventLifecycleKey (event : CanvasPipeEvent) :
    String × Int × PipeEventKind × String × String :=
  let source := (event.fromBinding <|> event.fromSession).getD ""
  let target := (event.toBinding <|> event.toSession).getD ""
  (event.correlationId, event.attempt.getD 0, event.kind, source, target)

def isSamePipeEventLifecycle (left right : CanvasPipeEvent) : Bool :=
  pipeEventLifecycleKey left = pipeEventLifecycleKey right

def isSamePipeEvent (left right : CanvasPipeEvent) : Bool :=
  left.eventId = right.eventId || isSamePipeEventLifecycle left right

section
-- `Date.parse`, with `none` for a text that is no date
variable (dateParse : String → Option Int)

def isExpiredTerminalEvent (event : CanvasPipeEvent) (now : Int) : Bool :=
  isTerminalPipeEventPhase event.phase &&
    (dateParse event.createdAt).any fun createdAt => now - createdAt > pipeEventTerminalTtlMs

def prunePipeEvents (events : List CanvasPipeEvent) (now : Int) : List CanvasPipeEvent :=
  events.filter fun event => !isExpiredTerminalEvent dateParse event now

/-- the action `event` -/
def reducePipeEvents (events : List CanvasPipeEvent) (event : CanvasPipeEvent) (now : Int) :
    List CanvasPipeEvent :=
  let existingEvents := prunePipeEvents dateParse events now
  match existingEvents.find? (isSamePipeEvent · event) with
  | some existing =>
    if existing.sequence > event.sequence then existingEvents
    else existingEvents.filter (!isSamePipeEvent · event) ++ [event]
  | none => existingEvents.filter (!isSamePipeEvent · event) ++ [event]

/-! ## runs -/

structure Arrival where
  event : CanvasPipeEvent
  now : Int

structure PipeRun where
  received : List CanvasPipeEvent := []
  /-- the terminal events that have been kept -/
  settled : List CanvasPipeEvent := []
  events : List CanvasPipeEvent := []

def step (w : PipeRun) (a : Arrival) : PipeRun :=
  let events := reducePipeEvents dateParse w.events a.event a.now
  { received := w.received ++ [a.event]
    settled := w.settled ++ events.filter (isTerminalPipeEventPhase ·.phase)
    events }

end

/-- the ids of the events of a lifecycle are used for no other lifecycle -/
def OwnIds (received : List CanvasPipeEvent) (event : CanvasPipeEvent) : Prop :=
  ∀ r ∈ received, isSamePipeEventLifecycle r event →
    ∀ r' ∈ received, r'.eventId = r.eventId → isSamePipeEventLifecycle r' event

/-- the event is at least as far as all the others of its lifecycle -/
def Newest (received : List CanvasPipeEvent) (event : CanvasPipeEvent) : Prop :=
  ∀ r ∈ received, isSamePipeEventLifecycle r event → r.sequence ≤ event.sequence

structure Converged (w : PipeRun) : Prop where
  /-- at most one event is kept for an id and for a lifecycle -/
  single : w.events.Pairwise fun left right => ¬ isSamePipeEvent left right
  /-- of a lifecycle with ids of its own, the newest event is kept -/
  newest : ∀ event ∈ w.events, OwnIds w.received event → Newest w.received event
  /-- and one is kept when an event arrives -/
  shown : ∀ event ∈ w.received.getLast?, OwnIds w.received event →
    ∃ kept ∈ w.events, isSamePipeEventLifecycle kept event
  /-- no event is kept that is behind a terminal one -/
  settled : ∀ event ∈ w.events, Newest w.settled event

/-- an event of its lifecycle is ahead that was kept as a terminal one, or, where the lifecycle has
ids of its own, was received -/
def Behind (w : PipeRun) (event : CanvasPipeEvent) : Prop :=
  ¬ Newest w.settled event ∨ OwnIds (w.received ++ [event]) event ∧ ¬ Newest w.received event

section
variable (dateParse : String → Option Int)

/-- The condition: where an event arrives that is behind, the first event that is the same and has
not expired is ahead of it. -/
def Guarded (w : PipeRun) (a : Arrival) : Prop :=
  Behind w a.event →
    ∃ existing ∈ (prunePipeEvents dateParse w.events a.now).find? (isSamePipeEvent · a.event),
      a.event.sequence < existing.sequence

/-! ## one arrival -/

variable {dateParse} {w : PipeRun} {a : Arrival} {l : List CanvasPipeEvent}
  {event event' : CanvasPipeEvent}

theorem sameLifecycle_iff :
    isSamePipeEventLifecycle event event' ↔
      pipeEventLifecycleKey event = pipeEventLifecycleKey event' := by
  simp [isSamePipeEventLifecycle]

theorem same_of_lifecycle (h : isSamePipeEventLifecycle event event') :
    isSamePipeEvent event event' := by
  simp [isSamePipeEvent, h]

theorem isSamePipeEvent_symm (h : isSamePipeEvent event event') :
    isSamePipeEvent event' event := by
  simp only [isSamePipeEvent, Bool.or_eq_true, decide_eq_true_eq, sameLifecycle_iff] at h ⊢
  exact h.imp Eq.symm Eq.symm

theorem Newest.append (h : Newest l event) {more : List CanvasPipeEvent}
    (hmore : Newest more event) : Newest (l ++ more) event := by
  intro r hr
  rcases mem_append.mp hr with hr | hr
  · exact h r hr
  · exact hmore r hr

theorem Newest.left {more : List CanvasPipeEvent} (h : Newest (l ++ more) event) :
    Newest l event :=
  fun r hr => h r (mem_append_left _ hr)

theorem OwnIds.left {more : List CanvasPipeEvent} (h : OwnIds (l ++ more) event) :
    OwnIds l event :=
  fun r hr hkey r' hr' => h r (mem_append_left _ hr) hkey r' (mem_append_left _ hr')

theorem eq_of_single (hs : l.Pairwise fun left right => ¬ isSamePipeEvent left right)
    (he : event ∈ l) (he' : event' ∈ l) (hkey : isSamePipeEventLifecycle event event') :
    event = event' := by
  by_contra hne
  have : Std.Symm fun left right => ¬ isSamePipeEvent left right :=
    ⟨fun _ _ h h' => h (isSamePipeEvent_symm h')⟩
  exact hs.forall he he' hne (same_of_lifecycle hkey)

def Refused (dateParse : String → Option Int) (w : PipeRun) (a : Arrival) : Prop :=
  ∃ existing ∈ (prunePipeEvents dateParse w.events a.now).find? (isSamePipeEvent · a.event),
    a.event.sequence < existing.sequence

theorem reduce_refused (h : Refused dateParse w a) :
    reducePipeEvents dateParse w.events a.event a.now =
      prunePipeEvents dateParse w.events a.now := by
  obtain ⟨existing, hfind, hlt⟩ := h
  simp [reducePipeEvents, Option.mem_def.mp hfind, hlt]

theorem reduce_taken (h : ¬ Refused dateParse w a) :
    reducePipeEvents dateParse w.events a.event a.now =
      (prunePipeEvents dateParse w.events a.now).filter (!isSamePipeEvent · a.event) ++
        [a.event] := by
  unfold reducePipeEvents
  dsimp only
  split
  · next existing hfind =>
    rw [if_neg fun hlt => h ⟨existing, hfind, hlt⟩]
  · rfl

theorem mem_pruned (h : event ∈ prunePipeEvents dateParse w.events a.now) : event ∈ w.events :=
  (mem_filter.mp h).1

theorem step_single (hs : w.events.Pairwise fun left right => ¬ isSamePipeEvent left right) :
    (step dateParse w a).events.Pairwise fun left right => ¬ isSamePipeEvent left right := by
  show (reducePipeEvents dateParse w.events a.event a.now).Pairwise _
  have hpruned := hs.filter fun event => !isExpiredTerminalEvent dateParse event a.now
  by_cases h : Refused dateParse w a
  · rw [reduce_refused h]
    exact hpruned
  rw [reduce_taken h, pairwise_append]
  refine ⟨hpruned.filter _, pairwise_singleton .., fun kept hkept e he => ?_⟩
  rw [mem_singleton.mp he]
  simpa using (mem_filter.mp hkept).2

theorem mem_step (h : event ∈ (step dateParse w a).events) :
    event ∈ w.events ∧ (Refused dateParse w a ∨ ¬ isSamePipeEvent event a.event) ∨
      event = a.event ∧ ¬ Refused dateParse w a := by
  change event ∈ reducePipeEvents dateParse w.events a.event a.now at h
  by_cases hr : Refused dateParse w a
  · rw [reduce_refused hr] at h
    exact .inl ⟨mem_pruned h, .inl hr⟩
  rw [reduce_taken hr, mem_append, mem_singleton] at h
  rcases h with h | h
  · obtain ⟨hmem, hsame⟩ := mem_filter.mp h
    exact .inl ⟨mem_pruned hmem, .inr (by simpa using hsame)⟩
  · exact .inr ⟨h, hr⟩

/-- what was kept was received, and two kept events are never the same -/
structure Kept (w : PipeRun) : Prop where
  received : ∀ event ∈ w.events, event ∈ w.received
  single : w.events.Pairwise fun left right => ¬ isSamePipeEvent left right

theorem kept_step (w : PipeRun) (a : Arrival) (h : Kept w) : Kept (step dateParse w a) where
  received event hevent := by
    apply mem_append.mpr
    rcases mem_step hevent with ⟨hold, -⟩ | ⟨rfl, -⟩
    · exact .inl (h.received event hold)
    · exact .inr (mem_singleton_self _)
  single := step_single h.single

theorem refused_by (h : Kept w) (hr : Refused dateParse w a)
    (hown : OwnIds (w.received ++ [a.event]) a.event) :
    ∃ kept ∈ (step dateParse w a).events, isSamePipeEventLifecycle kept a.event ∧
      a.event.sequence < kept.sequence := by
  obtain ⟨kept, hfind, hlt⟩ := hr
  have hmem := mem_of_find?_eq_some hfind
  have hsame := find?_some hfind
  refine ⟨kept, ?_, ?_, hlt⟩
  · show kept ∈ reducePipeEvents dateParse w.events a.event a.now
    rw [reduce_refused ⟨kept, hfind, hlt⟩]
    exact hmem
  simp only [isSamePipeEvent, Bool.or_eq_true, decide_eq_true_eq] at hsame
  rcases hsame with hid | hkey
  · exact hown a.event (by simp) (by simp [isSamePipeEventLifecycle]) kept
      (mem_append_left _ (h.received kept (mem_pruned hmem))) hid
  · exact hkey

/-! ## all arrivals -/

theorem newest_step (h : Kept w) (hc : Converged w) (hg : Guarded dateParse w a)
    (hevent : event ∈ (step dateParse w a).events)
    (hown : OwnIds (w.received ++ [a.event]) event) : Newest (w.received ++ [a.event]) event := by
  rcases mem_step hevent with ⟨hold, hr⟩ | ⟨rfl, hr⟩
  · refine (hc.newest event hold hown.left).append fun r hr' hkey => ?_
    obtain rfl := mem_singleton.mp hr'
    have hkey' : isSamePipeEventLifecycle event a.event := by
      rw [sameLifecycle_iff] at hkey ⊢
      exact hkey.symm
    rcases hr with hr | hne
    · have hown' : OwnIds (w.received ++ [a.event]) a.event := by
        simpa only [OwnIds, sameLifecycle_iff, sameLifecycle_iff.mp hkey'] using hown
      obtain ⟨kept, hkept, hk, hlt⟩ := refused_by h hr hown'
      obtain rfl := eq_of_single (step_single h.single) hkept hevent
        (sameLifecycle_iff.mpr ((sameLifecycle_iff.mp hk).trans (sameLifecycle_iff.mp hkey)))
      exact Int.le_of_lt hlt
    · exact absurd (same_of_lifecycle hkey') hne
  · refine Newest.append ?_ fun r hr' _ => mem_singleton.mp hr' ▸ Int.le_refl _
    by_contra hbehind
    exact hr (hg (.inr ⟨hown, hbehind⟩))

theorem settled_step (h : Kept w) (hc : Converged w) (hg : Guarded dateParse w a)
    (hevent : event ∈ (step dateParse w a).events) :
    Newest (step dateParse w a).settled event := by
  apply Newest.append
  · rcases mem_step hevent with ⟨hold, -⟩ | ⟨rfl, hr⟩
    · exact hc.settled event hold
    · by_contra hbehind
      exact hr (hg (.inl hbehind))
  · intro r hr hkey
    have heq := eq_of_single (step_single h.single) (mem_filter.mp hr).1 hevent hkey
    exact heq ▸ Int.le_refl _

theorem shown_step (h : Kept w) (hown : OwnIds (w.received ++ [a.event]) a.event) :
    ∃ kept ∈ (step dateParse w a).events, isSamePipeEventLifecycle kept a.event := by
  by_cases hr : Refused dateParse w a
  · obtain ⟨kept, hkept, hkey, -⟩ := refused_by h hr hown
    exact ⟨kept, hkept, hkey⟩
  · refine ⟨a.event, ?_, by simp [isSamePipeEventLifecycle]⟩
    show a.event ∈ reducePipeEvents dateParse w.events a.event a.now
    simp [reduce_taken hr]

theorem converged_step (w : PipeRun) (a : Arrival) (h : Kept w) (hc : Converged w) :
    Converged (step dateParse w a) ↔ Guarded dateParse w a := by
  constructor
  · intro hc' hbehind
    by_contra hr
    have hmem : a.event ∈ (step dateParse w a).events := by
      show a.event ∈ reducePipeEvents dateParse w.events a.event a.now
      simp [reduce_taken hr]
    rcases hbehind with hsettled | ⟨hown, hnewest⟩
    · exact hsettled (hc'.settled _ hmem).left
    · exact hnewest (hc'.newest _ hmem hown).left
  · intro hg
    refine ⟨step_single h.single, fun event => newest_step h hc hg, ?_,
      fun event => settled_step h hc hg⟩
    intro event hevent hown
    have hlast : (w.received ++ [a.event]).getLast? = some event := hevent
    obtain rfl : a.event = event := by simpa using hlast
    exact shown_step h hown

end

/-- Two events of other lifecycles are shown, one with the id of the arrival and one terminal. -/
def overtaken : List Arrival :=
  let queued : CanvasPipeEvent :=
    ⟨"a", "other", none, 1, .message, .queued, none, none, none, none, ""⟩
  let delivered : CanvasPipeEvent := { queued with
    eventId := "b", correlationId := "task", sequence := 9, phase := .delivered }
  let late : CanvasPipeEvent := { delivered with eventId := "a", sequence := 3, phase := .queued }
  [⟨queued, 0⟩, ⟨delivered, 0⟩, ⟨late, 0⟩]

end CcPanes.PipeEvents

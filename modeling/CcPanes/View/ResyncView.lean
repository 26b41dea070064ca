import CcPanes.View.HiddenFlush

/-!
# Recovery of a terminal view

A view whose output has a gap is rebuilt from a snapshot of the backend: the output gate is closed,
the backlog dropped, the snapshot requested, the terminal reset and the snapshot written; then the
gate opens, and what has come in the meantime is flushed.

A position in the output of the session is a number of bytes; `α` is the type of code units.
-/

namespace CcPanes

/-- how far a recovery has come; `replaying upTo`: its snapshot, with all that the backend had up to
`upTo`, is being written -/
inductive ResyncPhase
  | freezing
  | preparing
  | requested
  | replaying (upTo : Nat)
  | grounding
  | restored (resynced : Bool)

structure CoreResync where
  id : Nat
  phase : ResyncPhase

/-- an `onResyncSettled` that waits for a flush -/
structure Settling where
  awaits : Option Nat
  resynced : Bool

inductive HiddenWriteFlushOutcome
  | resync
  | ready (awaits : Option Nat)

/-- what a view sends to the backend or hands to its terminal -/
inductive ViewEvent (α : Type)
  | requested (id : Nat)
  | reset (id : Nat)
  | replay (id upTo : Nat)
  /-- the terminal has taken all of the snapshot -/
  | replayed (id upTo : Nat)
  | groundAfterGap
  /-- `direct`: the write of an output chunk; otherwise that of a flush -/
  | write (data : List α) (direct : Bool)
  | resyncFailedNotice
  deriving DecidableEq

structure ResyncView (α : Type) where
  renderVisible : Bool
  /-- the view has become visible and its visible edge has still to be handled -/
  edgePending : Bool
  resyncActive : Bool
  hiddenWriteBuffer : HiddenWriteBuffer α
  /-- the recovery between `coreResyncActive = true` and `coreResyncActive = false` -/
  core : Option CoreResync
  started : Nat
  flushes : FlushChain α
  settling : List Settling

/-- what a view does by itself -/
inductive ViewAction (α : Type)
  | shown
  | hidden
  | visibleEdge
  | output (maxPendingChars : Nat) (renderedData : List α)
  | prepare
  | send
  | replayDone (ok : Bool)
  | groundDone
  | settle
  | startFlush (k : Nat)
  | finishFlush (k : Nat)
  | settled (i : Nat)

namespace ResyncView

section
variable {α : Type}

def new (renderVisible : Bool) : ResyncView α :=
  ⟨renderVisible, false, false, .empty, none, 0, .new, []⟩

def desyncHandler (v : ResyncView α) : ResyncView α :=
  if v.core.isSome then v
  else if v.renderVisible then
    { v with core := some ⟨v.started, .freezing⟩, started := v.started + 1, resyncActive := true }
  else { v with resyncActive := true, hiddenWriteBuffer := v.hiddenWriteBuffer.reset }

section
variable (notice : List α)

def flushHiddenWrites (v : ResyncView α) : ResyncView α × HiddenWriteFlushOutcome :=
  if v.resyncActive then (v.desyncHandler, .resync)
  else if v.hiddenWriteBuffer.didOverflow then (v.desyncHandler, .resync)
  else
    match v.hiddenWriteBuffer.takeAll notice with
    | (_, none) => (v, .ready v.flushes.writeInFlight)
    | (b, some pending) =>
      ({ v with hiddenWriteBuffer := b, flushes := v.flushes.add pending },
        .ready (some v.flushes.flushes.length))

def restoreVisibleTerminalView (v : ResyncView α) : ResyncView α := (v.flushHiddenWrites notice).1

def onResyncSettled (v : ResyncView α) (resynced : Bool) : ResyncView α :=
  match v.flushHiddenWrites notice with
  | (v, .resync) => v
  | (v, .ready awaits) => { v with settling := v.settling ++ [⟨awaits, resynced⟩] }

/-- the output handler with a chunk after rendering -/
def output (v : ResyncView α) (maxPendingChars : Nat) (renderedData : List α) :
    ResyncView α × Option (List α) :=
  match v.hiddenWriteBuffer.push (v.renderVisible && !v.resyncActive) maxPendingChars notice
      renderedData with
  | (b, writableData) => ({ v with hiddenWriteBuffer := b }, writableData)

end

/-! ## the stages of a recovery -/

def setPhase (v : ResyncView α) (id : Nat) (phase : ResyncPhase) : ResyncView α :=
  { v with core := some ⟨id, phase⟩ }

/-- the frame is captured: the backlog from before the gap goes -/
def prepare (v : ResyncView α) : ResyncView α :=
  match v.core with
  | some ⟨id, .freezing⟩ =>
    { v with core := some ⟨id, .preparing⟩, hiddenWriteBuffer := v.hiddenWriteBuffer.reset }
  | _ => v

def send (v : ResyncView α) : ResyncView α × List (ViewEvent α) :=
  match v.core with
  | some ⟨id, .preparing⟩ => (v.setPhase id .requested, [.requested id])
  | _ => (v, [])

/-- the answer to the request; `none`: there is no snapshot, or the request failed -/
def respond (v : ResyncView α) (snapshot : Option Nat) : ResyncView α × List (ViewEvent α) :=
  match v.core with
  | some ⟨id, .requested⟩ =>
    match snapshot with
    | some upTo => (v.setPhase id (.replaying upTo), [.reset id, .replay id upTo])
    | none => (v.setPhase id .grounding, [.groundAfterGap])
  | _ => (v, [])

def replayDone (v : ResyncView α) (ok : Bool) : ResyncView α × List (ViewEvent α) :=
  match v.core with
  | some ⟨id, .replaying upTo⟩ =>
    (v.setPhase id (.restored ok), if ok then [.replayed id upTo] else [])
  | _ => (v, [])

def groundDone (v : ResyncView α) : ResyncView α :=
  match v.core with
  | some ⟨id, .grounding⟩ => v.setPhase id (.restored false)
  | _ => v

/-- `restoreSnapshot` has returned: the gate opens -/
def settle (notice : List α) (v : ResyncView α) : ResyncView α :=
  match v.core with
  | some ⟨_, .restored resynced⟩ =>
    onResyncSettled notice { v with core := none, resyncActive := false } resynced
  | _ => v

def startFlush (v : ResyncView α) (k : Nat) : ResyncView α × List (ViewEvent α) :=
  match v.flushes.start k with
  | (flushes, none) => ({ v with flushes := flushes }, [])
  | (flushes, some pending) => ({ v with flushes := flushes }, [.write pending false])

/-- the end of an `onResyncSettled`, once its flush has been written -/
def settled (v : ResyncView α) (i : Nat) : ResyncView α × List (ViewEvent α) :=
  match v.settling[i]? with
  | none => (v, [])
  | some s =>
    if s.awaits.all v.flushes.isDone then
      ({ v with settling := v.settling.eraseIdx i },
        if s.resynced then [] else [.resyncFailedNotice])
    else (v, [])

def step (notice : List α) (v : ResyncView α) : ViewAction α → ResyncView α × List (ViewEvent α)
  | .shown =>
    (if v.renderVisible then v else { v with renderVisible := true, edgePending := true }, [])
  | .hidden => ({ v with renderVisible := false }, [])
  | .visibleEdge =>
    (if v.edgePending then restoreVisibleTerminalView notice { v with edgePending := false } else v,
      [])
  | .output maxPendingChars renderedData =>
    match v.output notice maxPendingChars renderedData with
    | (v, none) => (v, [])
    | (v, some writableData) => (v, [.write writableData true])
  | .prepare => (v.prepare, [])
  | .send => v.send
  | .replayDone ok => v.replayDone ok
  | .groundDone => (v.groundDone, [])
  | .settle => (v.settle notice, [])
  | .startFlush k => v.startFlush k
  | .finishFlush k => ({ v with flushes := v.flushes.finish k }, [])
  | .settled i => v.settled i

/-! ## what the operations can do -/

theorem desyncHandler_of_busy {v : ResyncView α} (hc : v.core ≠ none) : v.desyncHandler = v := by
  unfold desyncHandler
  rw [if_pos (Option.isSome_iff_ne_none.mpr hc)]

theorem desyncHandler_of_idle {v : ResyncView α} (hc : v.core = none) :
    (v.renderVisible = true ∧ v.desyncHandler = { v with
      core := some ⟨v.started, .freezing⟩
      started := v.started + 1
      resyncActive := true }) ∨
    (v.renderVisible = false ∧ v.desyncHandler = { v with
      resyncActive := true
      hiddenWriteBuffer := v.hiddenWriteBuffer.reset }) := by
  unfold desyncHandler
  rw [if_neg (by simp [hc])]
  cases hv : v.renderVisible
  · exact .inr ⟨rfl, rfl⟩
  · exact .inl ⟨rfl, rfl⟩

theorem flushHiddenWrites_cases (notice : List α) (v : ResyncView α) :
    v.flushHiddenWrites notice = (v.desyncHandler, .resync) ∨
      (v.resyncActive = false ∧ v.hiddenWriteBuffer.overflowed = false ∧
        (v.flushHiddenWrites notice = (v, .ready v.flushes.writeInFlight) ∨
          v.flushHiddenWrites notice = ({ v with
                hiddenWriteBuffer := .empty
                flushes := v.flushes.add v.hiddenWriteBuffer.text },
              .ready (some v.flushes.flushes.length)))) := by
  unfold flushHiddenWrites
  by_cases hg : v.resyncActive
  · exact .inl (if_pos hg)
  rw [if_neg hg]
  by_cases ho : v.hiddenWriteBuffer.didOverflow
  · exact .inl (if_pos ho)
  rw [if_neg ho]
  have ho' : v.hiddenWriteBuffer.overflowed = false := Bool.eq_false_iff.mpr ho
  refine .inr ⟨Bool.eq_false_iff.mpr hg, ho', ?_⟩
  unfold HiddenWriteBuffer.takeAll
  by_cases hp : v.hiddenWriteBuffer.pendingLength = 0 ∧ v.hiddenWriteBuffer.overflowed = false
  · rw [if_pos hp]
    exact .inl rfl
  · rw [if_neg hp, ho']
    refine .inr ?_
    simp

theorem prepare_cases (v : ResyncView α) :
    v.prepare = v ∨ ∃ id, v.core = some ⟨id, .freezing⟩ ∧
      v.prepare = { v.setPhase id .preparing with hiddenWriteBuffer := .empty } := by
  unfold prepare
  split
  · next id hc => exact .inr ⟨id, hc, rfl⟩
  · exact .inl rfl

theorem send_cases (v : ResyncView α) :
    v.send = (v, []) ∨ ∃ id, v.core = some ⟨id, .preparing⟩ ∧
      v.send = (v.setPhase id .requested, [.requested id]) := by
  unfold send
  split
  · next id hc => exact .inr ⟨id, hc, rfl⟩
  · exact .inl rfl

theorem respond_cases (v : ResyncView α) (snapshot : Option Nat) :
    v.respond snapshot = (v, []) ∨ ∃ id, v.core = some ⟨id, .requested⟩ ∧
      ((∃ upTo, snapshot = some upTo ∧
        v.respond snapshot = (v.setPhase id (.replaying upTo), [.reset id, .replay id upTo])) ∨
      (snapshot = none ∧ v.respond snapshot = (v.setPhase id .grounding, [.groundAfterGap]))) := by
  unfold respond
  split
  · next id hc =>
    refine .inr ⟨id, hc, ?_⟩
    cases snapshot with
    | some upTo => exact .inl ⟨upTo, rfl, rfl⟩
    | none => exact .inr ⟨rfl, rfl⟩
  · exact .inl rfl

theorem replayDone_cases (v : ResyncView α) (ok : Bool) :
    v.replayDone ok = (v, []) ∨ ∃ id upTo, v.core = some ⟨id, .replaying upTo⟩ ∧
      v.replayDone ok =
        (v.setPhase id (.restored ok), if ok then [.replayed id upTo] else []) := by
  unfold replayDone
  split
  · next id upTo hc => exact .inr ⟨id, upTo, hc, rfl⟩
  · exact .inl rfl

theorem groundDone_cases (v : ResyncView α) :
    v.groundDone = v ∨ ∃ id, v.core = some ⟨id, .grounding⟩ ∧
      v.groundDone = v.setPhase id (.restored false) := by
  unfold groundDone
  split
  · next id hc => exact .inr ⟨id, hc, rfl⟩
  · exact .inl rfl

theorem settle_cases (notice : List α) (v : ResyncView α) :
    v.settle notice = v ∨ ∃ id resynced, v.core = some ⟨id, .restored resynced⟩ ∧
      (v.settle notice = { v with core := none, resyncActive := false }.desyncHandler ∨
      (v.hiddenWriteBuffer.overflowed = false ∧ ∃ awaits, (v.settle notice = { v with
            core := none
            resyncActive := false
            settling := v.settling ++ [⟨awaits, resynced⟩] } ∨ v.settle notice = { v with
            core := none
            resyncActive := false
            settling := v.settling ++ [⟨awaits, resynced⟩]
            hiddenWriteBuffer := .empty
            flushes := v.flushes.add v.hiddenWriteBuffer.text }))) := by
  unfold settle
  split
  · next id resynced hc =>
    refine .inr ⟨id, resynced, hc, ?_⟩
    unfold onResyncSettled
    rcases flushHiddenWrites_cases notice { v with core := none, resyncActive := false } with
      hf | ⟨_, ho, hf | hf⟩
    · rw [hf]
      exact .inl rfl
    · rw [hf]
      exact .inr ⟨ho, _, .inl rfl⟩
    · rw [hf]
      exact .inr ⟨ho, _, .inr rfl⟩
  · exact .inl rfl

theorem startFlush_eq (v : ResyncView α) (k : Nat) : v.startFlush k =
    ({ v with flushes := (v.flushes.start k).1 },
      (v.flushes.start k).2.elim [] fun pending => [.write pending false]) := by
  unfold startFlush
  rcases h : v.flushes.start k with ⟨flushes, _ | pending⟩ <;> rfl

theorem settled_cases (v : ResyncView α) (i : Nat) :
    v.settled i = (v, []) ∨ ∃ s, v.settling[i]? = some s ∧
      v.settled i = ({ v with settling := v.settling.eraseIdx i },
        if s.resynced then [] else [.resyncFailedNotice]) := by
  unfold settled
  split
  · exact .inl rfl
  next s hs =>
  split
  · exact .inr ⟨s, hs, rfl⟩
  · exact .inl rfl

end

end ResyncView

end CcPanes

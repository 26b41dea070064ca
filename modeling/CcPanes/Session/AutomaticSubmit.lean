import CcPanes.Foundation.Run
import CcPanes.Foundation.Transducer
import CcPanes.Session.StateMachine

/-!
# Automatic submits

The queue worker reads `status_for_automatic_submit_at` and submits the next prompt when it says
`Idle` or `WaitingInput`; `mark_automatic_submit_started` consumes the observation it acted on.
The trace of a session records, beside the machine, whether it is `awaiting`: marked, with no
`TurnEnd` and no `WaitingInput` applied since.
-/

namespace CcPanes

open SessionStateMachine Bool

variable {e : SessionStateEntry} {m : SessionStateMachine} {t : SubmitTrace}

inductive SessionOp where
  | event (sid : String) (event : CcPaneEvent) (taskBindingId : Option String)
      (payload : HookPayload) (channel : EventChannel) (clock : Clock)
  | register (sid : String) (clock : Clock)
  | mark (sid : String) (clock : Clock)
  | forceExited (sid : String) (clock : Clock)

def SessionOp.apply (m : SessionStateMachine) : SessionOp → SessionStateMachine
  | event sid ev taskBindingId payload channel clock =>
    (m.onEventWithChannel sid ev taskBindingId payload channel clock).1
  | register sid clock => (m.registerForAutomaticSubmit sid clock).1
  | mark sid clock => m.markAutomaticSubmitStarted sid clock
  | forceExited sid clock => (m.forceExited sid clock).1

def isApplied (m : SessionStateMachine) (sid : String) (event : CcPaneEvent)
    (channel : EventChannel) (clock : Clock) : Bool :=
  !(m.entryOrNew sid clock).isCrossChannelDup (ccPaneEventName event) channel clock.instant

def endsTurn (event : CcPaneEvent) : Bool := event = .turnEnd || event = .waitingInput

structure SubmitTrace where
  machine : SessionStateMachine
  awaiting : Bool
  lastSignal : Nat

def traceInit : SubmitTrace := ⟨SessionStateMachine.new, false, 0⟩

/-- one operation, seen from session `sid` -/
def traceStep (sid : String) (t : SubmitTrace) (op : SessionOp) : SubmitTrace :=
  match op with
  | .mark sid' clock =>
    if sid' = sid then ⟨op.apply t.machine, true, clock.instant⟩
    else { t with machine := op.apply t.machine }
  | .event sid' ev _ _ channel clock =>
    if sid' = sid ∧ isApplied t.machine sid ev channel clock = true then
      ⟨op.apply t.machine, t.awaiting && !endsTurn ev, clock.instant⟩
    else { t with machine := op.apply t.machine }
  | .register _ _ => { t with machine := op.apply t.machine }
  | .forceExited _ _ => { t with machine := op.apply t.machine }

def mayRelease (s : SessionStatus) : Bool := s = .idle || s = .waitingInput

/-- no early release: whatever the backend says and whenever the worker asks, the session is only
released once the fallback window is over and the terminal is quiet -/
def ReleasedLate (m : SessionStateMachine) (sid : String) (lastSignal : Nat) : Prop :=
  ∀ backendStatus ptyOutputStale now,
    mayRelease (m.statusForAutomaticSubmitAt sid backendStatus ptyOutputStale now) = true →
    automaticSubmitFallbackIdleMs ≤ asMillis (elapsed now lastSignal) ∧ ptyOutputStale = true

def Guarded (sid : String) (t : SubmitTrace) : Prop :=
  t.awaiting = true → ReleasedLate t.machine sid t.lastSignal

/-- a `ToolAfter` applied to an awaiting session does not find a status that may be released -/
def KeepsConsumed (sid : String) (t : SubmitTrace) : SessionOp → Prop
  | .event sid' .toolAfter _ _ channel clock =>
    sid' = sid → t.awaiting = true → isApplied t.machine sid .toolAfter channel clock = true →
      mayRelease (t.machine.entryOrNew sid clock).status = false
  | _ => True

def Consumed (e : SessionStateEntry) : Prop :=
  e.automaticSubmitObserved = false ∨ mayRelease e.status = false

theorem released_of_not_consumed {sid : String} (he : m.entries sid = some e)
    (hobs : e.automaticSubmitObserved = true) (hst : mayRelease e.status = true) (now : Nat) :
    mayRelease (m.statusForAutomaticSubmitAt sid .idle true now) = true := by
  unfold statusForAutomaticSubmitAt
  rw [if_neg (by decide), he]
  simp only [hobs, Bool.not_true, Bool.false_eq_true, if_false, Bool.or_true, if_true]
  by_cases hidle : e.status = .idle
  · rw [if_pos hidle]
    rfl
  have hwait : e.status = .waitingInput := by
    simpa [mayRelease, hidle] using hst
  rw [if_neg hidle, if_pos hwait]
  rfl

theorem releasedLate_of_consumed {sid : String} (he : m.entries sid = some e) (h : Consumed e) :
    ReleasedLate m sid e.lastHookEventAt := by
  intro backend quiet now hrel
  unfold statusForAutomaticSubmitAt at hrel
  by_cases hback : backend = .exited ∨ backend = .error
  · rw [if_pos hback] at hrel
    rcases hback with rfl | rfl <;> cases hrel
  rw [if_neg hback, he] at hrel
  cases hobs : e.automaticSubmitObserved with
  | false =>
    simp only [hobs, Bool.not_false, if_true] at hrel
    split at hrel
    · next hcond =>
      simp only [Bool.and_eq_true, decide_eq_true_eq] at hcond
      exact ⟨hcond.1.2, hcond.2⟩
    · cases hrel
  | true =>
    have hst : mayRelease e.status = false := by
      rcases h with h | h
      · cases hobs.symm.trans h
      · exact h
    have hidle : e.status ≠ .idle := by
      intro hs
      rw [hs] at hst
      cases hst
    have hwait : e.status ≠ .waitingInput := by
      intro hs
      rw [hs] at hst
      cases hst
    simp only [hobs, Bool.not_true, Bool.false_eq_true, if_false, hidle, hwait] at hrel
    split at hrel
    · split at hrel
      · next hcond =>
        simp only [and_eq_true, decide_eq_true_eq] at hcond
        exact hcond
      · rw [hst] at hrel
        cases hrel
    · rw [hst] at hrel
      cases hrel

theorem released_iff {sid : String} (he : m.entries sid = some e) :
    ReleasedLate m sid e.lastHookEventAt ↔ Consumed e := by
  refine ⟨fun h => ?_, releasedLate_of_consumed he⟩
  cases hobs : e.automaticSubmitObserved with
  | false => exact .inl hobs
  | true =>
    right
    rw [← not_eq_true]
    intro hst
    have hlate := h .idle true e.lastHookEventAt (released_of_not_consumed he hobs hst _)
    have hzero : asMillis (elapsed e.lastHookEventAt e.lastHookEventAt) = 0 := by
      simp [elapsed, asMillis]
    rw [hzero] at hlate
    cases hlate.1

/-! ## what one operation does to an awaiting session -/

structure KeepsEntry (e e' : SessionStateEntry) : Prop where
  stamp : e'.lastHookEventAt = e.lastHookEventAt
  consumed : Consumed e → Consumed e'

/-- an awaiting session has an entry, stamped by its last signal -/
def Stamped (sid : String) (t : SubmitTrace) : Prop :=
  t.awaiting = true → ∃ e, t.machine.entries sid = some e ∧ e.lastHookEventAt = t.lastSignal

theorem guarded_iff_consumed {sid : String} (he : t.machine.entries sid = some e)
    (hlast : e.lastHookEventAt = t.lastSignal) :
    Guarded sid t ↔ (t.awaiting = true → Consumed e) := by
  unfold Guarded
  rw [← hlast, released_iff he]

theorem KeepsEntry.refl (e : SessionStateEntry) : KeepsEntry e e := ⟨rfl, id⟩

def StepKeeps (sid : String) (t : SubmitTrace) (op : SessionOp) : Prop :=
  Stamped sid (traceStep sid t op) ∧
  (Guarded sid t → (Guarded sid (traceStep sid t op) ↔ KeepsConsumed sid t op))

theorem quiet_step {sid : String} {op : SessionOp}
    (hstep : traceStep sid t op = { t with machine := op.apply t.machine })
    (hok : KeepsConsumed sid t op)
    (hent : ∀ e, t.machine.entries sid = some e →
      ∃ e', (op.apply t.machine).entries sid = some e' ∧ KeepsEntry e e')
    (h : Stamped sid t) : StepKeeps sid t op := by
  unfold StepKeeps
  rw [hstep]
  constructor
  · intro haw
    obtain ⟨e, he, hl⟩ := h haw
    obtain ⟨e', he', hkeep⟩ := hent e he
    exact ⟨e', he', hkeep.stamp.trans hl⟩
  refine fun hg => ⟨fun _ => hok, fun _ haw => ?_⟩
  obtain ⟨e, he, hl⟩ := h haw
  obtain ⟨e', he', hkeep⟩ := hent e he
  have hcons : Consumed e := (guarded_iff_consumed he hl).mp hg haw
  rw [← hl, ← hkeep.stamp]
  exact releasedLate_of_consumed he' (hkeep.consumed hcons)

theorem signal_step {sid : String} {t' : SubmitTrace} {e' : SessionStateEntry}
    (he' : t'.machine.entries sid = some e') (hlast : e'.lastHookEventAt = t'.lastSignal) :
    Stamped sid t' ∧ (Guarded sid t' ↔ (t'.awaiting = true → Consumed e')) :=
  ⟨fun _ => ⟨e', he', hlast⟩, guarded_iff_consumed he' hlast⟩

def SessionOp.sid : SessionOp → String
  | event sid _ _ _ _ _ => sid
  | register sid _ => sid
  | mark sid _ => sid
  | forceExited sid _ => sid

theorem onEvent_entry (m : SessionStateMachine) (sid : String) (ev : CcPaneEvent)
    (taskBindingId : Option String) (payload : HookPayload) (channel : EventChannel)
    (clock : Clock) : ∃ e', (m.onEventWithChannel sid ev taskBindingId payload channel clock).1 =
      m.setEntry sid e' := by
  cases hdup : (m.entryOrNew sid clock).isCrossChannelDup (ccPaneEventName ev) channel
      clock.instant with
  | true => exact ⟨_, onEvent_dropped taskBindingId payload hdup⟩
  | false => exact ⟨_, onEvent_applied taskBindingId payload hdup⟩

theorem apply_other (m : SessionStateMachine) (op : SessionOp) {sid : String}
    (h : sid ≠ op.sid) : (op.apply m).entries sid = m.entries sid := by
  cases op with
  | event sid' ev taskBindingId payload channel clock =>
    obtain ⟨e', he'⟩ := onEvent_entry m sid' ev taskBindingId payload channel clock
    show ((m.onEventWithChannel sid' ev taskBindingId payload channel clock).1).entries sid = _
    rw [he']
    exact setEntry_other m e' h
  | register => exact setEntry_other m _ h
  | mark => exact setEntry_other m _ h
  | forceExited sid' clock =>
    show (m.forceExited sid' clock).1.entries sid = _
    unfold forceExited
    cases m.entries sid' with
    | none => rfl
    | some e =>
      by_cases hs : e.status = .exited
      · simp only [hs, if_true]
      · simp only [hs, if_false]
        exact setEntry_other m _ h

theorem traceStep_other {sid : String} (t : SubmitTrace) (op : SessionOp) (h : sid ≠ op.sid) :
    traceStep sid t op = { t with machine := op.apply t.machine } := by
  cases op with
  | event =>
    exact if_neg fun hc => h hc.1.symm
  | register => rfl
  | mark => exact if_neg fun hc => h hc.symm
  | forceExited => rfl

theorem keepsConsumed_other {sid : String} (t : SubmitTrace) (op : SessionOp)
    (h : sid ≠ op.sid) : KeepsConsumed sid t op := by
  cases op with
  | event sid' ev =>
    cases ev with
    | toolAfter => exact fun hc => absurd hc.symm h
    | _ => trivial
  | _ => trivial

theorem register_entry (m : SessionStateMachine) {sid : String} (clock : Clock)
    (he : m.entries sid = some e) :
    ∃ e', (m.registerForAutomaticSubmit sid clock).1.entries sid = some e' ∧ KeepsEntry e e' := by
  refine ⟨{ e with automaticSubmitPtyGuard := true }, ?_, ⟨rfl, id⟩⟩
  unfold registerForAutomaticSubmit entryOrBaseline
  rw [he]
  exact setEntry_self m sid _

theorem forceExited_entry (m : SessionStateMachine) {sid : String} (clock : Clock)
    (he : m.entries sid = some e) :
    ∃ e', (m.forceExited sid clock).1.entries sid = some e' ∧ KeepsEntry e e' := by
  unfold forceExited
  rw [he]
  by_cases hs : e.status = .exited
  · simp only [hs, if_true]
    exact ⟨e, he, KeepsEntry.refl e⟩
  · simp only [hs, if_false]
    exact ⟨_, setEntry_self m sid _, ⟨rfl, fun _ => .inr rfl⟩⟩

theorem appliedEntry_consumed (m : SessionStateMachine) (sid : String) (ev : CcPaneEvent)
    (taskBindingId : Option String) (payload : HookPayload) (channel : EventChannel)
    (clock : Clock) :
    let e' := m.appliedEntry sid ev taskBindingId payload channel clock
    e'.lastHookEventAt = clock.instant ∧
    (Consumed e' ↔ mayRelease (nextStatus (m.entryOrNew sid clock).status ev) = false) := by
  intro e'
  obtain ⟨_, hlast, hobs, _⟩ := transfer_bookkeeping
    ((m.entryOrNew sid clock).observe (ccPaneEventName ev) taskBindingId channel clock) payload ev
  have hst : e'.status = nextStatus (m.entryOrNew sid clock).status ev := transfer_status _ _ _
  have hobs' : e'.automaticSubmitObserved = true := hobs
  refine ⟨hlast, ?_⟩
  unfold Consumed
  rw [hst, hobs']
  exact ⟨fun h => h.resolve_left (by decide), .inr⟩

theorem mayRelease_nextStatus (s : SessionStatus) (ev : CcPaneEvent) :
    mayRelease (nextStatus s ev) = (endsTurn ev || (ev = .toolAfter && mayRelease s)) := by
  cases ev <;> cases s <;> rfl

theorem applied_step {sid : String} (t : SubmitTrace) (ev : CcPaneEvent)
    (taskBindingId : Option String) (payload : HookPayload) (channel : EventChannel)
    (clock : Clock) (happ : isApplied t.machine sid ev channel clock = true) :
    StepKeeps sid t (.event sid ev taskBindingId payload channel clock) := by
  let op := SessionOp.event sid ev taskBindingId payload channel clock
  have hstep : traceStep sid t op =
      ⟨op.apply t.machine, t.awaiting && !endsTurn ev, clock.instant⟩ := if_pos ⟨rfl, happ⟩
  have hmachine : op.apply t.machine = t.machine.setEntry sid
      (t.machine.appliedEntry sid ev taskBindingId payload channel clock) :=
    onEvent_applied taskBindingId payload (by simpa [isApplied] using happ)
  obtain ⟨hlast, hcons⟩ :=
    appliedEntry_consumed t.machine sid ev taskBindingId payload channel clock
  have he' : (traceStep sid t op).machine.entries sid =
      some (t.machine.appliedEntry sid ev taskBindingId payload channel clock) := by
    rw [hstep, hmachine]
    exact setEntry_self t.machine sid _
  have hlast' : (t.machine.appliedEntry sid ev taskBindingId payload channel
      clock).lastHookEventAt = (traceStep sid t op).lastSignal := by
    rw [hstep]
    exact hlast
  obtain ⟨hstamped, hguarded⟩ := signal_step he' hlast'
  refine ⟨hstamped, fun _ => hguarded.trans ?_⟩
  rw [hcons, mayRelease_nextStatus, hstep]
  cases ev with
  | toolAfter => simp [KeepsConsumed, happ, endsTurn]
  | _ => simp [KeepsConsumed, endsTurn]

theorem dropped_step {sid : String} (hI : Stamped sid t) (ev : CcPaneEvent)
    (taskBindingId : Option String) (payload : HookPayload) (channel : EventChannel)
    (clock : Clock) (happ : isApplied t.machine sid ev channel clock = false) :
    StepKeeps sid t (.event sid ev taskBindingId payload channel clock) := by
  refine quiet_step (if_neg (by simp [happ])) ?_ (fun e he => ⟨e, ?_, KeepsEntry.refl e⟩) hI
  · cases ev with
    | toolAfter => simp [KeepsConsumed, happ]
    | _ => trivial
  have hsame : (SessionOp.event sid ev taskBindingId payload channel clock).apply t.machine =
      t.machine.setEntry sid (t.machine.entryOrNew sid clock) :=
    onEvent_dropped taskBindingId payload (by simpa [isApplied] using happ)
  rw [hsame, setEntry_self]
  unfold entryOrNew
  rw [he]
  rfl

theorem mark_step (sid : String) (t : SubmitTrace) (clock : Clock) :
    StepKeeps sid t (.mark sid clock) := by
  have hstep : traceStep sid t (.mark sid clock) =
      ⟨t.machine.markAutomaticSubmitStarted sid clock, true, clock.instant⟩ := if_pos rfl
  have he' : (traceStep sid t (.mark sid clock)).machine.entries sid =
      some { t.machine.entryOrBaseline sid clock with
        automaticSubmitObserved := false
        lastHookEventAt := clock.instant
        updatedAt := clock.epochMillis } := by
    rw [hstep]
    exact setEntry_self t.machine sid _
  obtain ⟨hstamped, hguarded⟩ := signal_step he' (by rw [hstep])
  exact ⟨hstamped, fun _ => ⟨fun _ => trivial, fun _ => hguarded.mpr fun _ => .inl rfl⟩⟩

theorem guarded_step (sid : String) (t : SubmitTrace) (op : SessionOp) (hI : Stamped sid t) :
    StepKeeps sid t op := by
  by_cases hsid : sid = op.sid
  · cases op with
    | event sid' ev taskBindingId payload channel clock =>
      obtain rfl : sid = sid' := hsid
      cases happ : isApplied t.machine sid ev channel clock with
      | true => exact applied_step t ev taskBindingId payload channel clock happ
      | false => exact dropped_step hI ev taskBindingId payload channel clock happ
    | register sid' clock =>
      obtain rfl : sid = sid' := hsid
      exact quiet_step rfl trivial (fun e he => register_entry t.machine clock he) hI
    | mark sid' clock =>
      obtain rfl : sid = sid' := hsid
      exact mark_step sid t clock
    | forceExited sid' clock =>
      obtain rfl : sid = sid' := hsid
      exact quiet_step rfl trivial (fun e he => forceExited_entry t.machine clock he) hI
  · refine quiet_step (traceStep_other t op hsid) (keepsConsumed_other t op hsid) ?_ hI
    intro e he
    exact ⟨e, (apply_other t.machine op hsid).trans he, KeepsEntry.refl e⟩

/-- **When no prompt is submitted early.**  Along a run of operations an awaiting session is never
released before the fallback window is over and the terminal is quiet, iff no `ToolAfter` is
applied to it while its stored status is `Idle` or `WaitingInput`. -/
theorem guarded_iff (sid : String) (ops : List SessionOp) :
    Run.Along (traceStep sid) (Guarded sid) traceInit ops ↔
      Run.StepsOk (traceStep sid) (KeepsConsumed sid) traceInit ops :=
  Run.along_iff_stepsOk (I := Stamped sid) (fun t op h => (guarded_step sid t op h).1)
    (fun t op h hg => (guarded_step sid t op h).2 hg)
    (fun h => absurd h Bool.false_ne_true) (fun h => absurd h Bool.false_ne_true) ops

/-- a turn ends, its prompt is submitted, and a late `ToolAfter` arrives -/
def lateToolAfter : List SessionOp :=
  [.event "pty-1" .turnEnd none ⟨none, none, none, none⟩ .http ⟨0, 0⟩,
    .mark "pty-1" ⟨10000000000, 10000⟩,
    .event "pty-1" .toolAfter none ⟨none, none, none, none⟩ .http ⟨11000000000, 11000⟩]

theorem lateToolAfter_released :
    ¬ Run.Along (traceStep "pty-1") (Guarded "pty-1") traceInit lateToolAfter := by
  intro h
  have hlast : Guarded "pty-1" (Run.run (traceStep "pty-1") traceInit lateToolAfter) := h.last
  have hnow := hlast (by decide) .idle true 11000000000 (by decide)
  cases hnow.1

/-! ## the transitions, in the order of the operations -/

def SessionOp.transition (m : SessionStateMachine) : SessionOp → Option StateTransition
  | event sid ev taskBindingId payload channel clock =>
    (m.onEventWithChannel sid ev taskBindingId payload channel clock).2.2
  | forceExited sid clock => (m.forceExited sid clock).2
  | _ => none

def notify (m : SessionStateMachine) (op : SessionOp) : SessionStateMachine × List StateTransition :=
  (op.apply m, (op.transition m).toList)

def statusOf (m : SessionStateMachine) (sid : String) : SessionStatus :=
  (m.entries sid).elim .initializing (·.status)

/-- the status of the session for a listener, who starts at `s`; `none` if a transition does not
start where the one before has ended -/
def follow (sid : String) (s : SessionStatus) : List StateTransition → Option SessionStatus
  | [] => some s
  | t :: ts =>
    if t.ptySessionId ≠ sid then follow sid s ts
    else if t.fromStatus = s then follow sid t.toStatus ts
    else none

theorem follow_append (sid : String) (s : SessionStatus) (ts ts' : List StateTransition) :
    follow sid s (ts ++ ts') = (follow sid s ts).bind fun s => follow sid s ts' := by
  induction ts generalizing s with
  | nil => rfl
  | cons t ts ih =>
    rw [List.cons_append, follow, follow, ih, ih]
    split
    · rfl
    · split <;> rfl

theorem statusOf_setEntry (m : SessionStateMachine) (sid : String) (e : SessionStateEntry) :
    statusOf (m.setEntry sid e) sid = e.status := by
  rw [statusOf, setEntry_self]
  rfl

theorem statusOf_getD (m : SessionStateMachine) (sid : String) {e : SessionStateEntry}
    (he : e.status = .initializing) : ((m.entries sid).getD e).status = statusOf m sid := by
  unfold statusOf
  cases m.entries sid with
  | none => exact he
  | some => rfl

/-- what the operation tells the listeners -/
theorem transition_cases (m : SessionStateMachine) (op : SessionOp) :
    op.transition m = none ∧ statusOf (op.apply m) op.sid = statusOf m op.sid ∨
      ∃ t, op.transition m = some t ∧ t.ptySessionId = op.sid ∧
        t.fromStatus = statusOf m op.sid ∧ t.toStatus = statusOf (op.apply m) op.sid := by
  cases op with
  | register sid clock | mark sid clock =>
    exact .inl ⟨rfl, (statusOf_setEntry m sid _).trans (statusOf_getD m sid rfl)⟩
  | event sid ev taskBindingId payload channel clock =>
    have hstatus : (m.entryOrNew sid clock).status = statusOf m sid := statusOf_getD m sid rfl
    unfold SessionOp.transition SessionOp.apply SessionOp.sid
    dsimp only
    unfold onEventWithChannel
    dsimp only
    split
    · exact .inl ⟨rfl, (statusOf_setEntry m sid _).trans hstatus⟩
    rw [statusOf_setEntry]
    split
    · exact .inr ⟨_, rfl, rfl, hstatus, rfl⟩
    · next h =>
      exact .inl ⟨rfl, (Decidable.not_not.mp (not_or.mp h).1).symm.trans hstatus⟩
  | forceExited sid clock =>
    unfold SessionOp.transition SessionOp.apply SessionOp.sid
    dsimp only
    unfold forceExited
    cases he : m.entries sid with
    | none => exact .inl ⟨rfl, rfl⟩
    | some e =>
      dsimp only
      split
      · exact .inl ⟨rfl, rfl⟩
      have hstatus : e.status = statusOf m sid := by
        rw [statusOf, he]
        rfl
      refine .inr ⟨_, rfl, rfl, hstatus, ?_⟩
      rw [statusOf_setEntry]

theorem follow_step (sid : String) (m : SessionStateMachine) (op : SessionOp) :
    follow sid (statusOf m sid) (notify m op).2 = some (statusOf (notify m op).1 sid) := by
  show follow sid _ (op.transition m).toList = some (statusOf (op.apply m) sid)
  by_cases hsid : sid = op.sid
  · subst hsid
    rcases transition_cases m op with ⟨htold, hsame⟩ | ⟨t, htold, hown, hfrom, hto⟩
    · rw [htold, hsame]
      rfl
    · rw [htold, ← hto]
      exact (if_neg (not_not_intro hown)).trans (if_pos hfrom)
  · have hsame : statusOf (op.apply m) sid = statusOf m sid := by
      rw [statusOf, apply_other m op hsid]
      rfl
    rw [hsame]
    rcases transition_cases m op with ⟨htold, -⟩ | ⟨t, htold, hother, -⟩
    · rw [htold]
      rfl
    · rw [htold]
      exact if_pos (hother ▸ Ne.symm hsid)

/-- **The transitions of a session are a chain** from its first status to the one it has. -/
theorem transitions_chain (sid : String) (ops : List SessionOp) :
    let r := Transducer.feed notify SessionStateMachine.new ops
    follow sid .initializing r.2 = some (statusOf r.1 sid) := by
  induction ops using List.reverseRecOn with
  | nil => rfl
  | append_singleton ops op ih =>
    dsimp only at ih ⊢
    rw [Transducer.feed_snoc, follow_append, ih]
    exact follow_step sid _ op

end CcPanes

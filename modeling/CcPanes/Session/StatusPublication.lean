import CcPanes.Foundation.Run
import CcPanes.Session.StateMachine

/-!
# Publishing the status of a live session

`on_event_with_channel` and `force_exited` move the entry of the session under the entries lock.
After releasing it they call the listener, whose `apply_hook_status` writes
`TerminalSession.status`, builds the status info (`build_session_status_info` reads the machine
twice) and emits `TERMINAL_STATUS`.  A call is a thread that takes these steps one by one, between
the steps of the others; the session stays in the `sessions` map.
-/

namespace CcPanes
open Function

def staleBusyTimeoutSecs : Nat := 10 * 60

structure SessionStatusInfo where
  sessionId : String
  status : SessionStatus
  lastOutputAt : Nat
  pid : Option Nat
  exitCode : Option Int
  currentToolName : Option String
  currentToolUseId : Option String
  currentToolSummary : Option String
  updatedAt : Nat

/-- a busy status whose hooks have been silent for too long counts as idle -/
def SessionStateMachine.statusForQueryAt (m : SessionStateMachine) (ptySessionId : String)
    (storedStatus : SessionStatus) (now : Nat) : SessionStatus :=
  if !storedStatus.isBusy then storedStatus
  else
    match m.entries ptySessionId with
    | none => storedStatus
    | some e =>
      if !e.status.isBusy then storedStatus
      else if asSecs (elapsed now e.lastHookEventAt) > staleBusyTimeoutSecs then .idle
      else storedStatus

/-- from the snapshot of the entry and the answer of `status_for_query` -/
def buildSessionStatusInfo (sessionId : String) (status : SessionStatus) (lastOutputAt : Nat)
    (pid : Option Nat) (exitCode : Option Int) (snapshot : Option SessionStateEntry)
    (effectiveStatus : SessionStatus) : SessionStatusInfo :=
  let staleBusyFallback := status.isBusy && effectiveStatus == .idle
  { sessionId := sessionId
    status := effectiveStatus
    lastOutputAt := lastOutputAt
    pid := pid
    exitCode := exitCode
    currentToolName := if staleBusyFallback then none else snapshot.bind (·.currentToolName)
    currentToolUseId := if staleBusyFallback then none else snapshot.bind (·.currentToolUseId)
    currentToolSummary := if staleBusyFallback then none else snapshot.bind (·.currentToolSummary)
    updatedAt := (snapshot.map (·.updatedAt)).getD lastOutputAt }

/-- where a call is after it released the entries lock -/
inductive StatusCall where
  | returned
  | writing (transition : StateTransition)
  | snapshotting (newStatus : SessionStatus)
  | querying (newStatus : SessionStatus) (nowMs : Nat) (snapshot : Option SessionStateEntry)
  | emitting (info : SessionStatusInfo)

inductive StatusAction where
  | event (t : Nat) (event : CcPaneEvent) (taskBindingId : Option String) (payload : HookPayload)
      (channel : EventChannel) (clock : Clock)
  | forceExited (t : Nat) (clock : Clock)
  | write (t : Nat)
  | snapshot (t : Nat) (clock : Clock)
  | query (t : Nat) (clock : Clock)
  | emit (t : Nat)

structure StatusWorld where
  machine : SessionStateMachine
  /-- `TerminalSession.status` -/
  stored : SessionStatus
  pid : Nat
  /-- the `TERMINAL_STATUS` events, the newest last -/
  emitted : List SessionStatusInfo
  calls : Nat → StatusCall

namespace StatusWorld

variable {w : StatusWorld} {t : Nat} {c : StatusCall}

def fresh (pid : Nat) : StatusWorld where
  machine := .new
  stored := .active
  pid := pid
  emitted := []
  calls _ := .returned

def setCall (w : StatusWorld) (t : Nat) (c : StatusCall) : StatusWorld :=
  { w with calls := Function.update w.calls t c }

/-- the entries lock is released: `notify_listeners`, or the call returns -/
def release (w : StatusWorld) (t : Nat)
    (r : SessionStateMachine × Option StateTransition) : StatusWorld :=
  { w with machine := r.1 }.setCall t (r.2.elim .returned .writing)

variable (sid : String)

def step (w : StatusWorld) : StatusAction → StatusWorld
  | .event t event taskBindingId payload channel clock =>
    match w.calls t with
    | .returned =>
      let r := w.machine.onEventWithChannel sid event taskBindingId payload channel clock
      w.release t (r.1, r.2.2)
    | _ => w
  | .forceExited t clock =>
    match w.calls t with
    | .returned => w.release t (w.machine.forceExited sid clock)
    | _ => w
  | .write t =>
    match w.calls t with
    | .writing transition =>
      { w with stored := transition.toStatus }.setCall t (.snapshotting transition.toStatus)
    | _ => w
  | .snapshot t clock =>
    match w.calls t with
    | .snapshotting newStatus =>
      w.setCall t (.querying newStatus clock.epochMillis (w.machine.entries sid))
    | _ => w
  | .query t clock =>
    match w.calls t with
    | .querying newStatus nowMs snapshot =>
      w.setCall t (.emitting (buildSessionStatusInfo sid newStatus nowMs (some w.pid) none snapshot
        (w.machine.statusForQueryAt sid newStatus clock.instant)))
    | _ => w
  | .emit t =>
    match w.calls t with
    | .emitting info => { w with emitted := w.emitted ++ [info] }.setCall t .returned
    | _ => w

/-! ## when the statuses agree -/

def AllReturned (w : StatusWorld) : Prop := ∀ t, w.calls t = .returned

def Agree (w : StatusWorld) : Prop :=
  ∀ e, w.machine.entries sid = some e →
    w.stored = e.status ∧ ∀ info, w.emitted.getLast? = some info → info.status = e.status

def Writing (w : StatusWorld) (t : Nat) : Prop :=
  ∃ transition, w.calls t = .writing transition

def UnderWay (w : StatusWorld) (t : Nat) : Prop := w.calls t ≠ .returned

/-- The status a call publishes is that of the entry, or another call is behind it.  The first call
for the session publishes, or leaves the status of a new entry. -/
def Publishes (w : StatusWorld) : StatusAction → Prop
  | .event t event taskBindingId payload channel clock =>
    w.calls t = .returned → w.machine.entries sid = none →
      (w.machine.onEventWithChannel sid event taskBindingId payload channel clock).2.2 = none →
        w.stored = .initializing ∧
          ∀ info, w.emitted.getLast? = some info → info.status = .initializing
  | .write t =>
    ∀ transition, w.calls t = .writing transition → ∀ e, w.machine.entries sid = some e →
      transition.toStatus = e.status ∨ ∃ t', t' ≠ t ∧ w.Writing t'
  | .emit t =>
    ∀ info, w.calls t = .emitting info → ∀ e, w.machine.entries sid = some e →
      info.status = e.status ∨ ∃ t', t' ≠ t ∧ w.UnderWay t'
  | .forceExited _ _ | .snapshot _ _ | .query _ _ => True

/-- what differs from the entry is about to be overwritten -/
def Settled (w : StatusWorld) : Prop :=
  ∀ e, w.machine.entries sid = some e →
    (w.stored = e.status ∨ ∃ t, w.Writing t) ∧
      ((∀ info, w.emitted.getLast? = some info → info.status = e.status) ∨ ∃ t, w.UnderWay t)

def Entered (w : StatusWorld) : Prop := w.machine.entries sid = none → w.AllReturned

def Leaves (m : SessionStateMachine) (r : SessionStateMachine × Option StateTransition) : Prop :=
  (∃ e' transition, r.1.entries sid = some e' ∧ r.2 = some transition ∧
      transition.toStatus = e'.status) ∨
    (∃ e e', m.entries sid = some e ∧ r.1.entries sid = some e' ∧ r.2 = none ∧
      e'.status = e.status) ∨
    (∃ e', m.entries sid = none ∧ r.1.entries sid = some e' ∧ r.2 = none ∧
      e'.status = .initializing) ∨
    m.entries sid = none ∧ r.1.entries sid = none ∧ r.2 = none

variable {sid}

theorem leaves_unpublished {m m' : SessionStateMachine} {e' : SessionStateEntry} (clock : Clock)
    (h' : m'.entries sid = some e') (hs : e'.status = (m.entryOrNew sid clock).status) :
    Leaves sid m (m', none) := by
  unfold SessionStateMachine.entryOrNew at hs
  cases he : m.entries sid with
  | none =>
    rw [he] at hs
    exact .inr (.inr (.inl ⟨e', he, h', rfl, hs⟩))
  | some e =>
    rw [he] at hs
    exact .inr (.inl ⟨e, e', he, h', rfl, hs⟩)

theorem leaves_onEvent (sid : String) (m : SessionStateMachine) (event : CcPaneEvent)
    (taskBindingId : Option String) (payload : HookPayload) (channel : EventChannel)
    (clock : Clock) :
    Leaves sid m ((m.onEventWithChannel sid event taskBindingId payload channel clock).1,
      (m.onEventWithChannel sid event taskBindingId payload channel clock).2.2) := by
  cases hdup : (m.entryOrNew sid clock).isCrossChannelDup (ccPaneEventName event) channel
      clock.instant with
  | true =>
    have hnone : (m.onEventWithChannel sid event taskBindingId payload channel clock).2.2 =
        none := by
      unfold SessionStateMachine.onEventWithChannel
      simp only [hdup, if_true]
    rw [hnone, SessionStateMachine.onEvent_dropped taskBindingId payload hdup]
    exact leaves_unpublished clock (m.setEntry_self sid _) rfl
  | false =>
    rw [SessionStateMachine.onEvent_applied taskBindingId payload hdup]
    have hentry := m.setEntry_self sid
      (m.appliedEntry sid event taskBindingId payload channel clock)
    cases htr : (m.onEventWithChannel sid event taskBindingId payload channel clock).2.2 with
    | some transition =>
      refine .inl ⟨_, transition, hentry, rfl, ?_⟩
      unfold SessionStateMachine.onEventWithChannel at htr
      simp only [hdup, Bool.false_eq_true, if_false] at htr
      split at htr
      · cases htr
        rfl
      · cases htr
    | none =>
      refine leaves_unpublished clock hentry ?_
      unfold SessionStateMachine.onEventWithChannel at htr
      simp only [hdup, Bool.false_eq_true, if_false] at htr
      split at htr
      · cases htr
      next hn =>
        have hsame := not_or.mp hn
        exact (not_not.mp hsame.1).symm

theorem onEvent_entry (sid : String) (m : SessionStateMachine) (event : CcPaneEvent)
    (taskBindingId : Option String) (payload : HookPayload) (channel : EventChannel)
    (clock : Clock) :
    ∃ e', (m.onEventWithChannel sid event taskBindingId payload channel clock).1.entries sid =
      some e' := by
  cases hdup : (m.entryOrNew sid clock).isCrossChannelDup (ccPaneEventName event) channel
      clock.instant with
  | true =>
    rw [SessionStateMachine.onEvent_dropped taskBindingId payload hdup]
    exact ⟨_, m.setEntry_self sid _⟩
  | false =>
    rw [SessionStateMachine.onEvent_applied taskBindingId payload hdup]
    exact ⟨_, m.setEntry_self sid _⟩

theorem leaves_forceExited (m : SessionStateMachine) (clock : Clock) :
    Leaves sid m (m.forceExited sid clock) := by
  unfold SessionStateMachine.forceExited
  cases he : m.entries sid with
  | none => exact .inr (.inr (.inr ⟨he, he, rfl⟩))
  | some e =>
    dsimp only
    split
    · exact .inr (.inl ⟨e, e, he, he, rfl, rfl⟩)
    · exact .inl ⟨_, _, m.setEntry_self sid _, rfl, rfl⟩

/-! ## one step -/

theorem setCall_self (w : StatusWorld) (t : Nat) (c : StatusCall) :
    (w.setCall t c).calls t = c := by
  show update w.calls t c t = c
  rw [update_self]

theorem setCall_other (w : StatusWorld) {t t' : Nat} (c : StatusCall) (h : t' ≠ t) :
    (w.setCall t c).calls t' = w.calls t' := by
  show update w.calls t c t' = w.calls t'
  rw [update_of_ne h]

theorem exists_writing_setCall :
    (∃ t', (w.setCall t c).Writing t') ↔
      (∃ transition, c = .writing transition) ∨ ∃ t', t' ≠ t ∧ w.Writing t' := by
  constructor
  · rintro ⟨t', transition, h⟩
    by_cases ht : t' = t
    · subst ht
      rw [setCall_self] at h
      exact .inl ⟨transition, h⟩
    · rw [setCall_other w c ht] at h
      exact .inr ⟨t', ht, transition, h⟩
  · rintro (⟨transition, rfl⟩ | ⟨t', ht, transition, h⟩)
    · exact ⟨t, transition, setCall_self w t _⟩
    · exact ⟨t', transition, (setCall_other w c ht).trans h⟩

theorem exists_underWay_setCall :
    (∃ t', (w.setCall t c).UnderWay t') ↔
      c ≠ .returned ∨ ∃ t', t' ≠ t ∧ w.UnderWay t' := by
  constructor
  · rintro ⟨t', h⟩
    by_cases ht : t' = t
    · subst ht
      unfold UnderWay at h
      rw [setCall_self] at h
      exact .inl h
    · unfold UnderWay at h
      rw [setCall_other w c ht] at h
      exact .inr ⟨t', ht, h⟩
  rintro (hc | ⟨t', ht, h⟩)
  · refine ⟨t, ?_⟩
    unfold UnderWay
    rw [setCall_self]
    exact hc
  refine ⟨t', ?_⟩
  unfold UnderWay
  rw [setCall_other w c ht]
  exact h

theorem exists_writing_other (h : ∀ transition, w.calls t ≠ .writing transition) :
    (∃ t', w.Writing t') ↔ ∃ t', t' ≠ t ∧ w.Writing t' := by
  constructor
  · rintro ⟨t', transition, hw⟩
    refine ⟨t', ?_, transition, hw⟩
    rintro rfl
    exact h transition hw
  · rintro ⟨t', -, hw⟩
    exact ⟨t', hw⟩

theorem exists_underWay_other (h : w.calls t = .returned) :
    (∃ t', w.UnderWay t') ↔ ∃ t', t' ≠ t ∧ w.UnderWay t' := by
  constructor
  · rintro ⟨t', hw⟩
    refine ⟨t', ?_, hw⟩
    rintro rfl
    exact hw h
  · rintro ⟨t', -, hw⟩
    exact ⟨t', hw⟩

variable (sid)

theorem settled_release_iff (hent : Entered sid w) (hs : Settled sid w)
    (hret : w.calls t = .returned) {r : SessionStateMachine × Option StateTransition}
    (hl : Leaves sid w.machine r) :
    Settled sid (w.release t r) ↔
      (w.machine.entries sid = none → r.2 = none → ∀ e', r.1.entries sid = some e' →
        w.stored = .initializing ∧
          ∀ info, w.emitted.getLast? = some info → info.status = .initializing) := by
  obtain ⟨m', tr⟩ := r
  have hwriting : ∀ transition, w.calls t ≠ .writing transition := by
    intro transition h
    rw [hret] at h
    cases h
  obtain ⟨e', transition, he', rfl, hto⟩ | ⟨e, e', he, he', rfl, hsame⟩ | ⟨e', he, he', rfl, hnew⟩ |
    ⟨he, he', rfl⟩ := hl
  · constructor
    · intro _ _ h
      cases h
    · intro _ e₂ he₂
      exact ⟨.inr (exists_writing_setCall.mpr (.inl ⟨transition, rfl⟩)),
        .inr (exists_underWay_setCall.mpr (.inl nofun))⟩
  · constructor
    · intro _ h
      rw [he] at h
      cases h
    intro _ e₂ he₂
    have he₂' : m'.entries sid = some e₂ := he₂
    rw [he'] at he₂'
    cases he₂'
    obtain ⟨hstored, hlast⟩ := hs e he
    rw [hsame]
    refine ⟨hstored.imp id ?_, hlast.imp id ?_⟩
    · intro h
      exact exists_writing_setCall.mpr (.inr ((exists_writing_other hwriting).mp h))
    · intro h
      exact exists_underWay_setCall.mpr (.inr ((exists_underWay_other hret).mp h))
  · have hall := hent he
    have hnoWriting : ¬ ∃ t', (w.release t (m', none)).Writing t' := by
      intro h
      obtain ⟨_, h⟩ | ⟨t', -, _, h⟩ := exists_writing_setCall.mp h
      · cases h
      · have hr := hall t'
        rw [show w.calls t' = _ from h] at hr
        cases hr
    have hnoUnderWay : ¬ ∃ t', (w.release t (m', none)).UnderWay t' := by
      intro h
      obtain h | ⟨t', -, h⟩ := exists_underWay_setCall.mp h
      · exact h rfl
      · exact h (hall t')
    constructor
    · intro h _ _ e₂ he₂
      obtain ⟨hstored, hlast⟩ := h e' he'
      rw [hnew] at hstored hlast
      exact ⟨hstored.resolve_right hnoWriting, hlast.resolve_right hnoUnderWay⟩
    intro h e₂ he₂
    have he₂' : m'.entries sid = some e₂ := he₂
    rw [he'] at he₂'
    cases he₂'
    obtain ⟨hstored, hlast⟩ := h he rfl e' he'
    rw [hnew]
    exact ⟨.inl hstored, .inl hlast⟩
  · constructor
    · intro _ _ _ e₂ he₂
      rw [he'] at he₂
      cases he₂
    intro _ e₂ he₂
    have he₂' : m'.entries sid = some e₂ := he₂
    rw [he'] at he₂'
    cases he₂'

theorem settled_write_iff (w : StatusWorld) (t : Nat) (transition : StateTransition) :
    Settled sid ({ w with stored := transition.toStatus }.setCall t
        (.snapshotting transition.toStatus)) ↔
      ∀ e, w.machine.entries sid = some e →
        transition.toStatus = e.status ∨ ∃ t', t' ≠ t ∧ w.Writing t' := by
  constructor
  · intro h e he
    refine (h e he).1.imp id ?_
    intro hw
    obtain ⟨_, h⟩ | hw := exists_writing_setCall.mp hw
    · cases h
    · exact hw
  · intro h e he
    refine ⟨(h e he).imp id ?_, .inr (exists_underWay_setCall.mpr (.inl nofun))⟩
    intro hw
    exact exists_writing_setCall.mpr (.inr hw)

theorem settled_emit_iff (hs : Settled sid w) {info : SessionStatusInfo}
    (hcall : w.calls t = .emitting info) :
    Settled sid ({ w with emitted := w.emitted ++ [info] }.setCall t .returned) ↔
      ∀ e, w.machine.entries sid = some e →
        info.status = e.status ∨ ∃ t', t' ≠ t ∧ w.UnderWay t' := by
  have hwriting : ∀ transition, w.calls t ≠ .writing transition := by
    intro transition h
    rw [hcall] at h
    cases h
  constructor
  · intro h e he
    obtain hlast | hu := (h e he).2
    · exact .inl (hlast info List.getLast?_concat)
    · obtain h | hu := exists_underWay_setCall.mp hu
      · exact absurd rfl h
      · exact .inr hu
  intro h e he
  refine ⟨(hs e he).1.imp id ?_, (h e he).imp ?_ ?_⟩
  · intro hw
    exact exists_writing_setCall.mpr (.inr ((exists_writing_other hwriting).mp hw))
  · intro hinfo info' hinfo'
    have hlast : (w.emitted ++ [info]).getLast? = some info' := hinfo'
    rw [List.getLast?_concat] at hlast
    cases hlast
    exact hinfo
  · intro hu
    exact exists_underWay_setCall.mpr (.inr hu)

theorem settled_read (hs : Settled sid w) (hc : c ≠ .returned)
    (hwriting : ∀ transition, w.calls t ≠ .writing transition) : Settled sid (w.setCall t c) := by
  intro e he
  refine ⟨(hs e he).1.imp id ?_, .inr (exists_underWay_setCall.mpr (.inl hc))⟩
  intro hw
  exact exists_writing_setCall.mpr (.inr ((exists_writing_other hwriting).mp hw))

theorem settled_step_iff (w : StatusWorld) (a : StatusAction) (hent : Entered sid w)
    (hs : Settled sid w) : Settled sid (step sid w a) ↔ Publishes sid w a := by
  cases a with
  | event t event taskBindingId payload channel clock =>
    rw [step, Publishes]
    split
    next hret =>
      have hl := leaves_onEvent sid w.machine event taskBindingId payload channel clock
      rw [settled_release_iff sid hent hs hret hl]
      obtain ⟨e', he'⟩ := onEvent_entry sid w.machine event taskBindingId payload channel clock
      exact ⟨fun h _ he hn => h he hn e' he', fun h he hn _ _ => h hret he hn⟩
    next hn => exact ⟨fun _ h => absurd h hn, fun _ => hs⟩
  | forceExited t clock =>
    rw [step, Publishes]
    split
    next hret =>
      rw [settled_release_iff sid hent hs hret (leaves_forceExited w.machine clock)]
      refine ⟨fun _ => trivial, fun _ he _ e' he' => ?_⟩
      unfold SessionStateMachine.forceExited at he'
      rw [he] at he'
      exact nomatch he.symm.trans he'
    next => exact ⟨fun _ => trivial, fun _ => hs⟩
  | write t =>
    rw [step, Publishes]
    split
    next transition hcall =>
      rw [settled_write_iff sid w t transition]
      constructor
      · intro h transition' h'
        cases hcall.symm.trans h'
        exact h
      · intro h
        exact h transition hcall
    next hn => exact ⟨fun _ transition h => absurd h (hn transition), fun _ => hs⟩
  | snapshot =>
    rw [step, Publishes]
    split
    next newStatus hcall =>
      refine ⟨fun _ => trivial, fun _ => settled_read sid hs nofun ?_⟩
      intro transition h
      cases hcall.symm.trans h
    next => exact ⟨fun _ => trivial, fun _ => hs⟩
  | query =>
    rw [step, Publishes]
    split
    next newStatus nowMs snapshot hcall =>
      refine ⟨fun _ => trivial, fun _ => settled_read sid hs nofun ?_⟩
      intro transition h
      cases hcall.symm.trans h
    next => exact ⟨fun _ => trivial, fun _ => hs⟩
  | emit =>
    rw [step, Publishes]
    split
    next info hcall =>
      rw [settled_emit_iff sid hs hcall]
      constructor
      · intro h info' h'
        cases hcall.symm.trans h'
        exact h
      · intro h
        exact h info hcall
    next hn => exact ⟨fun _ info h => absurd h (hn info), fun _ => hs⟩

theorem Entered.release (h : Entered sid w) {r : SessionStateMachine × Option StateTransition}
    (hl : Leaves sid w.machine r) : Entered sid (w.release t r) := by
  intro hnone
  have hnone' : r.1.entries sid = none := hnone
  obtain ⟨e', _, he', -, -⟩ | ⟨_, e', -, he', -, -⟩ | ⟨e', -, he', -, -⟩ | ⟨he, -, htr⟩ := hl
  · exact nomatch hnone'.symm.trans he'
  · exact nomatch hnone'.symm.trans he'
  · exact nomatch hnone'.symm.trans he'
  · intro t'
    by_cases ht : t' = t
    · subst ht
      exact (setCall_self _ t' _).trans (by rw [htr]; rfl)
    · exact (setCall_other _ _ ht).trans (h he t')

theorem Entered.setCall {w w' : StatusWorld} (h : Entered sid w) (t : Nat)
    (hcall : w.calls t ≠ .returned) (hm : w'.machine = w.machine) : Entered sid w' := by
  intro hnone
  rw [hm] at hnone
  exact absurd (h hnone t) hcall

theorem entered_step (w : StatusWorld) (a : StatusAction) (h : Entered sid w) :
    Entered sid (step sid w a) := by
  cases a with
  | event t event taskBindingId payload channel clock =>
    rw [step]
    split
    · exact h.release sid (leaves_onEvent sid w.machine event taskBindingId payload channel clock)
    · exact h
  | forceExited t clock =>
    rw [step]
    split
    · exact h.release sid (leaves_forceExited w.machine clock)
    · exact h
  | write t | snapshot t | query t | emit t =>
    rw [step]
    split
    next hcall => exact h.setCall sid t (by rw [hcall]; nofun) rfl
    next => exact h

theorem Agree.settled (h : Agree sid w) : Settled sid w := by
  intro e he
  exact ⟨.inl (h e he).1, .inl (h e he).2⟩

theorem Settled.agree (h : Settled sid w) (hret : w.AllReturned) : Agree sid w := by
  intro e he
  obtain ⟨hstored, hlast⟩ := h e he
  constructor
  · refine hstored.resolve_right ?_
    rintro ⟨t, transition, hw⟩
    exact nomatch (hret t).symm.trans hw
  · refine hlast.resolve_right ?_
    rintro ⟨t, hu⟩
    exact hu (hret t)

theorem along_settled_iff (hret : w.AllReturned) (hagree : Agree sid w) (as : List StatusAction) :
    Run.Along (step sid) (Settled sid) w as ↔ Run.StepsOk (step sid) (Publishes sid) w as :=
  Run.along_iff_stepsOk (entered_step sid) (settled_step_iff sid) (fun _ => hret)
    (hagree.settled sid) as

theorem not_agree_of_stored {status : SessionStatus}
    (hentry : (w.machine.entries sid).map (·.status) = some status) (hne : w.stored ≠ status) :
    ¬ Agree sid w := by
  intro h
  obtain ⟨e, he, rfl⟩ := Option.map_eq_some_iff.mp hentry
  exact hne (h e he).1

/-! ## a hook at a time, and two hooks at once -/

def sampleClock : Clock := ⟨0, 0⟩
def samplePayload : HookPayload := ⟨none, none, none, none⟩

def hook (t : Nat) (e : CcPaneEvent) : StatusAction :=
  .event t e none samplePayload .http sampleClock

def publishAll (t : Nat) : List StatusAction :=
  [.write t, .snapshot t sampleClock, .query t sampleClock, .emit t]

/-- a tool starts and the turn ends; the calls publish in the other order -/
def crossedHooks : List StatusAction :=
  (hook 0 .promptBefore :: publishAll 0) ++ [hook 0 .toolBefore, hook 1 .turnEnd] ++
    publishAll 1 ++ publishAll 0

end StatusWorld
end CcPanes

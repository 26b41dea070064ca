import CcPanes.Daemon.Handlers
import CcPanes.Daemon.ReapedSessions

/-!
# The daemon at work

Any number of handlers, the reaper and the backend take their steps in any order.  A handler that
takes a side of `session_visibility` waits until it is free; the reaper, WebSocket input and a
creation that has passed its deadline take none.
-/

namespace CcPanes

inductive Side where
  | none
  | read
  | write
  deriving DecidableEq

/-- the side of `session_visibility` the handler holds once it runs -/
def Handler.side : Handler → Side
  | .guarded g _ => if g.route.isWs then .none else .read
  | .claim .. | .release .. | .status .. | .claims _ | .adoption _ => .read
  | .create _ (.late _) | .create _ (.lateReturned _) => .none
  | .create _ _ => .write
  | .done _ => .none

def Request.ids : Request → List String
  | .guarded g => [g.sessionId]
  | .claim id _ _ _ | .release id _ _ | .status id => [id]
  | .create request _ _ _ => request.expectedSavedSessionId.toList
  | .claims | .adoption => []

inductive InFlight where
  /-- the handler has not got its side of the lock yet -/
  | waiting (request : Request)
  | running (handler : Handler)

def InFlight.side : InFlight → Side
  | .waiting _ => .none
  | .running h => h.side

structure DaemonWorld where
  daemon : Daemon
  sweep : Sweep
  handlers : FiniteMap Nat InFlight

inductive DaemonAction where
  | arrive (k : Nat) (request : Request)
  | acquire (k : Nat)
  | handler (k : Nat) (a : HandlerAction)
  | sweep (a : SweepAction)
  /-- an access to a session through a route without a handler here -/
  | touch (id : String)
  | tick (nanos : Nat)
  | setWallClock (millis : Nat)
  | setStatus (id : String) (status : SessionStatus)
  | output (id : String)
  | setSubscribed (id : String) (subscribed : Bool)
  /-- the backend drops the session: it has exited, or its launch was cancelled -/
  | leave (id : String)

namespace DaemonWorld

variable {w : DaemonWorld} {k : Nat}

def free (w : DaemonWorld) : Side → Bool
  | .none => true
  | .read => w.handlers.entries.all fun f => f.2.side ≠ .write
  | .write => w.handlers.entries.all fun f => f.2.side = .none

/-- a kill of the reaper fails exactly if the backend does not have the session -/
def killTold (w : DaemonWorld) : SweepAction → Bool
  | .kill ok =>
    match w.sweep.pc with
    | .checking _ id _ _ => ok == w.daemon.has id
    | _ => true
  | _ => true

def setState (w : DaemonWorld) (s : DaemonState) : DaemonWorld :=
  { w with daemon := { w.daemon with state := s } }

def sweptTo (w : DaemonWorld) (s : DaemonState) (sw : Sweep) : DaemonWorld :=
  ⟨{ w.daemon with state := s }, sw, w.handlers⟩

def step (host : Host) (w : DaemonWorld) : DaemonAction → DaemonWorld
  | .arrive k request =>
    match w.handlers.lookup k with
    | some _ => w
    | none =>
      { w with
        daemon := { w.daemon with known := request.ids ++ w.daemon.known }
        handlers := w.handlers.insert k (.waiting request) }
  | .acquire k =>
    match w.handlers.lookup k with
    | some (.waiting request) =>
      if w.free request.start.side then
        { w with handlers := w.handlers.insert k (.running request.start) }
      else w
    | _ => w
  | .handler k a =>
    match w.handlers.lookup k with
    | some (.running h) =>
      match h.step host w.daemon a with
      | some (e, h') =>
        { w with daemon := w.daemon.perform e, handlers := w.handlers.insert k (.running h') }
      | none => w
    | _ => w
  | .sweep a =>
    if w.killTold a then
      let r := w.sweep.step w.daemon.state w.daemon.now w.daemon.epochMillis a
      w.sweptTo r.1 r.2
    else w
  | .touch id =>
    { w with daemon := { w.daemon.perform (.op (.touch id)) with known := id :: w.daemon.known } }
  | .tick nanos => { w with daemon := { w.daemon with now := w.daemon.now + nanos } }
  | .setWallClock millis => { w with daemon := { w.daemon with epochMillis := millis } }
  | .setStatus id status =>
    w.setState (ReaperWorld.updateSessions w.daemon.state id fun s => { s with status := status })
  | .output id =>
    w.setState (ReaperWorld.updateSessions w.daemon.state id fun s =>
      { s with lastOutputAt := w.daemon.epochMillis })
  | .setSubscribed id subscribed =>
    w.setState { w.daemon.state with
      subscribed := Function.update w.daemon.state.subscribed id subscribed }
  | .leave id => { w with daemon := w.daemon.perform (.kill id) }

variable {host : Host}

theorem step_handler (w : DaemonWorld) (k : Nat) (a : HandlerAction) :
    w.step host (.handler k a) = w ∨
      ∃ h e h', w.handlers.lookup k = some (.running h) ∧ Handler.Step host w.daemon h a e h' ∧
        w.step host (.handler k a) =
          { w with
            daemon := w.daemon.perform e
            handlers := w.handlers.insert k (.running h') } := by
  rw [step]
  split
  next h hlookup =>
    split
    next e h' hstep =>
      exact .inr ⟨h, e, h', hlookup, Handler.step_spec host w.daemon hstep, rfl⟩
    next => exact .inl rfl
  next => exact .inl rfl

theorem step_arrive (w : DaemonWorld) (k : Nat) (request : Request) :
    w.step host (.arrive k request) = w ∨
      w.handlers.lookup k = none ∧ w.step host (.arrive k request) =
        { w with
          daemon := { w.daemon with known := request.ids ++ w.daemon.known }
          handlers := w.handlers.insert k (.waiting request) } := by
  rw [step]
  split
  next => exact .inl rfl
  next hlookup => exact .inr ⟨hlookup, rfl⟩

theorem step_acquire (w : DaemonWorld) (k : Nat) :
    w.step host (.acquire k) = w ∨
      ∃ request, w.handlers.lookup k = some (.waiting request) ∧
        w.free request.start.side = true ∧ w.step host (.acquire k) =
          { w with handlers := w.handlers.insert k (.running request.start) } := by
  rw [step]
  split
  next request hlookup =>
    split
    next hfree => exact .inr ⟨request, hlookup, hfree, rfl⟩
    next => exact .inl rfl
  next => exact .inl rfl

theorem step_sweep (w : DaemonWorld) (a : SweepAction) :
    w.step host (.sweep a) = w ∨
      ∃ s sw, w.killTold a = true ∧
        Sweep.Step w.daemon.state w.daemon.now w.daemon.epochMillis a w.sweep s sw ∧
          w.step host (.sweep a) = w.sweptTo s sw := by
  rw [step]
  split
  next htold =>
    obtain heq | ⟨s, sw, heq, hstep⟩ :=
      Sweep.step_spec w.daemon.state w.daemon.now w.daemon.epochMillis w.sweep a
    · rw [heq]
      exact .inl rfl
    · rw [heq]
      exact .inr ⟨s, sw, htold, hstep, rfl⟩
  next => exact .inl rfl

/-! ## the lock -/

theorem lookup_insert {m : FiniteMap Nat InFlight} {k k' : Nat} {f f' : InFlight}
    (h : (m.insert k f).lookup k' = some f') : k' = k ∧ f' = f ∨ k' ≠ k ∧ m.lookup k' = some f' :=
  FiniteMap.lookup_insert_eq_some_iff.mp h

theorem free_read (h : w.free .read = true) {f : InFlight} (hf : w.handlers.lookup k = some f) :
    f.side ≠ .write :=
  of_decide_eq_true (List.all_eq_true.mp h _ (FiniteMap.lookup_eq_some_iff.mp hf))

theorem free_write (h : w.free .write = true) {f : InFlight} (hf : w.handlers.lookup k = some f) :
    f.side = .none :=
  of_decide_eq_true (List.all_eq_true.mp h _ (FiniteMap.lookup_eq_some_iff.mp hf))

def Locked (w : DaemonWorld) : Prop :=
  ∀ k f k' f', w.handlers.lookup k = some f → w.handlers.lookup k' = some f' → k ≠ k' →
    f.side = .write → f'.side = .none

theorem side_step {d : Daemon} {h h' : Handler} {a : HandlerAction} {e : Effect}
    (hstep : Handler.Step host d h a e h') : h'.side = h.side ∨ h'.side = .none := by
  cases hstep
  all_goals first
    | exact .inl rfl
    | exact .inr rfl

theorem Locked.insert (hw : Locked w) {f f' : InFlight} (hf : w.handlers.lookup k = some f)
    (hside : f'.side = f.side ∨ f'.side = .none) {k₁ k₂ : Nat} {f₁ f₂ : InFlight}
    (h₁ : (w.handlers.insert k f').lookup k₁ = some f₁)
    (h₂ : (w.handlers.insert k f').lookup k₂ = some f₂) (hne : k₁ ≠ k₂)
    (hwrite : f₁.side = .write) : f₂.side = .none := by
  obtain ⟨rfl, rfl⟩ | ⟨hk₁, hl₁⟩ := lookup_insert h₁
  · obtain ⟨rfl, rfl⟩ | ⟨hk₂, hl₂⟩ := lookup_insert h₂
    · exact absurd rfl hne
    refine hw k₁ f k₂ f₂ hf hl₂ hne ?_
    obtain hside | hside := hside
    · rw [← hside, hwrite]
    · rw [hside] at hwrite
      cases hwrite
  · obtain ⟨rfl, rfl⟩ | ⟨hk₂, hl₂⟩ := lookup_insert h₂
    · obtain hside | hside := hside
      · rw [hside]
        exact hw k₁ f₁ k₂ f hl₁ hf hne hwrite
      · exact hside
    · exact hw k₁ f₁ k₂ f₂ hl₁ hl₂ hne hwrite

theorem locked_step (hw : Locked w) (a : DaemonAction) : Locked (w.step host a) := by
  cases a with
  | arrive k request =>
    obtain heq | ⟨hnone, heq⟩ := step_arrive w k request
    · rw [heq]
      exact hw
    rw [heq]
    intro k₁ f₁ k₂ f₂ h₁ h₂ hne hwrite
    obtain ⟨rfl, rfl⟩ | ⟨hk₁, hl₁⟩ := lookup_insert h₁
    · cases hwrite
    · obtain ⟨rfl, rfl⟩ | ⟨hk₂, hl₂⟩ := lookup_insert h₂
      · rfl
      · exact hw k₁ f₁ k₂ f₂ hl₁ hl₂ hne hwrite
  | acquire k =>
    obtain heq | ⟨request, hlookup, hfree, heq⟩ := step_acquire w k
    · rw [heq]
      exact hw
    rw [heq]
    intro k₁ f₁ k₂ f₂ h₁ h₂ hne hwrite
    obtain ⟨rfl, rfl⟩ | ⟨hk₁, hl₁⟩ := lookup_insert h₁
    · obtain ⟨rfl, rfl⟩ | ⟨hk₂, hl₂⟩ := lookup_insert h₂
      · exact absurd rfl hne
      · have hside : request.start.side = .write := hwrite
        rw [hside] at hfree
        exact free_write hfree hl₂
    obtain ⟨rfl, rfl⟩ | ⟨hk₂, hl₂⟩ := lookup_insert h₂
    · show request.start.side = .none
      cases hside : request.start.side with
      | none => rfl
      | read =>
        rw [hside] at hfree
        exact absurd hwrite (free_read hfree hl₁)
      | write =>
        rw [hside] at hfree
        rw [free_write hfree hl₁] at hwrite
        cases hwrite
    · exact hw k₁ f₁ k₂ f₂ hl₁ hl₂ hne hwrite
  | handler k a =>
    obtain heq | ⟨h, e, h', hlookup, hstep, heq⟩ := step_handler w k a
    · rw [heq]
      exact hw
    rw [heq]
    have hside : (InFlight.running h').side = (InFlight.running h).side ∨
        (InFlight.running h').side = .none := side_step hstep
    intro k₁ f₁ k₂ f₂ h₁ h₂ hne hwrite
    exact hw.insert hlookup hside h₁ h₂ hne hwrite
  | sweep a =>
    obtain heq | ⟨s, sw, -, -, heq⟩ := step_sweep w a
    · rw [heq]
      exact hw
    · rw [heq]
      exact hw
  | touch | tick | setWallClock | setStatus | output | setSubscribed | leave => exact hw

/-! ## the clock -/

/-- the instant a handler has read and not used yet -/
def instant : Handler → Option Nat
  | .guarded _ (.timed now) | .claim _ _ _ (.pruneTimed now) | .claim _ _ _ (.timed now)
  | .release _ _ (some now) | .claims (some now) | .adoption (.pruneTimed _ now)
  | .create _ (.claimTimed _ now) | .create _ (.ownTimed _ now) => some now
  | _ => none

def Clocked (w : DaemonWorld) : Prop :=
  ∀ k h now, w.handlers.lookup k = some (.running h) → instant h = some now → now ≤ w.daemon.now

theorem instant_start (request : Request) : instant request.start = none := by
  cases request with
  | claim id appInstanceId header ttlMs
  | create | guarded =>
    rw [Request.start]
    split <;> rfl
  | release | status | claims | adoption => rfl

theorem instant_step {d : Daemon} {h h' : Handler} {a : HandlerAction} {e : Effect}
    (hstep : Handler.Step host d h a e h') : instant h' = none ∨ instant h' = some d.now := by
  cases hstep
  all_goals first
    | exact .inl rfl
    | exact .inr rfl

theorem running_step {a : DaemonAction} {h : Handler}
    (hf : (w.step host a).handlers.lookup k = some (.running h)) :
    w.handlers.lookup k = some (.running h) ∨
      (∃ request, a = .acquire k ∧ h = request.start ∧
        w.handlers.lookup k = some (.waiting request) ∧ w.free request.start.side = true ∧
        (w.step host a).daemon = w.daemon) ∨
      ∃ a' e h₀, a = .handler k a' ∧ w.handlers.lookup k = some (.running h₀) ∧
        Handler.Step host w.daemon h₀ a' e h ∧ (w.step host a).daemon = w.daemon.perform e := by
  cases a with
  | arrive k' request =>
    obtain heq | ⟨-, heq⟩ := step_arrive w k' request
    all_goals rw [heq] at hf
    · exact .inl hf
    · obtain ⟨-, hl⟩ | ⟨-, hl⟩ := lookup_insert hf
      · cases hl
      · exact .inl hl
  | acquire k' =>
    obtain heq | ⟨request, hlookup, hfree, heq⟩ := step_acquire w k'
    all_goals rw [heq] at hf ⊢
    · exact .inl hf
    obtain ⟨rfl, hl⟩ | ⟨-, hl⟩ := lookup_insert hf
    · cases hl
      exact .inr (.inl ⟨request, rfl, rfl, hlookup, hfree, rfl⟩)
    · exact .inl hl
  | handler k' a =>
    obtain heq | ⟨h₀, e, h', hlookup, hstep, heq⟩ := step_handler w k' a
    all_goals rw [heq] at hf ⊢
    · exact .inl hf
    obtain ⟨rfl, hl⟩ | ⟨-, hl⟩ := lookup_insert hf
    · cases hl
      exact .inr (.inr ⟨a, e, h₀, rfl, hlookup, hstep, rfl⟩)
    · exact .inl hl
  | sweep a =>
    obtain heq | ⟨s, sw, -, -, heq⟩ := step_sweep w a
    all_goals rw [heq] at hf
    all_goals exact .inl hf
  | touch | tick | setWallClock | setStatus | output | setSubscribed | leave => exact .inl hf

theorem running_next (host : Host) (a : DaemonAction) {h : Handler}
    (hk : w.handlers.lookup k = some (.running h)) :
    (w.step host a).handlers.lookup k = some (.running h) ∨
      ∃ a' e h', a = .handler k a' ∧ Handler.Step host w.daemon h a' e h' ∧
        (w.step host a).handlers.lookup k = some (.running h') ∧
        (w.step host a).daemon = w.daemon.perform e := by
  cases a with
  | arrive k' request =>
    obtain heq | ⟨hnone, heq⟩ := step_arrive w k' request
    all_goals rw [heq]
    · exact .inl hk
    · refine .inl (FiniteMap.lookup_insert_eq_some_iff.mpr (.inr ⟨?_, hk⟩))
      rintro rfl
      cases hnone.symm.trans hk
  | acquire k' =>
    obtain heq | ⟨request, hlookup, -, heq⟩ := step_acquire w k'
    all_goals rw [heq]
    · exact .inl hk
    · refine .inl (FiniteMap.lookup_insert_eq_some_iff.mpr (.inr ⟨?_, hk⟩))
      rintro rfl
      cases hlookup.symm.trans hk
  | handler k' a =>
    obtain heq | ⟨h₀, e, h', hlookup, hstep, heq⟩ := step_handler w k' a
    all_goals rw [heq]
    · exact .inl hk
    by_cases hkk : k = k'
    · subst hkk
      cases hlookup.symm.trans hk
      exact .inr ⟨a, e, h', rfl, hstep, AList.lookup_insert _, rfl⟩
    · exact .inl (FiniteMap.lookup_insert_eq_some_iff.mpr (.inr ⟨hkk, hk⟩))
  | sweep a =>
    obtain heq | ⟨s, sw, -, -, heq⟩ := step_sweep w a
    all_goals
      rw [heq]
      exact .inl hk
  | touch | tick | setWallClock | setStatus | output | setSubscribed | leave => exact .inl hk

theorem now_step (host : Host) (w : DaemonWorld) (a : DaemonAction) :
    w.daemon.now ≤ (w.step host a).daemon.now := by
  cases a with
  | arrive k request =>
    obtain heq | ⟨-, heq⟩ := step_arrive w k request
    all_goals exact Nat.le_of_eq (congrArg (fun w' => w'.daemon.now) heq).symm
  | acquire k =>
    obtain heq | ⟨_, _, _, heq⟩ := step_acquire w k
    all_goals exact Nat.le_of_eq (congrArg (fun w' => w'.daemon.now) heq).symm
  | handler k a =>
    obtain heq | ⟨_, _, _, _, _, heq⟩ := step_handler w k a
    all_goals exact Nat.le_of_eq (congrArg (fun w' => w'.daemon.now) heq).symm
  | sweep a =>
    obtain heq | ⟨_, _, _, _, heq⟩ := step_sweep w a
    all_goals exact Nat.le_of_eq (congrArg (fun w' => w'.daemon.now) heq).symm
  | tick => exact Nat.le_add_right _ _
  | touch | setWallClock | setStatus | output | setSubscribed | leave => exact Nat.le_refl _

theorem clocked_step (hw : Clocked w) (a : DaemonAction) : Clocked (w.step host a) := by
  intro k h now hf hnow
  have hle := now_step host w a
  obtain hf | ⟨request, -, rfl, -⟩ | ⟨a', e, h₀, -, -, hstep, -⟩ := running_step hf
  · exact Nat.le_trans (hw k h now hf hnow) hle
  · rw [instant_start] at hnow
    cases hnow
  obtain hnone | hsome := instant_step hstep
  · cases hnone.symm.trans hnow
  · cases hsome.symm.trans hnow
    exact hle

end DaemonWorld
end CcPanes

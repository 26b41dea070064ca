import CcPanes.Daemon.Writes

/-!
# Who writes under a lease

A guarded operation checks the lease of its session and calls the backend in a later step.  Another
instance may be granted the lease in between, and an id in the body of a claim is not trimmed as
the header is.
-/

namespace CcPanes
open Option

def Canonical (id : String) : Prop :=
  id.toList.all isVisibleAscii = true ∧ trim id = id ∧ id ≠ ""

instance (id : String) : Decidable (Canonical id) :=
  inferInstanceAs (Decidable (_ ∧ _))

theorem callerInstance_self_iff {id : String} :
    callerInstance (some id) = some id ↔ Canonical id := by
  unfold callerInstance Canonical
  rw [filter_some]
  cases hascii : id.toList.all isVisibleAscii with
  | false => exact ⟨fun h => (nomatch h), fun h => (nomatch h.1)⟩
  | true =>
    rw [if_pos rfl, map_some, filter_some]
    by_cases htrim : trim id = ""
    · rw [htrim]
      constructor
      · intro h
        cases h
      · rintro ⟨-, heq, hne⟩
        exact absurd heq.symm hne
    · rw [if_pos (decide_eq_true htrim)]
      constructor
      · intro h
        have heq : trim id = id := some.inj h
        exact ⟨rfl, heq, heq ▸ htrim⟩
      · rintro ⟨-, heq, -⟩
        rw [heq]

/-- the id a request sends to claim sessions with, and the owner it is taken for -/
def Request.identity : Request → Option (String × String)
  | .claim _ appInstanceId header _ =>
    (appInstanceId.or header).bind fun sent =>
      (claimOwner appInstanceId header).map fun owner => (sent, owner)
  | .create _ header _ _ =>
    header.bind fun sent => (callerInstance header).map fun owner => (sent, owner)
  | _ => none

theorem Request.identity_of_canonical {request : Request} {sent owner : String}
    (h : request.identity = some (sent, owner)) (hsent : Canonical sent) : owner = sent := by
  have hself := callerInstance_self_iff.mpr hsent
  cases request with
  | claim id appInstanceId =>
    obtain ⟨sent', hs, h⟩ := bind_eq_some_iff.mp h
    obtain ⟨owner', ho, h⟩ := map_eq_some_iff.mp h
    cases h
    have howner := (filter_eq_some_iff.mp ho).1
    cases appInstanceId with
    | some =>
      exact some.inj (howner.symm.trans hs)
    | none =>
      rw [none_or] at hs howner
      rw [hs, hself] at howner
      exact (some.inj howner).symm
  | create =>
    obtain ⟨sent', hs, h⟩ := bind_eq_some_iff.mp h
    obtain ⟨owner', ho, h⟩ := map_eq_some_iff.mp h
    cases h
    rw [hs, hself] at ho
    exact (some.inj ho).symm
  | guarded | release | status | claims | adoption => cases h

/-- the claim a handler is about to try: the session, the owner and the instant it has read -/
def Handler.claiming : Handler → Option (String × String × Nat)
  | .claim id owner _ (.timed now) => some (id, owner, now)
  | .create c (.claimTimed id now) | .create c (.ownTimed id now) =>
    some (id, c.owner.getD "", now)
  | _ => none

namespace DaemonWorld

variable {w : DaemonWorld} {host : Host} {a : DaemonAction}

def LiveClaim (w : DaemonWorld) (id owner : String) : Prop :=
  ∃ claim, w.daemon.state.sessionClaims.lookup id = some claim ∧ claim.owner = owner ∧
    claim.isLive w.daemon.now = true

theorem LiveClaim.unique {id owner owner' : String} (h : LiveClaim w id owner)
    (h' : LiveClaim w id owner') : owner = owner' := by
  obtain ⟨claim, hlookup, rfl, -⟩ := h
  obtain ⟨claim', hlookup', rfl, -⟩ := h'
  rw [hlookup] at hlookup'
  rw [some.inj hlookup']

theorem LiveClaim.mayWrite {id owner : String} (h : LiveClaim w id owner) :
    w.daemon.state.mayWriteSession id (some owner) w.daemon.now = true := by
  obtain ⟨claim, hlookup, rfl, -⟩ := h
  refine DaemonState.mayWrite_iff.mpr ?_
  intro claim' hlookup' _
  rw [hlookup] at hlookup'
  rw [some.inj hlookup']

theorem isLive_mono {claim : SessionClaim} {now now' : Nat} (hle : now ≤ now')
    (h : claim.isLive now' = true) : claim.isLive now = true := by
  have hlt : now' < claim.expiresAt := of_decide_eq_true h
  exact decide_eq_true (Nat.lt_of_le_of_lt hle hlt)

theorem claiming_of_grant {d : Daemon} {h h' : Handler} {a : HandlerAction} {id : String}
    {claim : SessionClaim} (hstep : Handler.Step host d h a (.grant id claim) h') :
    a = .next ∧ ∃ now, h.claiming = some (id, claim.owner, now) ∧ instant h = some now ∧
      ∀ existing, d.state.sessionClaims.lookup id = some existing → existing.isLive now = true →
        existing.owner = claim.owner := by
  cases hstep with
  | claimGranted hclaim | reuseGranted hclaim | ownGranted hclaim =>
    obtain ⟨howner, -, hfree⟩ := DaemonState.tryClaim_ok hclaim
    rw [howner]
    exact ⟨rfl, _, rfl, rfl, hfree⟩

theorem liveClaim_step {id owner : String} (h : LiveClaim (w.step host a) id owner) :
    LiveClaim w id owner ∨ ∃ k hd hd' claim, a = .handler k .next ∧
      w.handlers.lookup k = some (.running hd) ∧ claim.owner = owner ∧
      Handler.Step host w.daemon hd .next (.grant id claim) hd' := by
  obtain ⟨claim, hlookup, rfl, hlive⟩ := h
  cases a with
  | arrive k request =>
    obtain heq | ⟨-, heq⟩ := step_arrive w k request
    all_goals
      rw [heq] at hlookup hlive
      exact .inl ⟨claim, hlookup, rfl, hlive⟩
  | acquire k =>
    obtain heq | ⟨_, _, _, heq⟩ := step_acquire w k
    all_goals
      rw [heq] at hlookup hlive
      exact .inl ⟨claim, hlookup, rfl, hlive⟩
  | handler k a =>
    obtain heq | ⟨hd, e, hd', hhd, hstep, heq⟩ := step_handler w k a
    · rw [heq] at hlookup hlive
      exact .inl ⟨claim, hlookup, rfl, hlive⟩
    rw [heq] at hlookup hlive
    obtain rfl | hlookup := Daemon.claims_perform hlookup
    · obtain ⟨rfl, -⟩ := claiming_of_grant hstep
      exact .inr ⟨k, hd, hd', claim, rfl, hhd, rfl, hstep⟩
    · exact .inl ⟨claim, hlookup, rfl, hlive⟩
  | sweep a =>
    obtain heq | ⟨s, sw, -, hstep, heq⟩ := step_sweep w a
    · rw [heq] at hlookup hlive
      exact .inl ⟨claim, hlookup, rfl, hlive⟩
    rw [heq] at hlookup hlive
    obtain ⟨e, hperform, he⟩ := sweep_effect hstep
    have hafter : (w.daemon.perform e).state.sessionClaims.lookup id = some claim := by
      rw [← hperform]
      exact hlookup
    obtain rfl | hlookup := Daemon.claims_perform hafter
    · obtain he | ⟨_, _, _, he⟩ | ⟨_, _, _, _, _, _, he⟩ | ⟨_, _, _, _, _, he⟩ := he <;> cases he
    · exact .inl ⟨claim, hlookup, rfl, hlive⟩
  | tick => exact .inl ⟨claim, hlookup, rfl, isLive_mono (Nat.le_add_right _ _) hlive⟩
  | touch | setWallClock | setStatus | output | setSubscribed | leave =>
    exact .inl ⟨claim, hlookup, rfl, hlive⟩

/-! ## operations that have passed their check -/

def Passed (w : DaemonWorld) (k : Nat) (g : GuardedOp) : Prop :=
  ∃ touch, w.handlers.lookup k = some (.running (.guarded g (.allowed touch)))

/-- A claim is granted on a session only while no operation of another caller has passed its check
on it, and an id is sent in the form in which the header is read. -/
def Orderly (w : DaemonWorld) : DaemonAction → Prop
  | .arrive _ request =>
    ∀ sent owner, request.identity = some (sent, owner) → Canonical sent
  | .handler k .next =>
    ∀ h id owner now, w.handlers.lookup k = some (.running h) →
      h.claiming = some (id, owner, now) →
        (∀ existing, w.daemon.state.sessionClaims.lookup id = some existing →
          existing.isLive now = true → existing.owner = owner) →
        ∀ k' g, Passed w k' g → g.sessionId = id → g.caller = some owner
  | _ => True

/-- no live claim of another covers an operation that has passed its check -/
def Covered (w : DaemonWorld) : Prop :=
  ∀ k g, Passed w k g → ∀ owner, LiveClaim w g.sessionId owner → g.caller = some owner

theorem not_passed_start {request : Request} {g : GuardedOp} {touch : Bool} :
    request.start ≠ .guarded g (.allowed touch) := by
  cases request with
  | claim id appInstanceId header ttlMs
  | create | guarded =>
    rw [Request.start]
    split <;> simp
  | release | status | claims | adoption => simp [Request.start]

theorem passed_step {k : Nat} {g : GuardedOp} (h : Passed (w.step host a) k g) :
    Passed w k g ∨ ∃ now, w.handlers.lookup k = some (.running (.guarded g (.timed now))) ∧
      w.daemon.state.mayWriteSession g.sessionId g.caller now = true ∧
      (w.step host a).daemon = w.daemon := by
  obtain ⟨touch, hf⟩ := h
  obtain hf | ⟨request, -, hstart, -⟩ | ⟨a', e, h₀, -, hh₀, hstep, heq⟩ := running_step hf
  · exact .inl ⟨touch, hf⟩
  · exact absurd hstart.symm not_passed_start
  · cases hstep with
    | allowed hmay => exact .inr ⟨_, hh₀, hmay, heq⟩
    | touched => exact .inl ⟨true, hh₀⟩

theorem covered_step (hc : Clocked w) (hw : Covered w) (hP : Orderly w a) :
    Covered (w.step host a) := by
  intro k g hafter owner hlive
  obtain hpassed | ⟨now, hk, hmay, heq⟩ := passed_step hafter
  · obtain hbefore | ⟨k₀, hd, hd', claim, rfl, hk₀, rfl, hstep⟩ := liveClaim_step hlive
    · exact hw k g hpassed owner hbefore
    · obtain ⟨-, now, hclaiming, -, hfree⟩ := claiming_of_grant hstep
      exact hP hd g.sessionId claim.owner now hk₀ hclaiming hfree k g hpassed rfl
  obtain ⟨claim, hlookup, rfl, hlive⟩ := hlive
  rw [heq] at hlookup hlive
  have hle : now ≤ w.daemon.now := hc k _ now hk rfl
  exact DaemonState.mayWrite_iff.mp hmay claim hlookup (isLive_mono hle hlive)

theorem liveClaim_handover (hc : Clocked w) {id owner owner' : String} (h : LiveClaim w id owner)
    (h' : LiveClaim (w.step host a) id owner') : owner = owner' := by
  obtain h' | ⟨k, hd, hd', claim, -, hk, rfl, hstep⟩ := liveClaim_step h'
  · exact h.unique h'
  obtain ⟨-, now, -, hinstant, hfree⟩ := claiming_of_grant hstep
  obtain ⟨existing, hlookup, rfl, hlive⟩ := h
  have hle : now ≤ w.daemon.now := hc k hd now hk hinstant
  exact hfree existing hlookup (isLive_mono hle hlive)

/-- a daemon that serves no request yet, with any sessions and any entries in its maps -/
def Unserved (w : DaemonWorld) : Prop := w.handlers = ∅

theorem Unserved.clocked (h : Unserved w) : Clocked w := by
  intro k hd now hf _
  rw [h] at hf
  cases hf

theorem Unserved.covered (h : Unserved w) : Covered w := by
  rintro k g ⟨touch, hf⟩
  rw [h] at hf
  cases hf

theorem run_clocked (h : Unserved w) (as : List DaemonAction) :
    Clocked (Run.run (step host) w as) :=
  Run.run_inv (I := Clocked) (fun _ a hw => clocked_step hw a) h.clocked as

theorem along_covered (h : Unserved w) {as : List DaemonAction}
    (hok : Run.StepsOk (step host) Orderly w as) :
    Run.Along (step host) (fun w => Clocked w ∧ Covered w) w as :=
  Run.along_of_inv (fun _ a hw hP => ⟨clocked_step hw.1 a, covered_step hw.1 hw.2 hP⟩)
    ⟨h.clocked, h.covered⟩ hok

/-- In every run of orderly steps: an operation is executed under no live claim of another caller;
a session has at most one live owner, also from one state to the next; and an owner passes the
check with the id it has sent, through the header and on a WebSocket. -/
theorem lease_exclusion (host : Host) {w : DaemonWorld} (h : Unserved w) (as : List DaemonAction)
    (hok : Run.StepsOk (step host) Orderly w as) :
    (∀ pre k post, as = pre ++ .handler k .next :: post → ∀ g,
      (Run.run (step host) w pre).handlers.lookup k =
          some (.running (.guarded g (.allowed false))) →
        ∀ owner, LiveClaim (Run.run (step host) w pre) g.sessionId owner → g.caller = some owner) ∧
      (∀ pre post, as = pre ++ post → ∀ id owner owner',
        LiveClaim (Run.run (step host) w pre) id owner →
          LiveClaim (Run.run (step host) w pre) id owner' → owner = owner') ∧
      (∀ pre a post, as = pre ++ a :: post → ∀ id owner owner',
        LiveClaim (Run.run (step host) w pre) id owner →
          LiveClaim ((Run.run (step host) w pre).step host a) id owner' → owner = owner') ∧
      ∀ k request sent owner, .arrive k request ∈ as → request.identity = some (sent, owner) →
        ∀ pre post, as = pre ++ post → ∀ id, LiveClaim (Run.run (step host) w pre) id owner →
          (Run.run (step host) w pre).daemon.state.mayWriteSession id (callerInstance (some sent))
              (Run.run (step host) w pre).daemon.now = true ∧
            (Run.run (step host) w pre).daemon.state.mayWriteSession id (some sent)
              (Run.run (step host) w pre).daemon.now = true := by
  refine ⟨?_, ?_, ?_, ?_⟩
  · intro pre k post heq g hk owner hlive
    have halong := along_covered h hok
    rw [heq] at halong
    exact halong.at_prefix.2 k g ⟨false, hk⟩ owner hlive
  · intro pre post _ id owner owner' hlive hlive'
    exact hlive.unique hlive'
  · intro pre a post _ id owner owner' hlive hlive'
    exact liveClaim_handover (run_clocked h pre) hlive hlive'
  · intro k request sent owner hmem hidentity pre post _ id hlive
    obtain ⟨before, after, rfl⟩ := List.append_of_mem hmem
    have hsent : Canonical sent :=
      Run.stepsOk_iff.mp hok before (.arrive k request) after rfl sent owner hidentity
    rw [Request.identity_of_canonical hidentity hsent] at hlive
    rw [callerInstance_self_iff.mpr hsent]
    exact ⟨hlive.mayWrite, hlive.mayWrite⟩

def sampleHost : Host := ⟨"/home", false, fun _ path => path, fun a b => a = b⟩

def sampleDaemonWorld : DaemonWorld where
  daemon := ⟨{ DaemonState.empty 0 with sessions := [⟨"s", .idle, 0⟩] }, ["s"], 0, 0⟩
  sweep := Sweep.asleep
  handlers := ∅

/-- handler `k` claims the session for the id in the body -/
def claimRun (k : Nat) (id : String) : List DaemonAction :=
  [.arrive k (.claim "s" (some id) none none), .acquire k, .handler k (.lookUp false),
    .handler k .next, .handler k .next, .handler k .next, .handler k .next]

/-- handler `k` gets a message on the WebSocket as far as its check -/
def checkRun (k : Nat) (declared : Option String) : List DaemonAction :=
  [.arrive k (.guarded ⟨.wsBinary, "s", declared⟩), .acquire k, .handler k .next, .handler k .next]

theorem lease_exclusion_app_a :
    LiveClaim (Run.run (step sampleHost) sampleDaemonWorld
        (claimRun 0 "app-a" ++ checkRun 1 (some "app-a"))) "s" "app-a" ∧
      ∀ owner, LiveClaim (Run.run (step sampleHost) sampleDaemonWorld
        (claimRun 0 "app-a" ++ checkRun 1 (some "app-a"))) "s" owner →
          some "app-a" = some owner := by
  refine ⟨⟨⟨"app-a", 30000000000⟩, rfl, rfl, rfl⟩, ?_⟩
  have hok : Run.StepsOk (step sampleHost) Orderly sampleDaemonWorld
      (claimRun 0 "app-a" ++ checkRun 1 (some "app-a") ++ [.handler 1 .next]) := by
    refine ⟨?_, trivial, trivial, ?_, ?_, ?_, ?grant, nofun, trivial, ?_, ?_, ?_, trivial⟩
    case grant =>
      rintro h id owner now ⟨⟩ ⟨⟩ - k g ⟨touch, hf⟩
      obtain ⟨⟩ | ⟨_, htail⟩ := FiniteMap.lookup_eq_some_iff.mp hf
      exact nomatch htail
    · rintro sent owner ⟨⟩
      decide
    all_goals rintro h id owner now ⟨⟩ ⟨⟩
  exact (lease_exclusion sampleHost (w := sampleDaemonWorld) rfl _ hok).1
    (claimRun 0 "app-a" ++ checkRun 1 (some "app-a")) 1 [] rfl ⟨.wsBinary, "s", some "app-a"⟩ rfl

/-- An anonymous message has passed its check when another instance is granted the lease; and the
owner of a claim sent with blanks around its id fails the check with that id. -/
theorem message_under_foreign_lease :
    (Unserved sampleDaemonWorld ∧ (Run.run (step sampleHost) sampleDaemonWorld
        (checkRun 0 none ++ claimRun 1 "app-b")).handlers.lookup 0 =
          some (.running (.guarded ⟨.wsBinary, "s", none⟩ (.allowed false))) ∧
      LiveClaim (Run.run (step sampleHost) sampleDaemonWorld
        (checkRun 0 none ++ claimRun 1 "app-b")) "s" "app-b" ∧
      (⟨.wsBinary, "s", none⟩ : GuardedOp).caller ≠ some "app-b") ∧
    LiveClaim (Run.run (step sampleHost) sampleDaemonWorld (claimRun 0 " app-a ")) "s" " app-a " ∧
      (Run.run (step sampleHost) sampleDaemonWorld
        (claimRun 0 " app-a ")).daemon.state.mayWriteSession "s" (callerInstance (some " app-a "))
          0 = false := by
  refine ⟨⟨rfl, rfl, ⟨⟨"app-b", 30000000000⟩, rfl, rfl, rfl⟩, nofun⟩,
    ⟨⟨" app-a ", 30000000000⟩, rfl, rfl, rfl⟩, ?_⟩
  decide

end DaemonWorld
end CcPanes

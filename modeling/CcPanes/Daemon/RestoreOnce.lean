import CcPanes.Daemon.RestoreAliases
import CcPanes.Daemon.WriteLease

/-!
# One replacement at a time

Requests to restore the same saved session are serialized by the write side of the lock; a request
that finds the session or its replacement alive does not create another.  The alias of the
replacement is what it looks for.
-/

namespace CcPanes
open Option

/-- the session of its own that a creation has got, as long as it holds the lock -/
def CreatePc.own : CreatePc → Option String
  | .launching registered => registered
  | .created id | .touched id | .ownTimed id _ | .rejected id _ | .owned id
  | .recorded id => some id
  | _ => none

def CreatePc.reuses : CreatePc → Option String
  | .reusing id | .claiming id | .claimTimed id _ | .reused id => some id
  | _ => none

structure RestoreWorld where
  world : DaemonWorld
  /-- a session that a creation has registered, behind the session the request expected -/
  born : List (String × String)

namespace RestoreWorld

open DaemonWorld

variable {host : Host} {r : RestoreWorld} {expected id : String} {a : DaemonAction} {c : Creation}
  {pc : CreatePc} {k : Nat} {pc₀ : CreatePc} {c₀ : Creation} {id' : String} {d : Daemon}
  {e : Effect}

def bornBy (w : DaemonWorld) : DaemonAction → List (String × String)
  | .handler k (.register id _) =>
    match w.handlers.lookup k with
    | some (.running (.create c (.launching none))) | some (.running (.create c (.late none))) =>
      if id ∈ w.daemon.known then []
      else (c.request.expectedSavedSessionId.map fun expected => (expected, id)).toList
    | _ => []
  | _ => []

def step (host : Host) (r : RestoreWorld) (a : DaemonAction) : RestoreWorld :=
  ⟨r.world.step host a, bornBy r.world a ++ r.born⟩

theorem mem_bornBy {w : DaemonWorld} :
    (expected, id) ∈ bornBy w a ↔
      ∃ k c, Registers w a k c id ∧ c.request.expectedSavedSessionId = some expected := by
  constructor
  · intro h
    unfold bornBy at h
    split at h
    next k id' status =>
      split at h
      next c hk =>
        split at h
        next => cases h
        next hfresh =>
          obtain ⟨expected', he, heq⟩ := map_eq_some_iff.mp (mem_toList.mp h)
          cases heq
          exact ⟨k, c, ⟨status, rfl, hfresh, .inl hk⟩, he⟩
      next c hk =>
        split at h
        next => cases h
        next hfresh =>
          obtain ⟨expected', he, heq⟩ := map_eq_some_iff.mp (mem_toList.mp h)
          cases heq
          exact ⟨k, c, ⟨status, rfl, hfresh, .inr hk⟩, he⟩
      next => cases h
    next => cases h
  · rintro ⟨k, c, ⟨status, rfl, hfresh, hk⟩, he⟩
    have hmem : (expected, id) ∈ bornBy w (.handler k (.register id status)) := by
      unfold bornBy
      obtain hk | hk := hk
      all_goals
        simp only [hk]
        rw [if_neg hfresh, he]
        exact .head _
    exact hmem

/-- the expected session itself, or a session that was created in its place -/
def Descends (r : RestoreWorld) (expected id : String) : Prop :=
  id = expected ∨ (expected, id) ∈ r.born

def alive (r : RestoreWorld) (id : String) : Bool := r.world.daemon.state.alive id

def Single (r : RestoreWorld) : Prop :=
  ∀ expected id id', Descends r expected id → Descends r expected id' → r.alive id = true →
    r.alive id' = true → id = id'

structure RestoreCareful (r : RestoreWorld) (a : DaemonAction) : Prop where
  aliases : AliasCareful r.world a
  /-- the deadline does not catch a creation whose session is already there -/
  punctual : ∀ k c id, a = .handler k .deadline →
    r.world.handlers.lookup k = some (.running (.create c (.launching (some id)))) →
      c.request.expectedSavedSessionId ≠ none → r.alive id = false
  /-- and what the backend does after the deadline makes no session -/
  abandoned : ∀ k c id status, a = .handler k (.register id status) →
    r.world.handlers.lookup k = some (.running (.create c (.late none))) →
      c.request.expectedSavedSessionId = none

/-- nothing is cleaned up, and no creation is past its deadline -/
def quiet (r : RestoreWorld) : DaemonAction → Bool
  | .handler _ .deadline => false
  | .handler k (.register id status) =>
    match r.world.handlers.lookup k with
    | some (.running (.create _ (.launching _))) => r.world.quiet (.handler k (.register id status))
    | _ => false
  | a => r.world.quiet a

theorem restoreCareful_of_quiet (h : r.quiet a = true) : RestoreCareful r a := by
  unfold quiet at h
  split at h
  · cases h
  next k id status =>
    split at h
    next c registered hk =>
      refine ⟨aliasCareful_of_quiet h, fun k c id ha => (nomatch ha), ?_⟩
      rintro k' c' id' status' ⟨⟩ hk'
      cases hk.symm.trans hk'
    next => cases h
  next hdeadline hregister =>
    refine ⟨aliasCareful_of_quiet h, ?_, ?_⟩
    · intro k c id ha
      exact absurd ha (hdeadline k)
    · intro k c id status ha
      exact absurd ha (hregister k id status)

structure RestoreSafe (r : RestoreWorld) : Prop where
  known : AllKnown r.world
  locked : Locked r.world
  aliases : AliasSafe r.world
  bornKnown : ∀ expected id, (expected, id) ∈ r.born →
    expected ∈ r.world.daemon.known ∧ id ∈ r.world.daemon.known
  aliasBorn : ∀ expected id,
    r.world.daemon.state.restoreReplacements.lookup expected = some id → (expected, id) ∈ r.born
  ownBorn : ∀ k c pc, r.world.handlers.lookup k = some (.running (.create c pc)) →
    ∀ expected id, c.request.expectedSavedSessionId = some expected → pc.own = some id →
      (expected, id) ∈ r.born
  /-- a session created in the place of another is in the table or in the hands of its creation -/
  linked : ∀ expected id, (expected, id) ∈ r.born → r.alive id = true →
    r.world.daemon.state.restoreReplacements.lookup expected = some id ∨
      ∃ k c pc, r.world.handlers.lookup k = some (.running (.create c pc)) ∧
        c.request.expectedSavedSessionId = some expected ∧ pc.own = some id
  replaced : ∀ expected id, (expected, id) ∈ r.born → r.alive id = true →
    r.alive expected = false
  checking : ∀ k c expected id,
    r.world.handlers.lookup k = some (.running (.create c (.checking expected id))) →
      (expected, id) ∈ r.born
  reuses : ∀ k c pc, r.world.handlers.lookup k = some (.running (.create c pc)) →
    ∀ expected id, c.request.expectedSavedSessionId = some expected → pc.reuses = some id →
      ∀ id', Descends r expected id' → r.alive id' = true → id' = id

theorem unreplaced_of_own {s : DaemonState} (h : AliasPc s c pc) (hown : pc.own = some id) :
    Unreplaced s c := by
  cases pc with
  | launching | created | touched | ownTimed | rejected | owned | recorded => exact h
  | _ => cases hown

theorem side_of_own (hown : pc.own = some id) : (Handler.create c pc).side = .write := by
  cases pc with
  | late | lateReturned => cases hown
  | _ => rfl

theorem RestoreSafe.own_of_unreplaced (hr : RestoreSafe r)
    (hk : r.world.handlers.lookup k = some (.running (.create c pc)))
    (hside : (Handler.create c pc).side = .write) (hu : Unreplaced r.world.daemon.state c)
    (he : c.request.expectedSavedSessionId = some expected) (hid : Descends r expected id)
    (halive : r.alive id = true) : pc.own = some id := by
  obtain ⟨hdead, hnone⟩ := hu expected he
  obtain rfl | hborn := hid
  · cases hdead.symm.trans halive
  obtain hsome | ⟨k', c', pc', hk', -, hown⟩ := hr.linked expected id hborn halive
  · cases hnone.symm.trans hsome
  by_cases hkk : k = k'
  · subst hkk
    cases hk.symm.trans hk'
    exact hown
  · have hfree := hr.locked k' _ k _ hk' hk (fun h => hkk h.symm) (side_of_own hown)
    cases hside.symm.trans hfree

theorem RestoreSafe.single (hr : RestoreSafe r) : Single r := by
  intro expected id id' h h' halive halive'
  obtain rfl | hborn := h
  · obtain rfl | hborn' := h'
    · rfl
    · cases (hr.replaced id id' hborn' halive').symm.trans halive
  obtain rfl | hborn' := h'
  · cases (hr.replaced id' id hborn halive).symm.trans halive'
  obtain hsome | ⟨k, c, pc, hk, he, hown⟩ := hr.linked expected id hborn halive
  · obtain hsome' | ⟨k', c', pc', hk', he', hown'⟩ := hr.linked expected id' hborn' halive'
    · exact some.inj (hsome.symm.trans hsome')
    · have hu := unreplaced_of_own (hr.aliases.creations k' c' pc' hk') hown'
      cases (hu expected he').2.symm.trans hsome
  · have hu := unreplaced_of_own (hr.aliases.creations k c pc hk) hown
    have hown' := hr.own_of_unreplaced hk (side_of_own hown) hu he (.inr hborn') halive'
    exact some.inj (hown.symm.trans hown')

/-! ## the invariant is kept -/

theorem mem_born_step (h : (expected, id) ∈ (r.step host a).born) :
    (expected, id) ∈ r.born ∨
      ∃ k c, Registers r.world a k c id ∧ c.request.expectedSavedSessionId = some expected :=
  (List.mem_append.mp h).symm.imp (fun h => h) mem_bornBy.mp

theorem born_step (a : DaemonAction) (h : (expected, id) ∈ r.born) :
    (expected, id) ∈ (r.step host a).born :=
  List.mem_append.mpr (.inr h)

theorem RestoreCareful.launching (hP : RestoreCareful r a) (h : Registers r.world a k c id)
    (he : c.request.expectedSavedSessionId = some expected) :
    r.world.handlers.lookup k = some (.running (.create c (.launching none))) := by
  obtain ⟨status, rfl, -, hk | hk⟩ := h
  · exact hk
  · cases (hP.abandoned k c id status rfl hk).symm.trans he

theorem alive_false_step (hP : RestoreCareful r a) (hknown : id ∈ r.world.daemon.known)
    (h : r.alive id = false) : (r.step host a).alive id = false :=
  alive_false_of_known hP.aliases.unrevived hknown h

theorem alive_before (hP : RestoreCareful r a) (hknown : id ∈ r.world.daemon.known)
    (h : (r.step host a).alive id = true) : r.alive id = true :=
  alive_of_known hP.aliases.unrevived hknown h

theorem creation_step {a : HandlerAction}
    (hstep : Handler.Step host d (.create c₀ pc₀) a e (.create c pc)) : c₀ = c := by
  cases hstep
  all_goals rfl

theorem own_step {a : HandlerAction}
    (hstep : Handler.Step host d (.create c₀ pc₀) a e (.create c pc)) (hown : pc.own = some id) :
    pc₀.own = some id ∨
      pc₀ = .launching none ∧ id ∉ d.known ∧ ∃ status, a = .register id status := by
  cases hstep with
  | registered hfresh =>
    cases hown
    exact .inr ⟨rfl, hfresh, _, rfl⟩
  | returned | createTouched | anonymous | ownTimed | ownGranted | ownRejected | recorded =>
    exact .inl hown
  | _ => cases hown

theorem ownBorn_step (hr : RestoreSafe r)
    (hk : (r.step host a).world.handlers.lookup k = some (.running (.create c pc)))
    (he : c.request.expectedSavedSessionId = some expected) (hown : pc.own = some id) :
    (expected, id) ∈ (r.step host a).born := by
  obtain hk | ⟨request, -, hstart, -⟩ | ⟨a', e, h₀, rfl, hh₀, hstep, -⟩ := running_step hk
  · exact born_step a (hr.ownBorn k c pc hk expected id he hown)
  · rw [start_create hstart.symm] at hown
    cases hown
  cases h₀ with
  | create c₀ pc₀ =>
    obtain rfl := creation_step hstep
    obtain hown₀ | ⟨rfl, hfresh, status, rfl⟩ := own_step hstep hown
    · exact born_step _ (hr.ownBorn k c₀ pc₀ hh₀ expected id he hown₀)
    · refine List.mem_append.mpr (.inl (mem_bornBy.mpr ⟨k, c₀, ?_, he⟩))
      exact ⟨status, rfl, hfresh, .inl hh₀⟩
  | _ => cases hstep

theorem linked_own (hP : RestoreCareful r a)
    (hk : r.world.handlers.lookup k = some (.running (.create c pc)))
    (he : c.request.expectedSavedSessionId = some expected) (hown : pc.own = some id)
    (hbefore : r.alive id = true) (halive : (r.step host a).alive id = true) :
    (r.step host a).world.daemon.state.restoreReplacements.lookup expected = some id ∨
      ∃ k' c' pc', (r.step host a).world.handlers.lookup k' = some (.running (.create c' pc')) ∧
        c'.request.expectedSavedSessionId = some expected ∧ pc'.own = some id := by
  obtain hk' | ⟨a', e, h', rfl, hstep, hk', hdaemon⟩ := running_next host a hk
  · exact .inr ⟨k, c, pc, hk', he, hown⟩
  cases hstep with
  | returned | createTouched | anonymous | ownTimed | ownGranted | ownRejected | recorded =>
    exact .inr ⟨k, c, _, hk', he, hown⟩
  | @deadline _ registered =>
    obtain rfl : registered = some id := hown
    have hne : c.request.expectedSavedSessionId ≠ none := by
      rw [he]
      nofun
    cases (hP.punctual k c id rfl hk hne).symm.trans hbefore
  | rejectKilled =>
    cases hown
    have hdead : (r.step host (.handler k .next)).alive id = false := by
      show (r.world.step host (.handler k .next)).daemon.state.alive id = false
      rw [hdaemon]
      exact alive_killSession r.world.daemon.state id
    cases hdead.symm.trans halive
  | createEnd hnone => cases hnone.symm.trans he
  | aliased hexpected =>
    cases hown
    cases hexpected.symm.trans he
    refine .inl ?_
    show (r.world.step host (.handler k .next)).daemon.state.restoreReplacements.lookup _ = _
    rw [hdaemon]
    exact AList.lookup_insert _
  | _ => cases hown

theorem linked_step (hr : RestoreSafe r) (hP : RestoreCareful r a)
    (hborn : (expected, id) ∈ (r.step host a).born) (halive : (r.step host a).alive id = true) :
    (r.step host a).world.daemon.state.restoreReplacements.lookup expected = some id ∨
      ∃ k c pc, (r.step host a).world.handlers.lookup k = some (.running (.create c pc)) ∧
        c.request.expectedSavedSessionId = some expected ∧ pc.own = some id := by
  obtain hborn | ⟨k, c, hreg, he⟩ := mem_born_step hborn
  · have hbefore := alive_before hP (hr.bornKnown expected id hborn).2 halive
    obtain hsome | ⟨k, c, pc, hk, he, hown⟩ := hr.linked expected id hborn hbefore
    · exact .inl (alias_kept hr.known hr.aliases hP.aliases hsome halive)
    · exact linked_own hP hk he hown hbefore halive
  · exact .inr ⟨k, c, _, hreg.after.2 (hP.launching hreg he), he, rfl⟩

theorem replaced_step (hr : RestoreSafe r) (hP : RestoreCareful r a)
    (hborn : (expected, id) ∈ (r.step host a).born) (halive : (r.step host a).alive id = true) :
    (r.step host a).alive expected = false := by
  obtain hborn | ⟨k, c, hreg, he⟩ := mem_born_step hborn
  · obtain ⟨hexpected, hid⟩ := hr.bornKnown expected id hborn
    exact alive_false_step hP hexpected (hr.replaced expected id hborn (alive_before hP hid halive))
  · have hk := hP.launching hreg he
    exact alive_false_step hP (expected_known hr.known hk he)
      (hr.aliases.creations k c _ hk expected he).1

theorem checking_step (hr : RestoreSafe r)
    (hk : (r.step host a).world.handlers.lookup k =
      some (.running (.create c (.checking expected id)))) :
    (expected, id) ∈ (r.step host a).born := by
  obtain hk | ⟨request, -, hstart, -⟩ | ⟨a', e, h₀, rfl, hh₀, hstep, -⟩ := running_step hk
  · exact born_step a (hr.checking k c expected id hk)
  · cases start_create hstart.symm
  · cases hstep with
    | replaced hsome => exact born_step _ (hr.aliasBorn expected id hsome)

theorem Descends.step (h : Descends (r.step host a) expected id) :
    Descends r expected id ∨
      ∃ k c, Registers r.world a k c id ∧ c.request.expectedSavedSessionId = some expected := by
  obtain rfl | h := h
  · exact .inl (.inl rfl)
  · exact (mem_born_step h).imp .inr fun h => h

theorem RestoreSafe.known_of_descends (hr : RestoreSafe r)
    (hexpected : expected ∈ r.world.daemon.known) (h : Descends r expected id) :
    id ∈ r.world.daemon.known := by
  obtain rfl | h := h
  · exact hexpected
  · exact (hr.bornKnown expected id h).2

theorem side_of_reuses (h : pc.reuses = some id) : (Handler.create c pc).side = .write := by
  cases pc with
  | late | lateReturned => cases h
  | _ => rfl

theorem reuses_own (hr : RestoreSafe r) {a : HandlerAction}
    (hk : r.world.handlers.lookup k = some (.running (.create c₀ pc₀)))
    (hstep : Handler.Step host r.world.daemon (.create c₀ pc₀) a e (.create c pc))
    (he : c.request.expectedSavedSessionId = some expected) (hid : pc.reuses = some id)
    (h' : Descends r expected id') (halive' : r.alive id' = true) : id' = id := by
  cases hstep with
  | expectedAlive hexpected halive =>
    cases hid
    cases hexpected.symm.trans he
    exact hr.single _ _ _ h' (.inl rfl) halive' halive
  | @replacementAlive _ expected₀ replacement halive =>
    cases hid
    have hsame := (hr.aliases.creations k c _ hk).1
    cases hsame.symm.trans he
    exact hr.single _ _ _ h' (.inr (hr.checking k c _ _ hk)) halive' halive
  | reuseMatches | reuseTimed | reuseGranted =>
    exact hr.reuses k c _ hk expected id he hid id' h' halive'
  | _ => cases hid

theorem reuses_step (hr : RestoreSafe r) (hP : RestoreCareful r a)
    (hk : (r.step host a).world.handlers.lookup k = some (.running (.create c pc)))
    (he : c.request.expectedSavedSessionId = some expected) (hid : pc.reuses = some id)
    (h' : Descends (r.step host a) expected id') (halive' : (r.step host a).alive id' = true) :
    id' = id := by
  obtain hk₀ | ⟨request, -, hstart, -⟩ | ⟨a', e, h₀, rfl, hh₀, hstep, -⟩ := running_step hk
  · obtain h' | ⟨k', c', hreg, he'⟩ := h'.step
    · have hknown := hr.known_of_descends (expected_known hr.known hk₀ he) h'
      exact hr.reuses k c pc hk₀ expected id he hid id' h' (alive_before hP hknown halive')
    -- another creation for the same session would hold the lock as well
    · have hk' := hP.launching hreg he'
      by_cases hkk : k' = k
      · subst hkk
        cases hk₀.symm.trans hk'
        cases hid
      · have hfree := hr.locked k' _ k _ hk' hk₀ hkk rfl
        cases (side_of_reuses hid).symm.trans hfree
  · rw [start_create hstart.symm] at hid
    cases hid
  cases h₀ with
  | create c₀ pc₀ =>
    obtain rfl := creation_step hstep
    obtain h' | ⟨k', c', ⟨status, hact, -, hk'⟩, -⟩ := h'.step
    · have hknown := hr.known_of_descends (expected_known hr.known hh₀ he) h'
      exact reuses_own hr hh₀ hstep he hid h' (alive_before hP hknown halive')
    cases hact
    obtain hk' | hk' := hk'
    all_goals
      cases hh₀.symm.trans hk'
      cases hstep
      cases hid
  | _ => cases hstep

theorem restoreSafe_step (hr : RestoreSafe r) (hP : RestoreCareful r a) :
    RestoreSafe (r.step host a) where
  known := allKnown_step hr.known a
  locked := locked_step hr.locked a
  aliases := aliasSafe_step hr.known hr.locked hr.aliases hP.aliases
  bornKnown expected id h := by
    obtain h | ⟨k, c, hreg, he⟩ := mem_born_step h
    · exact (hr.bornKnown expected id h).imp (known_step host a) (known_step host a)
    · have hk := hP.launching hreg he
      exact ⟨known_step host a (expected_known hr.known hk he), hreg.after.1⟩
  aliasBorn expected id h := by
    obtain h | ⟨k, c, -, hk, he, -⟩ := replacements_step h
    · exact born_step a (hr.aliasBorn expected id h)
    · exact born_step a (hr.ownBorn k c _ hk expected id he rfl)
  ownBorn k c pc hk expected id he hown := ownBorn_step hr hk he hown
  linked expected id h halive := linked_step hr hP h halive
  replaced expected id h halive := replaced_step hr hP h halive
  checking k c expected id hk := checking_step hr hk
  reuses k c pc hk expected id he hid id' h' halive' := reuses_step hr hP hk he hid h' halive'

/-- A creation answers when it gives up the lock. -/
def Answers (host : Host) (w : DaemonWorld) (k : Nat) (a : HandlerAction) (c : Creation)
    (pc : CreatePc) (response : Response) : Prop :=
  w.handlers.lookup k = some (.running (.create c pc)) ∧ (Handler.create c pc).side = .write ∧
    ∃ e h', stepCreate host w.daemon c pc a = some (e, h') ∧
      (h' = .done response ∨ (∃ id, h' = .create c (.late id)) ∧ response = launchTimeout)

def IsConflict (response : Response) : Prop :=
  ∃ code message, response = .conflict code message

theorem reuse_conflict {response : Response} (h : c.reuse host d id = .error response) :
    IsConflict response := by
  unfold Creation.reuse at h
  split at h
  · cases h
    exact ⟨_, _, rfl⟩
  · cases h
    exact ⟨_, _, rfl⟩
  split at h
  · cases h
  · cases h
    exact ⟨_, _, rfl⟩

theorem answer_of_alive (hr : RestoreSafe r) {a : HandlerAction}
    (hP : RestoreCareful r (.handler k a)) {response : Response}
    (h : Answers host r.world k a c pc response)
    (he : c.request.expectedSavedSessionId = some expected) (hid : Descends r expected id)
    (halive : r.alive id = true) :
    response = .created id true ∨ IsConflict response ∨
      pc = .recorded id ∧ response = .created id false := by
  obtain ⟨hk, hside, e, h', hsome, hresponse⟩ := h
  have hstep := Handler.step_create_spec host r.world.daemon hsome
  have hpc := hr.aliases.creations k c pc hk
  have hne : c.request.expectedSavedSessionId ≠ none := by
    rw [he]
    nofun
  obtain rfl | ⟨⟨registered, rfl⟩, rfl⟩ := hresponse
  · cases hstep with
    | reuseRefused hrefused => exact .inr (.inl (reuse_conflict hrefused))
    | reuseClaimed => exact .inr (.inl ⟨_, _, rfl⟩)
    | reuseTouched =>
      rw [hr.reuses k c _ hk expected _ he rfl id hid halive]
      exact .inl rfl
    | failed => cases hr.own_of_unreplaced hk hside hpc he hid halive
    | rejectEnd => exact .inr (.inl ⟨_, _, rfl⟩)
    | createEnd hnone => exact absurd hnone hne
    | aliased =>
      cases hr.own_of_unreplaced hk hside hpc he hid halive
      exact .inr (.inr ⟨rfl, rfl⟩)
    | lateFailed | lateKilled => cases hside
  · cases hstep with
    | deadline =>
      have hown : registered = some id := hr.own_of_unreplaced hk hside hpc he hid halive
      subst hown
      cases (hP.punctual k c id rfl hk hne).symm.trans halive
    | lateRegistered => cases hside

theorem dead_of_registers (hr : RestoreSafe r) (hP : RestoreCareful r a) {id expected : String}
    (h : Registers r.world a k c id) (he : c.request.expectedSavedSessionId = some expected)
    (hid' : Descends r expected id') : r.alive id' = false := by
  have hk := hP.launching h he
  refine Bool.eq_false_iff.mpr fun halive => ?_
  cases hr.own_of_unreplaced hk rfl (hr.aliases.creations k c _ hk) he hid' halive

def start (startedAt now epochMillis : Nat) : RestoreWorld := ⟨fresh startedAt now epochMillis, []⟩

theorem start_safe (startedAt now epochMillis : Nat) :
    RestoreSafe (start startedAt now epochMillis) where
  known := fresh_known startedAt now epochMillis
  locked := fresh_locked startedAt now epochMillis
  aliases := fresh_aliasSafe startedAt now epochMillis
  bornKnown _ _ h := (nomatch h)
  aliasBorn _ _ h := by cases h
  ownBorn _ _ _ h := by cases h
  linked _ _ h := (nomatch h)
  replaced _ _ h := (nomatch h)
  checking _ _ _ _ h := by cases h
  reuses _ _ _ h := by cases h

theorem along_safe (host : Host) (startedAt now epochMillis : Nat) {as : List DaemonAction}
    (hok : Run.StepsOk (step host) RestoreCareful (start startedAt now epochMillis) as) :
    Run.Along (step host) RestoreSafe (start startedAt now epochMillis) as :=
  Run.along_of_inv (I := RestoreSafe) (fun _ _ hr hP => restoreSafe_step hr hP)
    (start_safe startedAt now epochMillis) hok

/-- In every run of careful steps: of an expected session and its replacements at most one is
alive; the backend registers a session for an expected one only when none of them is; and a request
that is answered while one of them is alive gets that session or a conflict, unless it has created
it. -/
theorem restore_once (host : Host) (startedAt now epochMillis : Nat) (as : List DaemonAction)
    (hok : Run.StepsOk (step host) RestoreCareful (start startedAt now epochMillis) as) :
    Run.Along (step host) Single (start startedAt now epochMillis) as ∧
      (∀ pre a post, as = pre ++ a :: post → ∀ k c id expected,
        Registers (Run.run (step host) (start startedAt now epochMillis) pre).world a k c id →
          c.request.expectedSavedSessionId = some expected → ∀ id',
            Descends (Run.run (step host) (start startedAt now epochMillis) pre) expected id' →
              (Run.run (step host) (start startedAt now epochMillis) pre).alive id' = false) ∧
      ∀ pre k a post, as = pre ++ .handler k a :: post → ∀ c pc response expected,
        Answers host (Run.run (step host) (start startedAt now epochMillis) pre).world k a c pc
            response →
          c.request.expectedSavedSessionId = some expected → ∀ id,
            Descends (Run.run (step host) (start startedAt now epochMillis) pre) expected id →
              (Run.run (step host) (start startedAt now epochMillis) pre).alive id = true →
                response = .created id true ∨ IsConflict response ∨
                  pc = .recorded id ∧ response = .created id false := by
  have halong := along_safe host startedAt now epochMillis hok
  refine ⟨halong.mono fun _ hr => hr.single, ?_, ?_⟩
  · intro pre a post heq k c id expected hreg he id' hid'
    have hP := Run.stepsOk_iff.mp hok pre a post heq
    rw [heq] at halong
    exact dead_of_registers halong.at_prefix hP hreg he hid'
  intro pre k a post heq c pc response expected hanswer he id hid halive
  have hP := Run.stepsOk_iff.mp hok pre (.handler k a) post heq
  rw [heq] at halong
  exact answer_of_alive halong.at_prefix hP hanswer he hid halive

/-! ## two requests for one session -/

def sampleRestore : CreateSessionRequest where
  launchId := none
  projectPath := some "/p"
  cwd := none
  originLayoutId := none
  originTabId := none
  originTerminalPaneId := none
  expectedSavedSessionId := some "e"
  launchClaude := true
  cliTool := .claude
  resumeId := none
  ssh := false
  wsl := false

/-- handler `k` restores `e`, as far as the lookup of its replacement -/
def restoreStart (k : Nat) : List DaemonAction :=
  [.arrive k (.create sampleRestore (some "app-a") "tab" "pane"), .acquire k, .handler k .next,
    .handler k .next]

def createRun (k : Nat) (id : String) : List DaemonAction :=
  [.handler k (.register id .idle), .handler k .returned, .handler k .next, .handler k .next,
    .handler k .next, .handler k (.record "nonce"), .handler k .next]

/-- the status of `e` is asked for, and the reaper finds that `e` is not a session -/
def pollAndSweep (k : Nat) (live : List BackendSession) (active : List String) :
    List DaemonAction :=
  [.arrive k (.status "e"), .acquire k, .handler k .next, .handler k .next,
    .sweep (.wake false 60), .sweep (.list (some live)), .sweep .readNow, .sweep .readEpoch,
    .sweep (.sample active), .sweep .clean, .sweep .op, .sweep .op, .sweep .op, .sweep .op]

theorem restore_once_app_a :
    Run.Along (step sampleHost) Single (start 0 0 0)
        (restoreStart 0 ++ createRun 0 "r1" ++ restoreStart 1 ++
          List.replicate 5 (.handler 1 .next)) ∧
      (Run.run (step sampleHost) (start 0 0 0)
        (restoreStart 0 ++ createRun 0 "r1" ++ restoreStart 1 ++
          List.replicate 5 (.handler 1 .next))).world.handlers.lookup 1 =
            some (.running (.done (.created "r1" true))) := by
  have hquiet : Run.StepsOk (step sampleHost) (fun r a => r.quiet a = true) (start 0 0 0)
      (restoreStart 0 ++ createRun 0 "r1" ++ restoreStart 1 ++
        List.replicate 5 (.handler 1 .next)) := by
    decide
  have hok := hquiet.mono fun _ _ h => restoreCareful_of_quiet h
  exact ⟨(restore_once sampleHost 0 0 0 _ hok).1, rfl⟩

/-- The alias of `r1` goes with the activity of `e`, and the next request creates `r2`. -/
theorem second_replacement :
    (∃ k c, Registers (Run.run (step sampleHost) (start 0 0 0)
          (restoreStart 0 ++ createRun 0 "r1" ++ pollAndSweep 1 [⟨"r1", .idle, 0⟩] ["e", "r1"] ++
            restoreStart 2)).world (.handler 2 (.register "r2" .idle)) k c "r2" ∧
        c.request.expectedSavedSessionId = some "e") ∧
      Descends (Run.run (step sampleHost) (start 0 0 0)
        (restoreStart 0 ++ createRun 0 "r1" ++ pollAndSweep 1 [⟨"r1", .idle, 0⟩] ["e", "r1"] ++
          restoreStart 2)) "e" "r1" ∧
      (Run.run (step sampleHost) (start 0 0 0)
        (restoreStart 0 ++ createRun 0 "r1" ++ pollAndSweep 1 [⟨"r1", .idle, 0⟩] ["e", "r1"] ++
          restoreStart 2)).alive "r1" = true ∧
      ¬ Single (Run.run (step sampleHost) (start 0 0 0)
        (restoreStart 0 ++ createRun 0 "r1" ++ pollAndSweep 1 [⟨"r1", .idle, 0⟩] ["e", "r1"] ++
          restoreStart 2 ++ createRun 2 "r2")) := by
  refine ⟨⟨2, ⟨sampleRestore, some "app-a", "tab", "pane"⟩, ⟨.idle, rfl, by decide, .inl rfl⟩, rfl⟩,
    .inr (.head _), rfl, fun hsingle => ?_⟩
  have hsame : "r1" = "r2" :=
    hsingle "e" "r1" "r2" (.inr (.tail _ (.head _))) (.inr (.head _)) rfl rfl
  exact absurd hsame (by decide)

end RestoreWorld
end CcPanes

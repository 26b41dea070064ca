import CcPanes.Daemon.KnownIds

/-!
# Aliases of restored sessions

An entry `expected -> replacement` of `restore_replacements` is removed with the entries of either
of its sessions, by whoever cleans up after one.  The clean-up is decided first and carried out in
four later steps, and the reaper decides on a list of sessions that may be out of date.
-/

namespace CcPanes
open Bool List

def Handler.ops : Handler → List MapOp
  | .guarded _ (.cleaning ops) => ops
  | .create _ (.cleaning ops _) => ops
  | _ => []

def InFlight.ops : InFlight → List MapOp
  | .waiting _ => []
  | .running h => h.ops

namespace DaemonWorld

variable {host : Host} {w : DaemonWorld} {a : DaemonAction} {pc : CreatePc}

def cleans (w : DaemonWorld) : DaemonAction → Option String
  | .sweep .clean =>
    match w.sweep with
    | ⟨[], .cleaning _ sample (id :: _)⟩ =>
      if sample.sessions.any fun s => s.sessionId = id then none else some id
    | _ => none
  | .sweep (.kill _) =>
    match w.sweep with
    | ⟨[], .checking _ id .unvisited _⟩ => some id
    | _ => none
  | .handler k .next =>
    match w.handlers.lookup k with
    | some (.running (.guarded g (.allowed false))) =>
      if g.route = .kill && w.daemon.has g.sessionId then some g.sessionId else none
    | some (.running (.create _ (.rejected id _))) => some id
    | _ => none
  | _ => none

def Pending (w : DaemonWorld) (op : MapOp) : Prop :=
  op ∈ w.sweep.pending ∨ ∃ k h, w.handlers.lookup k = some (.running h) ∧ op ∈ h.ops

theorem start_ops (request : Request) : request.start.ops = [] := by
  cases request with
  | guarded g | claim id appInstanceId header ttlMs
  | create =>
    rw [Request.start]
    split <;> rfl
  | release | status | claims | adoption => rfl

theorem alive_killSession (s : DaemonState) (id : String) :
    (Sweep.killSession s id).alive id = false := by
  refine eq_false_iff.mpr fun h => ?_
  obtain ⟨b, hb, hid, -⟩ := Daemon.alive_iff.mp h
  exact of_decide_eq_true (mem_filter.mp hb).2 hid

theorem not_alive_of_not_has {d : Daemon} {id : String} (h : d.has id = false) :
    d.state.alive id = false := by
  refine eq_false_iff.mpr fun halive => ?_
  obtain ⟨b, hb, hid, -⟩ := Daemon.alive_iff.mp halive
  exact absurd (any_eq_true.mpr ⟨b, hb, decide_eq_true hid⟩) (eq_false_iff.mp h)

/-- a step decides on the clean-up of a session; unless the reaper cleans up the activity, the
session has gone -/
def Decides (host : Host) (w : DaemonWorld) (a : DaemonAction) (id : String) : Prop :=
  w.cleans a = some id ∧ (a ≠ .sweep .clean → (w.step host a).daemon.state.alive id = false)

theorem pending_sweep {a : SweepAction} {op : MapOp}
    (h : op ∈ (w.step host (.sweep a)).sweep.pending) :
    op ∈ w.sweep.pending ∨ ∃ id, Decides host w (.sweep a) id ∧
      op ∈ DaemonState.removeSessionActivity id := by
  obtain heq | ⟨s, sw, htold, hstep, heq⟩ := step_sweep w a
  · rw [heq] at h
    exact .inl h
  rw [heq] at h
  obtain ⟨d, sw₀, handlers⟩ := w
  cases hstep with
  | op => exact .inl (.tail _ h)
  | @cleanGone ttl sample id todo hgone =>
    refine .inr ⟨id, ⟨?_, fun hne => absurd rfl hne⟩, h⟩
    refine if_neg fun hany => ?_
    obtain ⟨b, hb, hid⟩ := any_eq_true.mp hany
    exact hgone b hb (of_decide_eq_true hid)
  | @kill ttl id todo ok =>
    refine .inr ⟨id, ⟨rfl, fun _ => ?_⟩, h⟩
    rw [heq]
    cases ok with
    | true => exact alive_killSession d.state id
    | false =>
      have hhas : (false == d.has id) = true := htold
      exact not_alive_of_not_has (eq_of_beq hhas).symm
  | wake | listFailed | list | readNow | readEpoch | sample | cleanEnd | cleanListed | build
    | select | rest | subscribed | unsubscribed | readRecheckNow | visited | unvisited => cases h

theorem pending_step {op : MapOp} (h : Pending (w.step host a) op) :
    Pending w op ∨ ∃ id, Decides host w a id ∧ op ∈ DaemonState.removeSessionActivity id := by
  obtain h | ⟨k, hd, hf, hop⟩ := h
  · cases a with
    | sweep => exact (pending_sweep h).imp .inl id
    | arrive k request =>
      obtain heq | ⟨-, heq⟩ := step_arrive w k request
      all_goals
        rw [heq] at h
        exact .inl (.inl h)
    | acquire k =>
      obtain heq | ⟨_, _, _, heq⟩ := step_acquire w k
      all_goals
        rw [heq] at h
        exact .inl (.inl h)
    | handler k a =>
      obtain heq | ⟨_, _, _, _, _, heq⟩ := step_handler w k a
      all_goals
        rw [heq] at h
        exact .inl (.inl h)
    | touch | tick | setWallClock | setStatus | output | setSubscribed | leave =>
      exact .inl (.inl h)
  obtain hf | ⟨request, -, rfl, -⟩ | ⟨a', e, h₀, rfl, hh₀, hstep, hdaemon⟩ := running_step hf
  · exact .inl (.inr ⟨k, hd, hf, hop⟩)
  · rw [start_ops] at hop
    cases hop
  cases hstep with
  | @killed g hroute hhas =>
    refine .inr ⟨g.sessionId, ⟨?_, fun _ => ?_⟩, hop⟩
    · rw [cleans, hh₀]
      exact if_pos (and_eq_true_iff.mpr ⟨decide_eq_true hroute, hhas⟩)
    · rw [hdaemon]
      exact alive_killSession w.daemon.state g.sessionId
  | @rejectKilled c id =>
    refine .inr ⟨id, ⟨?_, fun _ => ?_⟩, hop⟩
    · rw [cleans, hh₀]
    · rw [hdaemon]
      exact alive_killSession w.daemon.state id
  | guardedOp | rejectOp => exact .inl (.inr ⟨k, _, hh₀, .tail _ hop⟩)
  | _ => cases hop

/-! ## steps that leave the aliases of live sessions alone -/

structure AliasCareful (w : DaemonWorld) (a : DaemonAction) : Prop where
  /-- who cleans up after a session finds no other session alive in its place -/
  replaced : ∀ id, w.cleans a = some id → ∀ replacement,
    w.daemon.state.restoreReplacements.lookup id = some replacement → replacement ≠ id →
      w.daemon.state.alive replacement = false
  /-- the reaper does not take a replacement that is alive for one that is gone -/
  unlisted : a = .sweep .clean → ∀ id, w.cleans a = some id → ∀ expected,
    w.daemon.state.restoreReplacements.lookup expected = some id → w.daemon.state.alive id = false
  /-- an alias is recorded while no clean-up that would remove it is under way -/
  recorded : ∀ k c id expected, a = .handler k .next →
    w.handlers.lookup k = some (.running (.create c (.recorded id))) →
      c.request.expectedSavedSessionId = some expected →
        ¬ Pending w (.removeReplacements expected) ∧
          (w.daemon.state.alive id = true → ¬ Pending w (.removeReplacements id))
  unrevived : ¬ Revives w a

/-- no clean-up is under way, the action decides on none, and no hook reports -/
def quiet (w : DaemonWorld) : DaemonAction → Bool
  | .setStatus _ _ => false
  | a =>
    (w.cleans a).isNone && w.sweep.pending.isEmpty &&
      w.handlers.entries.all fun f => f.2.ops.isEmpty

theorem not_pending_of_isEmpty (hsweep : w.sweep.pending.isEmpty = true)
    (hhandlers : (w.handlers.entries.all fun f => f.2.ops.isEmpty) = true) (op : MapOp) :
    ¬ Pending w op := by
  rintro (hop | ⟨k, h, hk, hop⟩)
  · rw [isEmpty_iff.mp hsweep] at hop
    cases hop
  have hempty := all_eq_true.mp hhandlers _ (FiniteMap.lookup_eq_some_iff.mp hk)
  have hops : h.ops = [] := isEmpty_iff.mp hempty
  rw [hops] at hop
  cases hop

theorem not_cleaning_of_quiet (h : w.quiet a = true) :
    w.cleans a = none ∧ (∀ op, ¬ Pending w op) ∧ ¬ Revives w a := by
  unfold quiet at h
  split at h
  · cases h
  next hstatus =>
    obtain ⟨h, hhandlers⟩ := and_eq_true_iff.mp h
    obtain ⟨hcleans, hsweep⟩ := and_eq_true_iff.mp h
    refine ⟨Option.isNone_iff_eq_none.mp hcleans, not_pending_of_isEmpty hsweep hhandlers, ?_⟩
    cases a with
    | setStatus id status => exact absurd rfl (hstatus id status)
    | _ => exact fun h => h

theorem aliasCareful_of_quiet (h : w.quiet a = true) : AliasCareful w a := by
  obtain ⟨hcleans, hpending, hrevives⟩ := not_cleaning_of_quiet h
  refine ⟨?_, ?_, ?_, hrevives⟩
  · intro id hid
    cases hcleans.symm.trans hid
  · intro _ id hid
    cases hcleans.symm.trans hid
  · intro k c id expected _ _ _
    exact ⟨hpending _, fun _ => hpending _⟩

def Unreplaced (s : DaemonState) (c : Creation) : Prop :=
  ∀ expected, c.request.expectedSavedSessionId = some expected →
    s.alive expected = false ∧ s.restoreReplacements.lookup expected = none

/-- what a creation knows that holds the lock and has found the expected session gone -/
def AliasPc (s : DaemonState) (c : Creation) : CreatePc → Prop
  | .lookingUp expected =>
    c.request.expectedSavedSessionId = some expected ∧ s.alive expected = false
  | .checking expected replacement =>
    c.request.expectedSavedSessionId = some expected ∧ s.alive expected = false ∧
      ∀ replacement', s.restoreReplacements.lookup expected = some replacement' →
        replacement' = replacement
  | .forgetting expected =>
    c.request.expectedSavedSessionId = some expected ∧ s.alive expected = false ∧
      ∀ replacement, s.restoreReplacements.lookup expected = some replacement →
        s.alive replacement = false
  | .launching _ | .created _ | .touched _ | .ownTimed _ _ | .rejected _ _ | .cleaning _ _
  | .owned _ | .recorded _ => Unreplaced s c
  | .entered | .reusing _ | .claiming _ | .claimTimed _ _ | .reused _ | .late _
  | .lateReturned _ => True

structure AliasSafe (w : DaemonWorld) : Prop where
  pending : ∀ id, Pending w (.removeReplacements id) → ∀ expected replacement,
    w.daemon.state.restoreReplacements.lookup expected = some replacement →
      expected = id ∨ replacement = id → w.daemon.state.alive replacement = false
  creations : ∀ k c pc, w.handlers.lookup k = some (.running (.create c pc)) →
    AliasPc w.daemon.state c pc

theorem replacements_step {expected replacement : String}
    (h : (w.step host a).daemon.state.restoreReplacements.lookup expected = some replacement) :
    w.daemon.state.restoreReplacements.lookup expected = some replacement ∨
      ∃ k c, a = .handler k .next ∧
        w.handlers.lookup k = some (.running (.create c (.recorded replacement))) ∧
        c.request.expectedSavedSessionId = some expected ∧
        (w.step host a).handlers.lookup k =
          some (.running (.done (.created replacement false))) := by
  obtain ⟨e, hcause, hsame⟩ := step_cause host w a
  rw [hsame.replacements] at h
  obtain rfl | h := Daemon.replacements_perform h
  · cases hcause with
    | handler before hstep after =>
      cases hstep with
      | aliased hexpected => exact .inr ⟨_, _, rfl, before, hexpected, after⟩
  · exact .inl h

theorem pending_of_op {o : MapOp} (hcause : Cause host w a (.op o)) (ho : ∀ id, o ≠ .touch id) :
    Pending w o := by
  cases hcause with
  | handler before hstep =>
    cases hstep with
    | guardedOp | rejectOp => exact .inr ⟨_, _, before, .head _⟩
    | counted | touched | claimTouched | statusTouched | reuseTouched | createTouched =>
      exact absurd rfl (ho _)
  | removal h => exact .inl h
  | touch id => exact absurd rfl (ho id)

theorem alias_kept (hk : AllKnown w) (hw : AliasSafe w) (hP : AliasCareful w a)
    {expected replacement : String}
    (h : w.daemon.state.restoreReplacements.lookup expected = some replacement)
    (halive : (w.step host a).daemon.state.alive replacement = true) :
    (w.step host a).daemon.state.restoreReplacements.lookup expected = some replacement := by
  have hbefore : w.daemon.state.alive replacement = true :=
    alive_of_known hP.unrevived (hk.daemon.replacements expected replacement h).2 halive
  obtain ⟨e, hcause, hsame⟩ := step_cause host w a
  rw [hsame.replacements]
  obtain hkept | ⟨id, rfl, hid⟩ | rfl | ⟨replacement', rfl⟩ :=
    Daemon.replacement_kept (e := e) h
  · exact hkept
  · have hdead := hw.pending id (pending_of_op hcause nofun) expected replacement h hid
    rw [hbefore] at hdead
    cases hdead
  · cases hcause with
    | handler before hstep =>
      cases hstep with
      | forgotten =>
        have hdead := (hw.creations _ _ _ before).2.2 replacement h
        rw [hbefore] at hdead
        cases hdead
  · cases hcause with
    | handler before hstep =>
      cases hstep with
      | aliased hexpected =>
        have hnone := (hw.creations _ _ _ before expected hexpected).2
        rw [h] at hnone
        cases hnone

/-! ## the invariant -/

theorem alive_false_of_known (hrev : ¬ Revives w a) {id : String} (hknown : id ∈ w.daemon.known)
    (h : w.daemon.state.alive id = false) : (w.step host a).daemon.state.alive id = false := by
  refine eq_false_iff.mpr fun halive => ?_
  rw [alive_of_known hrev hknown halive] at h
  cases h

theorem AliasPc.mono {s s' : DaemonState} {c : Creation} (h : AliasPc s c pc)
    (hmap : ∀ expected replacement, s'.restoreReplacements.lookup expected = some replacement →
      s.restoreReplacements.lookup expected = some replacement)
    (hexpected : ∀ expected, c.request.expectedSavedSessionId = some expected →
      s.alive expected = false → s'.alive expected = false)
    (hreplaced : ∀ expected replacement,
      s.restoreReplacements.lookup expected = some replacement → s.alive replacement = false →
        s'.alive replacement = false) : AliasPc s' c pc := by
  have hunreplaced : Unreplaced s c → Unreplaced s' c := by
    intro h expected he
    obtain ⟨hdead, hnone⟩ := h expected he
    refine ⟨hexpected expected he hdead, ?_⟩
    cases hlookup : s'.restoreReplacements.lookup expected with
    | none => rfl
    | some replacement =>
      have hsome := hmap expected replacement hlookup
      rw [hnone] at hsome
      cases hsome
  cases pc with
  | lookingUp expected => exact ⟨h.1, hexpected expected h.1 h.2⟩
  | checking expected =>
    exact ⟨h.1, hexpected expected h.1 h.2.1,
      fun replacement' hr => h.2.2 replacement' (hmap expected replacement' hr)⟩
  | forgetting expected =>
    refine ⟨h.1, hexpected expected h.1 h.2.1, fun replacement hr => ?_⟩
    have hr' := hmap expected replacement hr
    exact hreplaced expected replacement hr' (h.2.2 replacement hr')
  | launching | created | touched | ownTimed | rejected | cleaning | owned | recorded =>
    exact hunreplaced h
  | entered | reusing | claiming | claimTimed | reused | late | lateReturned => trivial

theorem aliasPc_or_locked (c : Creation) (pc : CreatePc) :
    (∀ s', AliasPc s' c pc) ∨ (Handler.create c pc).side = .write := by
  cases pc with
  | late | lateReturned => exact .inl fun _ => trivial
  | _ => exact .inr rfl

theorem aliasPc_own {d : Daemon} {c₀ c : Creation} {pc₀ pc : CreatePc} {a : HandlerAction}
    {e : Effect} (hids : ∀ id ∈ (Handler.create c₀ pc₀).ids, id ∈ d.known)
    (hstep : Handler.Step host d (.create c₀ pc₀) a e (.create c pc))
    (h : AliasPc d.state c₀ pc₀) : AliasPc (d.perform e).state c pc := by
  cases hstep with
  | unexpected hnone =>
    intro expected he
    rw [hnone] at he
    cases he
  | expectedGone hexpected hdead => exact ⟨hexpected, hdead⟩
  | unreplaced hnone =>
    intro expected he
    cases h.1.symm.trans he
    exact ⟨h.2, hnone⟩
  | replaced hsome =>
    refine ⟨h.1, h.2, fun replacement' hr => ?_⟩
    exact Option.some.inj (hr.symm.trans hsome)
  | replacementGone hdead =>
    refine ⟨h.1, h.2.1, fun replacement hr => ?_⟩
    rw [h.2.2 replacement hr]
    exact hdead
  | forgotten =>
    intro expected he
    cases h.1.symm.trans he
    exact ⟨h.2.1, AList.lookup_erase _ _⟩
  | registered hfresh =>
    intro expected he
    obtain ⟨hdead, hnone⟩ := h expected he
    refine ⟨eq_false_iff.mpr fun halive => ?_, hnone⟩
    obtain halive | ⟨status, heq, -⟩ := Daemon.alive_perform halive
    · rw [hdead] at halive
      cases halive
    cases heq
    refine hfresh (hids _ (mem_append.mpr (.inl ?_)))
    rw [he]
    exact .head _
  | returned | createTouched | anonymous | ownTimed | ownGranted | ownRejected | recorded =>
    exact h
  | rejectKilled =>
    intro expected he
    obtain ⟨hdead, hnone⟩ := h expected he
    refine ⟨eq_false_iff.mpr fun halive => ?_, hnone⟩
    obtain halive | ⟨_, heq, -⟩ := Daemon.alive_perform halive
    · rw [hdead] at halive
      cases halive
    · cases heq
  | @rejectOp _ op ops existing =>
    have hbefore : AliasPc d.state c₀ (.cleaning ops existing) := h
    refine hbefore.mono (fun expected replacement hr => ?_) (fun expected _ hdead => ?_)
      (fun _ replacement _ hdead => ?_)
    · obtain heq | hr := Daemon.replacements_perform hr
      · cases heq
      · exact hr
    all_goals
      cases op <;> exact hdead
  | expectedAlive | replacementAlive | reuseMatches | reuseTimed | reuseGranted | deadline
    | lateRegistered | lateReturned => trivial

theorem start_create {request : Request} {c : Creation} (h : request.start = .create c pc) :
    pc = .entered := by
  cases request with
  | guarded =>
    rw [Request.start] at h
    split at h <;> cases h
  | claim =>
    rw [Request.start] at h
    split at h <;> cases h
  | create =>
    rw [Request.start] at h
    split at h
    · cases h
    · cases h
      rfl
  | release | status | claims | adoption => cases h

theorem expected_known (hk : AllKnown w) {k : Nat} {c : Creation}
    (hf : w.handlers.lookup k = some (.running (.create c pc))) {expected : String}
    (he : c.request.expectedSavedSessionId = some expected) : expected ∈ w.daemon.known := by
  refine hk.handlers k _ hf expected (mem_append.mpr (.inl ?_))
  rw [he]
  exact .head _

theorem aliasSafe_pending (hk : AllKnown w) (hw : AliasSafe w) (hP : AliasCareful w a)
    {id expected replacement : String}
    (hpending : Pending (w.step host a) (.removeReplacements id))
    (hlookup : (w.step host a).daemon.state.restoreReplacements.lookup expected = some replacement)
    (hid : expected = id ∨ replacement = id) :
    (w.step host a).daemon.state.alive replacement = false := by
  obtain hbefore | ⟨id', ⟨hcleans, hgone⟩, hop⟩ := pending_step hpending
  · obtain hold | ⟨k, c, rfl, hk', hexpected, -⟩ := replacements_step hlookup
    · exact alive_false_of_known hP.unrevived (hk.daemon.replacements _ _ hold).2
        (hw.pending id hbefore expected replacement hold hid)
    obtain ⟨hfirst, hsecond⟩ := hP.recorded k c replacement expected rfl hk' hexpected
    obtain rfl | rfl := hid
    · exact absurd hbefore hfirst
    have hknown : replacement ∈ w.daemon.known :=
      hk.handlers k _ hk' replacement (mem_append.mpr (.inr (.head _)))
    refine alive_false_of_known hP.unrevived hknown (eq_false_iff.mpr fun halive => ?_)
    exact hsecond halive hbefore
  have hsame : id = id' := by
    simpa [DaemonState.removeSessionActivity] using hop
  subst hsame
  obtain hold | ⟨k, c, rfl, hk', -, -⟩ := replacements_step hlookup
  · have hknown := (hk.daemon.replacements _ _ hold).2
    by_cases hreplacement : replacement = id
    · subst hreplacement
      by_cases hclean : a = .sweep .clean
      · exact alive_false_of_known hP.unrevived hknown
          (hP.unlisted hclean replacement hcleans expected hold)
      · exact hgone hclean
    · obtain rfl := hid.resolve_right hreplacement
      exact alive_false_of_known hP.unrevived hknown
        (hP.replaced expected hcleans replacement hold hreplacement)
  · rw [cleans, hk'] at hcleans
    cases hcleans

theorem aliasSafe_step (hk : AllKnown w) (hl : Locked w) (hw : AliasSafe w)
    (hP : AliasCareful w a) : AliasSafe (w.step host a) := by
  refine ⟨fun id hpending expected replacement hlookup hid =>
    aliasSafe_pending hk hw hP hpending hlookup hid, ?_⟩
  intro k c pc hf
  obtain hbefore | ⟨request, -, hstart, -⟩ | ⟨a', e, h₀, rfl, hh₀, hstep, hdaemon⟩ :=
    running_step hf
  · obtain htrivial | hside := aliasPc_or_locked c pc
    · exact htrivial _
    refine (hw.creations k c pc hbefore).mono ?_ ?_ ?_
    · intro expected replacement hlookup
      obtain hold | ⟨k', c', rfl, hk', -, hdone⟩ := replacements_step hlookup
      · exact hold
      -- two creations would hold the write side
      · by_cases hkk : k' = k
        · subst hkk
          cases hf.symm.trans hdone
        · have hnone := hl k' _ k _ hk' hbefore hkk rfl
          cases hside.symm.trans hnone
    · intro expected he hdead
      exact alive_false_of_known hP.unrevived (expected_known hk hbefore he) hdead
    · intro expected replacement hr hdead
      exact alive_false_of_known hP.unrevived (hk.daemon.replacements _ _ hr).2 hdead
  · rw [start_create hstart.symm]
    trivial
  · rw [hdaemon]
    cases h₀ with
    | create c₀ pc₀ =>
      exact aliasPc_own (hk.handlers k _ hh₀) hstep (hw.creations k c₀ pc₀ hh₀)
    | _ => cases hstep

theorem fresh_locked (startedAt now epochMillis : Nat) :
    Locked (fresh startedAt now epochMillis) := by
  intro k f k' f' h
  cases h

theorem fresh_aliasSafe (startedAt now epochMillis : Nat) :
    AliasSafe (fresh startedAt now epochMillis) where
  pending _ _ _ _ h := by cases h
  creations _ _ _ h := by cases h

end DaemonWorld
end CcPanes

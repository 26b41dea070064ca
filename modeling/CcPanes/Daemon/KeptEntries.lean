import CcPanes.Daemon.RestoreOnce

/-!
# What a live session keeps

The claim, the birth record and the aliases of a session are cleaned up by the reaper, by a kill,
by a rejected creation and by an adoption snapshot.  Each of them decides on a list of sessions or
on the answer of the backend, and removes the entries in later steps.
-/

namespace CcPanes
open List Option

/-- the sessions a snapshot has found, as long as it has the claims to clean up -/
def AdoptionPc.retainsClaims : AdoptionPc → Option (List String)
  | .listed liveIds | .pruneTimed liveIds _ | .pruned liveIds => some liveIds
  | .entered | .claimsRetained _ => none

def AdoptionPc.retainsProvenance : AdoptionPc → Option (List String)
  | .claimsRetained liveIds => some liveIds
  | pc => pc.retainsClaims

def InFlight.listed : InFlight → Option (List String)
  | .running (.adoption pc) => pc.retainsClaims
  | _ => none

def CreatePc.unrecorded : CreatePc → Option String
  | .recorded _ => none
  | pc => pc.own

namespace DaemonWorld

variable {host : Host} {w : DaemonWorld} {a : DaemonAction} {id : String}
  {p : TerminalSessionProvenance} {owner : String} {liveIds : List String} {pc : AdoptionPc}

structure EntryCareful (w : DaemonWorld) (a : DaemonAction) : Prop where
  aliases : AliasCareful w a
  /-- the reaper does not take a session with a claim or a birth record for one that is gone -/
  unlisted : a = .sweep .clean → ∀ id, w.cleans a = some id →
    (∃ owner, LiveClaim w id owner) ∨ w.daemon.state.sessionProvenance.lookup id ≠ none →
      w.daemon.state.alive id = false
  /-- a live session is claimed while no clean-up that would remove the claim is under way -/
  granted : ∀ k h id owner now, a = .handler k .next → w.handlers.lookup k = some (.running h) →
    h.claiming = some (id, owner, now) →
      (∀ existing, w.daemon.state.sessionClaims.lookup id = some existing →
        existing.isLive now = true → existing.owner = owner) →
        w.daemon.state.alive id = true →
          ¬ Pending w (.forgetClaim id) ∧
            ∀ k' pc liveIds, w.handlers.lookup k' = some (.running (.adoption pc)) →
              pc.retainsClaims = some liveIds → id ∈ liveIds
  /-- and so it is recorded -/
  recorded : ∀ k c id birthNonce, a = .handler k (.record birthNonce) →
    w.handlers.lookup k = some (.running (.create c (.owned id))) →
      w.daemon.state.alive id = true → ¬ Pending w (.removeProvenance id)

def still (w : DaemonWorld) (a : DaemonAction) : Bool :=
  w.quiet a && w.handlers.entries.all fun f => f.2.listed.isNone

theorem entryCareful_of_still (h : w.still a = true) : EntryCareful w a := by
  obtain ⟨hquiet, hlisted⟩ := Bool.and_eq_true_iff.mp h
  obtain ⟨hcleans, hpending, -⟩ := not_cleaning_of_quiet hquiet
  refine ⟨aliasCareful_of_quiet hquiet, ?_, ?_, ?_⟩
  · intro _ id hid
    cases hcleans.symm.trans hid
  · intro k h id owner now _ _ _ _ _
    refine ⟨hpending _, fun k' pc liveIds hk' hretains => ?_⟩
    have hnone := all_eq_true.mp hlisted _ (FiniteMap.lookup_eq_some_iff.mp hk')
    have hsome : pc.retainsClaims = none := isNone_iff_eq_none.mp hnone
    cases hsome.symm.trans hretains
  · intro k c id birthNonce _ _ _
    exact hpending _

structure EntrySafe (w : DaemonWorld) : Prop where
  known : AllKnown w
  locked : Locked w
  clocked : Clocked w
  aliases : AliasSafe w
  claims : ∀ id owner, Pending w (.forgetClaim id) → w.daemon.state.alive id = true →
    ¬ LiveClaim w id owner
  provenance : ∀ id, Pending w (.removeProvenance id) → w.daemon.state.alive id = true →
    w.daemon.state.sessionProvenance.lookup id = none
  adoptedClaims : ∀ k pc liveIds, w.handlers.lookup k = some (.running (.adoption pc)) →
    pc.retainsClaims = some liveIds → ∀ id owner, w.daemon.state.alive id = true →
      LiveClaim w id owner → id ∈ liveIds
  adoptedProvenance : ∀ k pc liveIds, w.handlers.lookup k = some (.running (.adoption pc)) →
    pc.retainsProvenance = some liveIds → ∀ id, w.daemon.state.alive id = true →
      w.daemon.state.sessionProvenance.lookup id ≠ none → id ∈ liveIds
  unrecorded : ∀ k c pc, w.handlers.lookup k = some (.running (.create c pc)) →
    ∀ id, pc.unrecorded = some id → w.daemon.state.sessionProvenance.lookup id = none

theorem mem_ids_of_ops {h : Handler} {op : MapOp} (hop : op ∈ h.ops) : op.sessionId ∈ h.ids := by
  unfold Handler.ops at hop
  split at hop
  · exact .tail _ (mem_map_of_mem hop)
  · exact mem_append.mpr (.inr (mem_map_of_mem hop))
  · cases hop

theorem pending_known (hk : AllKnown w) {op : MapOp} (h : Pending w op) :
    op.sessionId ∈ w.daemon.known := by
  obtain hop | ⟨k, hd, hf, hop⟩ := h
  · exact hk.sweep _ (mem_append.mpr (.inl (mem_map_of_mem hop)))
  · exact hk.handlers k _ hf _ (mem_ids_of_ops hop)

theorem LiveClaim.known (hk : AllKnown w) (h : LiveClaim w id owner) : id ∈ w.daemon.known := by
  obtain ⟨claim, hlookup, -, -⟩ := h
  exact hk.daemon.claims id claim hlookup

theorem provenance_step (h : (w.step host a).daemon.state.sessionProvenance.lookup id = some p) :
    w.daemon.state.sessionProvenance.lookup id = some p ∨
      ∃ k c birthNonce, a = .handler k (.record birthNonce) ∧
        w.handlers.lookup k = some (.running (.create c (.owned id))) ∧
        (w.step host a).handlers.lookup k = some (.running (.create c (.recorded id))) := by
  obtain ⟨e, hcause, hsame⟩ := step_cause host w a
  rw [hsame.provenance] at h
  obtain ⟨rfl, hid⟩ | h := Daemon.provenance_perform h
  · cases hcause with
    | handler before hstep after =>
      cases hstep with
      | recorded =>
        subst hid
        exact .inr ⟨_, _, _, rfl, before, after⟩
  · exact .inl h

theorem pendingClaim_step (hw : EntrySafe w) (hP : EntryCareful w a)
    (hpending : Pending (w.step host a) (.forgetClaim id))
    (halive : (w.step host a).daemon.state.alive id = true) :
    ¬ LiveClaim (w.step host a) id owner := by
  intro hlive
  obtain hbefore | ⟨id', ⟨hcleans, hgone⟩, hop⟩ := pending_step hpending
  · have hknown : id ∈ w.daemon.known := pending_known hw.known hbefore
    have halive₀ := alive_of_known hP.aliases.unrevived hknown halive
    obtain hlive | ⟨k, hd, hd', claim, rfl, hk, rfl, hstep⟩ := liveClaim_step hlive
    · exact hw.claims id owner hbefore halive₀ hlive
    · obtain ⟨-, now, hclaiming, -, hfree⟩ := claiming_of_grant hstep
      exact (hP.granted k hd id claim.owner now rfl hk hclaiming hfree halive₀).1 hbefore
  have hsame : id = id' := by
    simpa [DaemonState.removeSessionActivity] using hop
  subst hsame
  by_cases hclean : a = .sweep .clean
  · obtain hlive | ⟨k, _, _, _, hact, -⟩ := liveClaim_step hlive
    · have hbefore := alive_of_known hP.aliases.unrevived (hlive.known hw.known) halive
      have hdead := hP.unlisted hclean id hcleans (.inl ⟨owner, hlive⟩)
      cases hdead.symm.trans hbefore
    · cases hclean.symm.trans hact
  · cases (hgone hclean).symm.trans halive

theorem pendingProvenance_step (hw : EntrySafe w) (hP : EntryCareful w a)
    (hpending : Pending (w.step host a) (.removeProvenance id))
    (halive : (w.step host a).daemon.state.alive id = true) :
    (w.step host a).daemon.state.sessionProvenance.lookup id = none := by
  refine eq_none_iff_forall_not_mem.mpr fun p hp => ?_
  obtain hbefore | ⟨id', ⟨hcleans, hgone⟩, hop⟩ := pending_step hpending
  · have hknown : id ∈ w.daemon.known := pending_known hw.known hbefore
    have halive₀ := alive_of_known hP.aliases.unrevived hknown halive
    obtain hp | ⟨k, c, birthNonce, rfl, hk, -⟩ := provenance_step hp
    · cases (hw.provenance id hbefore halive₀).symm.trans hp
    · exact hP.recorded k c id birthNonce rfl hk halive₀ hbefore
  have hsame : id = id' := by
    simpa [DaemonState.removeSessionActivity] using hop
  subst hsame
  by_cases hclean : a = .sweep .clean
  · obtain hp | ⟨k, _, _, hact, -⟩ := provenance_step hp
    · have hbefore := alive_of_known hP.aliases.unrevived (hw.known.daemon.provenance id p hp)
        halive
      have hsome : w.daemon.state.sessionProvenance.lookup id ≠ none := by
        simp [hp]
      cases (hP.unlisted hclean id hcleans (.inr hsome)).symm.trans hbefore
    · cases hclean.symm.trans hact
  · cases (hgone hclean).symm.trans halive

/-! ## what is about to be retained -/

theorem start_adoption {request : Request} (h : request.start = .adoption pc) : pc = .entered := by
  cases request with
  | guarded g | claim id appInstanceId header ttlMs
  | create =>
    rw [Request.start] at h
    split at h <;> cases h
  | adoption =>
    cases h
    rfl
  | release | status | claims => cases h

theorem retains_step {d : Daemon} {pc pc₀ : AdoptionPc} {a : HandlerAction} {e : Effect}
    (hstep : Handler.Step host d (.adoption pc₀) a e (.adoption pc)) :
    (pc.retainsClaims = some liveIds → pc₀.retainsClaims = some liveIds ∨
      e = .none ∧ ∀ id, d.state.alive id = true → id ∈ liveIds) ∧
    (pc.retainsProvenance = some liveIds → pc₀.retainsProvenance = some liveIds ∨
      e = .none ∧ ∀ id, d.state.alive id = true → id ∈ liveIds) := by
  cases hstep with
  | @adoptionListed live heq =>
    have hlisted : ∀ id, d.state.alive id = true → id ∈ live := by
      intro id halive
      obtain ⟨b, hb, rfl, hstatus⟩ := Daemon.alive_iff.mp halive
      rw [heq]
      exact mem_map_of_mem (mem_filter.mpr ⟨hb, decide_eq_true hstatus⟩)
    constructor
    all_goals
      intro h
      cases h
      exact .inr ⟨rfl, hlisted⟩
  | adoptionPruneTimed | adoptionPruned => exact ⟨.inl, .inl⟩
  | claimsRetained => exact ⟨fun h => (nomatch h), .inl⟩

theorem adoptedClaims_step (hw : EntrySafe w) (hP : EntryCareful w a) {k : Nat}
    (hk : (w.step host a).handlers.lookup k = some (.running (.adoption pc)))
    (hretains : pc.retainsClaims = some liveIds)
    (halive : (w.step host a).daemon.state.alive id = true)
    (hlive : LiveClaim (w.step host a) id owner) : id ∈ liveIds := by
  obtain hk₀ | ⟨request, -, hstart, -⟩ | ⟨a', e, h₀, rfl, hh₀, hstep, hdaemon⟩ := running_step hk
  · obtain hlive | ⟨k', hd, hd', claim, rfl, hk', rfl, hstep⟩ := liveClaim_step hlive
    · have hbefore := alive_of_known hP.aliases.unrevived (hlive.known hw.known) halive
      exact hw.adoptedClaims k pc liveIds hk₀ hretains id owner hbefore hlive
    obtain ⟨-, now, hclaiming, -, hfree⟩ := claiming_of_grant hstep
    obtain hbefore | ⟨_, _, _, hact, -⟩ := alive_step hP.aliases.unrevived halive
    · exact (hP.granted k' hd id claim.owner now rfl hk' hclaiming hfree hbefore).2
        k pc liveIds hk₀ hretains
    · cases hact
  · rw [start_adoption hstart.symm] at hretains
    cases hretains
  cases h₀ with
  | adoption pc₀ =>
    obtain hretains | ⟨rfl, hlisted⟩ := (retains_step hstep).1 hretains
    · obtain hlive | ⟨k', hd, hd', claim, hact, hk', -, hgrant⟩ := liveClaim_step hlive
      · have hbefore := alive_of_known hP.aliases.unrevived (hlive.known hw.known) halive
        exact hw.adoptedClaims k pc₀ liveIds hh₀ hretains id owner hbefore hlive
      · cases hact
        cases hh₀.symm.trans hk'
        cases hgrant
    · rw [hdaemon] at halive
      exact hlisted id halive
  | _ => cases hstep

theorem adoptedProvenance_step (hw : EntrySafe w) (hP : EntryCareful w a) {k : Nat}
    (hk : (w.step host a).handlers.lookup k = some (.running (.adoption pc)))
    (hretains : pc.retainsProvenance = some liveIds)
    (halive : (w.step host a).daemon.state.alive id = true)
    (hp : (w.step host a).daemon.state.sessionProvenance.lookup id = some p) : id ∈ liveIds := by
  obtain hk₀ | ⟨request, -, hstart, -⟩ | ⟨a', e, h₀, rfl, hh₀, hstep, hdaemon⟩ := running_step hk
  · obtain hp₀ | ⟨k', c, birthNonce, rfl, hk', hafter⟩ := provenance_step hp
    · have hknown := hw.known.daemon.provenance id p hp₀
      have hbefore := alive_of_known hP.aliases.unrevived hknown halive
      refine hw.adoptedProvenance k pc liveIds hk₀ hretains id hbefore ?_
      rw [hp₀]
      nofun
    -- a creation that records its session holds the lock
    · by_cases hkk : k' = k
      · subst hkk
        cases hk₀.symm.trans hk'
      · cases hw.locked k' _ k _ hk' hk₀ hkk rfl
  · rw [start_adoption hstart.symm] at hretains
    cases hretains
  cases h₀ with
  | adoption pc₀ =>
    obtain hretains | ⟨rfl, hlisted⟩ := (retains_step hstep).2 hretains
    · obtain hp₀ | ⟨k', c, birthNonce, hact, hk', -⟩ := provenance_step hp
      · have hbefore := alive_of_known hP.aliases.unrevived
          (hw.known.daemon.provenance id p hp₀) halive
        refine hw.adoptedProvenance k pc₀ liveIds hh₀ hretains id hbefore ?_
        rw [hp₀]
        nofun
      · cases hact
        cases hh₀.symm.trans hk'
    · rw [hdaemon] at halive
      exact hlisted id halive
  | _ => cases hstep

theorem own_of_unrecorded {pc : CreatePc} (h : pc.unrecorded = some id) : pc.own = some id := by
  cases pc with
  | recorded => cases h
  | _ => exact h

theorem unrecorded_own {d : Daemon} {c c₀ : Creation} {pc pc₀ : CreatePc} {a : HandlerAction}
    {e : Effect} (hstep : Handler.Step host d (.create c₀ pc₀) a e (.create c pc))
    (h : pc.unrecorded = some id) : pc₀.unrecorded = some id ∨ id ∉ d.known := by
  cases hstep with
  | registered hfresh =>
    cases h
    exact .inr hfresh
  | returned | createTouched | anonymous | ownTimed | ownGranted | ownRejected => exact .inl h
  | _ => cases h

theorem unrecorded_step (hw : EntrySafe w) {k : Nat} {c : Creation} {pc : CreatePc}
    (hk : (w.step host a).handlers.lookup k = some (.running (.create c pc)))
    (h : pc.unrecorded = some id) :
    (w.step host a).daemon.state.sessionProvenance.lookup id = none := by
  refine eq_none_iff_forall_not_mem.mpr fun p hp => ?_
  obtain hp₀ | ⟨k', c', birthNonce, rfl, hk', hafter⟩ := provenance_step hp
  · obtain hk₀ | ⟨request, -, hstart, -⟩ | ⟨a', e, h₀, rfl, hh₀, hstep, -⟩ := running_step hk
    · cases (hw.unrecorded k c pc hk₀ id h).symm.trans hp₀
    · rw [start_create hstart.symm] at h
      cases h
    cases h₀ with
    | create c₀ pc₀ =>
      obtain h₁ | hfresh := unrecorded_own hstep h
      · cases (hw.unrecorded k c₀ pc₀ hh₀ id h₁).symm.trans hp₀
      · exact hfresh (hw.known.daemon.provenance id p hp₀)
    | _ => cases hstep
  by_cases hkk : k' = k
  · subst hkk
    cases hk.symm.trans hafter
    cases h
  -- the creation that records its session is the only one that holds the lock
  · have hl : Locked (w.step host (.handler k' (.record birthNonce))) :=
      locked_step hw.locked (.handler k' (.record birthNonce))
    have hfree := hl k' _ k _ hafter hk hkk rfl
    cases (RestoreWorld.side_of_own (c := c) (own_of_unrecorded h)).symm.trans hfree

theorem entrySafe_step (hw : EntrySafe w) (hP : EntryCareful w a) :
    EntrySafe (w.step host a) where
  known := allKnown_step hw.known a
  locked := locked_step hw.locked a
  clocked := clocked_step hw.clocked a
  aliases := aliasSafe_step hw.known hw.locked hw.aliases hP.aliases
  claims _ _ hpending halive := pendingClaim_step hw hP hpending halive
  provenance _ hpending halive := pendingProvenance_step hw hP hpending halive
  adoptedClaims _ _ _ hk hretains _ _ halive hlive :=
    adoptedClaims_step hw hP hk hretains halive hlive
  adoptedProvenance _ _ _ hk hretains _ halive hp := by
    obtain ⟨p, hp⟩ := ne_none_iff_exists'.mp hp
    exact adoptedProvenance_step hw hP hk hretains halive hp
  unrecorded _ _ _ hk _ h := unrecorded_step hw hk h

/-! ## what a careful step keeps -/

def Holds (w : DaemonWorld) (id owner : String) : Prop :=
  ∃ claim, w.daemon.state.sessionClaims.lookup id = some claim ∧ claim.owner = owner

def Releases (w : DaemonWorld) (a : DaemonAction) (id owner : String) : Prop :=
  ∃ k now, a = .handler k .next ∧
    w.handlers.lookup k = some (.running (.release id owner (some now)))

theorem claim_kept_step (hw : EntrySafe w) (hrel : ¬ Releases w a id owner)
    (halive : w.daemon.state.alive id = true) (h : LiveClaim w id owner) :
    Holds (w.step host a) id owner := by
  obtain ⟨claim, hlookup, howner, hlive⟩ := h
  obtain ⟨e, hcause, hsame⟩ := step_cause host w a
  unfold Holds
  rw [hsame.claims]
  -- an instant at which the claim has expired would lie in the future
  have hpast : ∀ k h now, w.handlers.lookup k = some (.running h) → instant h = some now →
      claim.isLive now = true :=
    fun k h now hk hnow => isLive_mono (hw.clocked k h now hk hnow) hlive
  obtain hkept | rfl | ⟨claim', rfl⟩ | rfl | ⟨now, rfl, hdead⟩ | ⟨liveIds, rfl, hid⟩ :=
    Daemon.claim_kept (e := e) hlookup
  · exact ⟨claim, hkept, howner⟩
  · have hpending := pending_of_op hcause nofun
    exact absurd ⟨claim, hlookup, howner, hlive⟩ (hw.claims id owner hpending halive)
  · cases hcause with
    | handler before hstep =>
      obtain ⟨-, now, -, hnow, hfree⟩ := claiming_of_grant hstep
      have hsame := hfree claim hlookup (hpast _ _ now before hnow)
      exact ⟨claim', AList.lookup_insert _, hsame.symm.trans howner⟩
  · cases hcause with
    | handler before hstep =>
      cases hstep with
      | @released _ owner' now existing hexisting hreleased =>
        cases hlookup.symm.trans hexisting
        obtain rfl | hdead := hreleased
        · exact absurd ⟨_, now, rfl, howner ▸ before⟩ hrel
        · cases hdead.symm.trans (hpast _ _ now before rfl)
  · cases hcause with
    | handler before hstep =>
      cases hstep with
      | claimPruned | claimsPruned | adoptionPruned =>
        cases hdead.symm.trans (hpast _ _ now before rfl)
  · cases hcause with
    | handler before hstep =>
      cases hstep with
      | claimsRetained =>
        exact absurd (hw.adoptedClaims _ _ liveIds before rfl id owner halive
          ⟨claim, hlookup, howner, hlive⟩) hid

theorem provenance_kept_step (hw : EntrySafe w) (a : DaemonAction)
    (halive : w.daemon.state.alive id = true)
    (h : w.daemon.state.sessionProvenance.lookup id = some p) :
    (w.step host a).daemon.state.sessionProvenance.lookup id = some p := by
  obtain ⟨e, hcause, hsame⟩ := step_cause host w a
  rw [hsame.provenance]
  have hsome : w.daemon.state.sessionProvenance.lookup id ≠ none := by
    rw [h]
    nofun
  obtain hkept | rfl | ⟨liveIds, rfl, hid⟩ | ⟨p', rfl, rfl⟩ := Daemon.provenance_kept (e := e) h
  · exact hkept
  · exact absurd (hw.provenance id (pending_of_op hcause nofun) halive) hsome
  · cases hcause with
    | handler before hstep =>
      cases hstep with
      | provenanceRetained =>
        exact absurd (hw.adoptedProvenance _ _ liveIds before rfl id halive hsome) hid
  · cases hcause with
    | handler before hstep =>
      cases hstep with
      | recorded => exact absurd (hw.unrecorded _ _ _ before _ rfl) hsome

theorem fresh_entrySafe (startedAt now epochMillis : Nat) :
    EntrySafe (fresh startedAt now epochMillis) where
  known := fresh_known startedAt now epochMillis
  locked := fresh_locked startedAt now epochMillis
  clocked := Unserved.clocked rfl
  aliases := fresh_aliasSafe startedAt now epochMillis
  claims _ _ _ h := by cases h
  provenance _ _ h := by cases h
  adoptedClaims _ _ _ h := by cases h
  adoptedProvenance _ _ _ h := by cases h
  unrecorded _ _ _ h := by cases h

def Unexpired (w : DaemonWorld) (id owner : String) : Prop :=
  ∀ claim, w.daemon.state.sessionClaims.lookup id = some claim → claim.owner = owner →
    claim.isLive w.daemon.now = true

/-- In every run of careful steps, from any moment on and as long as a session is alive: a claim on
it that does not expire and is not released by its owner stays in the table; its birth record stays;
and an alias that leads to it stays. -/
theorem entries_kept (host : Host) (startedAt now epochMillis : Nat) (as : List DaemonAction)
    (hok : Run.StepsOk (step host) EntryCareful (fresh startedAt now epochMillis) as)
    (pre mid post : List DaemonAction) (heq : as = pre ++ (mid ++ post)) (id : String)
    (halive : Run.Along (step host) (fun w => w.daemon.state.alive id = true)
      (Run.run (step host) (fresh startedAt now epochMillis) pre) mid) :
    (∀ owner, LiveClaim (Run.run (step host) (fresh startedAt now epochMillis) pre) id owner →
      Run.StepsOk (step host) (fun w a => ¬ Releases w a id owner)
          (Run.run (step host) (fresh startedAt now epochMillis) pre) mid →
        Run.Along (step host) (fun w => Unexpired w id owner)
            (Run.run (step host) (fresh startedAt now epochMillis) pre) mid →
          Holds (Run.run (step host) (fresh startedAt now epochMillis) (pre ++ mid)) id owner) ∧
      (∀ p, (Run.run (step host) (fresh startedAt now epochMillis)
            pre).daemon.state.sessionProvenance.lookup id = some p →
          (Run.run (step host) (fresh startedAt now epochMillis)
            (pre ++ mid)).daemon.state.sessionProvenance.lookup id = some p) ∧
      ∀ expected, (Run.run (step host) (fresh startedAt now epochMillis)
            pre).daemon.state.restoreReplacements.lookup expected = some id →
          (Run.run (step host) (fresh startedAt now epochMillis)
            (pre ++ mid)).daemon.state.restoreReplacements.lookup expected = some id := by
  rw [Run.run_append]
  rw [heq] at hok
  obtain ⟨hpre, hrest⟩ := hok.of_append
  have hmid := hrest.of_append.1
  have hsafe : EntrySafe (Run.run (step host) (fresh startedAt now epochMillis) pre) :=
    (Run.along_of_inv (I := EntrySafe) (fun _ _ hw hP => entrySafe_step hw hP)
      (fresh_entrySafe startedAt now epochMillis) hpre).last
  refine ⟨?_, ?_, ?_⟩
  · intro owner hlive hrel hunexpired
    obtain ⟨claim, hlookup, howner, -⟩ := hlive
    refine Run.kept_along (I := EntrySafe) (K := fun w => Holds w id owner)
      (C := fun w => w.daemon.state.alive id = true ∧ Unexpired w id owner)
      (fun _ _ hw hP => entrySafe_step hw hP.1) ?_ hsafe ⟨claim, hlookup, howner⟩
      (hmid.and hrel) (halive.and hunexpired)
    rintro w a hw ⟨-, hrel⟩ ⟨halive, hunexpired⟩ - ⟨claim, hlookup, howner⟩
    exact claim_kept_step hw hrel halive
      ⟨claim, hlookup, howner, hunexpired claim hlookup howner⟩
  · intro p hp
    exact Run.kept_along (I := EntrySafe)
      (K := fun w : DaemonWorld => w.daemon.state.sessionProvenance.lookup id = some p)
      (fun _ _ hw hP => entrySafe_step hw hP)
      (fun _ a hw _ halive _ hp => provenance_kept_step hw a halive hp) hsafe hp hmid halive
  · intro expected h
    exact Run.kept_along (I := EntrySafe)
      (K := fun w : DaemonWorld => w.daemon.state.restoreReplacements.lookup expected = some id)
      (fun _ _ hw hP => entrySafe_step hw hP)
      (fun _ _ hw hP _ halive h => alias_kept hw.known hw.aliases hP.aliases h halive)
      hsafe h hmid halive

def listRun (live : List BackendSession) : List DaemonAction :=
  [.sweep (.wake false 60), .sweep (.list (some live)), .sweep .readNow, .sweep .readEpoch]

def cleanRun (active : List String) : List DaemonAction :=
  [.sweep (.sample active), .sweep .clean, .sweep .op, .sweep .op, .sweep .op, .sweep .op]

def sampleAfter (as : List DaemonAction) : DaemonWorld :=
  Run.run (step sampleHost) (fresh 0 0 0) as

open RestoreWorld (restoreStart createRun)

theorem entries_kept_r1 :
    Holds (sampleAfter (restoreStart 0 ++ createRun 0 "r1" ++ restoreStart 1)) "r1" "app-a" ∧
      (sampleAfter (restoreStart 0 ++ createRun 0 "r1" ++
        restoreStart 1)).daemon.state.restoreReplacements.lookup "e" = some "r1" := by
  have hstill : Run.StepsOk (step sampleHost) (fun w a => w.still a = true) (fresh 0 0 0)
      (restoreStart 0 ++ createRun 0 "r1" ++ restoreStart 1) := by
    decide
  have hok := hstill.mono fun _ _ h => entryCareful_of_still h
  obtain ⟨hclaim, -, halias⟩ := entries_kept sampleHost 0 0 0 _ hok
    (restoreStart 0 ++ createRun 0 "r1") (restoreStart 1) [] rfl "r1" ⟨rfl, rfl, rfl, rfl, rfl⟩
  refine ⟨hclaim "app-a" ⟨⟨"app-a", 30000000000⟩, rfl, rfl, rfl⟩ ?_ ?_, halias "e" rfl⟩
  · refine ⟨?_, ?_, ?_, ?_, trivial⟩
    all_goals
      rintro ⟨k, now, ⟨⟩, hk⟩
    all_goals cases hk
  refine ⟨?_, ?_, ?_, ?_, ?_⟩
  all_goals
    intro claim hlookup _
    have hclaim : (⟨"app-a", 30000000000⟩ : SessionClaim) = claim := some.inj hlookup
    subst hclaim
    rfl

/-- a session that is created between the listing and the sample -/
def unlistedBirth : List DaemonAction := listRun [] ++ restoreStart 0 ++ createRun 0 "r1"

/-- It loses its three entries.  And the alias of a session goes with the activity of the session
that was expected. -/
theorem entries_lost :
    (LiveClaim (sampleAfter unlistedBirth) "r1" "app-a" ∧
      (sampleAfter unlistedBirth).daemon.state.sessionProvenance.lookup "r1" ≠ none ∧
      (sampleAfter unlistedBirth).daemon.state.restoreReplacements.lookup "e" = some "r1" ∧
      Run.Along (step sampleHost) (fun w => w.daemon.state.alive "r1" = true)
        (sampleAfter unlistedBirth) (cleanRun ["r1"]) ∧
      (∀ a ∈ cleanRun ["r1"], ∀ w, ¬ Releases w a "r1" "app-a") ∧
      (sampleAfter (unlistedBirth ++ cleanRun ["r1"])).daemon.now = 0 ∧
      (sampleAfter (unlistedBirth ++ cleanRun ["r1"])).daemon.state.sessionClaims.lookup "r1" =
        none ∧
      (sampleAfter (unlistedBirth ++ cleanRun ["r1"])).daemon.state.sessionProvenance.lookup "r1" =
        none ∧
      (sampleAfter (unlistedBirth ++ cleanRun ["r1"])).daemon.state.restoreReplacements.lookup
        "e" = none) ∧
    (sampleAfter (restoreStart 0 ++ createRun 0 "r1")).daemon.state.restoreReplacements.lookup
        "e" = some "r1" ∧
      Run.Along (step sampleHost) (fun w => w.daemon.state.alive "r1" = true)
        (sampleAfter (restoreStart 0 ++ createRun 0 "r1"))
        (RestoreWorld.pollAndSweep 1 [⟨"r1", .idle, 0⟩] ["e", "r1"]) ∧
      (sampleAfter (restoreStart 0 ++ createRun 0 "r1" ++
        RestoreWorld.pollAndSweep 1 [⟨"r1", .idle, 0⟩]
          ["e", "r1"])).daemon.state.restoreReplacements.lookup "e" = none := by
  refine ⟨⟨⟨⟨"app-a", 30000000000⟩, rfl, rfl, rfl⟩, by decide, rfl, ⟨rfl, rfl, rfl, rfl, rfl, rfl,
    rfl⟩, ?_, rfl, rfl, rfl, rfl⟩, rfl, ⟨rfl, rfl, rfl, rfl, rfl, rfl, rfl, rfl, rfl, rfl, rfl, rfl,
    rfl, rfl, rfl⟩, rfl⟩
  rintro a ha w ⟨k, now, rfl, -⟩
  simp [cleanRun] at ha

end DaemonWorld
end CcPanes

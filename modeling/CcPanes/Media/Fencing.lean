import CcPanes.Media.WorkerProtocol

/-!
# Workers are fenced

Only a claim sets the owner of a lease.  So a run that is held for an owner was claimed last for
that owner, and a fenced write (`WHERE lease_owner = …`) comes from the owner of the last claim.
-/

namespace CcPanes
open CallProgram MediaService MediaJobWorker MediaShared List Option Function

variable {s s' : MediaShared} {run : MediaRun} {c : MediaCall} {r : c.Answer}
  {events : List MediaEvent}

/-- the thread, the owner and the attempt of the last claim of the run -/
def lastClaim (id : String) : List MediaEvent → Option (Nat × String × Nat)
  | [] => none
  | .claimed i owner id' attempt :: t => if id' = id then some (i, owner, attempt) else lastClaim id t
  | _ :: t => lastClaim id t

theorem lastClaim_claimed (i : Nat) (owner id : String) (attempt : Nat) (t : List MediaEvent) :
    lastClaim id (.claimed i owner id attempt :: t) = some (i, owner, attempt) := if_pos rfl

theorem lastClaim_claimed_ne {id id' : String} (h : id' ≠ id) (i : Nat) (owner : String)
    (attempt : Nat) (t : List MediaEvent) :
    lastClaim id (.claimed i owner id' attempt :: t) = lastClaim id t := if_neg h

def NoClaim (events : List MediaEvent) : Prop :=
  ∀ i owner id attempt, .claimed i owner id attempt ∉ events

theorem lastClaim_append (h : NoClaim events) (id : String) (t : List MediaEvent) :
    lastClaim id (events ++ t) = lastClaim id t := by
  induction events with
  | nil => rfl
  | cons e events ih =>
    have htail := ih fun i owner id attempt hmem => h i owner id attempt (mem_cons_of_mem _ hmem)
    cases e with
    | claimed i owner id' attempt => exact absurd mem_cons_self (h i owner id' attempt)
    | _ => exact htail

/-! ## what a call does to a row -/

theorem heldBy_iff {owner : String} :
    run.heldBy owner = true ↔ run.leaseOwner = some owner := decide_eq_true_iff

theorem fenced_iff {owner : String} {now : Nat} :
    MediaDb.fenced owner now run = true ↔
      run.leaseOwner = some owner ∧ run.leaseLive now = true ∧ run.status.isTerminal = false := by
  simp only [MediaDb.fenced, Bool.and_eq_true, heldBy_iff, Bool.not_eq_true', and_assoc]

section
variable {i now : Nat} {id : String} {run' : MediaRun}

section
variable (h : RowChange i now c r id run run' events)
include h

theorem MediaShared.RowChange.id_eq : run'.id = run.id := by
  cases h <;> rfl

theorem MediaShared.RowChange.lease :
    run'.leaseOwner = run.leaseOwner ∧ run'.attempt = run.attempt ∨ run'.leaseOwner = none := by
  cases h <;> first | exact .inl ⟨rfl, rfl⟩ | exact .inr rfl

theorem MediaShared.RowChange.noClaim :
    NoClaim events := by
  cases h <;> rintro _ _ _ _ hmem <;> simp at hmem

theorem MediaShared.RowChange.wrote {j : Nat} {owner id' : String}
    (hmem : .wrote j owner id' ∈ events) {σ : MediaLocal} (hallows : mediaProtocol.allows σ c) :
    j = i ∧ id' = id ∧ run.leaseOwner = some owner ∧
      ∃ e, σ = .worker e ∧ owner = e.owner ∧ id = e.id := by
  cases h with
  | leased id o req run hfenced =>
    obtain ⟨⟩ := mem_singleton.mp hmem
    cases σ with
    | user => exact hallows.elim
    | worker e => exact ⟨rfl, rfl, (fenced_iff.mp hfenced).1, e, rfl, hallows.2.1, hallows.1⟩
  | renewed id o d run hheld =>
    rcases mem_cons.mp hmem with hmem | hmem
    · cases hmem
    obtain ⟨⟩ := mem_singleton.mp hmem
    cases σ with
    | user => exact hallows.elim
    | worker e => exact ⟨rfl, rfl, heldBy_iff.mp hheld, e, rfl, hallows.2.1, hallows.1⟩
  | cleared id o run hheld =>
    obtain ⟨⟩ := mem_singleton.mp hmem
    cases σ with
    | user => exact hallows.elim
    | worker e => exact ⟨rfl, rfl, heldBy_iff.mp hheld, e, rfl, hallows.2, hallows.1⟩
  | updated => cases hmem
  | retried => cases hmem
  | prioritized => cases hmem
  | event => cases hmem

theorem MediaShared.RowChange.status {σ : MediaLocal} (hallows : mediaProtocol.allows σ c) :
    run'.attempt = run.attempt ∧ run.status.canTransitionTo run'.status = true ∨
      c = .retryRun id ∧ run' = run.retry ∧
        (run.status = .failed ∨ run.status = .canceled) := by
  have hsame : run.status.canTransitionTo run.status = true :=
    MediaRunStatus.canTransitionTo_self run.status
  cases h with
  | leased =>
    cases σ with
    | user => exact hallows.elim
    | worker =>
      rcases hallows.2.2 with ⟨next, progress, code, message, -, hedge, rfl⟩ |
        ⟨job, progress, -, hedge, rfl⟩
      · exact .inl ⟨rfl, hedge⟩
      · exact .inl ⟨rfl, hedge⟩
  | updated =>
    cases σ with
    | worker => exact hallows.elim
    | user =>
      obtain ⟨next, progress, -, hedge, rfl⟩ := hallows
      exact .inl ⟨rfl, hedge⟩
  | event =>
    cases σ with
    | worker => exact hallows.elim
    | user =>
      refine .inl ⟨rfl, ?_⟩
      rw [MediaRun.apply, hallows.1]
      exact hsame
  | retried id run hstatus => exact .inr ⟨rfl, rfl, hstatus⟩
  | renewed => exact .inl ⟨rfl, hsame⟩
  | cleared => exact .inl ⟨rfl, hsame⟩
  | prioritized => exact .inl ⟨rfl, hsame⟩

end

end

def MediaShared.Adds (i : Nat) (s : MediaShared) (c : MediaCall) : MediaEvent → Prop
  | .claimed _ _ _ _ => False
  | .wrote _ _ _ | .stored _ _ _ _ => True
  | .renewed j id attempt => j = i ∧ ∃ owner leaseDuration run,
    c = .renewRunLease id owner leaseDuration ∧ s.db.runs id = some run ∧
      run.leaseOwner = some owner ∧ attempt = run.attempt
  | .submitted j id attempt => j = i ∧ c = .submit id attempt
  | .returned j id attempt _ => j = i ∧ c = .submitAnswer id attempt
  | .reported j id remote _ => j = i ∧ c = .poll id remote
  | .canceledJob j id remote => j = i ∧ c = .cancel id remote

namespace MediaShared.CallEffect
variable {i : Nat}

section
variable (h : CallEffect i s c r s')
include h

theorem grows :
    ∃ events, s'.trace = events ++ s.trace ∧ ∀ event ∈ events, Adds i s c event := by
  cases h with
  | quiet => exact ⟨[], rfl, by simp⟩
  | row c r id run run' events hrow hchange =>
    refine ⟨events, rfl, ?_⟩
    cases hchange with
    | renewed id owner leaseDuration run hheld =>
      have hrenewed : Adds i s (.renewRunLease id owner leaseDuration)
          (.renewed i id run.attempt) :=
        ⟨rfl, owner, leaseDuration, run, rfl, hrow, heldBy_iff.mp hheld, rfl⟩
      exact forall_mem_cons.mpr ⟨hrenewed, forall_mem_singleton.mpr trivial⟩
    | leased => exact forall_mem_singleton.mpr trivial
    | cleared => exact forall_mem_singleton.mpr trivial
    | updated | retried | prioritized | event => exact forall_mem_nil _
  | stored =>
    exact ⟨_, rfl, forall_mem_cons.mpr ⟨trivial, forall_mem_singleton.mpr trivial⟩⟩
  | submitted runId attempt | returned runId attempt job | reported runId remote report
  | canceledJob => exact ⟨[_], rfl, forall_mem_singleton.mpr ⟨rfl, rfl⟩⟩

theorem mono {e : MediaEvent} (he : e ∈ s.trace) : e ∈ s'.trace := by
  obtain ⟨events, htrace, -⟩ := h.grows
  rw [htrace]
  exact mem_append_right _ he

theorem added {e : MediaEvent} (he : e ∈ s'.trace) :
    e ∈ s.trace ∨ Adds i s c e := by
  obtain ⟨events, htrace, hadds⟩ := h.grows
  rw [htrace] at he
  rcases mem_append.mp he with hnew | hold
  · exact .inr (hadds e hnew)
  · exact .inl hold

theorem lastClaim_eq (id : String) :
    lastClaim id s'.trace = lastClaim id s.trace := by
  cases h with
  | row c r id' run run' events hrow h => exact lastClaim_append h.noClaim id s.trace
  | _ => rfl

theorem claimed_inv {j : Nat} {owner id : String} {attempt : Nat}
    (hmem : .claimed j owner id attempt ∈ s'.trace) : .claimed j owner id attempt ∈ s.trace :=
  (h.added hmem).resolve_right fun hnew => hnew

theorem row_cases (id : String) :
    s'.db.runs id = s.db.runs id ∨ ∃ run run' events, s.db.runs id = some run ∧
      s'.db.runs id = some run' ∧ RowChange i s.clock c r id run run' events ∧
      s'.trace = events ++ s.trace := by
  cases h with
  | row c r id' run run' events hrow h =>
    by_cases hid : id = id'
    · subst hid
      exact .inr ⟨run, run', events, hrow, update_self id _ _, h, rfl⟩
    · exact .inl (update_of_ne hid _ _)
  | _ => exact .inl rfl

theorem keyed (hkeys : s.db.Keyed) : s'.db.Keyed := by
  cases h with
  | row c r id run run' events hrow h => exact hkeys.setRun (h.id_eq.trans (hkeys id run hrow))
  | _ => exact hkeys

end

end MediaShared.CallEffect

def writeRow (i : Nat) (s : MediaShared) (e : Execution) (run : MediaRun)
    (events : List MediaEvent) : MediaShared :=
  { s with db := s.db.setRun e.id run, trace := events ++ .wrote i e.owner e.id :: s.trace }

/-- what a call of the execution does, and the stage after it -/
inductive ExecutionStep (i : Nat) (s : MediaShared) (e : Execution) :
    MediaCall → MediaShared → MediaStage → Prop
  | quiet (c : MediaCall) : ExecutionStep i s e c s e.stage
  | refused (c : MediaCall) (hstage : e.stage = .pending) : ExecutionStep i s e c s .refused
  | moved (run : MediaRun) (next : MediaRunStatus) (progress : Option Int)
      (errorCode errorMessage : Option String) (hrow : s.db.runs e.id = some run)
      (hfenced : MediaDb.fenced e.owner s.clock run = true) (hnext : e.Permits next)
      (hedge : run.status.canTransitionTo next = true) :
      ExecutionStep i s e (.updateRunForOwnerFromStatus e.id e.owner run.status
          (transitionRequest next progress errorCode errorMessage))
        (writeRow i s e (run.apply (transitionRequest next progress errorCode errorMessage)) [])
        e.stage
  | recorded (run : MediaRun) (job : RemoteJob) (progress : Option Int)
      (hrow : s.db.runs e.id = some run) (hfenced : MediaDb.fenced e.owner s.clock run = true)
      (hstage : e.stage = .returned job) (hedge : run.status.canTransitionTo .processing = true) :
      ExecutionStep i s e (.updateRunForOwnerFromStatus e.id e.owner run.status
          (recordRequest .processing job.id progress))
        (writeRow i s e (run.apply (recordRequest .processing job.id progress)) [])
        (.tracking job.id (some job) [])
  | renewed (run : MediaRun) (leaseDuration : Nat) (stage : MediaStage)
      (hrow : s.db.runs e.id = some run) (howner : run.leaseOwner = some e.owner)
      (hstatus : run.status.isTerminal = false)
      (hstage : e.stage = .fresh false ∧ stage = .renewed ∨
        (∃ remote report stored, e.stage = .tracking remote report stored) ∧ stage = e.stage) :
      ExecutionStep i s e (.renewRunLease e.id e.owner leaseDuration) (writeRow i s e
        { run with leaseExpiresAt := some (s.clock + leaseDuration) }
        [.renewed i e.id run.attempt]) stage
  | cleared (run : MediaRun) (hrow : s.db.runs e.id = some run)
      (howner : run.leaseOwner = some e.owner) :
      ExecutionStep i s e (.clearRunLease e.id e.owner)
        (writeRow i s e { run with leaseOwner := none, leaseExpiresAt := none } []) e.stage
  | stored (run : MediaRun) (remote : String) (report : RemoteJob)
      (stored : List (RemoteOutput × String)) (output : RemoteOutput) (assetId : String)
      (hrow : s.db.runs e.id = some run) (hfenced : MediaDb.fenced e.owner s.clock run = true)
      (hstage : e.stage = .tracking remote (some report) stored) :
      ExecutionStep i s e (.insertAssetForRunOwner e.id e.owner output assetId)
        { s with
          db := { s.db with
            outputs := Function.update s.db.outputs e.id (s.db.outputs e.id ++ [assetId]) }
          trace := .stored i e.id output assetId :: .wrote i e.owner e.id :: s.trace }
        (.tracking remote (some report) (stored ++ [(output, assetId)]))
  | submitted (hstage : e.stage = .renewed) :
      ExecutionStep i s e (.submit e.id e.attempt) (s.note (.submitted i e.id e.attempt)) .pending
  | returned (job : RemoteJob) (hstage : e.stage = .pending) :
      ExecutionStep i s e (.submitAnswer e.id e.attempt) (s.note (.returned i e.id e.attempt job))
        (.returned job)
  | reported (remote : String) (old : Option RemoteJob) (report : RemoteJob)
      (hstage : e.stage = .tracking remote old []) :
      ExecutionStep i s e (.poll e.id remote) (s.note (.reported i e.id remote report))
        (.tracking remote (some report) [])
  | canceled (remote : String) (old : Option RemoteJob) (hstage : e.stage = .tracking remote old []) :
      ExecutionStep i s e (.cancel e.id remote) (s.note (.canceledJob i e.id remote))
        (.cancelled remote)
  | canceledOther (remote : String) (stage : MediaStage) (hoff : e.off = true)
      (hstored : e.stage.stored = [])
      (hstage : stage = e.stage ∨
        ∃ known old, e.stage = .tracking known old [] ∧ stage = .cancelled known) :
      ExecutionStep i s e (.cancel e.id remote) (s.note (.canceledJob i e.id remote)) stage

theorem execution_step {i : Nat} {e : Execution} (hallows : e.Allows c)
    (heffect : CallEffect i s c r s') : ExecutionStep i s e c s' (e.stage.next c r) := by
  cases heffect with
  | quiet c r hquiet =>
    have hnext : e.stage.next c r = e.stage ∨ e.stage = .pending ∧ e.stage.next c r = .refused := by
      generalize e.stage = stage
      unfold MediaStage.next
      split
      all_goals first
        | exact .inl rfl
        | exact .inr ⟨rfl, rfl⟩
        | cases hquiet.1
        | exact hquiet.elim
        | exact absurd rfl hquiet
        | exact absurd rfl (hquiet _)
    rcases hnext with hnext | ⟨hstage, hnext⟩
    · rw [hnext]
      exact .quiet c
    · rw [hnext]
      exact .refused c hstage
  | row c r id run run' events hrow hchange =>
    cases hchange with
    | leased id owner req run hfenced =>
      obtain ⟨rfl, rfl, hlegal⟩ := hallows
      rcases hlegal with ⟨next, progress, code, message, hnext, hedge, rfl⟩ |
        ⟨job, progress, hstage, hedge, rfl⟩
      · rw [MediaStage.next_transition]
        exact .moved run next progress code message hrow hfenced hnext hedge
      · rw [hstage]
        exact .recorded run job progress hrow hfenced hstage hedge
    | renewed id owner leaseDuration run hheld hstatus =>
      obtain ⟨rfl, rfl, hmay⟩ := hallows
      refine .renewed run leaseDuration _ hrow (heldBy_iff.mp hheld) hstatus ?_
      cases hstage : e.stage with
      | fresh canceling =>
        rw [hstage] at hmay
        obtain rfl : canceling = false := hmay
        exact .inl ⟨rfl, rfl⟩
      | tracking remote report stored => exact .inr ⟨⟨remote, report, stored, rfl⟩, rfl⟩
      | _ =>
        rw [hstage] at hmay
        exact hmay.elim
    | cleared id owner run hheld =>
      obtain ⟨rfl, rfl⟩ := hallows
      rw [MediaStage.next_plain _ (.clearRunLease e.id e.owner) trivial]
      exact .cleared run hrow (heldBy_iff.mp hheld)
    | updated => exact hallows.elim
    | retried => exact hallows.elim
    | prioritized => exact hallows.elim
    | event => exact hallows.elim
  | stored runId owner output assetId run hrow hfenced =>
    obtain ⟨rfl, rfl, hstore⟩ := hallows
    cases hstage : e.stage with
    | tracking remote report stored =>
      cases report with
      | none =>
        rw [hstage] at hstore
        exact hstore.elim
      | some report => exact .stored run remote report stored output assetId hrow hfenced hstage
    | _ =>
      rw [hstage] at hstore
      exact hstore.elim
  | submitted =>
    obtain ⟨rfl, rfl, hstage⟩ := hallows
    rw [hstage]
    exact .submitted hstage
  | returned runId attempt job =>
    obtain ⟨rfl, rfl, hstage⟩ := hallows
    rw [hstage]
    exact .returned job hstage
  | reported runId remote report =>
    obtain ⟨rfl, old, hstage⟩ := hallows
    rw [hstage]
    exact .reported remote old report hstage
  | canceledJob runId remote =>
    obtain ⟨rfl, hstored, hcase⟩ := hallows
    rcases hcase with hoff | ⟨old, hstage⟩
    · refine .canceledOther remote _ hoff hstored ?_
      cases hstage : e.stage with
      | tracking known old stored =>
        rw [hstage] at hstored
        obtain rfl : stored = [] := hstored
        exact .inr ⟨known, old, rfl, rfl⟩
      | fresh canceling => cases canceling <;> exact .inl rfl
      | _ => exact .inl rfl
    · rw [hstage]
      exact .canceled remote old hstage

theorem claimed_runs_self (s : MediaShared) (owner : String) (leaseDuration : Nat) (run : MediaRun) :
    (MediaWorld.claimed s owner leaseDuration run).db.runs run.id =
      some (run.claim owner (s.clock + leaseDuration)) := update_self _ _ _

theorem claimed_runs_ne {id : String} (h : id ≠ run.id) (s : MediaShared) (owner : String)
    (leaseDuration : Nat) :
    (MediaWorld.claimed s owner leaseDuration run).db.runs id = s.db.runs id :=
  update_of_ne h _ _

theorem claim_edge (run : MediaRun) (owner : String) (leaseExpiresAt : Nat) :
    run.status.canTransitionTo (run.claim owner leaseExpiresAt).status = true := by
  rw [MediaRun.claim]
  by_cases hqueued : run.status = .queued
  · rw [if_pos hqueued, hqueued]
    rfl
  · rw [if_neg hqueued]
    exact MediaRunStatus.canTransitionTo_self run.status

/-! ## the invariant -/

/-- a write comes from a worker whose owner claimed the run last -/
def WritesFenced (trace : List MediaEvent) : Prop :=
  ∀ newer i owner id older, trace = newer ++ .wrote i owner id :: older →
    (∃ attempt, .claimed i owner id attempt ∈ older) ∧
      ∃ j attempt, lastClaim id older = some (j, owner, attempt)

theorem WritesFenced.cons {t : List MediaEvent} (h : WritesFenced t) {e : MediaEvent}
    (he : ∀ i owner id, e = .wrote i owner id → (∃ attempt, .claimed i owner id attempt ∈ t) ∧
      ∃ j attempt, lastClaim id t = some (j, owner, attempt)) : WritesFenced (e :: t) := by
  rintro newer i owner id older hsplit
  cases newer with
  | nil =>
    obtain ⟨rfl, rfl⟩ := cons.inj hsplit
    exact he i owner id rfl
  | cons e' newer => exact h newer i owner id older (cons.inj hsplit).2

theorem WritesFenced.append {t : List MediaEvent} (h : WritesFenced t)
    (hclaims : NoClaim events) (hnew : ∀ i owner id, .wrote i owner id ∈ events →
      (∃ attempt, .claimed i owner id attempt ∈ t) ∧
        ∃ j attempt, lastClaim id t = some (j, owner, attempt)) : WritesFenced (events ++ t) := by
  induction events with
  | nil => exact h
  | cons e events ih =>
    have hclaims' : NoClaim events := fun i owner id attempt hmem =>
      hclaims i owner id attempt (mem_cons_of_mem _ hmem)
    refine (ih hclaims' fun i owner id hmem => hnew i owner id (mem_cons_of_mem _ hmem)).cons ?_
    rintro i owner id rfl
    obtain ⟨⟨attempt, hmem⟩, hlast⟩ := hnew i owner id mem_cons_self
    rw [lastClaim_append hclaims']
    exact ⟨⟨attempt, mem_append_right _ hmem⟩, hlast⟩

structure Fenced (s : MediaShared) : Prop where
  keyed : s.db.Keyed
  latest : ∀ id run owner, s.db.runs id = some run → run.leaseOwner = some owner →
    ∃ i, lastClaim id s.trace = some (i, owner, run.attempt)
  writes : WritesFenced s.trace

def Claimed (i : Nat) (s : MediaShared) : MediaLocal → Prop
  | .user => True
  | .worker e => .claimed i e.owner e.id e.attempt ∈ s.trace

theorem Fenced.init : Fenced MediaWorld.init.shared where
  keyed := by
    intro id run h
    cases h
  latest := by
    intro id run owner h
    cases h
  writes newer _ _ _ _ hsplit := by
    cases newer <;> cases hsplit

theorem Fenced.shift (h : Fenced s) (hshift : MediaShift s s') : Fenced s' := by
  cases hshift with
  | tick => exact ⟨h.keyed, h.latest, h.writes⟩
  | spawn => exact ⟨h.keyed, h.latest, h.writes⟩
  | create id =>
    refine ⟨?_, ?_, h.writes⟩
    · intro id' run hrun
      by_cases hid' : id' = id
      · subst hid'
        cases (update_self id' _ _).symm.trans hrun
        rfl
      · exact h.keyed id' run ((update_of_ne hid' _ _).symm.trans hrun)
    · intro id' run owner hrun howner
      by_cases hid' : id' = id
      · subst hid'
        cases (update_self id' _ _).symm.trans hrun
        cases howner
      · exact h.latest id' run owner ((update_of_ne hid' _ _).symm.trans hrun) howner

theorem Fenced.claim {s : MediaShared} (h : Fenced s) (owner : String) (leaseDuration : Nat)
    (run : MediaRun) : Fenced (MediaWorld.claimed s owner leaseDuration run) := by
  refine ⟨h.keyed.setRun rfl, ?_, h.writes.cons nofun⟩
  intro id run' owner' hrun' howner'
  by_cases hid : id = run.id
  · subst hid
    cases (update_self run.id _ _).symm.trans hrun'
    cases howner'
    exact ⟨s.started, lastClaim_claimed _ _ _ _ _⟩
  have hold := (update_of_ne hid _ _).symm.trans hrun'
  show ∃ i, lastClaim id (.claimed s.started owner run.id run.attempt :: s.trace) = _
  rw [lastClaim_claimed_ne (Ne.symm hid)]
  exact h.latest id run' owner' hold howner'

theorem Fenced.call {i : Nat} {σ : MediaLocal} (h : Fenced s) (hclaimed : Claimed i s σ)
    (hallows : mediaProtocol.allows σ c) (heffect : CallEffect i s c r s') : Fenced s' := by
  refine ⟨heffect.keyed h.keyed, ?_, ?_⟩
  · intro id run' owner hrun' howner
    rw [heffect.lastClaim_eq]
    rcases heffect.row_cases id with hsame | ⟨run, run'', events, hrow, hrow', hchange, -⟩
    · exact h.latest id run' owner (hsame.symm.trans hrun') howner
    cases hrow'.symm.trans hrun'
    rcases hchange.lease with ⟨hlease, hattempt⟩ | hnone
    · rw [hattempt]
      exact h.latest id run owner hrow (hlease.symm.trans howner)
    · rw [hnone] at howner
      cases howner
  cases heffect with
  | quiet => exact h.writes
  | row c r id run run' events hrow hchange =>
    refine h.writes.append hchange.noClaim ?_
    intro j owner id' hmem
    obtain ⟨rfl, rfl, howner, e, rfl, rfl, rfl⟩ := hchange.wrote hmem hallows
    obtain ⟨k, hlast⟩ := h.latest _ run _ hrow howner
    exact ⟨⟨e.attempt, hclaimed⟩, k, run.attempt, hlast⟩
  | stored runId owner output assetId run hrow hfenced =>
    refine h.writes.append (by rintro _ _ _ _ hmem; simp at hmem) ?_
    rintro j owner' id' hmem
    cases σ with
    | user => exact hallows.elim
    | worker e =>
      obtain ⟨rfl, rfl, -⟩ := hallows
      obtain ⟨k, hlast⟩ := h.latest _ run _ hrow (fenced_iff.mp hfenced).1
      simp only [mem_cons, MediaEvent.wrote.injEq, reduceCtorEq, not_mem_nil, or_false,
        false_or] at hmem
      obtain ⟨rfl, rfl, rfl⟩ := hmem
      exact ⟨⟨e.attempt, hclaimed⟩, k, run.attempt, hlast⟩
  | submitted | returned | reported | canceledJob => exact h.writes.cons nofun

theorem MediaShared.CallEffect.told_off {i : Nat} (h : CallEffect i s c r s') (hkeys : s.db.Keyed)
    {e : Execution} (hallows : e.Allows c) : (e.reach e.stage true).Told c r := by
  cases c with
  | getRun id =>
    cases h with
    | row _ _ _ _ _ _ _ hchange => cases hchange
    | quiet _ r hquiet =>
      obtain rfl := hquiet
      intro run hrow
      exact ⟨(hkeys id run hrow).trans hallows, nofun⟩
  | _ => trivial

theorem fenced_keeps : MediaKeeps (fun _ _ => True) Fenced Claimed where
  init := Fenced.init
  keyed _ h := h.keyed
  user _ _ := trivial
  shift s s' hshift h := by
    refine ⟨h.shift hshift, fun i σ hσ => ?_⟩
    cases σ with
    | user => trivial
    | worker => cases hshift <;> exact hσ
  claim w owner leaseDuration excludedIds now s run _ _ h _ _ _ _ _ := by
    refine ⟨h.claim owner leaseDuration run, mem_cons_self, fun j σ _ hσ => ?_⟩
    cases σ with
    | user => trivial
    | worker => exact mem_cons_of_mem _ hσ
  call w i now replies s c k r s' σ _ _ _ h hσ hallows heffect := by
    refine ⟨h.call hσ hallows heffect, ?_, fun j σ' _ _ hσ' => ?_⟩
    · cases σ with
      | user => exact ⟨.user, rfl, trivial⟩
      | worker =>
        exact ⟨_, ⟨true, fun _ => rfl, rfl, heffect.told_off h.keyed hallows⟩, heffect.mono hσ⟩
    · cases σ' with
      | user => trivial
      | worker => exact heffect.mono hσ'

/-- the step is the statement of `retry_run` -/
def Retries (w : MediaWorld) (a : MediaAction) (id : String) : Prop :=
  ∃ i now replies k, a = .advance i now replies ∧ w.program i = .call (.retryRun id) k

/-- a run moves along an edge in the same attempt, or it is retried -/
def StatusStep (w : MediaWorld) (a : MediaAction) : Prop :=
  ∀ id run, w.shared.db.runs id = some run →
    ∃ run', (MediaWorld.step w a).shared.db.runs id = some run' ∧
      (run'.attempt = run.attempt ∧ run.status.canTransitionTo run'.status = true ∨
        Retries w a id ∧ run'.attempt = run.attempt + 1 ∧ run'.status = .queued ∧
          (run.status = .failed ∨ run.status = .canceled))

theorem status_step {w : MediaWorld} (hI : Fenced w.shared) (hJ : Typed mediaProtocol Claimed w)
    (a : MediaAction) : StatusStep w a := by
  intro id run hrow
  have hsame := MediaRunStatus.canTransitionTo_self run.status
  cases a with
  | createRun id' priority providerId createdAt cached =>
    refine ⟨run, ?_, .inl ⟨rfl, hsame⟩⟩
    rw [MediaWorld.step]
    by_cases hvalid : validId id' = true
    · rw [if_pos hvalid]
      rcases MediaDb.insertRun_cases w.shared.db
        (MediaWorld.newRun id' priority providerId createdAt cached.isSome) (cached.getD [])
        with hdb | ⟨hid, hdb⟩
      · rw [hdb]
        exact hrow
      rw [hdb]
      have hne : id ≠ id' := by
        rintro rfl
        cases hid.symm.trans hrow
      exact (update_of_ne hne _ _).trans hrow
    · rw [if_neg hvalid]
      exact hrow
  | claim owner leaseDuration excludedIds now =>
    have hkeys : (w.shared.tick now).db.Keyed := hI.keyed
    rw [MediaWorld.step]
    rcases MediaWorld.claimAt_cases hkeys w owner leaseDuration excludedIds
      with hclaim | ⟨run', -, hrow', -, -, -, -, hclaim⟩
    · rw [hclaim]
      exact ⟨run, hrow, .inl ⟨rfl, hsame⟩⟩
    rw [hclaim]
    by_cases hid : id = run'.id
    · subst hid
      cases hrow.symm.trans hrow'
      exact ⟨_, update_self _ _ _, .inl ⟨rfl, claim_edge run owner _⟩⟩
    · exact ⟨run, (update_of_ne hid _ _).trans hrow, .inl ⟨rfl, hsame⟩⟩
  | request => exact ⟨run, hrow, .inl ⟨rfl, hsame⟩⟩
  | crash => exact ⟨run, hrow, .inl ⟨rfl, hsame⟩⟩
  | advance i now replies =>
    rw [MediaWorld.step]
    cases hprogram : w.program i with
    | done | fail =>
      rw [stepThread, hprogram]
      exact ⟨run, hrow, .inl ⟨rfl, hsame⟩⟩
    | call c k =>
      obtain ⟨σ, hallows, -⟩ := hJ.at_call hprogram
      have heffect := perform_effect i replies (w.shared.tick now) c
      rw [stepThread_call (w := { w with shared := w.shared.tick now }) hprogram]
      rcases heffect.row_cases id with hkept | ⟨run₀, run', events, hrow₀, hrow', hchange, -⟩
      · exact ⟨run, hkept.trans hrow, .inl ⟨rfl, hsame⟩⟩
      cases hrow₀.symm.trans hrow
      refine ⟨run', hrow', (hchange.status hallows).imp_right ?_⟩
      rintro ⟨rfl, rfl, hstatus⟩
      exact ⟨⟨i, now, replies, k, rfl, hprogram⟩, rfl, rfl, hstatus⟩

def HoldsLease (s : MediaShared) (owner id : String) : Prop :=
  ∃ run, s.db.runs id = some run ∧ run.heldBy owner = true ∧ run.leaseLive s.clock = true

def TerminalKept (w : MediaWorld) (a : MediaAction) : Prop :=
  ∀ id run run', w.shared.db.runs id = some run → run.status.isTerminal = true →
    (MediaWorld.step w a).shared.db.runs id = some run' → run'.status ≠ run.status →
    Retries w a id

theorem StatusStep.terminal {w : MediaWorld} {a : MediaAction} (h : StatusStep w a) :
    TerminalKept w a := by
  intro id run run' hrow hterminal hrow' hne
  obtain ⟨run'', hrow'', hpath⟩ := h id run hrow
  cases hrow''.symm.trans hrow'
  rcases hpath with ⟨-, hedge⟩ | ⟨hretries, -⟩
  · exact absurd (MediaRunStatus.eq_of_terminal hterminal hedge) hne
  · exact hretries

theorem workers_fenced (actions : List MediaAction) :
    Run.Along MediaWorld.step (fun w => WritesFenced w.shared.trace ∧
      ∀ id owner owner', HoldsLease w.shared owner id → HoldsLease w.shared owner' id →
        owner = owner') MediaWorld.init actions ∧
    Run.StepsOk MediaWorld.step (fun w a => StatusStep w a ∧ TerminalKept w a) MediaWorld.init
      actions := by
  have hok : Run.StepsOk MediaWorld.step (fun _ _ => True) MediaWorld.init actions :=
    Run.stepsOk_iff.mpr fun _ _ _ _ => trivial
  have hinv := fenced_keeps.run hok
  constructor
  · refine hinv.mono ?_
    rintro w ⟨hI, -⟩
    refine ⟨hI.writes, ?_⟩
    rintro id owner owner' ⟨run, hrow, hheld, -⟩ ⟨run', hrow', hheld', -⟩
    cases hrow.symm.trans hrow'
    exact some.inj ((heldBy_iff.mp hheld).symm.trans (heldBy_iff.mp hheld'))
  · refine Run.stepsOk_iff.mpr ?_
    rintro pre a post rfl
    obtain ⟨hI, hJ⟩ := hinv.at_prefix
    have hstep := status_step hI hJ a
    exact ⟨hstep, hstep.terminal⟩

end CcPanes

import CcPanes.Media.Fencing

/-!
# One execution of a run at a time

A worker excludes the runs that it is processing from its claims.  Then a run that is held for an
owner is held by one execution, the last that claimed it, and what this execution knows of the row
is what the row says.
-/

namespace CcPanes
open CallProgram MediaService MediaJobWorker MediaShared Option Function

variable {J : Nat → MediaShared → Execution → Prop} {Ok : MediaWorld → MediaAction → Prop}
  {I : MediaShared → Prop}

/-- the worker excludes the runs that it is processing -/
def OneAtATime (w : MediaWorld) : MediaAction → Prop
  | .claim owner _ excludedIds _ => ∀ i, Running w i → ∀ id attempt,
    .claimed i owner id attempt ∈ w.shared.trace → id ∈ excludedIds
  | _ => True

def newOwner (w : MediaWorld) : MediaAction → Bool
  | .claim owner _ _ _ => w.shared.trace.all fun
    | .claimed _ owner' _ _ => owner' ≠ owner
    | _ => true
  | _ => true

theorem oneAtATime_of_newOwner {w : MediaWorld} {a : MediaAction} (h : newOwner w a = true) :
    OneAtATime w a := by
  cases a with
  | claim =>
    intro i _ id attempt hmem
    have hne := List.all_eq_true.mp h _ hmem
    exact absurd rfl (of_decide_eq_true hne)
  | _ => trivial

def Held (s : MediaShared) (e : Execution) : Prop :=
  ∃ run, s.db.runs e.id = some run ∧ run.leaseOwner = some e.owner

instance (s : MediaShared) (e : Execution) : Decidable (Held s e) :=
  decidable_of_iff ((s.db.runs e.id).any fun run => run.heldBy e.owner) <| by
    rw [Option.any_eq_true]
    exact exists_congr fun run => and_congr_right fun _ => heldBy_iff

structure Owns (i : Nat) (s : MediaShared) (e : Execution) : Prop where
  claimed : .claimed i e.owner e.id e.attempt ∈ s.trace
  latest : ∀ j attempt, lastClaim e.id s.trace = some (j, e.owner, attempt) →
    j = i ∧ attempt = e.attempt
  held : ∀ run, s.db.runs e.id = some run → run.leaseOwner = some e.owner →
    e.off = false ∧ run.remoteJobId = e.stage.remote

/-- where the execution is after a call: it is lost once its owner does not hold the run -/
def nextExecution (s : MediaShared) (e : Execution) (c : MediaCall) (r : c.Answer) : Execution :=
  e.reach (e.stage.next c r) (e.off || !decide (Held s e))

section
variable {i j : Nat} {s s' : MediaShared} {e e' : Execution} {c : MediaCall} {r : c.Answer}
  {events : List MediaEvent} {run run' : MediaRun} {id : String}

theorem Owns.attempt (h : Owns i s e) (hs : Fenced s) (hrow : s.db.runs e.id = some run)
    (howner : run.leaseOwner = some e.owner) : run.attempt = e.attempt := by
  obtain ⟨j, hlast⟩ := hs.latest _ run _ hrow howner
  exact (h.latest j run.attempt hlast).2

theorem Owns.unique (h : Owns i s e) (h' : Owns j s e') (hs : Fenced s) (hid : e'.id = e.id)
    (hheld : Held s e) (hheld' : Held s e') : j = i := by
  obtain ⟨run, hrow, howner⟩ := hheld
  obtain ⟨run', hrow', howner'⟩ := hheld'
  rw [hid] at hrow'
  cases hrow.symm.trans hrow'
  have howners : e'.owner = e.owner := some.inj (howner'.symm.trans howner)
  obtain ⟨k, hlast⟩ := hs.latest _ run _ hrow howner
  have hlast' : lastClaim e'.id s.trace = some (k, e'.owner, run.attempt) := by
    rw [hid, howners]
    exact hlast
  exact (h'.latest k run.attempt hlast').1.symm.trans (h.latest k run.attempt hlast).1

theorem nextExecution_off :
    (nextExecution s e c r).off = false ↔ e.off = false ∧ Held s e := by
  show (e.off || !decide (Held s e)) = false ↔ _
  rw [Bool.or_eq_false_iff, Bool.not_eq_false', decide_eq_true_iff]

/-! ## the steps -/

def MediaCall.isUpdate : MediaCall → Bool
  | .updateRunForOwnerFromStatus _ _ _ _ => true
  | _ => false

theorem MediaStage.remote_next (stage : MediaStage) (c : MediaCall) (r : c.Answer)
    (hc : c.isUpdate = false) : (stage.next c r).remote = stage.remote := by
  unfold MediaStage.next
  split
  all_goals first
    | rfl
    | cases hc

theorem next_remote_of_quiet (stage : MediaStage) (hquiet : Quiet s c r) :
    (stage.next c r).remote = stage.remote := by
  unfold MediaStage.next
  split
  all_goals first
    | rfl
    | cases hquiet.1

theorem MediaShared.RowChange.known {now : Nat} (h : RowChange i now c r id run run' events)
    (hallows : e.Allows c) (hremote : run.remoteJobId = e.stage.remote) :
    run'.remoteJobId = (e.stage.next c r).remote := by
  cases h with
  | leased =>
    rcases hallows.2.2 with ⟨next, progress, code, message, -, -, rfl⟩ |
      ⟨job, progress, hstage, -, rfl⟩
    · rw [MediaStage.next_transition]
      exact hremote
    · rw [hstage]
      rfl
  | renewed =>
    rw [e.stage.remote_next _ _ rfl]
    exact hremote
  | cleared =>
    rw [e.stage.remote_next _ _ rfl]
    exact hremote
  | updated => exact hallows.elim
  | retried => exact hallows.elim
  | prioritized => exact hallows.elim
  | event => exact hallows.elim

theorem Owns.own (h : Owns i s e) (hallows : e.Allows c) (heffect : CallEffect i s c r s') :
    Owns i s' (nextExecution s e c r) := by
  refine ⟨heffect.mono h.claimed, ?_, ?_⟩
  · intro j attempt hlast
    rw [heffect.lastClaim_eq] at hlast
    exact h.latest j attempt hlast
  intro run' hrow' howner'
  have hkept : s.db.runs e.id = some run' → (e.stage.next c r).remote = e.stage.remote →
      (nextExecution s e c r).off = false ∧ run'.remoteJobId = (e.stage.next c r).remote := by
    intro hrow hnext
    obtain ⟨hoff, hremote⟩ := h.held run' hrow howner'
    rw [hnext]
    exact ⟨nextExecution_off.mpr ⟨hoff, run', hrow, howner'⟩, hremote⟩
  cases heffect with
  | quiet c r hquiet => exact hkept hrow' (next_remote_of_quiet e.stage hquiet)
  | stored | submitted | returned | reported | canceledJob =>
    exact hkept hrow' (e.stage.remote_next _ _ rfl)
  | row c r id run run'' events hrow hchange =>
    have hid : id = e.id := by
      cases hchange with
      | leased => exact hallows.1
      | renewed => exact hallows.1
      | cleared => exact hallows.1
      | _ => exact hallows.elim
    subst hid
    have hrow'' : update s.db.runs e.id (some run'') e.id = some run' := hrow'
    rw [update_self] at hrow''
    cases hrow''
    rcases hchange.lease with ⟨hlease, -⟩ | hnone
    · have howner := hlease.symm.trans howner'
      obtain ⟨hoff, hremote⟩ := h.held run hrow howner
      exact ⟨nextExecution_off.mpr ⟨hoff, run, hrow, howner⟩, hchange.known hallows hremote⟩
    · rw [hnone] at howner'
      cases howner'

theorem Owns.told (h : Owns i s e) (hs : Fenced s) (hallows : e.Allows c)
    (heffect : CallEffect i s c r s') :
    (e.reach e.stage (nextExecution s e c r).off).Told c r := by
  cases c with
  | getRun id =>
    cases heffect with
    | row _ _ _ _ _ _ _ hchange => cases hchange
    | quiet _ r hquiet =>
      obtain rfl := hquiet
      intro run hrow
      have hid : id = e.id := hallows
      subst hid
      refine ⟨hs.keyed _ run hrow, fun hoff => ?_⟩
      have hoff' : (nextExecution s e (.getRun e.id) (s.db.runs e.id, s.clock)).off = false := hoff
      obtain ⟨-, run', hrow', howner⟩ := nextExecution_off.mp hoff'
      cases hrow'.symm.trans hrow
      exact ⟨h.attempt hs hrow howner, (h.held _ hrow howner).2⟩
  | _ => trivial

theorem MediaShared.RowChange.by_worker {now : Nat} (h : RowChange i now c r id run run' events)
    (hallows : e.Allows c) : id = e.id ∧ run.leaseOwner = some e.owner := by
  cases h with
  | leased id owner req run hfenced => exact ⟨hallows.1, hallows.2.1 ▸ (fenced_iff.mp hfenced).1⟩
  | renewed id owner d run hheld => exact ⟨hallows.1, hallows.2.1 ▸ heldBy_iff.mp hheld⟩
  | cleared id owner run hheld => exact ⟨hallows.1, hallows.2 ▸ heldBy_iff.mp hheld⟩
  | updated => exact hallows.elim
  | retried => exact hallows.elim
  | prioritized => exact hallows.elim
  | event => exact hallows.elim

theorem MediaShared.RowChange.by_user {now : Nat} (h : RowChange i now c r id run run' events)
    (hallows : userAllows c) :
    events = [] ∧ (c = .retryRun id ∧ run' = run.retry ∨
      run'.leaseOwner = run.leaseOwner ∧ run'.attempt = run.attempt ∧
        run'.remoteJobId = run.remoteJobId) := by
  cases h with
  | updated =>
    obtain ⟨next, progress, -, -, rfl⟩ := hallows
    exact ⟨rfl, .inr ⟨rfl, rfl, rfl⟩⟩
  | event =>
    refine ⟨rfl, .inr ⟨rfl, rfl, ?_⟩⟩
    rw [MediaRun.apply, hallows.2]
    rfl
  | retried => exact ⟨rfl, .inl ⟨rfl, rfl⟩⟩
  | prioritized => exact ⟨rfl, .inr ⟨rfl, rfl, rfl⟩⟩
  | leased => exact hallows.elim
  | renewed => exact hallows.elim
  | cleared => exact hallows.elim

theorem Held.back (heffect : CallEffect i s c r s') (hheld : Held s' e) : Held s e := by
  obtain ⟨run', hrow', howner⟩ := hheld
  rcases heffect.row_cases e.id with hsame | ⟨run, run'', events, hrow, hrow'', hchange, -⟩
  · exact ⟨run', hsame.symm.trans hrow', howner⟩
  cases hrow''.symm.trans hrow'
  rcases hchange.lease with ⟨hlease, -⟩ | hnone
  · exact ⟨run, hrow, hlease.symm.trans howner⟩
  · rw [hnone] at howner
    cases howner

theorem Owns.row_kept (h : Owns i s e) (h' : Owns j s e') (hs : Fenced s) (hji : j ≠ i)
    (hallows : e.Allows c) (heffect : CallEffect i s c r s') (hheld : Held s' e') :
    s'.db.runs e'.id = s.db.runs e'.id := by
  rcases heffect.row_cases e'.id with hsame | ⟨run, run', events, hrow, hrow', hchange, -⟩
  · exact hsame
  · obtain ⟨hid, howner⟩ := hchange.by_worker hallows
    rw [hid] at hrow
    exact absurd (h.unique h' hs hid ⟨run, hrow, howner⟩ (hheld.back heffect)) hji

theorem Owns.other (h : Owns i s e) (h' : Owns j s e') (hs : Fenced s) (hji : j ≠ i)
    (hallows : e.Allows c) (heffect : CallEffect i s c r s') : Owns j s' e' := by
  refine ⟨heffect.mono h'.claimed, ?_, ?_⟩
  · intro k attempt hlast
    rw [heffect.lastClaim_eq] at hlast
    exact h'.latest k attempt hlast
  · intro run' hrow' howner'
    have hsame := h.row_kept h' hs hji hallows heffect ⟨run', hrow', howner'⟩
    exact h'.held run' (hsame.symm.trans hrow') howner'

theorem Owns.user (h' : Owns j s e') (hallows : userAllows c) (heffect : CallEffect i s c r s') :
    Owns j s' e' := by
  refine ⟨heffect.mono h'.claimed, ?_, ?_⟩
  · intro k attempt hlast
    rw [heffect.lastClaim_eq] at hlast
    exact h'.latest k attempt hlast
  intro run' hrow' howner'
  rcases heffect.row_cases e'.id with hsame | ⟨run, run'', events, hrow, hrow'', hchange, -⟩
  · exact h'.held run' (hsame.symm.trans hrow') howner'
  cases hrow''.symm.trans hrow'
  rcases (hchange.by_user hallows).2 with ⟨-, rfl⟩ | ⟨hlease, -, hremote⟩
  · cases howner'
  · rw [hremote]
    exact h'.held run hrow (hlease.symm.trans howner')

theorem Owns.shift (h : Owns i s e) (hshift : MediaShift s s') : Owns i s' e := by
  cases hshift with
  | tick => exact ⟨h.claimed, h.latest, h.held⟩
  | spawn => exact ⟨h.claimed, h.latest, h.held⟩
  | create id =>
    refine ⟨h.claimed, h.latest, ?_⟩
    intro run hrow howner
    by_cases hid' : e.id = id
    · rw [hid'] at hrow
      cases (update_self id _ _).symm.trans hrow
      cases howner
    · exact h.held run ((update_of_ne hid' _ _).symm.trans hrow) howner

theorem owns_claimed (s : MediaShared) (owner : String) (leaseDuration : Nat) (run : MediaRun) :
    Owns s.started (MediaWorld.claimed s owner leaseDuration run)
      (Execution.ofClaim owner (run.claim owner (s.clock + leaseDuration))) := by
  refine ⟨List.mem_cons_self, ?_, ?_⟩
  · intro j attempt hlast
    obtain ⟨⟩ := (lastClaim_claimed _ _ _ _ _).symm.trans hlast
    exact ⟨rfl, rfl⟩
  intro run' hrow howner
  cases (update_self run.id _ _).symm.trans hrow
  refine ⟨rfl, ?_⟩
  show run.remoteJobId =
    (Execution.ofClaim owner (run.claim owner (s.clock + leaseDuration))).stage.remote
  unfold Execution.ofClaim
  cases h : (run.claim owner (s.clock + leaseDuration)).remoteJobId <;> exact h

theorem Owns.claim (h : Owns i s e) (owner : String) (leaseDuration : Nat)
    (hapart : e.id = run.id → e.owner ≠ owner) :
    Owns i (MediaWorld.claimed s owner leaseDuration run) e := by
  refine ⟨List.mem_cons_of_mem _ h.claimed, ?_, ?_⟩
  · intro j attempt hlast
    by_cases hid : run.id = e.id
    · rw [MediaWorld.claimed, ← hid, lastClaim_claimed] at hlast
      obtain ⟨⟩ := hlast
      exact absurd rfl (hapart hid.symm)
    · rw [MediaWorld.claimed, lastClaim_claimed_ne hid] at hlast
      exact h.latest j attempt hlast
  intro run' hrow howner
  by_cases hid : e.id = run.id
  · have hrow' : update s.db.runs run.id
        (some (run.claim owner (s.clock + leaseDuration))) e.id = some run' := hrow
    rw [hid, update_self] at hrow'
    cases hrow'
    exact absurd (some.inj howner).symm (hapart hid)
  · exact h.held run' ((update_of_ne hid _ _).symm.trans hrow) howner

theorem ofClaim_stage (owner : String) (leaseExpiresAt : Nat) (run : MediaRun) :
    (∃ remoteJobId, run.remoteJobId = some remoteJobId ∧
      (Execution.ofClaim owner (run.claim owner leaseExpiresAt)).stage =
        .tracking remoteJobId none []) ∨
    run.remoteJobId = none ∧ (Execution.ofClaim owner (run.claim owner leaseExpiresAt)).stage =
      .fresh (run.status = .canceling) := by
  have hclaim : (run.claim owner leaseExpiresAt).remoteJobId = run.remoteJobId := rfl
  unfold Execution.ofClaim
  rw [hclaim]
  cases run.remoteJobId with
  | some remoteJobId => exact .inl ⟨remoteJobId, rfl, rfl⟩
  | none =>
    refine .inr ⟨rfl, ?_⟩
    show MediaStage.fresh (decide ((if run.status = .queued then .submitting else run.status) =
      MediaRunStatus.canceling)) = _
    by_cases hqueued : run.status = .queued
    · rw [if_pos hqueued, hqueued]
      rfl
    · rw [if_neg hqueued]

theorem Held.unshift (hheld : Held s' e) (hshift : MediaShift s s') : Held s e := by
  obtain ⟨run, hrow, howner⟩ := hheld
  cases hshift with
  | tick => exact ⟨run, hrow, howner⟩
  | spawn => exact ⟨run, hrow, howner⟩
  | create id =>
    by_cases hid' : e.id = id
    · rw [hid'] at hrow
      cases (update_self id _ _).symm.trans hrow
      cases howner
    · exact ⟨run, (update_of_ne hid' _ _).symm.trans hrow, howner⟩

theorem Held.unclaim {owner : String} {leaseDuration : Nat}
    (hheld : Held (MediaWorld.claimed s owner leaseDuration run) e)
    (hapart : e.id = run.id → e.owner ≠ owner) : Held s e := by
  obtain ⟨run', hrow, howner⟩ := hheld
  by_cases hid : e.id = run.id
  · rw [hid, claimed_runs_self] at hrow
    cases hrow
    exact absurd (some.inj howner).symm (hapart hid)
  · rw [claimed_runs_ne hid] at hrow
    exact ⟨run', hrow, howner⟩

end

/-- An invariant `I` of the shared state and `J` of the executions, on top of what an execution
knows: what each step has to preserve. -/
structure ExecutionKeeps (Ok : MediaWorld → MediaAction → Prop) (I : MediaShared → Prop)
    (J : Nat → MediaShared → Execution → Prop) : Prop where
  init : I MediaWorld.init.shared
  shift : ∀ s s', MediaShift s s' → Fenced s → I s →
    I s' ∧ ∀ i e, Owns i s e → J i s e → J i s' e
  claim : ∀ w owner leaseDuration excludedIds now s run,
    Ok w (.claim owner leaseDuration excludedIds now) → s = w.shared.tick now → Fenced s → I s →
    s.db.nextClaimable owner s.clock excludedIds = some run → s.db.runs run.id = some run →
    run.claimable owner s.clock = true →
    I (MediaWorld.claimed s owner leaseDuration run) ∧
      J s.started (MediaWorld.claimed s owner leaseDuration run)
        (Execution.ofClaim owner (run.claim owner (s.clock + leaseDuration))) ∧
      ∀ j e, Owns j s e → (e.id = run.id → e.owner ≠ owner) → J j s e →
        J j (MediaWorld.claimed s owner leaseDuration run) e
  user : ∀ w i now replies s c k r s', Ok w (.advance i now replies) → s = w.shared.tick now →
    w.program i = .call c k → Fenced s → I s → userAllows c → CallEffect i s c r s' →
    I s' ∧ ∀ j e, Owns j s e → J j s e → J j s' e
  worker : ∀ w i now replies s c k r s' e, Ok w (.advance i now replies) → s = w.shared.tick now →
    w.program i = .call c k → Fenced s → I s → Owns i s e → J i s e → e.Allows c →
    CallEffect i s c r s' →
    I s' ∧ J i s' (nextExecution s e c r) ∧
      ∀ j e', j ≠ i → Owns j s e' → J j s e' → J j s' e'

def Executes (J : Nat → MediaShared → Execution → Prop) (i : Nat) (s : MediaShared) :
    MediaLocal → Prop
  | .user => True
  | .worker e => Owns i s e ∧ J i s e

theorem ExecutionKeeps.keeps (h : ExecutionKeeps Ok I J) :
    MediaKeeps (fun w a => OneAtATime w a ∧ Ok w a) (fun s => Fenced s ∧ I s) (Executes J) where
  init := ⟨Fenced.init, h.init⟩
  keyed _ hs := hs.1.keyed
  user _ _ := trivial
  shift s s' hshift hs := by
    obtain ⟨hI, hJ⟩ := h.shift s s' hshift hs.1 hs.2
    refine ⟨⟨hs.1.shift hshift, hI⟩, fun i σ hσ => ?_⟩
    cases σ with
    | user => trivial
    | worker e => exact ⟨hσ.1.shift hshift, hJ i e hσ.1 hσ.2⟩
  claim w owner leaseDuration excludedIds now s run hok hs hI hnext hrow hclaimable hex _ := by
    obtain ⟨hI', hown, hothers⟩ := h.claim w owner leaseDuration excludedIds now s run hok.2 hs
      hI.1 hI.2 hnext hrow hclaimable
    refine ⟨⟨hI.1.claim owner leaseDuration run, hI'⟩, ⟨owns_claimed s owner leaseDuration run, hown⟩,
      fun j σ hj hσ => ?_⟩
    cases σ with
    | user => trivial
    | worker e =>
      have hapart : e.id = run.id → e.owner ≠ owner := by
        rintro hid rfl
        have hclaimed := hσ.1.claimed
        rw [hs] at hclaimed
        exact hex (hid ▸ hok.1 j hj e.id e.attempt hclaimed)
      exact ⟨hσ.1.claim owner leaseDuration hapart, hothers j e hσ.1 hapart hσ.2⟩
  call w i now replies s c k r s' σ hok hs hcall hI hσ hallows heffect := by
    cases σ with
    | user =>
      obtain ⟨hI', hothers⟩ := h.user w i now replies s c k r s' hok.2 hs hcall hI.1 hI.2 hallows
        heffect
      have hclaimed : Claimed i s .user := trivial
      refine ⟨⟨hI.1.call hclaimed hallows heffect, hI'⟩, ⟨.user, rfl, trivial⟩,
        fun j σ' _ _ hσ' => ?_⟩
      cases σ' with
      | user => trivial
      | worker e => exact ⟨hσ'.1.user hallows heffect, hothers j e hσ'.1 hσ'.2⟩
    | worker e =>
      obtain ⟨hI', hown, hothers⟩ := h.worker w i now replies s c k r s' e hok.2 hs hcall hI.1 hI.2
        hσ.1 hσ.2 hallows heffect
      have hclaimed : Claimed i s (.worker e) := hσ.1.claimed
      refine ⟨⟨hI.1.call hclaimed hallows heffect, hI'⟩,
        ⟨.worker (nextExecution s e c r), ⟨_, ?_, rfl, hσ.1.told hI.1 hallows heffect⟩,
          hσ.1.own hallows heffect, hown⟩, fun j σ' hji _ hσ' => ?_⟩
      · intro hoff
        rw [hoff]
        rfl
      cases σ' with
      | user => trivial
      | worker e' =>
        exact ⟨hσ.1.other hσ'.1 hI.1 hji hallows heffect, hothers j e' hji hσ'.1 hσ'.2⟩

theorem ExecutionKeeps.run
    (h : ExecutionKeeps Ok I J)
    {actions : List MediaAction}
    (hok : Run.StepsOk MediaWorld.step (fun w a => OneAtATime w a ∧ Ok w a) MediaWorld.init actions) :
    Run.Along MediaWorld.step (fun w => I w.shared) MediaWorld.init actions :=
  (h.keeps.run hok).mono fun _ hw => hw.1.2

end CcPanes

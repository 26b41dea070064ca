import CcPanes.Media.OneAtATime

/-!
# When a run is submitted twice

A worker renews the lease of its run, submits it and records the job that the provider returns.
The lease can run out before the job is recorded, and the row does not show that a submit is under
way; the next claim then submits again.
-/

namespace CcPanes
open CallProgram MediaService MediaJobWorker MediaShared List Option Function

/-- the number of submits of the run in the attempt -/
def submits (id : String) (attempt : Nat) (trace : List MediaEvent) : Nat :=
  trace.countP fun
    | .submitted _ id' attempt' => id' = id && attempt' = attempt
    | _ => false

/-- the lease of the run was renewed in the attempt -/
def wasRenewed (id : String) (attempt : Nat) (trace : List MediaEvent) : Bool :=
  trace.any fun
    | .renewed _ id' attempt' => id' = id && attempt' = attempt
    | _ => false

theorem not_renewed {id : String} {attempt : Nat} {trace : List MediaEvent}
    (h : wasRenewed id attempt trace = false) (i : Nat) : .renewed i id attempt ∉ trace := by
  intro hmem
  have hnot := any_eq_false.mp h _ hmem
  simp at hnot

/-- The claim takes no run that has no remote job, is not being canceled, and whose lease was
renewed in this attempt: the renewal comes right before the submit. -/
def freshClaim (w : MediaWorld) : MediaAction → Bool
  | .claim owner _ excludedIds now =>
    (w.shared.db.nextClaimable owner (w.shared.tick now).clock excludedIds).all fun run =>
      run.remoteJobId.isSome || run.status = .canceling ||
        !wasRenewed run.id run.attempt w.shared.trace
  | _ => true

def FreshClaims (w : MediaWorld) (a : MediaAction) : Prop := freshClaim w a = true

instance (w : MediaWorld) (a : MediaAction) : Decidable (FreshClaims w a) :=
  inferInstanceAs (Decidable (_ = true))

theorem FreshClaims.not_renewed {w : MediaWorld} {owner : String} {leaseDuration now : Nat}
    {excludedIds : List String}
    (h : FreshClaims w (.claim owner leaseDuration excludedIds now)) {run : MediaRun}
    (hnext : (w.shared.tick now).db.nextClaimable owner (w.shared.tick now).clock excludedIds =
      some run) (hremote : run.remoteJobId = none) (hstatus : run.status ≠ .canceling) (i : Nat) :
    .renewed i run.id run.attempt ∉ w.shared.trace := by
  have hall : (run.remoteJobId.isSome || decide (run.status = .canceling) ||
      !wasRenewed run.id run.attempt w.shared.trace) = true := by
    have h' : freshClaim w (.claim owner leaseDuration excludedIds now) = true := h
    have hnext' : w.shared.db.nextClaimable owner (w.shared.tick now).clock excludedIds =
      some run := hnext
    rw [freshClaim, hnext'] at h'
    exact h'
  rw [hremote, decide_eq_false hstatus] at hall
  exact CcPanes.not_renewed (by simpa using hall) i

def MediaStage.Done : MediaStage → Prop
  | fresh _ | renewed => False
  | _ => True

section
variable {i : Nat} {s s' : MediaShared} {stage : MediaStage} {c : MediaCall} {r : c.Answer}

def MediaCall.Submits : MediaCall → Prop
  | .renewRunLease _ _ _ | .submit _ _ => True
  | _ => False

theorem MediaStage.next_of_not_submits (stage : MediaStage) (hc : ¬c.Submits) :
    stage.next c r = stage ∨ stage.Done ∧ (stage.next c r).Done := by
  unfold MediaStage.next
  split
  all_goals first
    | exact .inl rfl
    | exact .inr ⟨trivial, trivial⟩
    | exact absurd trivial hc
    | (split <;> exact .inr ⟨trivial, trivial⟩)

theorem MediaStage.remote_of_not_done (h : ¬stage.Done) (c : MediaCall) (r : c.Answer) :
    (stage.next c r).remote = none := by
  unfold MediaStage.next
  split
  all_goals first
    | rfl
    | exact absurd trivial h
    | (cases stage <;> first | rfl | exact absurd trivial h)

theorem MediaShared.CallEffect.renewed_inv (h : CallEffect i s c r s') {j : Nat} {id : String}
    {attempt : Nat} (hmem : .renewed j id attempt ∈ s'.trace) :
    .renewed j id attempt ∈ s.trace ∨ j = i ∧ ∃ owner leaseDuration run,
      c = .renewRunLease id owner leaseDuration ∧ s.db.runs id = some run ∧
        run.leaseOwner = some owner ∧ attempt = run.attempt := h.added hmem

theorem MediaShared.CallEffect.submitted_inv (h : CallEffect i s c r s') {j : Nat} {id : String}
    {attempt : Nat} (hmem : .submitted j id attempt ∈ s'.trace) :
    .submitted j id attempt ∈ s.trace ∨ j = i ∧ c = .submit id attempt := h.added hmem

end

/-! ## the invariant -/

/-- a run that is queued is free, and no renewal is of its attempt or a later one; a submit comes
after a renewal, and a remote job after a submit -/
structure Submits (s : MediaShared) : Prop where
  free : ∀ id run, s.db.runs id = some run → run.status = .queued → run.leaseOwner = none
  attempts : ∀ i id attempt, .renewed i id attempt ∈ s.trace →
    ∃ run, s.db.runs id = some run ∧ attempt ≤ run.attempt ∧
      (run.status = .queued → attempt < run.attempt)
  before : ∀ i id attempt, .submitted i id attempt ∈ s.trace → ∃ j, .renewed j id attempt ∈ s.trace
  known : ∀ id run, s.db.runs id = some run → run.remoteJobId.isSome = true →
    ∃ i, .submitted i id run.attempt ∈ s.trace
  once : ∀ id attempt, submits id attempt s.trace ≤ 1

structure Submitting (i : Nat) (s : MediaShared) (e : Execution) : Prop where
  fresh : e.stage = .fresh false → Held s e → ∀ j, .renewed j e.id e.attempt ∉ s.trace
  renewed : e.stage = .renewed → .renewed i e.id e.attempt ∈ s.trace ∧
    (∀ j, .renewed j e.id e.attempt ∈ s.trace → j = i) ∧ ∀ j, .submitted j e.id e.attempt ∉ s.trace
  done : e.stage.Done → ∃ j, .submitted j e.id e.attempt ∈ s.trace

section
variable {i j : Nat} {s s' : MediaShared} {e e' : Execution} {c : MediaCall} {r : c.Answer}

theorem Submitting.keep (h : Submitting i s e) (hid : e'.id = e.id) (hattempt : e'.attempt = e.attempt)
    (hstage : e'.stage = e.stage ∨ e.stage.Done ∧ e'.stage.Done) (hheld : Held s' e' → Held s e)
    (hmono : ∀ event, event ∈ s.trace → event ∈ s'.trace)
    (hrenewed : ∀ k, .renewed k e.id e.attempt ∈ s'.trace → .renewed k e.id e.attempt ∈ s.trace)
    (hsubmitted : ∀ k, .submitted k e.id e.attempt ∈ s'.trace →
      .submitted k e.id e.attempt ∈ s.trace) : Submitting i s' e' := by
  rw [← hid, ← hattempt] at hrenewed hsubmitted
  rcases hstage with hstage | ⟨hdone, hdone'⟩
  · refine ⟨?_, ?_, ?_⟩
    · rw [hstage]
      intro hfresh hheld' k hmem
      refine h.fresh hfresh (hheld hheld') k ?_
      rw [← hid, ← hattempt]
      exact hrenewed k hmem
    · rw [hstage]
      intro hren
      obtain ⟨hmem, hown, hnone⟩ := h.renewed hren
      rw [← hid, ← hattempt] at hmem hown hnone
      exact ⟨hmono _ hmem, fun k hk => hown k (hrenewed k hk), fun k hk => hnone k (hsubmitted k hk)⟩
    · rw [hstage]
      intro hdone
      obtain ⟨k, hmem⟩ := h.done hdone
      rw [← hid, ← hattempt] at hmem
      exact ⟨k, hmono _ hmem⟩
  refine ⟨?_, ?_, fun _ => ?_⟩
  · intro hfresh
    rw [hfresh] at hdone'
    exact hdone'.elim
  · intro hren
    rw [hren] at hdone'
    exact hdone'.elim
  · obtain ⟨k, hmem⟩ := h.done hdone
    rw [← hid, ← hattempt] at hmem
    exact ⟨k, hmono _ hmem⟩

theorem Submits.init : Submits MediaWorld.init.shared where
  free := by
    intro id run h
    cases h
  attempts := by
    intro i id attempt h
    cases h
  before := by
    intro i id attempt h
    cases h
  known := by
    intro id run h
    cases h
  once _ _ := Nat.zero_le 1

theorem Submits.shift (h : Submits s) (hshift : MediaShift s s') : Submits s' := by
  cases hshift with
  | tick => exact ⟨h.free, h.attempts, h.before, h.known, h.once⟩
  | spawn => exact ⟨h.free, h.attempts, h.before, h.known, h.once⟩
  | create id priority providerId createdAt cacheHit outputs hid =>
    refine ⟨?_, ?_, h.before, ?_, h.once⟩
    · intro id' run hrow hqueued
      by_cases hid' : id' = id
      · subst hid'
        cases (update_self id' _ _).symm.trans hrow
        rfl
      · exact h.free id' run ((update_of_ne hid' _ _).symm.trans hrow) hqueued
    · intro i id' attempt hmem
      obtain ⟨run, hrow, hattempt⟩ := h.attempts i id' attempt hmem
      have hid' : id' ≠ id := by
        rintro rfl
        rw [hid] at hrow
        cases hrow
      exact ⟨run, (update_of_ne hid' _ _).trans hrow, hattempt⟩
    · intro id' run hrow hremote
      by_cases hid' : id' = id
      · subst hid'
        cases (update_self id' _ _).symm.trans hrow
        cases hremote
      · exact h.known id' run ((update_of_ne hid' _ _).symm.trans hrow) hremote

theorem claim_not_queued (run : MediaRun) (owner : String) (leaseExpiresAt : Nat) :
    (run.claim owner leaseExpiresAt).status ≠ .queued := by
  rw [MediaRun.claim]
  by_cases hqueued : run.status = .queued
  · rw [if_pos hqueued]
    simp
  · rw [if_neg hqueued]
    exact hqueued

theorem Submits.claim (h : Submits s) (owner : String) (leaseDuration : Nat) {run : MediaRun}
    (hrow : s.db.runs run.id = some run) :
    Submits (MediaWorld.claimed s owner leaseDuration run) := by
  refine ⟨?_, ?_, ?_, ?_, ?_⟩
  · intro id run' hrow' hqueued
    by_cases hid : id = run.id
    · subst hid
      cases (claimed_runs_self _ _ _ _).symm.trans hrow'
      exact absurd hqueued (claim_not_queued run owner _)
    · rw [claimed_runs_ne hid] at hrow'
      exact h.free id run' hrow' hqueued
  · intro i id attempt hmem
    have hmem' : .renewed i id attempt ∈ s.trace := by simpa [MediaWorld.claimed] using hmem
    obtain ⟨run', hrow', hle, hlt⟩ := h.attempts i id attempt hmem'
    by_cases hid : id = run.id
    · subst hid
      cases hrow.symm.trans hrow'
      exact ⟨_, claimed_runs_self _ _ _ _, hle, fun hqueued =>
        absurd hqueued (claim_not_queued run owner _)⟩
    · rw [← claimed_runs_ne hid s owner leaseDuration] at hrow'
      exact ⟨run', hrow', hle, hlt⟩
  · intro i id attempt hmem
    have hmem' : .submitted i id attempt ∈ s.trace := by simpa [MediaWorld.claimed] using hmem
    obtain ⟨j, hj⟩ := h.before i id attempt hmem'
    exact ⟨j, mem_cons_of_mem _ hj⟩
  · intro id run' hrow' hremote
    by_cases hid : id = run.id
    · subst hid
      cases (claimed_runs_self _ _ _ _).symm.trans hrow'
      obtain ⟨j, hj⟩ := h.known run.id run hrow hremote
      exact ⟨j, mem_cons_of_mem _ hj⟩
    · rw [claimed_runs_ne hid] at hrow'
      obtain ⟨j, hj⟩ := h.known id run' hrow' hremote
      exact ⟨j, mem_cons_of_mem _ hj⟩
  · exact h.once

theorem Submits.call (h : Submits s) {σ : MediaLocal} (hallows : mediaProtocol.allows σ c)
    (heffect : CallEffect i s c r s')
    (hbefore : ∀ id attempt, c = .submit id attempt → ∃ j, .renewed j id attempt ∈ s.trace)
    (hknown : ∀ id run run', s.db.runs id = some run → s'.db.runs id = some run' →
      run'.attempt = run.attempt → run'.remoteJobId.isSome = true →
      run.remoteJobId.isSome = true ∨ ∃ j, .submitted j id run.attempt ∈ s.trace)
    (honce : ∀ id attempt, submits id attempt s'.trace ≤ 1) : Submits s' := by
  refine ⟨?_, ?_, ?_, ?_, honce⟩
  · intro id run' hrow' hqueued
    rcases heffect.row_cases id with hsame | ⟨run, run'', events, hrow, hrow'', hchange, -⟩
    · exact h.free id run' (hsame.symm.trans hrow') hqueued
    obtain rfl := some.inj (hrow''.symm.trans hrow')
    rcases hchange.status hallows with ⟨-, hedge⟩ | ⟨-, rfl, -⟩
    · have hold : run.status = .queued := by
        by_contra hne
        exact MediaRunStatus.ne_queued_of_transition hne hedge hqueued
      rcases hchange.lease with ⟨hlease, -⟩ | hnone
      · rw [hlease]
        exact h.free id run hrow hold
      · exact hnone
    · rfl
  · intro j id attempt hmem
    rcases heffect.renewed_inv hmem with hold | ⟨rfl, owner, d, run, rfl, hrow, howner, rfl⟩
    · obtain ⟨run, hrow, hle, hlt⟩ := h.attempts j id attempt hold
      rcases heffect.row_cases id with hsame | ⟨run₀, run', events, hrow₀, hrow', hchange, -⟩
      · exact ⟨run, hsame.trans hrow, hle, hlt⟩
      obtain rfl := some.inj (hrow₀.symm.trans hrow)
      refine ⟨run', hrow', ?_⟩
      rcases hchange.status hallows with ⟨hattempt, hedge⟩ | ⟨-, rfl, -⟩
      · rw [hattempt]
        refine ⟨hle, fun hqueued => hlt ?_⟩
        by_contra hne
        exact MediaRunStatus.ne_queued_of_transition hne hedge hqueued
      · exact ⟨Nat.le_succ_of_le hle, fun _ => Nat.lt_succ_of_le hle⟩
    have hnot : run.status ≠ .queued := by
      intro hqueued
      rw [h.free id run hrow hqueued] at howner
      cases howner
    rcases heffect.row_cases id with hsame | ⟨run₀, run', events, hrow₀, hrow', hchange, -⟩
    · exact ⟨run, hsame.trans hrow, Nat.le_refl _, fun hqueued => absurd hqueued hnot⟩
    obtain rfl := some.inj (hrow₀.symm.trans hrow)
    refine ⟨run', hrow', ?_⟩
    rcases hchange.status hallows with ⟨hattempt, hedge⟩ | ⟨hretry, -⟩
    · rw [hattempt]
      exact ⟨Nat.le_refl _, fun hqueued => absurd hqueued
        (MediaRunStatus.ne_queued_of_transition hnot hedge)⟩
    · cases hretry
  · intro j id attempt hmem
    rcases heffect.submitted_inv hmem with hold | ⟨-, hcall⟩
    · obtain ⟨k, hk⟩ := h.before j id attempt hold
      exact ⟨k, heffect.mono hk⟩
    · obtain ⟨k, hk⟩ := hbefore id attempt hcall
      exact ⟨k, heffect.mono hk⟩
  · intro id run' hrow' hremote
    rcases heffect.row_cases id with hsame | ⟨run, run'', events, hrow, hrow'', hchange, -⟩
    · obtain ⟨k, hk⟩ := h.known id run' (hsame.symm.trans hrow') hremote
      exact ⟨k, heffect.mono hk⟩
    obtain rfl := some.inj (hrow''.symm.trans hrow')
    rcases hchange.status hallows with ⟨hattempt, -⟩ | ⟨-, rfl, -⟩
    · rw [hattempt]
      rcases hknown id run run'' hrow hrow' hattempt hremote with hold | ⟨k, hk⟩
      · obtain ⟨k, hk⟩ := h.known id run hrow hold
        exact ⟨k, heffect.mono hk⟩
      · exact ⟨k, heffect.mono hk⟩
    · cases hremote

theorem submits_eq_zero {id : String} {attempt : Nat} {t : List MediaEvent}
    (h : ∀ k, .submitted k id attempt ∉ t) : submits id attempt t = 0 := by
  refine countP_eq_zero.mpr ?_
  intro event hevent
  cases event with
  | submitted k =>
    intro hmatch
    simp only [Bool.and_eq_true, decide_eq_true_eq] at hmatch
    obtain ⟨rfl, rfl⟩ := hmatch
    exact h k hevent
  | _ => simp

theorem MediaShared.CallEffect.submits_le (h : CallEffect i s c r s') {id : String} {attempt : Nat}
    (hnew : c = .submit id attempt → ∀ k, .submitted k id attempt ∉ s.trace)
    (hold : submits id attempt s.trace ≤ 1) : submits id attempt s'.trace ≤ 1 := by
  cases h with
  | row c r id' run run' events hrow hchange => cases hchange <;> exact hold
  | submitted runId attempt' =>
    by_cases hsame : runId = id ∧ attempt' = attempt
    · obtain ⟨rfl, rfl⟩ := hsame
      have hzero := submits_eq_zero (hnew rfl)
      rw [MediaShared.note, submits, countP_cons]
      rw [submits] at hzero
      rw [hzero]
      simp
    · rw [MediaShared.note, submits, countP_cons, if_neg (by simpa using hsame)]
      exact hold
  | _ => exact hold

theorem submitting_claimed (h : Submits s) {owner : String} {leaseDuration : Nat} {run : MediaRun}
    (hrow : s.db.runs run.id = some run)
    (hfresh : run.remoteJobId = none → run.status ≠ .canceling →
      ∀ k, .renewed k run.id run.attempt ∉ s.trace) :
    Submitting s.started (MediaWorld.claimed s owner leaseDuration run)
      (Execution.ofClaim owner (run.claim owner (s.clock + leaseDuration))) := by
  rcases ofClaim_stage owner (s.clock + leaseDuration) run with
    ⟨remoteJobId, hremote, hstage⟩ | ⟨hremote, hstage⟩
  · refine ⟨?_, ?_, fun _ => ?_⟩
    · rw [hstage]
      exact nofun
    · rw [hstage]
      exact nofun
    · obtain ⟨k, hk⟩ := h.known run.id run hrow (by rw [hremote]; rfl)
      exact ⟨k, mem_cons_of_mem _ hk⟩
  refine ⟨?_, ?_, ?_⟩
  · rw [hstage]
    intro hst _ k hmem
    have hnot : run.status ≠ .canceling := by
      rintro hcanceling
      rw [hcanceling] at hst
      cases hst
    rcases mem_cons.mp hmem with hnew | hold
    · cases hnew
    · exact hfresh hremote hnot k hold
  · rw [hstage]
    exact nofun
  · rw [hstage]
    exact fun hdone => hdone.elim

theorem Submitting.known (hown : Owns i s e) (hfenced : Fenced s) (h : Submitting i s e)
    (hallows : e.Allows c) (heffect : CallEffect i s c r s') {id : String} {run run' : MediaRun}
    (hrow : s.db.runs id = some run) (hrow' : s'.db.runs id = some run')
    (hremote : run'.remoteJobId.isSome = true) :
    run.remoteJobId.isSome = true ∨ ∃ k, .submitted k id run.attempt ∈ s.trace := by
  rcases heffect.row_cases id with hsame | ⟨run₀, run₁, events, hrow₀, hrow₁, hchange, -⟩
  · cases (hsame.symm.trans hrow').symm.trans hrow
    exact .inl hremote
  cases hrow₀.symm.trans hrow
  cases hrow₁.symm.trans hrow'
  obtain ⟨rfl, howner⟩ := hchange.by_worker hallows
  rw [hown.attempt hfenced hrow howner]
  by_cases hdone : e.stage.Done
  · exact .inr (h.done hdone)
  · rw [hchange.known hallows (hown.held _ hrow howner).2,
      MediaStage.remote_of_not_done hdone] at hremote
    cases hremote

theorem Submitting.own (h : Submitting i s e) (hI : Submits s) (hown : Owns i s e)
    (hfenced : Fenced s) (hallows : e.Allows c) (heffect : CallEffect i s c r s') :
    Submitting i s' (nextExecution s e c r) := by
  have hback : Held s' (nextExecution s e c r) → Held s e := fun hheld =>
    Held.back (e := e) heffect hheld
  by_cases hc : c.Submits
  · cases c with
    | renewRunLease id owner leaseDuration =>
      obtain ⟨rfl, rfl, hmay⟩ := hallows
      cases heffect with
      | quiet _ r hquiet =>
        obtain rfl := hquiet.1
        refine h.keep rfl rfl (.inl ?_) hback (fun _ hmem => hmem) (fun _ hmem => hmem)
          fun _ hmem => hmem
        show e.stage.next _ _ = e.stage
        cases e.stage with
        | fresh canceling => cases canceling <;> rfl
        | _ => rfl
      | row c r id run run' events hrow hchange =>
        cases hchange with
        | renewed id owner leaseDuration run hheld =>
          have howner := heldBy_iff.mp hheld
          have hattempt := hown.attempt hfenced hrow howner
          cases hstage : e.stage with
          | fresh canceling =>
            rw [hstage] at hmay
            obtain rfl : canceling = false := hmay
            have hnone := h.fresh hstage ⟨run, hrow, howner⟩
            have hnext : (nextExecution s e (.renewRunLease e.id e.owner leaseDuration) true).stage =
                .renewed := by
              show e.stage.next _ _ = _
              rw [hstage]
              rfl
            refine ⟨?_, fun _ => ⟨?_, ?_, ?_⟩, ?_⟩
            · rw [hnext]
              exact nofun
            · show MediaEvent.renewed i e.id e.attempt ∈ MediaEvent.renewed i e.id run.attempt :: _
              rw [hattempt]
              exact mem_cons_self
            · intro l hmem
              rcases mem_cons.mp hmem with hnew | hmem
              · exact (MediaEvent.renewed.inj hnew).1
              rcases mem_cons.mp hmem with hnew | hold
              · cases hnew
              · exact absurd hold (hnone l)
            · intro l hmem
              rcases mem_cons.mp hmem with hnew | hmem
              · cases hnew
              rcases mem_cons.mp hmem with hnew | hold
              · cases hnew
              · obtain ⟨m, hm⟩ := hI.before l _ _ hold
                exact hnone m hm
            · rw [hnext]
              exact fun hdone => hdone.elim
          | tracking =>
            have hdone : e.stage.Done := by rw [hstage]; trivial
            have hnext : (nextExecution s e (.renewRunLease e.id e.owner leaseDuration) true).stage =
                e.stage := by
              show e.stage.next _ _ = _
              rw [hstage]
              rfl
            obtain ⟨l, hl⟩ := h.done hdone
            refine ⟨?_, ?_, fun _ => ⟨l, mem_cons_of_mem _ (mem_cons_of_mem _ hl)⟩⟩
            · rw [hnext, hstage]
              exact nofun
            · rw [hnext, hstage]
              exact nofun
          | _ =>
            rw [hstage] at hmay
            exact hmay.elim
    | submit id attempt =>
      obtain ⟨rfl, rfl, hstage⟩ := hallows
      have hnext : (nextExecution s e (.submit e.id e.attempt) r).stage = .pending := by
        show e.stage.next _ _ = _
        rw [hstage]
        rfl
      cases heffect with
      | quiet _ r hquiet => exact hquiet.elim
      | row c r id run run' events hrow hchange => cases hchange
      | submitted =>
        refine ⟨?_, ?_, fun _ => ⟨i, mem_cons_self⟩⟩
        · rw [hnext]
          exact nofun
        · rw [hnext]
          exact nofun
    | _ => exact hc.elim
  · refine h.keep rfl rfl (e.stage.next_of_not_submits hc) hback (fun _ hmem => heffect.mono hmem)
      ?_ ?_
    · intro l hmem
      rcases heffect.renewed_inv hmem with hold | ⟨-, owner, d, -, rfl, -⟩
      · exact hold
      · exact absurd trivial hc
    intro l hmem
    rcases heffect.submitted_inv hmem with hold | ⟨-, rfl⟩
    · exact hold
    · exact absurd trivial hc

theorem Submitting.other (h : Submitting i s e) (h' : Submitting j s e') (hown : Owns i s e)
    (hown' : Owns j s e') (hfenced : Fenced s) (hji : j ≠ i) (hallows : e.Allows c)
    (heffect : CallEffect i s c r s') : Submitting j s' e' := by
  refine ⟨?_, ?_, ?_⟩
  · intro hst hheld l hmem
    rcases heffect.renewed_inv hmem with hold | ⟨-, owner, d, run, rfl, hrow, howner, -⟩
    · exact h'.fresh hst (hheld.back heffect) l hold
    · obtain ⟨hid, rfl, -⟩ := hallows
      rw [hid] at hrow
      exact hji (hown.unique hown' hfenced hid ⟨run, hrow, howner⟩ (hheld.back heffect))
  · intro hst
    obtain ⟨hren, honly, hnone⟩ := h'.renewed hst
    refine ⟨heffect.mono hren, ?_, ?_⟩
    · intro l hmem
      rcases heffect.renewed_inv hmem with hold | ⟨rfl, owner, d, run, rfl, hrow, howner, hattempt⟩
      · exact honly l hold
      obtain ⟨hid, rfl, hmay⟩ := hallows
      rw [hid] at hrow hren hnone
      rw [hattempt, hown.attempt hfenced hrow howner] at hren hnone
      cases hstage : e.stage with
      | fresh canceling =>
        rw [hstage] at hmay
        obtain rfl : canceling = false := hmay
        exact absurd hren (h.fresh hstage ⟨run, hrow, howner⟩ j)
      | tracking =>
        obtain ⟨m, hm⟩ := h.done (by rw [hstage]; trivial)
        exact absurd hm (hnone m)
      | _ =>
        rw [hstage] at hmay
        exact hmay.elim
    · intro l hmem
      rcases heffect.submitted_inv hmem with hold | ⟨-, rfl⟩
      · exact hnone l hold
      · obtain ⟨hid, hattempt, hstage⟩ := hallows
        rw [hid, hattempt] at hren
        exact hji ((h.renewed hstage).2.1 j hren)
  · intro hst
    obtain ⟨l, hl⟩ := h'.done hst
    exact ⟨l, heffect.mono hl⟩

theorem submits_keeps : ExecutionKeeps FreshClaims Submits Submitting where
  init := Submits.init
  shift s s' hshift _ h := by
    refine ⟨h.shift hshift, fun i e hown hsub => ?_⟩
    have htrace : s'.trace = s.trace := by cases hshift <;> rfl
    refine hsub.keep rfl rfl (.inl rfl) (·.unshift hshift) (fun _ hmem => by rwa [htrace])
      (fun _ hmem => by rwa [htrace] at hmem) fun _ hmem => by rwa [htrace] at hmem
  claim w owner leaseDuration excludedIds now s run hok hs hfenced h hnext hrow _ := by
    subst hs
    have hclock : run.remoteJobId = none → run.status ≠ .canceling →
        ∀ k, .renewed k run.id run.attempt ∉ (w.shared.tick now).trace := hok.not_renewed hnext
    refine ⟨h.claim owner leaseDuration hrow, submitting_claimed h hrow hclock, ?_⟩
    intro j e hown hapart hsub
    refine hsub.keep rfl rfl (.inl rfl) (·.unclaim hapart) (fun _ hmem => mem_cons_of_mem _ hmem)
      (fun _ hmem => by simpa [MediaWorld.claimed] using hmem)
      fun _ hmem => by simpa [MediaWorld.claimed] using hmem
  user w i now replies s c k r s' _ _ _ hfenced h hallows heffect := by
    have hrenew : ∀ id owner d, c ≠ .renewRunLease id owner d := by
      rintro id owner d rfl
      exact hallows
    have hsubmit : ∀ id attempt, c ≠ .submit id attempt := by
      rintro id attempt rfl
      exact hallows
    constructor
    · have hallowed : mediaProtocol.allows .user c := hallows
      refine h.call hallowed heffect (fun id attempt hc => absurd hc (hsubmit id attempt))
        ?_ fun id attempt => heffect.submits_le (fun hc => absurd hc (hsubmit id attempt))
          (h.once id attempt)
      intro id run run' hrow hrow' hattempt hremote
      rcases heffect.row_cases id with hsame | ⟨run₀, run₁, events, hrow₀, hrow₁, hchange, -⟩
      · cases (hsame.symm.trans hrow').symm.trans hrow
        exact .inl hremote
      cases hrow₀.symm.trans hrow
      cases hrow₁.symm.trans hrow'
      rcases (hchange.by_user hallows).2 with ⟨-, rfl⟩ | ⟨-, -, hsame⟩
      · cases hremote
      · rw [← hsame]
        exact .inl hremote
    intro j e hown hsub
    refine hsub.keep rfl rfl (.inl rfl) (·.back heffect) (fun _ hmem => heffect.mono hmem) ?_ ?_
    · intro l hmem
      rcases heffect.renewed_inv hmem with hold | ⟨-, owner, d, -, hc, -⟩
      · exact hold
      · exact absurd hc (hrenew _ _ _)
    intro l hmem
    rcases heffect.submitted_inv hmem with hold | ⟨-, hc⟩
    · exact hold
    · exact absurd hc (hsubmit _ _)
  worker w i now replies s c k r s' e _ _ _ hfenced h hown hsub hallows heffect := by
    refine ⟨?_, hsub.own h hown hfenced hallows heffect, fun j e' hji hown' hsub' =>
      hsub.other hsub' hown hown' hfenced hji hallows heffect⟩
    have hallowed : mediaProtocol.allows (.worker e) c := hallows
    refine h.call hallowed heffect ?_ ?_ ?_
    · rintro id attempt rfl
      obtain ⟨rfl, rfl, hstage⟩ := hallows
      exact ⟨i, (hsub.renewed hstage).1⟩
    · intro id run run' hrow hrow' _ hremote
      exact Submitting.known hown hfenced hsub hallows heffect hrow hrow' hremote
    intro id attempt
    refine heffect.submits_le ?_ (h.once id attempt)
    rintro rfl
    obtain ⟨rfl, rfl, hstage⟩ := hallows
    exact (hsub.renewed hstage).2.2

end

/-! ## the results -/

theorem submitted_once {actions : List MediaAction}
    (hok : Run.StepsOk MediaWorld.step (fun w a => OneAtATime w a ∧ FreshClaims w a) MediaWorld.init
      actions) :
    Run.Along MediaWorld.step (fun w => ∀ id attempt, submits id attempt w.shared.trace ≤ 1)
      MediaWorld.init actions :=
  (submits_keeps.run hok).mono fun _ h => h.once

/-- a provider that takes a job and does not answer any more -/
def silentProvider : MediaReplies where
  node := true
  prepared := .ok ()
  adapter := .ok ()
  submitted := .error ⟨none, ""⟩
  polled := .error ⟨none, ""⟩
  canceled := .ok ()
  downloaded := .ok ()
  persisted := .ok ""

def createOne : MediaAction := .createRun "run" 0 (some "provider") "" none

/-- the worker claims the run at the time `now` and submits it, all at once -/
def claimAndSubmit (i : Nat) (owner : String) (now : Nat) : List MediaAction :=
  [.claim owner 10 [] now, .advance i now silentProvider, .advance i now silentProvider,
    .advance i now silentProvider, .advance i now silentProvider, .advance i now silentProvider]

theorem submitted_once_alone :
    submits "run" 1 (Run.run MediaWorld.step MediaWorld.init
      (createOne :: claimAndSubmit 0 "worker" 0)).shared.trace ≤ 1 := by
  have hnew : Run.StepsOk MediaWorld.step (newOwner · · = true) MediaWorld.init
      (createOne :: claimAndSubmit 0 "worker" 0) := by decide +kernel
  have hfresh : Run.StepsOk MediaWorld.step FreshClaims MediaWorld.init
      (createOne :: claimAndSubmit 0 "worker" 0) := by decide +kernel
  have hone := hnew.mono fun _ _ => oneAtATime_of_newOwner
  exact (submitted_once (hone.and hfresh)).last "run" 1

/-- a submit that takes longer than its lease: another worker submits the run again -/
def slowSubmit : List MediaAction :=
  createOne :: claimAndSubmit 0 "first" 0 ++ claimAndSubmit 1 "second" 20

theorem submitted_twice :
    Run.StepsOk MediaWorld.step OneAtATime MediaWorld.init slowSubmit ∧
      (∀ a ∈ slowSubmit, ∀ i, a ≠ .crash i) ∧
      submits "run" 1 (Run.run MediaWorld.step MediaWorld.init slowSubmit).shared.trace = 2 := by
  refine ⟨?_, ?_, ?_⟩
  · have hnew : Run.StepsOk MediaWorld.step (newOwner · · = true) MediaWorld.init slowSubmit := by
      decide +kernel
    exact hnew.mono fun _ _ => oneAtATime_of_newOwner
  · simp [slowSubmit, createOne, claimAndSubmit]
  · decide +kernel

end CcPanes

import CcPanes.Media.SubmitOnce

/-!
# Which jobs a canceled run leaves behind

A request to cancel changes the status of the run, whatever its worker is at.  While the submit is
under way the row has no remote job: the id that comes back is refused, because a canceling run does
not go on to processing, and the next claim cancels the run without the provider.
-/

namespace CcPanes
open CallProgram MediaService MediaJobWorker MediaShared List Function Option

/-- the provider has canceled the job, or reports that it is over -/
def settles (id : String) (job : RemoteJob) : MediaEvent → Bool
  | .canceledJob _ id' remote => id' = id && remote = job.id
  | .reported _ id' remote report => id' = id && remote = job.id && report.status.isTerminal
  | _ => false

/-- the job was over when it was returned, or has been settled since -/
def SettledJob (id : String) (attempt : Nat) (job : RemoteJob) (trace : List MediaEvent) : Prop :=
  job.status.isTerminal = true ∨ ∃ i newer older,
    trace = newer ++ .returned i id attempt job :: older ∧ ∃ event ∈ newer, settles id job event

/-- the jobs of the attempts in which a run was canceled are settled -/
def NoOrphans (s : MediaShared) : Prop :=
  ∀ id run, s.db.runs id = some run → run.status = .canceled →
    ∀ i job, .returned i id run.attempt job ∈ s.trace → SettledJob id run.attempt job s.trace

/-- the call does not part a run from the job that is submitted for it -/
def safeCall (s : MediaShared) : MediaCall → Bool
  | .updateRunFromStatus id expected req =>
    (s.db.runs id).all fun run => run.status ≠ expected ||
      if req.status = some .canceling then
        run.remoteJobId.isSome || !wasRenewed id run.attempt s.trace
      else expected ≠ .canceling || run.remoteJobId.isNone
  | .renewRunLease id owner _ =>
    (s.db.runs id).all fun run =>
      !run.heldBy owner || run.status ≠ .canceling || run.remoteJobId.isSome
  | _ => true

def cancelsSafely (w : MediaWorld) : MediaAction → Bool
  | .advance i _ _ =>
    match w.program i with
    | .call c _ => safeCall w.shared c
    | _ => true
  | _ => true

def CancelsSafely (w : MediaWorld) (a : MediaAction) : Prop := cancelsSafely w a = true

instance (w : MediaWorld) (a : MediaAction) : Decidable (CancelsSafely w a) :=
  inferInstanceAs (Decidable (_ = true))

section
variable {s : MediaShared} {id : String} {run : MediaRun} {progress : Option Int}

theorem safe_canceling (h : safeCall s (.updateRunFromStatus id run.status
      (transitionRequest .canceling progress none none)) = true)
    (hrow : s.db.runs id = some run) (hremote : run.remoteJobId = none) (i : Nat) :
    .renewed i id run.attempt ∉ s.trace := by
  rw [safeCall, hrow] at h
  have hrenewed : wasRenewed id run.attempt s.trace = false := by
    simpa [transitionRequest, hremote] using h
  exact not_renewed hrenewed i

theorem safe_canceled (h : safeCall s (.updateRunFromStatus id run.status
      (transitionRequest .canceled progress none none)) = true)
    (hrow : s.db.runs id = some run) (hstatus : run.status = .canceling) :
    run.remoteJobId = none := by
  rw [safeCall, hrow] at h
  simpa [transitionRequest, hstatus] using h

theorem safe_renewal {owner : String} {leaseDuration : Nat}
    (h : safeCall s (.renewRunLease id owner leaseDuration) = true)
    (hrow : s.db.runs id = some run) (howner : run.leaseOwner = some owner)
    (hremote : run.remoteJobId = none) : run.status ≠ .canceling := by
  rw [safeCall, hrow] at h
  simpa [heldBy_iff.mpr howner, hremote] using h

end

theorem CancelsSafely.safe {w : MediaWorld} {i now : Nat} {replies : MediaReplies} {c : MediaCall}
    {k : c.Answer → MediaProgram Unit} (h : CancelsSafely w (.advance i now replies))
    (hcall : w.program i = .call c k) (now' : Nat) : safeCall (w.shared.tick now') c = true := by
  have hsafe : cancelsSafely w (.advance i now replies) = true := h
  rw [cancelsSafely, hcall] at hsafe
  exact hsafe

theorem SettledJob.append {id : String} {attempt : Nat} {job : RemoteJob} {t : List MediaEvent}
    (h : SettledJob id attempt job t) (events : List MediaEvent) :
    SettledJob id attempt job (events ++ t) := by
  refine h.imp_right ?_
  rintro ⟨i, newer, older, rfl, event, hmem, hsettles⟩
  exact ⟨i, events ++ newer, older, (append_assoc _ _ _).symm, event,
    mem_append_right _ hmem, hsettles⟩

theorem settledJob_cons {i : Nat} {id : String} {attempt : Nat} {job : RemoteJob}
    {t : List MediaEvent} (hmem : .returned i id attempt job ∈ t) {event : MediaEvent}
    (hsettles : settles id job event = true) : SettledJob id attempt job (event :: t) := by
  obtain ⟨newer, older, rfl⟩ := append_of_mem hmem
  exact .inr ⟨i, event :: newer, older, rfl, event, mem_cons_self, hsettles⟩

/-! ## the invariant -/

structure JobOf (t : List MediaEvent) (id : String) (run : MediaRun) : Prop where
  recorded : ∀ remote, run.remoteJobId = some remote →
    ∃ i job, .returned i id run.attempt job ∈ t ∧ job.id = remote
  canceling : run.status = .canceling ∨ run.status = .canceled → run.remoteJobId = none →
    ∀ i, .renewed i id run.attempt ∉ t
  settled : run.status = .canceled → ∀ i job, .returned i id run.attempt job ∈ t →
    SettledJob id run.attempt job t

structure Jobs (s : MediaShared) : Prop where
  before : ∀ i id attempt job, .returned i id attempt job ∈ s.trace →
    .submitted i id attempt ∈ s.trace
  unique : ∀ i j id attempt job job', .returned i id attempt job ∈ s.trace →
    .returned j id attempt job' ∈ s.trace → job' = job
  row : ∀ id run, s.db.runs id = some run → JobOf s.trace id run

structure Answering (i : Nat) (s : MediaShared) (e : Execution) : Prop where
  pending : e.stage = .pending → .submitted i e.id e.attempt ∈ s.trace ∧
    ∀ k job, .returned k e.id e.attempt job ∉ s.trace
  returned : ∀ job, e.stage = .returned job → .returned i e.id e.attempt job ∈ s.trace
  fresh : e.stage = .fresh true → Held s e → ∀ k, .renewed k e.id e.attempt ∉ s.trace
  settled : e.stage.Settled → Held s e → ∀ k job, .returned k e.id e.attempt job ∈ s.trace →
    SettledJob e.id e.attempt job s.trace

section
variable {i j : Nat} {s s' : MediaShared} {e e' : Execution} {c : MediaCall} {r : c.Answer}
  {run : MediaRun} {id : String} {t : List MediaEvent}

theorem JobOf.grow (h : JobOf t id run)
    (events : List MediaEvent)
    (hrenewed : run.status = .canceling ∨ run.status = .canceled → run.remoteJobId = none →
      ∀ k, .renewed k id run.attempt ∉ events)
    (hreturned : run.status = .canceled → ∀ k job, .returned k id run.attempt job ∉ events) :
    JobOf (events ++ t) id run := by
  refine ⟨?_, ?_, ?_⟩
  · intro remote hremote
    obtain ⟨k, job, hmem, hjob⟩ := h.recorded remote hremote
    exact ⟨k, job, mem_append_right _ hmem, hjob⟩
  · intro hstatus hremote k hmem
    rcases mem_append.mp hmem with hnew | hold
    · exact hrenewed hstatus hremote k hnew
    · exact h.canceling hstatus hremote k hold
  intro hstatus k job hmem
  rcases mem_append.mp hmem with hnew | hold
  · exact absurd hnew (hreturned hstatus k job)
  · exact (h.settled hstatus k job hold).append events

theorem JobOf.change {run run' : MediaRun} (h : JobOf t id run)
    (hattempt : run'.attempt = run.attempt) (hremote : run'.remoteJobId = run.remoteJobId)
    (hstatus : run'.status = .canceling ∨ run'.status = .canceled → run'.status = run.status) :
    JobOf t id run' := by
  refine ⟨?_, ?_, ?_⟩
  · rw [hattempt, hremote]
    exact h.recorded
  · intro hcanceling
    rw [hattempt, hremote]
    rw [hstatus hcanceling] at hcanceling
    exact h.canceling hcanceling
  intro hcanceled
  rw [hattempt]
  rw [hstatus (.inr hcanceled)] at hcanceled
  exact h.settled hcanceled

theorem JobOf.bare (hremote : run.remoteJobId = none)
    (hstatus : ¬(run.status = .canceling ∨ run.status = .canceled)) : JobOf t id run where
  recorded remote hjob := absurd (hremote.symm.trans hjob) (by simp)
  canceling hcanceling := absurd hcanceling hstatus
  settled hcanceled := absurd (.inr hcanceled) hstatus

theorem Submits.not_renewed_queued (h : Submits s) (hrow : s.db.runs id = some run)
    (hqueued : run.status = .queued) (i : Nat) : .renewed i id run.attempt ∉ s.trace := by
  intro hmem
  obtain ⟨run', hrow', -, hlt⟩ := h.attempts _ _ _ hmem
  cases hrow'.symm.trans hrow
  exact absurd (hlt hqueued) (Nat.lt_irrefl _)

theorem Jobs.not_returned (h : Jobs s) (hsub : Submits s) {attempt : Nat}
    (hnone : ∀ k, .renewed k id attempt ∉ s.trace) (i : Nat) (job : RemoteJob) :
    .returned i id attempt job ∉ s.trace := by
  intro hmem
  obtain ⟨k, hk⟩ := hsub.before _ _ _ (h.before _ _ _ _ hmem)
  exact hnone k hk

theorem Jobs.init : Jobs MediaWorld.init.shared where
  before := by
    intro i id attempt job h
    cases h
  unique := by
    intro i j id attempt job job' h
    cases h
  row := by
    intro id run h
    cases h

theorem Jobs.shift (h : Jobs s) (hshift : MediaShift s s') : Jobs s' := by
  cases hshift with
  | tick => exact ⟨h.before, h.unique, h.row⟩
  | spawn => exact ⟨h.before, h.unique, h.row⟩
  | create id priority providerId createdAt cacheHit =>
    refine ⟨h.before, h.unique, ?_⟩
    intro id' run hrow
    by_cases hid' : id' = id
    · subst hid'
      cases (update_self id' _ _).symm.trans hrow
      refine .bare rfl ?_
      cases cacheHit <;> simp [MediaWorld.newRun]
    · exact h.row id' run ((update_of_ne hid' _ _).symm.trans hrow)

theorem Jobs.grow (h : Jobs s) (events : List MediaEvent) (htrace : s'.trace = events ++ s.trace)
    (hnone : ∀ k id attempt job, .returned k id attempt job ∉ events)
    (hrow : ∀ id run, s'.db.runs id = some run → JobOf s'.trace id run) : Jobs s' := by
  have hold : ∀ k id attempt job, .returned k id attempt job ∈ s'.trace →
      .returned k id attempt job ∈ s.trace := by
    intro k id attempt job hmem
    rw [htrace] at hmem
    exact (mem_append.mp hmem).resolve_left (hnone k id attempt job)
  refine ⟨?_, ?_, hrow⟩
  · intro k id attempt job hmem
    rw [htrace]
    exact mem_append_right _ (h.before k id attempt job (hold _ _ _ _ hmem))
  · intro k l id attempt job job' hmem hmem'
    exact h.unique k l id attempt job job' (hold _ _ _ _ hmem) (hold _ _ _ _ hmem')

theorem Jobs.frame (h : Jobs s) (events : List MediaEvent) (hruns : s'.db.runs = s.db.runs)
    (htrace : s'.trace = events ++ s.trace)
    (hreturned : ∀ k id attempt job, .returned k id attempt job ∉ events)
    (hrenewed : ∀ k id attempt, .renewed k id attempt ∉ events) : Jobs s' := by
  refine h.grow events htrace hreturned ?_
  intro id run hrow
  rw [hruns] at hrow
  rw [htrace]
  exact (h.row id run hrow).grow events (fun _ _ k => hrenewed k _ _)
    fun _ k job => hreturned k _ _ job

theorem claim_canceling {owner : String} {leaseExpiresAt : Nat}
    (h : (run.claim owner leaseExpiresAt).status = .canceling ∨
      (run.claim owner leaseExpiresAt).status = .canceled) :
    (run.claim owner leaseExpiresAt).status = run.status := by
  rw [MediaRun.claim] at h ⊢
  by_cases hqueued : run.status = .queued
  · simp [hqueued] at h
  · exact if_neg hqueued

theorem Jobs.claim (h : Jobs s) (owner : String) (leaseDuration : Nat)
    (hrow : s.db.runs run.id = some run) : Jobs (MediaWorld.claimed s owner leaseDuration run) := by
  refine h.grow [.claimed s.started owner run.id run.attempt] rfl (by simp) ?_
  intro id run' hrow'
  have hgrow : ∀ run₀, JobOf s.trace id run₀ →
      JobOf (.claimed s.started owner run.id run.attempt :: s.trace) id run₀ := fun run₀ hjob =>
    hjob.grow [.claimed s.started owner run.id run.attempt] (by simp) (by simp)
  by_cases hid : id = run.id
  · subst hid
    cases (claimed_runs_self _ _ _ _).symm.trans hrow'
    exact hgrow _ ((h.row run.id run hrow).change rfl rfl claim_canceling)
  · rw [claimed_runs_ne hid] at hrow'
    exact hgrow _ (h.row id run' hrow')

theorem MediaShared.CallEffect.user_trace (h : CallEffect i s c r s') (hallows : userAllows c) :
    s'.trace = s.trace := by
  cases h with
  | quiet => rfl
  | row c r id run run' events hrow hchange =>
    obtain ⟨rfl, -⟩ := hchange.by_user hallows
    rfl
  | stored | submitted | returned | reported | canceledJob => exact hallows.elim

theorem JobOf.user (hjobs : Jobs s) (hsub : Submits s) {now : Nat} {run run' : MediaRun}
    {events : List MediaEvent} (hchange : RowChange i now c r id run run' events)
    (hallows : userAllows c) (hrow : s.db.runs id = some run) (hsafe : safeCall s c = true) :
    JobOf s.trace id run' := by
  have h := hjobs.row id run hrow
  cases hchange with
  | updated id req run =>
    obtain ⟨next, progress, hnext, hedge, rfl⟩ := hallows
    rcases hnext with rfl | rfl
    · have hfrom : run.status = .queued ∨ run.status = .canceling ∨ run.status = .canceled := by
        revert hedge
        cases run.status <;> decide
      rcases hfrom with hqueued | hcanceling | hcanceled
      · have hnone := hsub.not_renewed_queued hrow hqueued
        exact ⟨h.recorded, fun _ _ => hnone, fun _ k job hmem =>
          absurd hmem (hjobs.not_returned hsub hnone k job)⟩
      · have hnone := h.canceling (.inl hcanceling) (safe_canceled hsafe hrow hcanceling)
        exact ⟨h.recorded, fun _ _ => hnone, fun _ k job hmem =>
          absurd hmem (hjobs.not_returned hsub hnone k job)⟩
      · exact ⟨h.recorded, fun _ => h.canceling (.inr hcanceled), fun _ => h.settled hcanceled⟩
    · have hnone : run.remoteJobId = none → ∀ k, .renewed k id run.attempt ∉ s.trace :=
        safe_canceling hsafe hrow
      exact ⟨h.recorded, fun _ => hnone, nofun⟩
  | event id providerId remoteJobId req run =>
    have hsame : (run.apply req).status = run.status ∧
        (run.apply req).remoteJobId = run.remoteJobId := by
      rw [MediaRun.apply, hallows.1, hallows.2]
      exact ⟨rfl, rfl⟩
    exact h.change rfl hsame.2 fun _ => hsame.1
  | retried => exact .bare rfl (by simp [MediaRun.retry])
  | prioritized => exact h.change rfl rfl fun _ => rfl
  | leased => exact hallows.elim
  | renewed => exact hallows.elim
  | cleared => exact hallows.elim

theorem Jobs.user (h : Jobs s) (hsub : Submits s) (hallows : userAllows c)
    (heffect : CallEffect i s c r s') (hsafe : safeCall s c = true) : Jobs s' := by
  have htrace := heffect.user_trace hallows
  refine h.grow [] htrace (by simp) ?_
  intro id run' hrow'
  rw [htrace]
  rcases heffect.row_cases id with hsame | ⟨run, run'', events, hrow, hrow'', hchange, -⟩
  · exact h.row id run' (hsame.symm.trans hrow')
  · cases hrow''.symm.trans hrow'
    exact .user h hsub hchange hallows hrow hsafe

theorem Jobs.writeRow (h : Jobs s) (events : List MediaEvent) {run' : MediaRun}
    (hreturned : ∀ k id attempt job, .returned k id attempt job ∉ events)
    (hrenewed : ∀ k id attempt, .renewed k id attempt ∈ events → id = e.id)
    (hrow : JobOf (events ++ .wrote i e.owner e.id :: s.trace) e.id run') :
    Jobs (writeRow i s e run' events) := by
  refine h.grow (events ++ [.wrote i e.owner e.id]) (by simp [CcPanes.writeRow])
    (by simpa using hreturned) ?_
  intro id run hrow'
  by_cases hid : id = e.id
  · subst hid
    cases (update_self e.id _ _).symm.trans hrow'
    exact hrow
  have hgrow := (h.row id run ((update_of_ne hid _ _).symm.trans hrow')).grow
    (events ++ [.wrote i e.owner e.id])
  have hnone : ∀ k, .renewed k id run.attempt ∉ events ++ [.wrote i e.owner e.id] := by
    intro k hmem
    exact hid (hrenewed k id run.attempt (by simpa using hmem))
  have hjob := hgrow (fun _ _ => hnone) fun _ k job => by simpa using hreturned k _ _ job
  rwa [append_assoc] at hjob

theorem Jobs.eq_recorded (h : Jobs s) {id remote : String} (hrow : s.db.runs id = some run)
    (hremote : run.remoteJobId = some remote) {i : Nat} {job : RemoteJob}
    (hmem : .returned i id run.attempt job ∈ s.trace) : job.id = remote := by
  obtain ⟨k, job', hmem', hjob⟩ := (h.row id run hrow).recorded remote hremote
  rw [← hjob, h.unique _ _ _ _ _ _ hmem hmem']

theorem Answering.pending_row (h : Answering i s e) (hjobs : Jobs s) (hsub : Submits s)
    (hstage : e.stage = .pending) (hrow : s.db.runs e.id = some run)
    (hattempt : run.attempt = e.attempt) :
    run.remoteJobId = none ∧ ¬(run.status = .canceling ∨ run.status = .canceled) := by
  obtain ⟨hmem, hnone⟩ := h.pending hstage
  have hjob := hjobs.row e.id run hrow
  rw [← hattempt] at hmem hnone
  have hremote : run.remoteJobId = none := by
    cases hremote : run.remoteJobId with
    | none => rfl
    | some remote =>
      obtain ⟨k, job, hk, -⟩ := hjob.recorded remote hremote
      exact absurd hk (hnone k job)
  refine ⟨hremote, fun hstatus => ?_⟩
  obtain ⟨k, hk⟩ := hsub.before _ _ _ hmem
  exact hjob.canceling hstatus hremote k hk

theorem Jobs.worker (h : Jobs s) (hsub : Submits s) (hown : Owns i s e) (hfenced : Fenced s)
    (hans : Answering i s e) {stage : MediaStage} (hstep : ExecutionStep i s e c s' stage)
    (hsafe : safeCall s c = true) : Jobs s' := by
  cases hstep with
  | quiet => exact h
  | refused => exact h
  | moved run next progress code message hrow hf hnext hedge =>
    have howner := (fenced_iff.mp hf).1
    have hjob := h.row e.id run hrow
    have hheld : Held s e := ⟨run, hrow, howner⟩
    have hgrow : ∀ run', JobOf s.trace e.id run' →
        JobOf (.wrote i e.owner e.id :: s.trace) e.id run' := fun run' hjob' =>
      hjob'.grow [.wrote i e.owner e.id] (by simp) (by simp)
    refine h.writeRow [] (by simp) (by simp) (hgrow _ ?_)
    by_cases hcanceled : next = .canceled
    · subst hcanceled
      have hattempt := hown.attempt hfenced hrow howner
      have hsettled : e.stage.Settled := by
        have hpermits : e.off = true ∨ e.stage.Settled := hnext
        refine hpermits.resolve_left ?_
        rw [(hown.held run hrow howner).1]
        exact Bool.false_ne_true
      have hfrom : run.status = .canceling := by
        have hterminal := (fenced_iff.mp hf).2.2
        have hqueued : run.status ≠ .queued := fun hqueued =>
          nomatch (howner.symm.trans (hsub.free _ _ hrow hqueued))
        revert hedge hterminal hqueued
        cases run.status <;> decide
      refine ⟨hjob.recorded, fun _ => hjob.canceling (.inl hfrom), fun _ => ?_⟩
      have hans' := hans.settled hsettled hheld
      rw [← hattempt] at hans'
      exact hans'
    · have hnot : next ≠ .canceling := by
        rintro rfl
        exact hnext
      exact ⟨hjob.recorded, fun hstatus => absurd hstatus (by
        rintro (rfl | rfl)
        · exact hnot rfl
        · exact hcanceled rfl), fun hstatus => absurd hstatus hcanceled⟩
  | recorded run job progress hrow hf hstage =>
    have hattempt := hown.attempt hfenced hrow (fenced_iff.mp hf).1
    refine h.writeRow [] (by simp) (by simp) ⟨?_, fun hstatus => ?_, fun hstatus => ?_⟩
    · rintro remote ⟨⟩
      refine ⟨i, job, mem_cons_of_mem _ ?_, rfl⟩
      show MediaEvent.returned i e.id run.attempt job ∈ s.trace
      rw [hattempt]
      exact hans.returned job hstage
    · rcases hstatus with hstatus | hstatus <;> cases hstatus
    · cases hstatus
  | renewed run leaseDuration stage hrow howner hstatus =>
    have hjob := h.row e.id run hrow
    refine h.writeRow [.renewed i e.id run.attempt] (by simp) ?_ ?_
    · intro k id attempt hmem
      cases mem_singleton.mp hmem
      rfl
    have hchange : JobOf s.trace e.id
        { run with leaseExpiresAt := some (s.clock + leaseDuration) } :=
      hjob.change rfl rfl fun _ => rfl
    have hnot : ¬(run.status = .canceling ∨ run.status = .canceled) ∨ run.remoteJobId ≠ none := by
      by_cases hremote : run.remoteJobId = none
      · refine .inl ?_
        rintro (hcanceling | hcanceled)
        · exact safe_renewal hsafe hrow howner hremote hcanceling
        · rw [hcanceled] at hstatus
          cases hstatus
      · exact .inr hremote
    refine hchange.grow [.renewed i e.id run.attempt, .wrote i e.owner e.id] ?_ (by simp)
    intro hcanceling hremote
    rcases hnot with hnot | hnot
    · exact absurd hcanceling hnot
    · exact absurd hremote hnot
  | cleared run hrow =>
    refine h.writeRow [] (by simp) (by simp) ?_
    have hchange : JobOf s.trace e.id { run with leaseOwner := none, leaseExpiresAt := none } :=
      (h.row e.id run hrow).change rfl rfl fun _ => rfl
    exact hchange.grow [.wrote i e.owner e.id] (by simp) (by simp)
  | stored run remote report stored output assetId =>
    exact h.frame [.stored i e.id output assetId, .wrote i e.owner e.id] rfl rfl (by simp) (by simp)
  | submitted hstage | reported remote old report hstage | canceled remote old hstage
  | canceledOther => exact h.frame [_] rfl rfl (by simp) (by simp)
  | returned job hstage =>
    obtain ⟨hmem, hnone⟩ := hans.pending hstage
    refine ⟨?_, ?_, ?_⟩
    · intro k id attempt job' hk
      rcases mem_cons.mp hk with hnew | hold
      · cases hnew
        exact mem_cons_of_mem _ hmem
      · exact mem_cons_of_mem _ (h.before _ _ _ _ hold)
    · intro k l id attempt job₁ job₂ hk hl
      rcases mem_cons.mp hk with hnew | hold
      · cases hnew
        rcases mem_cons.mp hl with hnew | hold
        · cases hnew
          rfl
        · exact absurd hold (hnone l job₂)
      · rcases mem_cons.mp hl with hnew | hold'
        · cases hnew
          exact absurd hold (hnone k job₁)
        · exact h.unique _ _ _ _ _ _ hold hold'
    · intro id run hrow
      refine (h.row id run hrow).grow [.returned i e.id e.attempt job] (by simp) ?_
      intro hcanceled k job' hk
      obtain ⟨-, hid, hattempt, -⟩ := MediaEvent.returned.inj (mem_singleton.mp hk)
      rw [hid] at hrow
      exact (hans.pending_row h hsub hstage hrow hattempt).2 (.inr hcanceled)

/-! ## the executions -/

theorem submitter_unique {attempt : Nat} (honce : submits id attempt t ≤ 1)
    (hi : .submitted i id attempt ∈ t) (hj : .submitted j id attempt ∈ t) : j = i := by
  rw [submits, countP_eq_length_filter] at honce
  generalize hfilter : t.filter _ = l at honce
  have hmem : ∀ k, .submitted k id attempt ∈ t → .submitted k id attempt ∈ l := by
    intro k hk
    rw [← hfilter, mem_filter]
    exact ⟨hk, by simp⟩
  obtain ⟨event, hevent⟩ : ∃ event, l = [event] := by
    refine length_eq_one_iff.mp (Nat.le_antisymm honce ?_)
    exact length_pos_of_mem (hmem i hi)
  rw [hevent] at hmem
  have hsame := (mem_singleton.mp (hmem j hj)).trans (mem_singleton.mp (hmem i hi)).symm
  exact (MediaEvent.submitted.inj hsame).1

theorem Answering.keep (h : Answering i s e) (off : Bool) (events : List MediaEvent)
    (htrace : s'.trace = events ++ s.trace) (hheld : Held s' e → Held s e)
    (hreturned : e.stage = .pending ∨ e.stage.Settled ∧ Held s e →
      ∀ k job, .returned k e.id e.attempt job ∉ events)
    (hrenewed : e.stage = .fresh true → Held s e → ∀ k, .renewed k e.id e.attempt ∉ events) :
    Answering i s' (e.reach e.stage off) := by
  refine ⟨?_, ?_, ?_, ?_⟩
  · intro hstage
    obtain ⟨hmem, hnone⟩ := h.pending hstage
    rw [htrace]
    refine ⟨mem_append_right _ hmem, fun k job hk => ?_⟩
    rcases mem_append.mp hk with hnew | hold
    · exact hreturned (.inl hstage) k job hnew
    · exact hnone k job hold
  · intro job hstage
    rw [htrace]
    exact mem_append_right _ (h.returned job hstage)
  · intro hstage hheld' k hk
    have hheld := hheld hheld'
    rw [htrace] at hk
    rcases mem_append.mp hk with hnew | hold
    · exact hrenewed hstage hheld k hnew
    · exact h.fresh hstage hheld k hold
  · intro hsettled hheld' k job hk
    have hheld := hheld hheld'
    rw [htrace] at hk ⊢
    rcases mem_append.mp hk with hnew | hold
    · exact absurd hnew (hreturned (.inr ⟨hsettled, hheld⟩) k job)
    · exact (h.settled hsettled hheld k job hold).append events

theorem Answering.idle (hpending : e.stage ≠ .pending) (hreturned : ∀ job, e.stage ≠ .returned job)
    (hsettled : ¬e.stage.Settled) : Answering i s e where
  pending hstage := absurd hstage hpending
  returned job hstage := absurd hstage (hreturned job)
  fresh hstage := absurd (by rw [hstage]; rfl) hsettled
  settled hstage := absurd hstage hsettled

theorem answering_claimed (h : Jobs s) {owner : String} {leaseDuration : Nat}
    (hrow : s.db.runs run.id = some run) (hsub : Submits s) :
    Answering s.started (MediaWorld.claimed s owner leaseDuration run)
      (Execution.ofClaim owner (run.claim owner (s.clock + leaseDuration))) := by
  rcases ofClaim_stage owner (s.clock + leaseDuration) run with
    ⟨remote, hremote, hstage⟩ | ⟨hremote, hstage⟩
  · refine .idle ?_ ?_ ?_
    · rw [hstage]
      simp
    · rw [hstage]
      simp
    · rw [hstage]
      exact fun h => h
  by_cases hcanceling : run.status = .canceling
  · have hnone : ∀ k, .renewed k run.id run.attempt ∉ s.trace :=
      (h.row run.id run hrow).canceling (.inl hcanceling) hremote
    refine ⟨?_, ?_, ?_, ?_⟩
    · rw [hstage]
      simp
    · rw [hstage]
      simp
    · intro _ _ k hk
      rcases mem_cons.mp hk with hnew | hold
      · cases hnew
      · exact hnone k hold
    · intro _ _ k job hk
      rcases mem_cons.mp hk with hnew | hold
      · cases hnew
      · exact absurd hold (h.not_returned hsub hnone k job)
  · rw [decide_eq_false hcanceling] at hstage
    refine .idle ?_ ?_ ?_
    · rw [hstage]
      simp
    · rw [hstage]
      simp
    · rw [hstage]
      exact Bool.false_ne_true

theorem Answering.own (h : Answering i s e) (hjobs : Jobs s) (hsub : Submitting i s e)
    (hown : Owns i s e) (hfenced : Fenced s) {stage : MediaStage} (off : Bool)
    (hstep : ExecutionStep i s e c s' stage) (hheld : Held s' e → Held s e) :
    Answering i s' (e.reach stage off) := by
  have hremote : Held s' e → ∀ remote, e.stage.remote = some remote → ∀ k job,
      .returned k e.id e.attempt job ∈ s.trace → job.id = remote := by
    intro hheld' remote hknown k job hk
    obtain ⟨run, hrow, howner⟩ := hheld hheld'
    rw [← hown.attempt hfenced hrow howner] at hk
    exact hjobs.eq_recorded hrow ((hown.held run hrow howner).2.trans hknown) hk
  cases hstep with
  | quiet => exact h.keep off [] rfl hheld (by simp) (by simp)
  | refused =>
    exact .idle (by simp) (by simp) fun h => h
  | moved | cleared => exact h.keep off [.wrote i e.owner e.id] rfl hheld (by simp) (by simp)
  | renewed run leaseDuration stage hrow howner hstatus hstage =>
    rcases hstage with ⟨-, rfl⟩ | ⟨⟨remote, report, stored, hstage⟩, rfl⟩
    · exact .idle (by simp) (by simp) fun h => h
    · refine h.keep off [.renewed i e.id run.attempt, .wrote i e.owner e.id] rfl hheld (by simp) ?_
      rw [hstage]
      exact nofun
  | recorded run job progress hrow hf hstage =>
    have hmem := h.returned job hstage
    refine ⟨by simp, by simp, by simp, ?_⟩
    intro hsettled _ k job' hk
    have hold : .returned k e.id e.attempt job' ∈ s.trace :=
      (mem_cons.mp hk).resolve_left (by simp)
    have hjob : job' = job := hjobs.unique _ _ _ _ _ _ hmem hold
    refine .inl ?_
    have hcanceled : job.status = .canceled := hsettled
    rw [hjob, hcanceled]
    rfl
  | submitted hstage =>
    refine ⟨fun _ => ⟨mem_cons_self, ?_⟩, by simp, by simp,
      fun h => h.elim⟩
    intro k job hk
    rcases mem_cons.mp hk with hnew | hold
    · cases hnew
    · exact (hsub.renewed hstage).2.2 k (hjobs.before _ _ _ _ hold)
  | returned =>
    refine ⟨by simp, ?_, by simp, fun h => h.elim⟩
    rintro job' ⟨⟩
    exact mem_cons_self
  | stored run remote report stored output assetId hrow hf hstage =>
    refine ⟨by simp, by simp, by simp, ?_⟩
    intro hsettled hheld' k job hk
    have hold' : .returned k e.id e.attempt job ∈ MediaEvent.wrote i e.owner e.id :: s.trace :=
      (mem_cons.mp hk).resolve_left (by simp)
    have hold : .returned k e.id e.attempt job ∈ s.trace :=
      (mem_cons.mp hold').resolve_left (by simp)
    have hsettled' : e.stage.Settled := by
      rw [hstage]
      exact hsettled
    exact (h.settled hsettled' (hheld hheld') k job hold).append
      [.stored i e.id output assetId, .wrote i e.owner e.id]
  | reported remote old report hstage =>
    refine ⟨by simp, by simp, by simp, ?_⟩
    intro hsettled hheld' k job hk
    have hold : .returned k e.id e.attempt job ∈ s.trace :=
      (mem_cons.mp hk).resolve_left (by simp)
    have hid := hremote hheld' remote (by rw [hstage]; rfl) k job hold
    have hcanceled : report.status = .canceled := hsettled
    refine settledJob_cons hold ?_
    simp [settles, hid, hcanceled, MediaRunStatus.isTerminal]
  | canceled remote old hstage =>
    refine ⟨by simp, by simp, by simp, ?_⟩
    intro _ hheld' k job hk
    have hold : .returned k e.id e.attempt job ∈ s.trace :=
      (mem_cons.mp hk).resolve_left (by simp)
    have hid := hremote hheld' remote (by rw [hstage]; rfl) k job hold
    refine settledJob_cons hold ?_
    simp [settles, hid]
  | canceledOther remote stage hoff hstored hstage =>
    have hlost : ¬Held s e := by
      rintro ⟨run, hrow, howner⟩
      rw [(hown.held run hrow howner).1] at hoff
      cases hoff
    rcases hstage with rfl | ⟨known, old, -, rfl⟩
    · exact h.keep off [.canceledJob i e.id remote] rfl hheld (by simp) (by simp)
    · exact ⟨by simp, by simp, by simp,
        fun _ hheld' => absurd (hheld hheld') hlost⟩

theorem Answering.other (h : Answering i s e) (h' : Answering j s e') (hjobs : Jobs s)
    (hsub : Submits s) (hown : Owns i s e) (hown' : Owns j s e') (hfenced : Fenced s) (hji : j ≠ i)
    (hallows : e.Allows c) (heffect : CallEffect i s c r s') : Answering j s' e' := by
  obtain ⟨events, htrace, hadds⟩ := heffect.grows
  refine h'.keep e'.off events htrace (·.back heffect) ?_ ?_
  · intro hstage k job hk
    obtain ⟨rfl, rfl⟩ : k = i ∧ c = .submitAnswer e'.id e'.attempt := hadds _ hk
    obtain ⟨hid, hattempt, hpending⟩ := hallows
    obtain ⟨hmem, -⟩ := h.pending hpending
    rw [← hid, ← hattempt] at hmem
    rcases hstage with hstage | ⟨hsettled, run, hrow, howner⟩
    · exact hji (submitter_unique (hsub.once _ _) hmem (h'.pending hstage).1)
    have hrow' := hrow
    rw [hid] at hrow'
    have hnone := (h.pending_row hjobs hsub hpending hrow'
      ((hown'.attempt hfenced hrow howner).trans hattempt)).1
    have hknown := (hown'.held run hrow howner).2
    rw [hnone] at hknown
    cases hstage : e'.stage with
    | fresh canceling =>
      rw [hstage] at hsettled
      obtain rfl : canceling = true := hsettled
      obtain ⟨l, hl⟩ := hsub.before _ _ _ hmem
      exact h'.fresh hstage ⟨run, hrow, howner⟩ l hl
    | tracking =>
      rw [hstage] at hknown
      cases hknown
    | cancelled =>
      rw [hstage] at hknown
      cases hknown
    | _ =>
      rw [hstage] at hsettled
      exact hsettled.elim
  · intro hstage hheld k hk
    obtain ⟨-, owner, leaseDuration, run, rfl, hrow, howner, -⟩ := hadds _ hk
    obtain ⟨hid, rfl, -⟩ := hallows
    rw [hid] at hrow
    exact hji (hown.unique hown' hfenced hid ⟨run, hrow, howner⟩ hheld)

theorem jobs_keeps : ExecutionKeeps (fun w a => FreshClaims w a ∧ CancelsSafely w a)
    (fun s => Submits s ∧ Jobs s) fun i s e => Submitting i s e ∧ Answering i s e where
  init := ⟨Submits.init, Jobs.init⟩
  shift s s' hshift hfenced h := by
    obtain ⟨hsub, hsubs⟩ := submits_keeps.shift s s' hshift hfenced h.1
    refine ⟨⟨hsub, h.2.shift hshift⟩, fun i e hown hJ => ⟨hsubs i e hown hJ.1, ?_⟩⟩
    have htrace : s'.trace = s.trace := by cases hshift <;> rfl
    exact hJ.2.keep e.off [] htrace (·.unshift hshift) (by simp) (by simp)
  claim w owner leaseDuration excludedIds now s run hok hs hfenced h hnext hrow hfree := by
    obtain ⟨hsub, hnew, hsubs⟩ := submits_keeps.claim w owner leaseDuration excludedIds now s run
      hok.1 hs hfenced h.1 hnext hrow hfree
    refine ⟨⟨hsub, h.2.claim owner leaseDuration hrow⟩, ⟨hnew, answering_claimed h.2 hrow h.1⟩, ?_⟩
    intro j e hown hapart hJ
    refine ⟨hsubs j e hown hapart hJ.1, ?_⟩
    exact hJ.2.keep e.off [.claimed s.started owner run.id run.attempt] rfl (·.unclaim hapart)
      (by simp) (by simp)
  user w i now replies s c k r s' hok hs hcall hfenced h hallows heffect := by
    obtain ⟨hsub, hsubs⟩ := submits_keeps.user w i now replies s c k r s' hok.1 hs hcall hfenced h.1
      hallows heffect
    have hsafe := hok.2.safe hcall now
    rw [← hs] at hsafe
    refine ⟨⟨hsub, h.2.user h.1 hallows heffect hsafe⟩,
      fun j e hown hJ => ⟨hsubs j e hown hJ.1, ?_⟩⟩
    exact hJ.2.keep e.off [] (heffect.user_trace hallows) (·.back heffect) (by simp) (by simp)
  worker w i now replies s c k r s' e hok hs hcall hfenced h hown hJ hallows heffect := by
    obtain ⟨hsub, hnew, hsubs⟩ := submits_keeps.worker w i now replies s c k r s' e hok.1 hs hcall
      hfenced h.1 hown hJ.1 hallows heffect
    have hsafe := hok.2.safe hcall now
    rw [← hs] at hsafe
    have hstep := execution_step hallows heffect
    refine ⟨⟨hsub, h.2.worker h.1 hown hfenced hJ.2 hstep hsafe⟩,
      ⟨hnew, hJ.2.own h.2 hJ.1 hown hfenced _ hstep (·.back heffect)⟩, ?_⟩
    intro j e' hji hown' hJ'
    exact ⟨hsubs j e' hji hown' hJ'.1,
      hJ.2.other hJ'.2 h.2 h.1 hown hown' hfenced hji hallows heffect⟩

end

/-! ## the results -/

theorem no_orphan_jobs {actions : List MediaAction}
    (hok : Run.StepsOk MediaWorld.step
      (fun w a => OneAtATime w a ∧ FreshClaims w a ∧ CancelsSafely w a) MediaWorld.init actions) :
    Run.Along MediaWorld.step (fun w => NoOrphans w.shared) MediaWorld.init actions :=
  (jobs_keeps.run hok).mono fun _ h id run hrow hcanceled =>
    (h.2.row id run hrow).settled hcanceled

/-- a provider whose jobs go on until they are canceled -/
def slowProvider : MediaReplies where
  node := true
  prepared := .ok ()
  adapter := .ok ()
  submitted := .ok ⟨"job", .processing, none, [], none⟩
  polled := .ok ⟨"job", .processing, none, [], none⟩
  canceled := .ok ()
  downloaded := .ok ()
  persisted := .ok ""

def slowly (n i now : Nat) : List MediaAction := List.replicate n (.advance i now slowProvider)

/-- the job is recorded before the request, and canceled by the worker that has submitted it -/
def cancelRecorded : List MediaAction :=
  createOne :: claimAndSubmit 0 "worker" 0 ++ slowly 4 0 0 ++ [.request (.cancelRun "run")] ++
    slowly 4 1 0 ++ slowly 9 0 0

theorem cancelRecorded_settled : SettledJob "run" 1 ⟨"job", .processing, none, [], none⟩
    (Run.run MediaWorld.step MediaWorld.init cancelRecorded).shared.trace := by
  have hnew : Run.StepsOk MediaWorld.step (newOwner · · = true) MediaWorld.init cancelRecorded := by
    decide +kernel
  have hone := hnew.mono fun _ _ => oneAtATime_of_newOwner
  have hfresh : Run.StepsOk MediaWorld.step FreshClaims MediaWorld.init cancelRecorded := by
    decide +kernel
  have hsafe : Run.StepsOk MediaWorld.step CancelsSafely MediaWorld.init cancelRecorded := by
    decide +kernel
  have hrow : ∃ run, (Run.run MediaWorld.step MediaWorld.init cancelRecorded).shared.db.runs "run" =
      some run ∧ run.status = .canceled ∧ run.attempt = 1 :=
    ⟨⟨"run", .canceled, 1, 0, some "provider", some "job", some 0, none, none, none, none, false,
      ""⟩, by decide +kernel⟩
  have hreturned : .returned 0 "run" 1 ⟨"job", .processing, none, [], none⟩ ∈
      (Run.run MediaWorld.step MediaWorld.init cancelRecorded).shared.trace := by
    decide +kernel
  obtain ⟨run, hrow, hcanceled, hattempt⟩ := hrow
  rw [← hattempt] at hreturned ⊢
  exact (no_orphan_jobs (hone.and (hfresh.and hsafe))).last "run" run hrow hcanceled 0 _ hreturned

/-- the request comes while the submit is pending; the job is not recorded, and another worker
finishes the cancel -/
def cancelPending : List MediaAction :=
  createOne :: claimAndSubmit 0 "first" 0 ++ [.request (.cancelRun "run")] ++ slowly 4 1 0 ++
    slowly 3 0 0 ++ [.claim "second" 10 [] 20] ++ slowly 9 2 20

theorem orphan_job :
    Run.StepsOk MediaWorld.step (fun w a => OneAtATime w a ∧ FreshClaims w a) MediaWorld.init
        cancelPending ∧
      (∀ a ∈ cancelPending, ∀ i, a ≠ .crash i) ∧
      ¬NoOrphans (Run.run MediaWorld.step MediaWorld.init cancelPending).shared := by
  refine ⟨?_, ?_, ?_⟩
  · have hnew : Run.StepsOk MediaWorld.step (newOwner · · = true) MediaWorld.init
        cancelPending := by decide +kernel
    have hfresh : Run.StepsOk MediaWorld.step FreshClaims MediaWorld.init cancelPending := by
      decide +kernel
    have hone := hnew.mono fun _ _ => oneAtATime_of_newOwner
    exact hone.and hfresh
  · simp [cancelPending, createOne, claimAndSubmit, slowly]
  have hrow : (Run.run MediaWorld.step MediaWorld.init cancelPending).shared.db.runs "run" =
      some ⟨"run", .canceled, 1, 0, some "provider", none, some 0, none, none, none, none, false,
        ""⟩ := by decide +kernel
  have hreturned : .returned 0 "run" 1 ⟨"job", .processing, none, [], none⟩ ∈
      (Run.run MediaWorld.step MediaWorld.init cancelPending).shared.trace := by decide +kernel
  have hnone : (Run.run MediaWorld.step MediaWorld.init cancelPending).shared.trace.all
      (fun event => !settles "run" ⟨"job", .processing, none, [], none⟩ event) = true := by
    decide +kernel
  intro horphans
  rcases horphans "run" _ hrow rfl 0 _ hreturned with hover | ⟨i, newer, older, htrace, event,
    hmem, hsettles⟩
  · cases hover
  have hevent : event ∈
      (Run.run MediaWorld.step MediaWorld.init cancelPending).shared.trace := by
    rw [htrace]
    exact mem_append_left _ hmem
  have hnot := all_eq_true.mp hnone event hevent
  rw [hsettles] at hnot
  cases hnot

end CcPanes

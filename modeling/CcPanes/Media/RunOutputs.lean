import CcPanes.Media.OneAtATime

/-!
# Which outputs a succeeded run has

The outputs of a report are linked one by one, before the run succeeds.  A pass that is interrupted,
or fails, leaves its links, and neither the next claim nor a retry removes them.
-/

namespace CcPanes
open CallProgram MediaService MediaJobWorker MediaShared List Option Function

/-- the outputs that the thread has linked, with their assets, the oldest first -/
def storedBy (i : Nat) : List MediaEvent → List (RemoteOutput × String)
  | [] => []
  | .stored j _ output assetId :: t =>
    if j = i then storedBy i t ++ [(output, assetId)] else storedBy i t
  | _ :: t => storedBy i t

/-- the run has no outputs when an execution is about to link its first -/
def freshPass (w : MediaWorld) : MediaAction → Bool
  | .advance i now _ =>
    match w.program i with
    | .call (.insertAssetForRunOwner id owner _ _) _ =>
      !(w.shared.db.runs id).any (MediaDb.fenced owner (w.shared.tick now).clock) ||
        !(storedBy i w.shared.trace).isEmpty || (w.shared.db.outputs id).isEmpty
    | _ => true
  | _ => true

def FreshPasses (w : MediaWorld) (a : MediaAction) : Prop := freshPass w a = true

instance (w : MediaWorld) (a : MediaAction) : Decidable (FreshPasses w a) :=
  inferInstanceAs (Decidable (_ = true))

/-- the provider has reported it to the thread, at the submit or at a poll -/
def Answered (i : Nat) (id : String) (attempt : Nat) (report : RemoteJob)
    (trace : List MediaEvent) : Prop :=
  .returned i id attempt report ∈ trace ∨ ∃ remote, .reported i id remote report ∈ trace

/-- an execution of the attempt got a report of success, has linked the outputs of the report in
order and once each, and nothing else is linked -/
def OwnsOutputs (s : MediaShared) (id : String) (attempt : Nat) : Prop :=
  ∃ i owner report, .claimed i owner id attempt ∈ s.trace ∧
    Answered i id attempt report s.trace ∧ report.status = .succeeded ∧
    (storedBy i s.trace).map Prod.fst = report.outputs ∧
    s.db.outputs id = (storedBy i s.trace).map Prod.snd

/-! ## the invariant -/

structure Outputs (s : MediaShared) : Prop where
  one : ∀ i owner id attempt owner' id' attempt', .claimed i owner id attempt ∈ s.trace →
    .claimed i owner' id' attempt' ∈ s.trace → id' = id
  started : ∀ i owner id attempt, .claimed i owner id attempt ∈ s.trace → i < s.started
  stored : ∀ i, s.started ≤ i → storedBy i s.trace = []
  done : ∀ id run, s.db.runs id = some run → run.status = .succeeded → run.cacheHit = false →
    OwnsOutputs s id run.attempt

def MediaStage.Bare : MediaStage → Prop
  | returned _ => False
  | tracking _ report stored => report = none ∧ stored = []
  | _ => True

structure Passing (i : Nat) (s : MediaShared) (e : Execution) : Prop where
  stored : storedBy i s.trace = e.stage.stored
  returned : ∀ job, e.stage = .returned job → .returned i e.id e.attempt job ∈ s.trace
  answered : ∀ remote report stored, e.stage = .tracking remote (some report) stored →
    Answered i e.id e.attempt report s.trace
  linked : Held s e → e.stage.stored ≠ [] → s.db.outputs e.id = e.stage.stored.map Prod.snd

section
variable {i j : Nat} {s s' : MediaShared} {e e' : Execution} {c : MediaCall} {r : c.Answer}

theorem storedBy_stored (i : Nat) (id : String) (output : RemoteOutput) (assetId : String)
    (t : List MediaEvent) :
    storedBy i (.stored i id output assetId :: t) = storedBy i t ++ [(output, assetId)] := if_pos rfl

theorem storedBy_stored_ne (h : j ≠ i) (id : String) (output : RemoteOutput) (assetId : String)
    (t : List MediaEvent) : storedBy i (.stored j id output assetId :: t) = storedBy i t := if_neg h

theorem Answered.mono {id : String} {attempt : Nat} {report : RemoteJob} {t t' : List MediaEvent}
    (h : Answered i id attempt report t) (hmono : ∀ event, event ∈ t → event ∈ t') :
    Answered i id attempt report t' :=
  h.imp (hmono _) fun ⟨remote, hmem⟩ => ⟨remote, hmono _ hmem⟩

theorem MediaShared.CallEffect.storedBy_ne (h : CallEffect i s c r s') (hji : j ≠ i) :
    storedBy j s'.trace = storedBy j s.trace := by
  cases h with
  | row c r id run run' events hrow hchange => cases hchange <;> rfl
  | stored => exact storedBy_stored_ne hji.symm _ _ _ _
  | _ => rfl

theorem MediaShared.CallEffect.outputs_cases (h : CallEffect i s c r s') (id : String) :
    s'.db.outputs id = s.db.outputs id ∨ ∃ owner output assetId run,
      c = .insertAssetForRunOwner id owner output assetId ∧ s.db.runs id = some run ∧
        MediaDb.fenced owner s.clock run = true := by
  cases h with
  | stored runId owner output assetId run hrow hfenced =>
    by_cases hid : id = runId
    · subst hid
      exact .inr ⟨owner, output, assetId, run, rfl, hrow, hfenced⟩
    · exact .inl (update_of_ne hid _ _)
  | _ => exact .inl rfl

theorem OwnsOutputs.keep {id : String} {attempt : Nat} (h : OwnsOutputs s id attempt)
    (hmono : ∀ event, event ∈ s.trace → event ∈ s'.trace)
    (hstored : ∀ k owner, .claimed k owner id attempt ∈ s.trace →
      storedBy k s'.trace = storedBy k s.trace)
    (houtputs : s'.db.outputs id = s.db.outputs id) : OwnsOutputs s' id attempt := by
  obtain ⟨k, owner, report, hclaimed, hanswered, hstatus, hall, howns⟩ := h
  refine ⟨k, owner, report, hmono _ hclaimed, hanswered.mono hmono, hstatus, ?_, ?_⟩
  · rw [hstored k owner hclaimed]
    exact hall
  · rw [hstored k owner hclaimed, houtputs]
    exact howns

theorem Outputs.init : Outputs MediaWorld.init.shared where
  one := by
    intro i owner id attempt owner' id' attempt' h
    cases h
  started := by
    intro i owner id attempt h
    cases h
  stored _ _ := rfl
  done := by
    intro id run h
    cases h

theorem Outputs.shift (h : Outputs s) (hshift : MediaShift s s') : Outputs s' := by
  cases hshift with
  | tick => exact ⟨h.one, h.started, h.stored, h.done⟩
  | spawn =>
    exact ⟨h.one, fun i owner id attempt hmem => Nat.lt_succ_of_lt (h.started i owner id attempt hmem),
      fun i hi => h.stored i (Nat.le_of_succ_le hi), h.done⟩
  | create id priority providerId createdAt cacheHit =>
    refine ⟨h.one, h.started, h.stored, ?_⟩
    intro id' run hrow hstatus hcache
    by_cases hid' : id' = id
    · subst hid'
      cases (update_self id' _ _).symm.trans hrow
      have hstatus' : (if cacheHit then MediaRunStatus.succeeded else .queued) = .succeeded := hstatus
      have hcache' : cacheHit = false := hcache
      rw [hcache'] at hstatus'
      cases hstatus'
    · have hold := h.done id' run ((update_of_ne hid' _ _).symm.trans hrow) hstatus hcache
      exact hold.keep (fun _ hmem => hmem) (fun _ _ _ => rfl) (update_of_ne hid' _ _)

theorem claim_status_succeeded {run : MediaRun} {owner : String} {leaseExpiresAt : Nat}
    (h : (run.claim owner leaseExpiresAt).status = .succeeded) : run.status = .succeeded := by
  have hstatus : (if run.status = .queued then .submitting else run.status) =
    MediaRunStatus.succeeded := h
  by_cases hqueued : run.status = .queued
  · rw [if_pos hqueued] at hstatus
    cases hstatus
  · rwa [if_neg hqueued] at hstatus

theorem Outputs.claim (h : Outputs s) (owner : String) (leaseDuration : Nat) {run : MediaRun}
    (hrow : s.db.runs run.id = some run) :
    Outputs (MediaWorld.claimed s owner leaseDuration run) := by
  refine ⟨?_, ?_, ?_, ?_⟩
  · intro i o id attempt o' id' attempt' hmem hmem'
    rcases mem_cons.mp hmem with hnew | hold
    · rcases mem_cons.mp hmem' with hnew' | hold'
      · cases hnew
        cases hnew'
        rfl
      · cases hnew
        exact absurd (h.started _ _ _ _ hold') (Nat.lt_irrefl _)
    · rcases mem_cons.mp hmem' with hnew' | hold'
      · cases hnew'
        exact absurd (h.started _ _ _ _ hold) (Nat.lt_irrefl _)
      · exact h.one i o id attempt o' id' attempt' hold hold'
  · intro i o id attempt hmem
    rcases mem_cons.mp hmem with hnew | hold
    · cases hnew
      exact Nat.lt_succ_self _
    · exact Nat.lt_succ_of_lt (h.started i o id attempt hold)
  · intro i hi
    exact h.stored i (Nat.le_of_succ_le hi)
  · intro id run' hrow' hstatus hcache
    have hold : OwnsOutputs s id run'.attempt := by
      by_cases hid : id = run.id
      · subst hid
        cases (claimed_runs_self _ _ _ _).symm.trans hrow'
        exact h.done run.id run hrow (claim_status_succeeded hstatus) hcache
      · rw [claimed_runs_ne hid] at hrow'
        exact h.done id run' hrow' hstatus hcache
    exact hold.keep (fun _ hmem => mem_cons_of_mem _ hmem) (fun _ _ _ => rfl) rfl

theorem MediaShared.CallEffect.storedBy_eq (h : CallEffect i s c r s')
    (hinsert : ∀ id owner output assetId, c ≠ .insertAssetForRunOwner id owner output assetId)
    (k : Nat) : storedBy k s'.trace = storedBy k s.trace := by
  cases h with
  | row c r id run run' events hrow hchange => cases hchange <;> rfl
  | stored => exact absurd rfl (hinsert _ _ _ _)
  | _ => rfl

theorem Outputs.frame (h : Outputs s) (heffect : CallEffect i s c r s')
    (hinsert : ∀ id owner output assetId, c ≠ .insertAssetForRunOwner id owner output assetId)
    (hstatus : ∀ id run run' events, RowChange i s.clock c r id run run' events →
      run'.status = .succeeded → run.status = .succeeded ∧ run'.attempt = run.attempt ∧
        run'.cacheHit = run.cacheHit) : Outputs s' := by
  have hstarted : s'.started = s.started := by cases heffect <;> rfl
  have hclaimed : ∀ k owner id attempt, .claimed k owner id attempt ∈ s'.trace →
      .claimed k owner id attempt ∈ s.trace := fun k owner id attempt hmem =>
    heffect.claimed_inv hmem
  have hstored : ∀ k, storedBy k s'.trace = storedBy k s.trace := heffect.storedBy_eq hinsert
  refine ⟨?_, ?_, ?_, ?_⟩
  · intro k owner id attempt owner' id' attempt' hmem hmem'
    exact h.one k owner id attempt owner' id' attempt' (hclaimed _ _ _ _ hmem)
      (hclaimed _ _ _ _ hmem')
  · intro k owner id attempt hmem
    rw [hstarted]
    exact h.started k owner id attempt (hclaimed _ _ _ _ hmem)
  · intro k hk
    rw [hstored]
    exact h.stored k (hstarted ▸ hk)
  · intro id run' hrow' hsucceeded hcache
    have houtputs : s'.db.outputs id = s.db.outputs id := by
      rcases heffect.outputs_cases id with hsame | ⟨owner, output, assetId, -, hc, -⟩
      · exact hsame
      · exact absurd hc (hinsert _ _ _ _)
    have hold : OwnsOutputs s id run'.attempt := by
      rcases heffect.row_cases id with hsame | ⟨run, run'', events, hrow, hrow'', hchange, -⟩
      · exact h.done id run' (hsame.symm.trans hrow') hsucceeded hcache
      obtain rfl := some.inj (hrow''.symm.trans hrow')
      obtain ⟨hst, hattempt, hhit⟩ := hstatus id run run'' events hchange hsucceeded
      rw [hattempt]
      exact h.done id run hrow hst (hhit.symm.trans hcache)
    exact hold.keep (fun _ hmem => heffect.mono hmem) (fun k _ _ => hstored k) houtputs

theorem MediaShared.RowChange.user_succeeded {now : Nat} {id : String} {run run' : MediaRun}
    {events : List MediaEvent} (h : RowChange i now c r id run run' events)
    (hallows : userAllows c) (hstatus : run'.status = .succeeded) :
    run.status = .succeeded ∧ run'.attempt = run.attempt ∧ run'.cacheHit = run.cacheHit := by
  cases h with
  | updated =>
    obtain ⟨next, progress, hnext, -, rfl⟩ := hallows
    have hst : next = .succeeded := hstatus
    rcases hnext with rfl | rfl
    · cases hst
    · cases hst
  | event =>
    rw [MediaRun.apply, hallows.1] at hstatus
    exact ⟨hstatus, rfl, rfl⟩
  | retried => cases hstatus
  | prioritized => exact ⟨hstatus, rfl, rfl⟩
  | leased => exact hallows.elim
  | renewed => exact hallows.elim
  | cleared => exact hallows.elim

theorem OwnsOutputs.other {id : String} {attempt : Nat} (h : OwnsOutputs s id attempt)
    (hI : Outputs s) (hown : Owns i s e) (hid : id ≠ e.id) (hallows : e.Allows c)
    (heffect : CallEffect i s c r s') : OwnsOutputs s' id attempt := by
  refine h.keep (fun _ hmem => heffect.mono hmem) ?_ ?_
  · intro k owner hclaimed
    refine heffect.storedBy_ne ?_
    rintro rfl
    exact hid (hI.one _ _ _ _ _ _ _ hown.claimed hclaimed)
  · rcases heffect.outputs_cases id with hsame | ⟨owner, output, assetId, run, rfl, -⟩
    · exact hsame
    · exact absurd hallows.1 hid

theorem OwnsOutputs.own (h : Outputs s) (hown : Owns i s e) (hfenced : Fenced s)
    (hpass : Passing i s e) {stage : MediaStage} (hstep : ExecutionStep i s e c s' stage)
    {run' : MediaRun} (hrow' : s'.db.runs e.id = some run') (hstatus : run'.status = .succeeded)
    (hcache : run'.cacheHit = false) : OwnsOutputs s' e.id run'.attempt := by
  have hself : ∀ run events, (writeRow i s e run events).db.runs e.id = some run := fun _ _ =>
    update_self _ _ _
  cases hstep with
  | quiet => exact h.done e.id run' hrow' hstatus hcache
  | refused => exact h.done e.id run' hrow' hstatus hcache
  | submitted | returned | reported | canceled | canceledOther =>
    exact (h.done e.id run' hrow' hstatus hcache).keep (fun _ hmem => mem_cons_of_mem _ hmem)
      (fun _ _ _ => rfl) rfl
  | cleared run hrow =>
    cases (hself _ _).symm.trans hrow'
    exact (h.done e.id run hrow hstatus hcache).keep (fun _ hmem => mem_cons_of_mem _ hmem)
      (fun _ _ _ => rfl) rfl
  | renewed run d stage hrow howner hterminal =>
    cases (hself _ _).symm.trans hrow'
    have hstatus' : run.status = .succeeded := hstatus
    rw [hstatus'] at hterminal
    cases hterminal
  | recorded =>
    cases (hself _ _).symm.trans hrow'
    cases hstatus
  | stored run remote report stored output assetId hrow hf =>
    cases hrow.symm.trans hrow'
    have hterminal := (fenced_iff.mp hf).2.2
    rw [hstatus] at hterminal
    cases hterminal
  | moved run next progress code message hrow hf hnext =>
    cases (hself _ _).symm.trans hrow'
    obtain rfl : next = .succeeded := hstatus
    have howner := (fenced_iff.mp hf).1
    have hcomplete : e.stage.Complete := hnext
    have hstored := hpass.stored
    have hlinked := hpass.linked ⟨run, hrow, howner⟩
    cases hstage : e.stage with
    | tracking remote report stored =>
      rw [hstage] at hcomplete hstored hlinked
      cases report with
      | none => exact hcomplete.elim
      | some report =>
        obtain ⟨hsucceeded, hall, hne⟩ := hcomplete
        have hstored' : storedBy i s.trace = stored := hstored
        have hattempt : run.attempt = e.attempt := hown.attempt hfenced hrow howner
        refine ⟨i, e.owner, report, ?_, ?_, hsucceeded, ?_, ?_⟩
        · show .claimed i e.owner e.id run.attempt ∈ MediaEvent.wrote i e.owner e.id :: s.trace
          rw [hattempt]
          exact mem_cons_of_mem _ hown.claimed
        · show Answered i e.id run.attempt report (MediaEvent.wrote i e.owner e.id :: s.trace)
          rw [hattempt]
          exact (hpass.answered remote report stored hstage).mono
            fun _ hmem => mem_cons_of_mem _ hmem
        · show (storedBy i s.trace).map Prod.fst = report.outputs
          rw [hstored']
          exact hall
        · show s.db.outputs e.id = (storedBy i s.trace).map Prod.snd
          rw [hstored']
          exact hlinked hne
    | _ =>
      rw [hstage] at hcomplete
      exact hcomplete.elim

theorem Outputs.worker (h : Outputs s) (hown : Owns i s e) (hfenced : Fenced s)
    (hpass : Passing i s e) (hallows : e.Allows c) (heffect : CallEffect i s c r s') :
    Outputs s' := by
  have hstarted : s'.started = s.started := by cases heffect <;> rfl
  have hclaimed : ∀ k owner id attempt, .claimed k owner id attempt ∈ s'.trace →
      .claimed k owner id attempt ∈ s.trace := fun k owner id attempt hmem =>
    heffect.claimed_inv hmem
  refine ⟨?_, ?_, ?_, ?_⟩
  · intro k owner id attempt owner' id' attempt' hmem hmem'
    exact h.one k owner id attempt owner' id' attempt' (hclaimed _ _ _ _ hmem)
      (hclaimed _ _ _ _ hmem')
  · intro k owner id attempt hmem
    rw [hstarted]
    exact h.started k owner id attempt (hclaimed _ _ _ _ hmem)
  · intro k hk
    rw [hstarted] at hk
    have hne : k ≠ i := by
      rintro rfl
      exact absurd (h.started _ _ _ _ hown.claimed) (Nat.not_lt.mpr hk)
    rw [heffect.storedBy_ne hne]
    exact h.stored k hk
  · intro id run' hrow' hsucceeded hcache
    by_cases hid : id = e.id
    · subst hid
      exact OwnsOutputs.own h hown hfenced hpass (execution_step hallows heffect) hrow' hsucceeded
        hcache
    have hrow : s.db.runs id = some run' := by
      rcases heffect.row_cases id with hsame | ⟨run, run'', events, -, -, hchange, -⟩
      · exact hsame.symm.trans hrow'
      · exact absurd (hchange.by_worker hallows).1 hid
    exact (h.done id run' hrow hsucceeded hcache).other h hown hid hallows heffect

theorem Passing.keep (h : Passing i s e) (off : Bool)
    (hmono : ∀ event, event ∈ s.trace → event ∈ s'.trace)
    (hstored : storedBy i s'.trace = storedBy i s.trace) (houtputs : s'.db.outputs = s.db.outputs)
    (hheld : Held s' e → Held s e) : Passing i s' (e.reach e.stage off) where
  stored := hstored.trans h.stored
  returned job hst := hmono _ (h.returned job hst)
  answered remote report stored hst := (h.answered remote report stored hst).mono hmono
  linked hheld' hne := (congrFun houtputs e.id).trans (h.linked (hheld hheld') hne)

theorem Passing.bare (hstored : storedBy i s'.trace = []) (hbare : e.stage.Bare) :
    Passing i s' e := by
  cases hstage : e.stage with
  | returned =>
    rw [hstage] at hbare
    exact hbare.elim
  | tracking =>
    rw [hstage] at hbare
    obtain ⟨rfl, rfl⟩ := hbare
    refine ⟨by rw [hstage]; exact hstored, fun job hst => ?_, fun _ _ _ hst => ?_,
      fun _ hne => absurd (by rw [hstage]; rfl) hne⟩
    · rw [hstage] at hst
      cases hst
    · rw [hstage] at hst
      cases hst
  | _ =>
    refine ⟨by rw [hstage]; exact hstored, fun job hst => ?_, fun _ _ _ hst => ?_,
      fun _ hne => absurd (by rw [hstage]; rfl) hne⟩
    · rw [hstage] at hst
      cases hst
    · rw [hstage] at hst
      cases hst

theorem Passing.own (h : Passing i s e) {stage : MediaStage} (off : Bool)
    (hstep : ExecutionStep i s e c s' stage) (hheld : Held s' e → Held s e)
    (hfresh : ∀ output assetId run, c = .insertAssetForRunOwner e.id e.owner output assetId →
      s.db.runs e.id = some run → MediaDb.fenced e.owner s.clock run = true →
      storedBy i s.trace = [] → s.db.outputs e.id = []) :
    Passing i s' (e.reach stage off) := by
  have hmono : ∀ event, ∀ e' ∈ s.trace, e' ∈ event :: s.trace := fun _ _ hmem =>
    mem_cons_of_mem _ hmem
  have hbare : e.stage.stored = [] → storedBy i s.trace = [] := fun hst => h.stored.trans hst
  cases hstep with
  | quiet => exact h.keep off (fun _ hmem => hmem) rfl rfl hheld
  | refused _ hstage | submitted hstage | canceled remote old hstage =>
    exact .bare (hbare (by rw [hstage]; rfl)) trivial
  | moved => exact h.keep off (hmono _) rfl rfl hheld
  | cleared => exact h.keep off (hmono _) rfl rfl hheld
  | renewed run leaseDuration stage hrow howner hstatus hstage =>
    rcases hstage with ⟨hfresh, rfl⟩ | ⟨-, rfl⟩
    · exact .bare (hbare (by rw [hfresh]; rfl)) trivial
    · exact h.keep off (fun _ hmem => mem_cons_of_mem _ (mem_cons_of_mem _ hmem)) rfl rfl
        hheld
  | recorded run job progress hrow hf hstage =>
    refine ⟨hbare (by rw [hstage]; rfl), by simp, ?_,
      fun _ hne => absurd rfl hne⟩
    rintro remote report stored ⟨⟩
    exact .inl (hmono _ _ (h.returned job hstage))
  | returned job hstage =>
    refine ⟨hbare (by rw [hstage]; rfl), ?_, by simp,
      fun _ hne => absurd rfl hne⟩
    rintro job' ⟨⟩
    exact mem_cons_self
  | reported remote old report hstage =>
    refine ⟨hbare (by rw [hstage]; rfl), by simp, ?_,
      fun _ hne => absurd rfl hne⟩
    rintro remote' report' stored ⟨⟩
    exact .inr ⟨remote, mem_cons_self⟩
  | canceledOther remote stage hoff hstored hstage =>
    rcases hstage with rfl | ⟨known, old, -, rfl⟩
    · exact h.keep off (hmono _) rfl rfl hheld
    · exact .bare (hbare hstored) trivial
  | stored run remote report stored output assetId hrow hf hstage =>
    have hstored : storedBy i s.trace = stored := h.stored.trans (by rw [hstage]; rfl)
    refine ⟨?_, by simp, ?_, ?_⟩
    · show storedBy i (.stored i e.id output assetId :: s.trace) = _
      rw [storedBy_stored, hstored]
      rfl
    · rintro remote' report' stored' ⟨⟩
      exact (h.answered remote report stored hstage).mono fun _ hmem =>
        mem_cons_of_mem _ (hmono _ _ hmem)
    intro hheld' _
    show update s.db.outputs e.id (s.db.outputs e.id ++ [assetId]) e.id =
      (stored ++ [(output, assetId)]).map Prod.snd
    rw [update_self, map_append]
    have hold : s.db.outputs e.id = stored.map Prod.snd := by
      by_cases hne : stored = []
      · rw [hfresh output assetId run rfl hrow hf (hstored.trans hne), hne]
        rfl
      · have hlinked := h.linked (hheld hheld')
        rw [hstage] at hlinked
        exact hlinked hne
    rw [hold]
    rfl

theorem Passing.other (h : Passing j s e') (hown : Owns i s e) (hown' : Owns j s e')
    (hfenced : Fenced s) (hji : j ≠ i) (hallows : e.Allows c) (heffect : CallEffect i s c r s') :
    Passing j s' e' := by
  refine ⟨?_, fun job hst => heffect.mono (h.returned job hst), fun remote report stored hst =>
    (h.answered remote report stored hst).mono fun _ hmem => heffect.mono hmem, ?_⟩
  · rw [heffect.storedBy_ne hji]
    exact h.stored
  intro hheld hne
  have hheld' := hheld.back heffect
  rcases heffect.outputs_cases e'.id with hsame | ⟨owner, output, assetId, run, rfl, hrow, hf⟩
  · rw [hsame]
    exact h.linked hheld' hne
  · obtain ⟨hid, rfl, -⟩ := hallows
    rw [hid] at hrow
    exact absurd (hown.unique hown' hfenced hid ⟨run, hrow, (fenced_iff.mp hf).1⟩ hheld') hji

theorem Passing.user (h : Passing j s e') (hallows : userAllows c) (heffect : CallEffect i s c r s') :
    Passing j s' e' := by
  refine ⟨?_, fun job hst => heffect.mono (h.returned job hst), fun remote report stored hst =>
    (h.answered remote report stored hst).mono fun _ hmem => heffect.mono hmem, ?_⟩
  · rw [heffect.storedBy_eq fun id owner output assetId hc => by rw [hc] at hallows; exact hallows]
    exact h.stored
  intro hheld hne
  rcases heffect.outputs_cases e'.id with hsame | ⟨owner, output, assetId, run, rfl, hrow, hf⟩
  · rw [hsame]
    exact h.linked (hheld.back heffect) hne
  · exact hallows.elim

theorem outputs_keeps : ExecutionKeeps FreshPasses Outputs Passing where
  init := Outputs.init
  shift s s' hshift _ h := by
    refine ⟨h.shift hshift, fun i e hown hpass => ?_⟩
    have htrace : s'.trace = s.trace := by cases hshift <;> rfl
    refine ⟨htrace ▸ hpass.stored, fun job hst => htrace ▸ hpass.returned job hst,
      fun remote report stored hst => htrace ▸ hpass.answered remote report stored hst, ?_⟩
    intro hheld hne
    have hheld' := hheld.unshift hshift
    rw [← hpass.linked hheld' hne]
    cases hshift with
    | tick => rfl
    | spawn => rfl
    | create id priority providerId createdAt cacheHit outputs hid =>
      obtain ⟨run, hrow, -⟩ := hheld'
      have hid' : e.id ≠ id := by
        rintro rfl
        rw [hid] at hrow
        cases hrow
      exact update_of_ne hid' _ _
  claim w owner leaseDuration excludedIds now s run _ _ hfenced h _ hrow _ := by
    refine ⟨h.claim owner leaseDuration hrow, ?_, fun j e hown hapart hpass => ?_⟩
    · have hnone := h.stored s.started (Nat.le_refl _)
      rcases ofClaim_stage owner (s.clock + leaseDuration) run with ⟨remote, -, hst⟩ | ⟨-, hst⟩
      · exact .bare hnone (by rw [hst]; exact ⟨rfl, rfl⟩)
      · exact .bare hnone (by rw [hst]; trivial)
    · exact hpass.keep e.off (fun _ hmem => mem_cons_of_mem _ hmem) rfl rfl (·.unclaim hapart)
  user w i now replies s c k r s' _ _ _ hfenced h hallows heffect := by
    refine ⟨h.frame heffect ?_ ?_, fun j e hown hpass => hpass.user hallows heffect⟩
    · rintro id owner output assetId rfl
      exact hallows
    · intro id run run' events hchange hstatus
      exact hchange.user_succeeded hallows hstatus
  worker w i now replies s c k r s' e hok hs hcall hfenced h hown hpass hallows heffect := by
    refine ⟨h.worker hown hfenced hpass hallows heffect, ?_, fun j e' hji hown' hpass' =>
      hpass'.other hown hown' hfenced hji hallows heffect⟩
    refine hpass.own _ (execution_step hallows heffect) (·.back heffect) ?_
    rintro output assetId run rfl hrow hf hnone
    subst hs
    have hany : (w.shared.db.runs e.id).any (MediaDb.fenced e.owner (w.shared.tick now).clock) =
        true := by
      have hrow' : w.shared.db.runs e.id = some run := hrow
      rw [hrow']
      exact hf
    have hpass' : freshPass w (.advance i now replies) = true := hok
    have hnone' : storedBy i w.shared.trace = [] := hnone
    rw [freshPass, hcall] at hpass'
    dsimp only at hpass'
    rw [hany, hnone'] at hpass'
    exact isEmpty_iff.mp hpass'

end

/-! ## the results -/

theorem succeeded_owns_outputs {actions : List MediaAction}
    (hok : Run.StepsOk MediaWorld.step (fun w a => OneAtATime w a ∧ FreshPasses w a) MediaWorld.init
      actions) :
    Run.Along MediaWorld.step (fun w => ∀ id run, w.shared.db.runs id = some run →
      run.status = .succeeded → run.cacheHit = false → OwnsOutputs w.shared id run.attempt)
      MediaWorld.init actions :=
  (outputs_keeps.run hok).mono fun _ h => h.done

/-- a provider that succeeds at once, with two outputs -/
def quickProvider (assetId : String) : MediaReplies where
  node := true
  prepared := .ok ()
  adapter := .ok ()
  submitted := .ok ⟨"job", .succeeded, none, ["left", "right"], none⟩
  polled := .ok ⟨"job", .succeeded, none, ["left", "right"], none⟩
  canceled := .ok ()
  downloaded := .ok ()
  persisted := .ok assetId

def advances (n i now : Nat) (assetId : String) : List MediaAction :=
  List.replicate n (.advance i now (quickProvider assetId))

def onePass : List MediaAction :=
  [.createRun "run" 0 (some "provider") "" none, .claim "worker" 10 [] 0] ++
    advances 22 0 0 "first" ++ advances 10 0 0 "second"

theorem onePass_outputs :
    OwnsOutputs (Run.run MediaWorld.step MediaWorld.init onePass).shared "run" 1 := by
  have hnew : Run.StepsOk MediaWorld.step (newOwner · · = true) MediaWorld.init onePass := by
    decide +kernel
  have hone := hnew.mono fun _ _ => oneAtATime_of_newOwner
  have hfresh : Run.StepsOk MediaWorld.step FreshPasses MediaWorld.init onePass := by
    decide +kernel
  have hrow : ∃ run, (Run.run MediaWorld.step MediaWorld.init onePass).shared.db.runs "run" =
      some run ∧ run.status = .succeeded ∧ run.cacheHit = false ∧ run.attempt = 1 :=
    ⟨⟨"run", .succeeded, 1, 0, some "provider", some "job", some 100, none, none, some "worker",
      some 10, false, ""⟩, by decide +kernel⟩
  obtain ⟨run, hrow, hstatus, hcache, hattempt⟩ := hrow
  rw [← hattempt]
  exact (succeeded_owns_outputs (hone.and hfresh)).last "run" run hrow hstatus hcache

/-- the worker dies after the first output, and the run is claimed again -/
def interruptedPass : List MediaAction :=
  [.createRun "run" 0 (some "provider") "" none, .claim "worker" 10 [] 0] ++
    advances 22 0 0 "first" ++ [.crash 0, .claim "other" 10 [] 20] ++
    advances 19 1 20 "second" ++ advances 10 1 20 "third"

def claimant : MediaEvent → Nat
  | .claimed i _ _ _ => i
  | _ => 0

theorem interrupted_outputs :
    Run.StepsOk MediaWorld.step OneAtATime MediaWorld.init interruptedPass ∧
      (∃ run, (Run.run MediaWorld.step MediaWorld.init interruptedPass).shared.db.runs "run" =
        some run ∧ run.status = .succeeded ∧ run.cacheHit = false ∧ run.attempt = 1) ∧
      (Run.run MediaWorld.step MediaWorld.init interruptedPass).shared.db.outputs "run" =
        ["first", "second", "third"] ∧
      ¬OwnsOutputs (Run.run MediaWorld.step MediaWorld.init interruptedPass).shared "run" 1 := by
  have houtputs : (Run.run MediaWorld.step MediaWorld.init interruptedPass).shared.db.outputs "run" =
      ["first", "second", "third"] := by decide +kernel
  refine ⟨?_, ?_, houtputs, ?_⟩
  · have hnew : Run.StepsOk MediaWorld.step (newOwner · · = true) MediaWorld.init
        interruptedPass := by decide +kernel
    exact hnew.mono fun _ _ => oneAtATime_of_newOwner
  · exact ⟨⟨"run", .succeeded, 1, 0, some "provider", some "job", some 100, none, none,
      some "other", some 30, false, ""⟩, by decide +kernel⟩
  rintro ⟨i, owner, report, hclaimed, -, -, -, howns⟩
  rw [houtputs] at howns
  have htwo : (Run.run MediaWorld.step MediaWorld.init interruptedPass).shared.trace.all
      (claimant · ≤ 1) = true := by decide +kernel
  have hi : i ≤ 1 := of_decide_eq_true (all_eq_true.mp htwo _ hclaimed)
  have hshort :
      (storedBy 0 (Run.run MediaWorld.step MediaWorld.init interruptedPass).shared.trace).length =
          1 ∧
        (storedBy 1 (Run.run MediaWorld.step MediaWorld.init
          interruptedPass).shared.trace).length = 2 := by decide +kernel
  have hlength := congrArg length howns
  rw [length_map] at hlength
  rcases Nat.le_one_iff_eq_zero_or_eq_one.mp hi with rfl | rfl
  · rw [hshort.1] at hlength
    cases hlength
  · rw [hshort.2] at hlength
    cases hlength

end CcPanes

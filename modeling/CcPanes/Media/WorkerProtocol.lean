import CcPanes.Media.MediaWorld

/-!
# The protocol of a worker

What a worker calls in which order, whatever it is answered, and what a user calls.

An execution that has lost its run (`off`) may read the rows of others; what it then writes is
refused.  So the protocol promises what was read only as long as the run is not lost.
-/

namespace CcPanes
open CallProgram hiding ask
open MediaService MediaJobWorker

inductive MediaStage where
  /-- the row has no remote job -/
  | fresh (canceling : Bool)
  /-- the lease is renewed, and the run is submitted next -/
  | renewed
  | pending
  | refused
  /-- the job is not recorded yet -/
  | returned (job : RemoteJob)
  /-- the remote job of the row, the last report on it, and the outputs that are linked so far -/
  | tracking (remote : String) (report : Option RemoteJob) (stored : List (RemoteOutput × String))
  | cancelled (remote : String)

namespace MediaStage

def remote : MediaStage → Option String
  | tracking remote _ _ | cancelled remote => some remote
  | _ => none

def stored : MediaStage → List (RemoteOutput × String)
  | tracking _ _ stored => stored
  | _ => []

def MayRenew : MediaStage → Prop
  | fresh canceling => canceling = false
  | tracking _ _ _ => True
  | _ => False

def MayStore (output : RemoteOutput) : MediaStage → Prop
  | tracking _ (some report) stored =>
    report.status = .succeeded ∧ stored.map Prod.fst ++ [output] <+: report.outputs
  | _ => False

def Complete : MediaStage → Prop
  | tracking _ (some report) stored =>
    report.status = .succeeded ∧ stored.map Prod.fst = report.outputs ∧ stored ≠ []
  | _ => False

def Settled : MediaStage → Prop
  | fresh canceling => canceling = true
  | tracking _ (some report) _ => report.status = .canceled
  | cancelled _ => True
  | _ => False

def next : MediaStage → (c : MediaCall) → c.Answer → MediaStage
  | fresh false, .renewRunLease _ _ _, true => renewed
  | renewed, .submit _ _, _ => pending
  | pending, .submitAnswer _ _, .error _ => refused
  | pending, .submitAnswer _ _, .ok job => returned job
  | returned job, .updateRunForOwnerFromStatus _ _ _ req, true =>
    if req.remoteJobId.isSome then tracking job.id (some job) [] else returned job
  | tracking remote _ _, .poll _ _, .ok report => tracking remote (some report) []
  | tracking remote report stored, .insertAssetForRunOwner _ _ output assetId, true =>
    tracking remote report (stored ++ [(output, assetId)])
  | tracking remote _ _, .cancel _ _, .ok () => cancelled remote
  | stage, _, _ => stage

end MediaStage

structure Execution where
  owner : String
  id : String
  attempt : Nat
  stage : MediaStage
  off : Bool

namespace Execution

def reach (e : Execution) (stage : MediaStage) (off : Bool) : Execution :=
  { e with stage := stage, off := off }

def Permits (e : Execution) : MediaRunStatus → Prop
  | .processing | .downloading | .failed => True
  | .canceled => e.off = true ∨ e.stage.Settled
  | .succeeded => e.stage.Complete
  | _ => False

/-- the updates of the execution: a transition, or the record of the remote job -/
def Legal (e : Execution) (expected : MediaRunStatus) (req : UpdateMediaRunRequest) : Prop :=
  (∃ next progress errorCode errorMessage, e.Permits next ∧ expected.canTransitionTo next = true ∧
    req = transitionRequest next progress errorCode errorMessage) ∨
  ∃ job progress, e.stage = .returned job ∧ expected.canTransitionTo .processing = true ∧
    req = recordRequest .processing job.id progress

def Allows (e : Execution) : MediaCall → Prop
  | .getRun id => id = e.id
  | .updateRunForOwnerFromStatus id owner expected req =>
    id = e.id ∧ owner = e.owner ∧ e.Legal expected req
  | .renewRunLease id owner _ => id = e.id ∧ owner = e.owner ∧ e.stage.MayRenew
  | .clearRunLease id owner => id = e.id ∧ owner = e.owner
  | .insertAssetForRunOwner id owner output _ =>
    id = e.id ∧ owner = e.owner ∧ e.stage.MayStore output
  | .submit id attempt => id = e.id ∧ attempt = e.attempt ∧ e.stage = .renewed
  | .submitAnswer id attempt => id = e.id ∧ attempt = e.attempt ∧ e.stage = .pending
  | .poll id remote => id = e.id ∧ ∃ report, e.stage = .tracking remote report []
  | .cancel id remote => id = e.id ∧ e.stage.stored = [] ∧
    (e.off = true ∨ ∃ report, e.stage = .tracking remote report [])
  | .getNode _ | .prepare _ | .requireAdapter _ | .download _ _ | .persist _ _ => True
  | .updateRunFromStatus _ _ _ | .retryRun _ | .updatePriority _ _ | .findRunByRemoteJobId _ _
  | .updateFromEvent _ _ _ _ => False

/-- the row that is read is the run's, as the execution knows it as long as it is not lost -/
def Told (e : Execution) : (c : MediaCall) → c.Answer → Prop
  | .getRun _, (read, _) =>
    ∀ run, read = some run → run.id = e.id ∧
      (e.off = false → run.attempt = e.attempt ∧ run.remoteJobId = e.stage.remote)
  | _, _ => True

end Execution

inductive MediaLocal where
  | user
  | worker (e : Execution)

def userAllows : MediaCall → Prop
  | .getRun _ | .retryRun _ | .updatePriority _ _ | .findRunByRemoteJobId _ _ => True
  | .updateRunFromStatus _ expected req => ∃ next progress,
    (next = .canceled ∨ next = .canceling) ∧ expected.canTransitionTo next = true ∧
      req = transitionRequest next progress none none
  | .updateFromEvent _ _ _ req => req.status = none ∧ req.remoteJobId = none
  | _ => False

def mediaProtocol : Protocol MediaCall.Answer MediaLocal where
  allows
    | .user, c => userAllows c
    | .worker e, c => e.Allows c
  moves
    | .user, _, _, s' => s' = .user
    | .worker e, c, r, s' => ∃ off, (e.off = true → off = true) ∧
      s' = .worker (e.reach (e.stage.next c r) off) ∧ (e.reach e.stage off).Told c r
  mayFail _ := True

abbrev Abides {α : Type} (s : MediaLocal) (program : MediaProgram α) : Prop :=
  Obeys mediaProtocol (fun _ _ => True) s program

def Execution.ofClaim (owner : String) (run : MediaRun) : Execution where
  owner := owner
  id := run.id
  attempt := run.attempt
  stage :=
    match run.remoteJobId with
    | some remoteJobId => .tracking remoteJobId none []
    | none => .fresh (run.status = .canceling)
  off := false

/-! ## the functions of the service -/

section
variable {e : Execution} {report : RemoteJob} {remote : String} {run : MediaRun}

def MediaCall.Plain : MediaCall → Prop
  | .getRun _ | .clearRunLease _ _ | .getNode _ | .prepare _ | .requireAdapter _ | .download _ _
  | .persist _ _ => True
  | _ => False

theorem MediaStage.next_plain (stage : MediaStage) (c : MediaCall) (hc : c.Plain) (r : c.Answer) :
    stage.next c r = stage := by
  cases c <;> first
    | exact hc.elim
    | cases stage <;> first | rfl | cases ‹Bool› <;> rfl

theorem MediaStage.next_transition (stage : MediaStage) (id owner : String)
    (expected status : MediaRunStatus) (progress : Option Int)
    (errorCode errorMessage : Option String) (r : Bool) :
    stage.next (.updateRunForOwnerFromStatus id owner expected
      (transitionRequest status progress errorCode errorMessage)) r = stage := by
  cases stage <;> cases r <;> first | rfl | cases ‹Bool› <;> rfl

@[simp] theorem Execution.reach_stage (e : Execution) (stage : MediaStage) (off : Bool) :
    (e.reach stage off).stage = stage := rfl

theorem Execution.Permits.lose {status : MediaRunStatus} (h : e.Permits status) {off : Bool}
    (hoff : e.off = true → off = true) : (e.reach e.stage off).Permits status := by
  cases status with
  | canceled => exact h.imp_left hoff
  | _ => exact h

def ReadsRun (e : Execution) (stage : MediaStage) (s : MediaLocal) (run : MediaRun) : Prop :=
  ∃ off, (e.off = true → off = true) ∧ s = .worker (e.reach stage off) ∧ run.id = e.id ∧
    (off = false → run.attempt = e.attempt ∧ run.remoteJobId = stage.remote)

def AtStage (e : Execution) (stage : MediaStage) (s : MediaLocal) : Prop :=
  ∃ off, (e.off = true → off = true) ∧ s = .worker (e.reach stage off)

theorem raise_obeys {α : Type} {post : MediaLocal → α → Prop} {s : MediaLocal} {err : AppError} :
    Obeys mediaProtocol post s (raise err) := .fail trivial

theorem ensure_obeys {s : MediaLocal} {cond : Bool} {err : AppError} :
    Obeys mediaProtocol (fun s' _ => s' = s ∧ cond = true) s (ensure cond err) := by
  cases cond with
  | true => exact .done ⟨rfl, rfl⟩
  | false => exact raise_obeys

theorem Obeys.ensure {α : Type} {post : MediaLocal → α → Prop} {s : MediaLocal} {cond : Bool}
    {err : AppError} {k : Unit → MediaProgram α}
    (h : cond = true → Obeys mediaProtocol post s (k ())) :
    Obeys mediaProtocol post s (ensure cond err >>= k) := by
  refine .bind ensure_obeys ?_
  rintro s' ⟨⟩ ⟨rfl, hcond⟩
  exact h hcond

theorem ask_obeys (c : MediaCall) (h : e.Allows c) :
    Obeys mediaProtocol (fun s r => ∃ off, (e.off = true → off = true) ∧
      s = .worker (e.reach (e.stage.next c r) off) ∧ (e.reach e.stage off).Told c r)
      (.worker e) (ask c) :=
  obeys_ask h fun _ _ hmoves => hmoves

variable {id owner : String}

section
variable (hid : id = e.id)
include hid

theorem requireRow_obeys (message : String) :
    Obeys mediaProtocol (fun s (r : MediaRun × Nat) => ReadsRun e e.stage s r.1) (.worker e)
      (requireRow id message) := by
  refine .bind (ask_obeys (.getRun id) hid) ?_
  rintro s' ⟨read, now⟩ ⟨off, hoff, rfl, htold⟩
  rw [MediaStage.next_plain _ (.getRun id) trivial]
  cases read with
  | none => exact raise_obeys
  | some run => exact .done ⟨off, hoff, rfl, htold run rfl⟩

theorem requireRun_obeys (message : String) :
    Obeys mediaProtocol (fun s (r : MediaRun × Nat) => ReadsRun e e.stage s r.1) (.worker e)
      (requireRun id message) := by
  refine Obeys.ensure fun _ => ?_
  exact requireRow_obeys hid message

theorem renewRunLease_obeys (howner : owner = e.owner) (leaseDuration : Nat)
    (hmay : e.stage.MayRenew) :
    Obeys mediaProtocol (ReadsRun e (e.stage.next (.renewRunLease id owner leaseDuration) true))
      (.worker e) (renewRunLease id owner leaseDuration) := by
  refine Obeys.ensure fun _ => ?_
  refine Obeys.ensure fun _ => ?_
  refine Obeys.ensure fun _ => ?_
  refine .bind (ask_obeys (.renewRunLease id owner leaseDuration) ⟨hid, howner, hmay⟩) ?_
  rintro s' changed ⟨off, hoff, rfl, -⟩
  cases changed with
  | true =>
    refine .bind (requireRun_obeys (e := e.reach _ off) hid _) ?_
    rintro s' ⟨run, now⟩ hreads
    refine Obeys.ensure fun _ => ?_
    obtain ⟨off', hoff', hs, hrun⟩ := hreads
    exact .done ⟨off', hoff' ∘ hoff, hs, hrun⟩
  | false =>
    exact .bind (requireRun_obeys (e := e.reach _ off) hid _) fun _ _ _ => raise_obeys

theorem clearRunLease_obeys (howner : owner = e.owner) :
    Obeys mediaProtocol (fun s _ => AtStage e e.stage s) (.worker e) (clearRunLease id owner) := by
  refine Obeys.ensure fun _ => ?_
  refine Obeys.ensure fun _ => ?_
  refine .bind (requireRun_obeys hid _) ?_
  rintro s' ⟨run, now⟩ ⟨off, hoff, rfl, -⟩
  refine Obeys.ensure fun _ => ?_
  refine .bind (ask_obeys (e := e.reach e.stage off) (.clearRunLease id owner) ⟨hid, howner⟩) ?_
  rintro s' changed ⟨off', hoff', rfl, -⟩
  refine .mono ensure_obeys ?_
  rintro s'' ⟨⟩ ⟨rfl, -⟩
  exact ⟨off', hoff' ∘ hoff, by rw [Execution.reach_stage, MediaStage.next_plain _ (.clearRunLease id owner) trivial]; rfl⟩

theorem ensureLiveLease_obeys :
    Obeys mediaProtocol (fun s _ => AtStage e e.stage s) (.worker e) (ensureLiveLease id owner) := by
  refine Obeys.ensure fun _ => ?_
  refine Obeys.ensure fun _ => ?_
  refine .bind (requireRun_obeys hid _) ?_
  rintro s' ⟨run, now⟩ ⟨off, hoff, rfl, -⟩
  refine .mono ensure_obeys ?_
  rintro s'' ⟨⟩ ⟨rfl, -⟩
  exact ⟨off, hoff, rfl⟩

section
variable (howner : owner = e.owner)
include howner

theorem transitionRunForOwner_obeys {next : MediaRunStatus} (hnext : e.Permits next)
    (progress : Option Int) (errorCode errorMessage : Option String) :
    Obeys mediaProtocol (ReadsRun e e.stage) (.worker e)
      (transitionRunForOwner id owner next progress errorCode errorMessage) := by
  refine .bind (ensureLiveLease_obeys hid) ?_
  rintro s' ⟨⟩ ⟨off, hoff, rfl⟩
  refine .bind (requireRow_obeys (e := e.reach e.stage off) hid _) ?_
  rintro s' ⟨existing, now⟩ ⟨off', hoff', rfl, -⟩
  refine Obeys.ensure fun hedge => ?_
  refine Obeys.ensure fun _ => ?_
  refine .bind (ask_obeys (e := e.reach e.stage off')
    (.updateRunForOwnerFromStatus id owner existing.status
      (transitionRequest next progress errorCode errorMessage))
    ⟨hid, howner, .inl ⟨next, progress, errorCode, errorMessage, hnext.lose (hoff' ∘ hoff), hedge,
      rfl⟩⟩) ?_
  rintro s' changed ⟨off'', hoff'', rfl, -⟩
  refine Obeys.ensure fun _ => ?_
  rw [Execution.reach_stage, MediaStage.next_transition]
  refine .bind (requireRun_obeys (e := e.reach e.stage off'') hid _) ?_
  rintro s' ⟨run, now⟩ ⟨off₃, hoff₃, rfl, hrun⟩
  exact .done ⟨off₃, hoff₃ ∘ hoff'' ∘ hoff' ∘ hoff, rfl, hrun⟩

theorem recordRemoteJob_obeys {job : RemoteJob} (hstage : e.stage = .returned job)
    (progress : Option Int) :
    Obeys mediaProtocol (ReadsRun e (.tracking job.id (some job) [])) (.worker e)
      (recordRemoteJob id owner job.id .processing progress) := by
  refine Obeys.ensure fun _ => ?_
  refine Obeys.ensure fun _ => ?_
  refine Obeys.ensure fun _ => ?_
  refine .bind (requireRun_obeys hid _) ?_
  rintro s' ⟨existing, now⟩ ⟨off, hoff, rfl, -⟩
  refine Obeys.ensure fun _ => ?_
  refine Obeys.ensure fun _ => ?_
  refine Obeys.ensure fun hedge => ?_
  refine Obeys.ensure fun _ => ?_
  refine .bind (ask_obeys (e := e.reach e.stage off)
    (.updateRunForOwnerFromStatus id owner existing.status
      (recordRequest .processing job.id progress))
    ⟨hid, howner, .inr ⟨job, progress, hstage, hedge, rfl⟩⟩) ?_
  rintro s' changed ⟨off', hoff', rfl, -⟩
  rw [Execution.reach_stage, hstage]
  cases changed with
  | false => exact raise_obeys
  | true =>
    refine Obeys.ensure fun _ => ?_
    refine .bind (requireRun_obeys (e := e.reach (.tracking job.id (some job) []) off') hid _) ?_
    rintro s' ⟨run, now⟩ ⟨off'', hoff'', rfl, hrun⟩
    exact .done ⟨off'', hoff'' ∘ hoff' ∘ hoff, rfl, hrun⟩

theorem persistProviderOutputForOwner_obeys {stored : List (RemoteOutput × String)}
    (hstage : e.stage = .tracking remote (some report) stored) {output : RemoteOutput}
    (hnext : e.stage.MayStore output) :
    Obeys mediaProtocol
      (fun s assetId => AtStage e (.tracking remote (some report) (stored ++ [(output, assetId)])) s)
      (.worker e) (persistProviderOutputForOwner id owner output) := by
  refine .bind (ensureLiveLease_obeys hid) ?_
  rintro s' ⟨⟩ ⟨off, hoff, rfl⟩
  refine .bind (ask_obeys (e := e.reach e.stage off) (.persist id output) trivial) ?_
  rintro s' written ⟨off', hoff', rfl, -⟩
  rw [Execution.reach_stage, hstage]
  cases written with
  | error => exact raise_obeys
  | ok assetId =>
    refine .bind (ask_obeys (e := e.reach (.tracking remote (some report) stored) off')
      (.insertAssetForRunOwner id owner output assetId) ⟨hid, howner, hstage ▸ hnext⟩) ?_
    rintro s' inserted ⟨off'', hoff'', rfl, -⟩
    cases inserted with
    | false => exact raise_obeys
    | true => exact .done ⟨off'', hoff'' ∘ hoff' ∘ hoff, rfl⟩

/-! ## the functions of the worker -/

theorem clearLease_obeys :
    Abides (.worker e) (clearLease owner id) := by
  refine .bind (clearRunLease_obeys hid howner) ?_
  rintro s' ⟨⟩ ⟨off, hoff, rfl⟩
  refine .bind (requireRun_obeys (e := e.reach e.stage off) hid _) ?_
  rintro s' ⟨run, now⟩ -
  exact .done trivial

theorem finish_obeys {next : MediaRunStatus} (hnext : e.Permits next) (progress : Option Int)
    (errorCode errorMessage : Option String) :
    Abides (.worker e) (do
      let run ← transitionRunForOwner id owner next progress errorCode errorMessage
      clearLease owner run.id) := by
  refine .bind (transitionRunForOwner_obeys hid howner hnext progress errorCode errorMessage) ?_
  rintro s' run ⟨off, hoff, rfl, hrun, -⟩
  exact clearLease_obeys hrun howner

theorem failRun_obeys (code message : String) :
    Abides (.worker e) (failRun owner id code message) := by
  refine .bind (requireRun_obeys hid _) ?_
  rintro s' ⟨run, now⟩ ⟨off, hoff, rfl, -⟩
  have hnext : (e.reach e.stage off).Permits .failed := trivial
  exact finish_obeys (e := e.reach e.stage off) hid howner hnext _ _ _

end

end

theorem finishCancel_obeys (hid : run.id = e.id) (howner : owner = e.owner)
    (hsettled : e.Permits .canceled) :
    Abides (.worker e) (finishCancel owner run) :=
  finish_obeys hid howner hsettled _ _ _

theorem failWith_obeys (hid : id = e.id) (howner : owner = e.owner) (code : String)
    (err : ProviderError) :
    Abides (.worker e) (failWith owner id code err) :=
  failRun_obeys hid howner _ _

theorem failJob_obeys (hid : id = e.id) (howner : owner = e.owner) (message : String)
    (err : Option ProviderError) :
    Abides (.worker e) (failJob owner id message err) :=
  failRun_obeys hid howner _ _

theorem cancelClaimed_obeys (hid : run.id = e.id) (howner : owner = e.owner)
    (hremote : e.off = false → run.remoteJobId = e.stage.remote)
    (hstage : e.stage = .fresh true ∨ ∃ remote report, e.stage = .tracking remote report []) :
    Abides (.worker e) (cancelClaimed owner run) := by
  unfold cancelClaimed
  cases hjob : run.remoteJobId with
  | none =>
    refine finishCancel_obeys hid howner ?_
    cases hoff : e.off with
    | true => exact .inl hoff
    | false =>
      rcases hstage with hstage | ⟨remote, report, hstage⟩
      · exact .inr (by rw [hstage]; rfl)
      · have hnone := hremote hoff
        rw [hjob, hstage] at hnone
        cases hnone
  | some remoteJobId =>
    have hstored : e.stage.stored = [] := by
      rcases hstage with hstage | ⟨remote, report, hstage⟩
      · rw [hstage]
        rfl
      · rw [hstage]
        rfl
    have hallows : e.Allows (.cancel run.id remoteJobId) := by
      refine ⟨hid, hstored, ?_⟩
      cases hoff : e.off with
      | true => exact .inl rfl
      | false =>
        have hsome := hremote hoff
        rcases hstage with hstage | ⟨remote, report, hstage⟩
        · rw [hjob, hstage] at hsome
          cases hsome
        · rw [hjob, hstage] at hsome
          cases hsome
          exact .inr ⟨report, hstage⟩
    refine .bind (ask_obeys (.cancel run.id remoteJobId) hallows) ?_
    rintro s' answer ⟨off, hoff, rfl, -⟩
    cases answer with
    | error => exact failWith_obeys (e := e.reach _ off) hid howner _ _
    | ok =>
      refine finishCancel_obeys (e := e.reach _ off) hid howner (.inr ?_)
      rcases hstage with hstage | ⟨remote, report, hstage⟩
      · rw [Execution.reach_stage, hstage]
        rfl
      · rw [Execution.reach_stage, hstage]
        trivial

theorem downloadOutputs_obeys (leaseDuration : Nat) (hstatus : report.status = .succeeded)
    (hne : report.outputs ≠ []) (outputs : List RemoteOutput)
    {stored : List (RemoteOutput × String)} {e : Execution} {id owner : String} (hid : id = e.id)
    (howner : owner = e.owner) (hstage : e.stage = .tracking remote (some report) stored)
    (hrest : stored.map Prod.fst ++ outputs = report.outputs) :
    Abides (.worker e)
      (downloadOutputs owner leaseDuration id outputs) := by
  induction outputs generalizing stored e with
  | nil =>
    have hcomplete : e.Permits .succeeded := by
      rw [List.append_nil] at hrest
      show e.stage.Complete
      rw [hstage]
      refine ⟨hstatus, hrest, ?_⟩
      rintro rfl
      exact hne hrest.symm
    exact finish_obeys hid howner hcomplete _ _ _
  | cons output outputs ih =>
    have hmay : e.stage.MayRenew := by rw [hstage]; trivial
    refine .bind (renewRunLease_obeys hid howner leaseDuration hmay) ?_
    rintro s' run ⟨off, hoff, rfl, -⟩
    rw [hstage]
    refine .bind (ask_obeys (e := e.reach (.tracking remote (some report) stored) off)
      (.download id output) trivial) ?_
    rintro s' answer ⟨off', hoff', rfl, -⟩
    cases answer with
    | error => exact failWith_obeys (e := e.reach _ off') hid howner _ _
    | ok =>
      have hnext : (MediaStage.tracking remote (some report) stored).MayStore output :=
        ⟨hstatus, outputs, by rw [List.append_assoc]; exact hrest⟩
      refine .bind (persistProviderOutputForOwner_obeys
        (e := e.reach (.tracking remote (some report) stored) off') hid howner rfl hnext) ?_
      rintro s' assetId ⟨off'', hoff'', rfl⟩
      refine ih (e := e.reach _ off'') hid howner rfl ?_
      rw [List.map_append, List.append_assoc]
      exact hrest

section
variable (hid : id = e.id) (howner : owner = e.owner) (leaseDuration : Nat)
include hid howner leaseDuration

theorem finishSuccess_obeys (hstatus : report.status = .succeeded)
    (hstage : e.stage = .tracking remote (some report) []) :
    Abides (.worker e)
      (finishSuccess owner leaseDuration id report) := by
  unfold finishSuccess
  by_cases hempty : report.outputs.isEmpty = true
  · rw [if_pos hempty]
    exact failRun_obeys hid howner _ _
  rw [if_neg hempty]
  have hnext : e.Permits .downloading := trivial
  refine .bind (transitionRunForOwner_obeys hid howner hnext _ _ _) ?_
  rintro s' downloading ⟨off, hoff, rfl, -, -⟩
  rw [hstage]
  refine .bind (ask_obeys (e := e.reach (.tracking remote (some report) []) off) (.getRun id)
    hid) ?_
  rintro s' read ⟨off', hoff', rfl, -⟩
  refine Obeys.ensure fun _ => ?_
  refine .bind (ask_obeys (e := e.reach (.tracking remote (some report) []) off')
    (.getNode id) trivial) ?_
  rintro s' node ⟨off₁, hoff₁, rfl, -⟩
  refine Obeys.ensure fun _ => ?_
  cases downloading.providerId with
  | none => exact failRun_obeys (e := e.reach _ off₁) hid howner _ _
  | some =>
    refine .bind (ask_obeys (e := e.reach (.tracking remote (some report) []) off₁)
      (.requireAdapter id) trivial) ?_
    rintro s' adapter ⟨off₂, hoff₂, rfl, -⟩
    cases adapter with
    | error => exact failWith_obeys (e := e.reach _ off₂) hid howner _ _
    | ok =>
      exact downloadOutputs_obeys leaseDuration hstatus (by simpa using hempty) _ (e := e.reach _ off₂) hid howner rfl rfl

theorem settle_obeys (hstage : e.stage = .tracking remote (some report) []) :
    Abides (.worker e) (settle owner leaseDuration id report) := by
  have hkeep : Abides (.worker e) (do
      let processing ← transitionRunForOwner id owner .processing report.progress none none
      renewRunLease processing.id owner leaseDuration) := by
    have hnext : e.Permits .processing := trivial
    refine .bind (transitionRunForOwner_obeys hid howner hnext _ _ _) ?_
    rintro s' processing ⟨off, hoff, rfl, hrun, -⟩
    have hmay : (e.reach e.stage off).stage.MayRenew := by
      rw [Execution.reach_stage, hstage]
      trivial
    exact (renewRunLease_obeys (e := e.reach e.stage off) hrun howner leaseDuration hmay).mono
      fun _ _ _ => trivial
  unfold settle
  cases hstatus : report.status with
  | succeeded => exact finishSuccess_obeys hid howner leaseDuration hstatus hstage
  | failed => exact failJob_obeys hid howner _ _
  | canceled =>
    have hsettled : e.Permits .canceled := .inr (by rw [hstage]; exact hstatus)
    exact finish_obeys hid howner hsettled _ _ _
  | queued => exact hkeep
  | submitting => exact hkeep
  | processing => exact hkeep
  | downloading => exact hkeep
  | canceling => exact hkeep

theorem trackRemote_obeys (remote : RemoteJob) {report : Option RemoteJob}
    (hstage : e.stage = .tracking remote.id report [])
    (hreport : remote.status = .succeeded → report = some remote ∨ remote.outputs = []) :
    Abides (.worker e)
      (trackRemote owner leaseDuration id remote) := by
  unfold trackRemote
  by_cases hsucceeded : (remote.status = .succeeded && !remote.outputs.isEmpty) = true
  · rw [if_pos hsucceeded]
    obtain ⟨hstatus, houtputs⟩ := (Bool.and_eq_true _ _).mp hsucceeded
    have hstatus' : remote.status = .succeeded := of_decide_eq_true hstatus
    rcases hreport hstatus' with rfl | hnone
    · exact finishSuccess_obeys hid howner leaseDuration hstatus' hstage
    · rw [hnone] at houtputs
      cases houtputs
  rw [if_neg hsucceeded]
  by_cases hfailed : remote.status = .failed
  · rw [if_pos hfailed]
    exact failJob_obeys hid howner _ _
  rw [if_neg hfailed]
  refine .bind (requireRun_obeys hid _) ?_
  rintro s' ⟨current, now⟩ ⟨off, hoff, rfl, hrun, hknown⟩
  rw [hstage] at hknown ⊢
  dsimp only
  by_cases hcanceling : current.status = .canceling
  · rw [if_pos hcanceling]
    exact cancelClaimed_obeys (e := e.reach _ off) hrun howner (fun hoff' => (hknown hoff').2)
      (.inr ⟨remote.id, report, rfl⟩)
  rw [if_neg hcanceling]
  have hmay : (e.reach (.tracking remote.id report []) off).stage.MayRenew := trivial
  refine .bind (renewRunLease_obeys (e := e.reach _ off) hid howner leaseDuration hmay) ?_
  rintro s' renewed ⟨off', hoff', rfl, -⟩
  refine .bind (ask_obeys (e := e.reach (.tracking remote.id report []) off')
    (.poll id remote.id) ⟨hid, report, rfl⟩) ?_
  rintro s' answer ⟨off'', hoff'', rfl, -⟩
  cases answer with
  | error => exact failWith_obeys (e := e.reach _ off'') hid howner _ _
  | ok => exact settle_obeys (e := e.reach _ off'') hid howner leaseDuration rfl

end

theorem submitRun_obeys (hid : run.id = e.id) (howner : owner = e.owner)
    (hattempt : run.attempt = e.attempt) (leaseDuration : Nat) (hstage : e.stage = .fresh false) :
    Abides (.worker e) (submitRun owner leaseDuration run) := by
  have hmay : e.stage.MayRenew := by rw [hstage]; rfl
  refine .bind (renewRunLease_obeys hid howner leaseDuration hmay) ?_
  rintro s' renewed ⟨off, hoff, rfl, -⟩
  rw [hstage]
  refine .bind (ask_obeys (e := e.reach .renewed off) (.submit run.id run.attempt)
    ⟨hid, hattempt, rfl⟩) ?_
  rintro s' ⟨⟩ ⟨off', hoff', rfl, -⟩
  refine .bind (ask_obeys (e := e.reach .pending off') (.submitAnswer run.id run.attempt)
    ⟨hid, hattempt, rfl⟩) ?_
  rintro s' answer ⟨off'', hoff'', rfl, -⟩
  cases answer with
  | error => exact failWith_obeys (e := e.reach _ off'') hid howner _ _
  | ok submitted =>
    refine .bind (recordRemoteJob_obeys (e := e.reach (.returned submitted) off'') hid howner
      rfl _) ?_
    rintro s' recorded ⟨off₃, hoff₃, rfl, -⟩
    exact trackRemote_obeys (e := e.reach (.tracking submitted.id (some submitted) []) off₃) hid
      howner leaseDuration submitted rfl fun _ => .inl rfl

theorem processClaimed_obeys (owner : String) (leaseDuration : Nat) (run : MediaRun) :
    Abides (.worker (Execution.ofClaim owner run))
      (processClaimed owner leaseDuration run) := by
  generalize he : Execution.ofClaim owner run = e
  have hid : run.id = e.id := by rw [← he]; rfl
  have howner : owner = e.owner := by rw [← he]; rfl
  have hattempt : run.attempt = e.attempt := by rw [← he]; rfl
  refine .bind (ask_obeys (.getNode run.id) trivial) ?_
  rintro s' node ⟨off, hoff, rfl, -⟩
  refine Obeys.ensure fun _ => ?_
  rw [MediaStage.next_plain _ (.getNode run.id) trivial]
  cases run.providerId with
  | none => exact failRun_obeys (e := e.reach e.stage off) hid howner _ _
  | some =>
    refine .bind (ask_obeys (e := e.reach e.stage off) (.prepare run.id) trivial) ?_
    rintro s' prepared ⟨off', hoff', rfl, -⟩
    rw [Execution.reach_stage, MediaStage.next_plain _ (.prepare run.id) trivial]
    cases prepared with
    | error err =>
      cases err with
      | profile | adapter | request =>
        exact failWith_obeys (e := e.reach e.stage off') hid howner _ _
      | registry => exact raise_obeys
    | ok =>
      cases hjob : run.remoteJobId with
      | none =>
        have hstage : e.stage = .fresh (run.status = .canceling) := by
          rw [← he, Execution.ofClaim, hjob]
        rw [hstage]
        by_cases hcanceling : run.status = .canceling
        · rw [if_pos hcanceling, decide_eq_true hcanceling]
          exact cancelClaimed_obeys (e := e.reach (.fresh true) off') hid howner (fun _ => hjob)
            (.inl rfl)
        · rw [if_neg hcanceling, decide_eq_false hcanceling]
          exact submitRun_obeys (e := e.reach (.fresh false) off') hid howner hattempt leaseDuration
            rfl
      | some remoteJobId =>
        have hstage : e.stage = .tracking remoteJobId none [] := by
          rw [← he, Execution.ofClaim, hjob]
        rw [hstage]
        by_cases hcanceling : run.status = .canceling
        · rw [if_pos hcanceling]
          exact cancelClaimed_obeys (e := e.reach (.tracking remoteJobId none []) off') hid howner
            (fun _ => hjob) (.inr ⟨remoteJobId, none, rfl⟩)
        · rw [if_neg hcanceling]
          exact trackRemote_obeys (e := e.reach (.tracking remoteJobId none []) off') hid howner
            leaseDuration (knownRemote run remoteJobId) rfl fun _ => .inr rfl

theorem workerProgram_obeys (owner : String) (leaseDuration : Nat) (run : MediaRun) :
    Abides (.worker (Execution.ofClaim owner run))
      (workerProgram owner leaseDuration run) :=
  .bind (processClaimed_obeys owner leaseDuration run) fun _ _ _ => .done trivial

end

/-! ## the users -/

theorem ask_user {c : MediaCall} (h : userAllows c) :
    Obeys mediaProtocol (fun s _ => s = .user) .user (ask c) :=
  obeys_ask h fun _ _ hmoves => hmoves

theorem requireRow_user (id message : String) :
    Obeys mediaProtocol (fun s _ => s = .user) .user (requireRow id message) := by
  refine .bind (ask_user (c := .getRun id) trivial) ?_
  rintro s' ⟨read, now⟩ rfl
  cases read with
  | none => exact raise_obeys
  | some => exact .done rfl

theorem requireRun_user (id message : String) :
    Obeys mediaProtocol (fun s _ => s = .user) .user (requireRun id message) := by
  refine Obeys.ensure fun _ => ?_
  exact requireRow_user id message

theorem transitionRun_user (id : String) {next : MediaRunStatus}
    (hnext : next = .canceled ∨ next = .canceling) (progress : Option Int) :
    Abides .user (transitionRun id next progress none none) := by
  refine .bind (requireRow_user id _) ?_
  rintro s' ⟨existing, now⟩ rfl
  refine Obeys.ensure fun hedge => ?_
  refine Obeys.ensure fun _ => ?_
  refine .bind (ask_user (c := .updateRunFromStatus id existing.status
    (transitionRequest next progress none none)) ⟨next, progress, hnext, hedge, rfl⟩) ?_
  rintro s' changed rfl
  refine Obeys.ensure fun _ => ?_
  refine .bind (requireRun_user id _) ?_
  rintro s' ⟨run, now⟩ -
  exact .done trivial

theorem cancelRun_obeys (id : String) :
    Abides .user (MediaService.cancelRun id) := by
  refine .bind (requireRun_user id _) ?_
  rintro s' ⟨run, now⟩ rfl
  dsimp only
  by_cases hterminal : run.status.isTerminal = true
  · rw [if_pos hterminal]
    exact .done trivial
  rw [if_neg hterminal]
  refine transitionRun_user id ?_ _
  by_cases hqueued : run.status = .queued
  · exact .inl (if_pos hqueued)
  · exact .inr (if_neg hqueued)

theorem retryRun_obeys (id : String) :
    Abides .user (MediaService.retryRun id) := by
  refine .bind (requireRun_user id _) ?_
  rintro s' ⟨run, now⟩ rfl
  refine Obeys.ensure fun _ => ?_
  refine .bind (ask_user (c := .retryRun id) trivial) ?_
  rintro s' changed rfl
  refine Obeys.ensure fun _ => ?_
  refine .bind (requireRun_user id _) ?_
  rintro s' ⟨run', now'⟩ -
  exact .done trivial

theorem setPriority_obeys (id : String) (priority : Int) :
    Abides .user (MediaService.setPriority id priority) := by
  refine Obeys.ensure fun _ => ?_
  refine Obeys.ensure fun _ => ?_
  refine .bind (requireRun_user id _) ?_
  rintro s' ⟨run, now⟩ rfl
  refine Obeys.ensure fun _ => ?_
  refine .bind (ask_user (c := .updatePriority id priority) trivial) ?_
  rintro s' changed rfl
  refine Obeys.ensure fun _ => ?_
  refine .bind (requireRun_user id _) ?_
  rintro s' ⟨run', now'⟩ -
  exact .done trivial

theorem applyProviderEvent_obeys (providerId remoteJobId : String) (progress : Option Int)
    (errorCode errorMessage : Option String) :
    Abides .user
      (MediaService.applyProviderEvent providerId remoteJobId progress errorCode errorMessage) := by
  refine Obeys.ensure fun _ => ?_
  refine Obeys.ensure fun _ => ?_
  refine Obeys.ensure fun _ => ?_
  refine Obeys.ensure fun _ => ?_
  refine Obeys.ensure fun _ => ?_
  refine .bind (ask_user (c := .findRunByRemoteJobId providerId remoteJobId) trivial) ?_
  rintro s' found rfl
  cases found with
  | none => exact .done trivial
  | some existing =>
    dsimp only
    by_cases hterminal : existing.status.isTerminal = true
    · rw [if_pos hterminal]
      exact .done trivial
    rw [if_neg hterminal]
    refine .bind (ask_user (c := .updateFromEvent existing.id providerId remoteJobId
      (eventRequest existing progress errorCode errorMessage)) ⟨rfl, rfl⟩) ?_
    rintro s' changed rfl
    refine .bind (ask_user (c := .getRun existing.id) trivial) ?_
    rintro s' ⟨read, now⟩ -
    exact .done trivial

theorem request_obeys (r : MediaRequest) :
    Abides .user r.program := by
  cases r with
  | cancelRun id => exact .bind (cancelRun_obeys id) fun _ _ _ => .done trivial
  | retryRun id => exact .bind (retryRun_obeys id) fun _ _ _ => .done trivial
  | setPriority id priority =>
    exact .bind (setPriority_obeys id priority) fun _ _ _ => .done trivial
  | applyProviderEvent providerId remoteJobId progress errorCode errorMessage =>
    exact .bind (applyProviderEvent_obeys providerId remoteJobId progress errorCode
      errorMessage) fun _ _ _ => .done trivial

inductive MediaShift (s : MediaShared) : MediaShared → Prop
  | tick (now : Nat) : MediaShift s (s.tick now)
  | spawn : MediaShift s { s with started := s.started + 1 }
  | create (id : String) (priority : Int) (providerId : Option String) (createdAt : String)
      (cacheHit : Bool) (outputs : List String) (hid : s.db.runs id = none)
      (hvalid : validId id = true) :
      MediaShift s { s with
        db :=
          { runIds := s.db.runIds ++ [id]
            runs := Function.update s.db.runs id
              (some (MediaWorld.newRun id priority providerId createdAt cacheHit))
            outputs := Function.update s.db.outputs id outputs } }

/-- An invariant `I` of the shared state and `J` of the threads, under a condition on the steps: what
each step has to preserve. -/
structure MediaKeeps (Ok : MediaWorld → MediaAction → Prop) (I : MediaShared → Prop)
    (J : Nat → MediaShared → MediaLocal → Prop) : Prop where
  init : I MediaWorld.init.shared
  keyed : ∀ s, I s → s.db.Keyed
  user : ∀ i s, J i s .user
  shift : ∀ s s', MediaShift s s' → I s → I s' ∧ ∀ i σ, J i s σ → J i s' σ
  claim : ∀ w owner leaseDuration excludedIds now s run,
    Ok w (.claim owner leaseDuration excludedIds now) → s = w.shared.tick now → I s →
    s.db.nextClaimable owner s.clock excludedIds = some run → s.db.runs run.id = some run →
    run.claimable owner s.clock = true → run.id ∉ excludedIds → validLeaseOwner owner = true →
    I (MediaWorld.claimed s owner leaseDuration run) ∧
      J s.started (MediaWorld.claimed s owner leaseDuration run)
        (.worker (Execution.ofClaim owner (run.claim owner (s.clock + leaseDuration)))) ∧
      ∀ j σ, Running w j → J j s σ → J j (MediaWorld.claimed s owner leaseDuration run) σ
  call : ∀ w i now replies s c k r s' σ, Ok w (.advance i now replies) → s = w.shared.tick now →
    w.program i = .call c k → I s → J i s σ → mediaProtocol.allows σ c →
    MediaShared.CallEffect i s c r s' →
    I s' ∧ (∃ σ', mediaProtocol.moves σ c r σ' ∧ J i s' σ') ∧
      ∀ j σ', j ≠ i → Running w j → J j s σ' → J j s' σ'

section
variable {Ok : MediaWorld → MediaAction → Prop} {I : MediaShared → Prop}
  {J : Nat → MediaShared → MediaLocal → Prop}

theorem MediaKeeps.typed_shift (h : MediaKeeps Ok I J) {w : MediaWorld} {s' : MediaShared}
    (hshift : MediaShift w.shared s') (hI : I w.shared) (hJ : Typed mediaProtocol J w) :
    I s' ∧ Typed mediaProtocol J { w with shared := s' } := by
  obtain ⟨hI', hlocal⟩ := h.shift _ _ hshift hI
  exact ⟨hI', hJ.shared fun j σ _ hσ => hlocal j σ hσ⟩

theorem MediaKeeps.step (h : MediaKeeps Ok I J) {w : MediaWorld} {a : MediaAction} (hok : Ok w a)
    (hI : I w.shared) (hJ : Typed mediaProtocol J w) :
    I (MediaWorld.step w a).shared ∧ Typed mediaProtocol J (MediaWorld.step w a) := by
  cases a with
  | createRun id priority providerId createdAt cached =>
    rw [MediaWorld.step]
    by_cases hvalid : validId id = true
    · rw [if_pos hvalid]
      rcases MediaDb.insertRun_cases w.shared.db
        (MediaWorld.newRun id priority providerId createdAt cached.isSome) (cached.getD [])
        with hsame | ⟨hid, hnew⟩
      · rw [hsame]
        exact ⟨hI, hJ⟩
      · rw [hnew]
        exact h.typed_shift (.create id priority providerId createdAt _ _ hid hvalid) hI hJ
    · rw [if_neg hvalid]
      exact ⟨hI, hJ⟩
  | claim owner leaseDuration excludedIds now =>
    rw [MediaWorld.step]
    obtain ⟨hI', hJ'⟩ := h.typed_shift (.tick now) hI hJ
    rcases MediaWorld.claimAt_cases (h.keyed _ hI') w owner leaseDuration excludedIds
      with hsame | ⟨run, hnext, hrow, hclaimable, hexcluded, howner, -, hclaim⟩
    · rw [hsame]
      exact ⟨hI', hJ'⟩
    rw [hclaim]
    obtain ⟨hI'', hown, hothers⟩ := h.claim w owner leaseDuration excludedIds now _ run hok rfl
      hI' hnext hrow hclaimable hexcluded howner
    exact ⟨hI'', hJ'.start (workerProgram_obeys owner leaseDuration _) hown
      fun j σ _ hj hσ => hothers j σ hj hσ⟩
  | request r =>
    obtain ⟨hI', hJ'⟩ := h.typed_shift .spawn hI hJ
    exact ⟨hI', hJ'.start (request_obeys r) (h.user _ _) fun j σ _ _ hσ => hσ⟩
  | advance i now replies =>
    rw [MediaWorld.step]
    obtain ⟨hI', hJ'⟩ := h.typed_shift (.tick now) hI hJ
    cases hprogram : w.program i with
    | done =>
      rw [stepThread, hprogram]
      exact ⟨hI', hJ'⟩
    | fail =>
      rw [stepThread, hprogram]
      exact ⟨hI', hJ'⟩
    | call c k =>
      have heffect := MediaShared.perform_effect i replies (w.shared.tick now) c
      have hcall := fun σ hσ hallows =>
        h.call w i now replies _ c k _ _ σ hok rfl hprogram hI' hσ hallows heffect
      obtain ⟨σ, hallows, hσ⟩ := hJ'.at_call hprogram
      refine ⟨?_, hJ'.step hprogram (fun σ hσ hallows => (hcall σ hσ hallows).2.1)
        fun σ j σ' hσ hallows => (hcall σ hσ hallows).2.2 j σ'⟩
      rw [stepThread_call (w := { w with shared := w.shared.tick now }) hprogram]
      exact (hcall σ hσ hallows).1
  | crash =>
    exact ⟨hI, hJ.stop ()⟩

theorem MediaKeeps.run (h : MediaKeeps Ok I J) {actions : List MediaAction}
    (hok : Run.StepsOk MediaWorld.step Ok MediaWorld.init actions) :
    Run.Along MediaWorld.step (fun w => I w.shared ∧ Typed mediaProtocol J w) MediaWorld.init
      actions := by
  refine Run.along_of_inv (I := fun w => I w.shared ∧ Typed mediaProtocol J w)
    (fun w a hw hok => h.step hok hw.1 hw.2) ⟨h.init, ?_⟩ hok
  rintro i ⟨c, k, hcall⟩
  cases hcall

end

end CcPanes

import CcPanes.Media.MediaService

/-!
# Workers and users of the media runs

Any number of workers and users that share the database, the clock and the providers.  An execution
is a thread: a worker's processing of a run that it has claimed, or one request of a user.  The
threads move one call at a time, in any order; a provider answers whatever it likes.  The trace
records, the latest first, what the results are about.
-/

namespace CcPanes
open CallProgram MediaService MediaJobWorker

inductive MediaEvent where
  /-- the thread processes the run for the owner, in this attempt -/
  | claimed (i : Nat) (owner id : String) (attempt : Nat)
  /-- a worker has changed the row, or linked an output -/
  | wrote (i : Nat) (owner id : String)
  /-- the lease of the run is renewed -/
  | renewed (i : Nat) (id : String) (attempt : Nat)
  | submitted (i : Nat) (id : String) (attempt : Nat)
  | returned (i : Nat) (id : String) (attempt : Nat) (job : RemoteJob)
  | reported (i : Nat) (id remoteJobId : String) (report : RemoteJob)
  | canceledJob (i : Nat) (id remoteJobId : String)
  | stored (i : Nat) (id : String) (output : RemoteOutput) (assetId : String)
deriving DecidableEq

structure MediaShared where
  db : MediaDb
  clock : Nat
  /-- the number of threads so far -/
  started : Nat
  trace : List MediaEvent

/-- what the environment answers -/
structure MediaReplies where
  node : Bool
  prepared : Except PrepareError Unit
  adapter : Except ProviderError Unit
  submitted : Except ProviderError RemoteJob
  polled : Except ProviderError RemoteJob
  canceled : Except ProviderError Unit
  downloaded : Except ProviderError Unit
  persisted : Except AppError String

namespace MediaShared
open MediaDb

def tick (s : MediaShared) (now : Nat) : MediaShared := { s with clock := max s.clock now }

/-- the statement has answered, and is recorded if it changed something -/
def commit (s : MediaShared) (r : Bool × MediaDb) (events : List MediaEvent) :
    Bool × MediaShared :=
  (r.1, { s with db := r.2, trace := if r.1 then events ++ s.trace else s.trace })

def note (s : MediaShared) (e : MediaEvent) : MediaShared := { s with trace := e :: s.trace }

def renewal (s : MediaShared) (i : Nat) (id : String) : List MediaEvent :=
  ((s.db.runs id).map fun run => MediaEvent.renewed i id run.attempt).toList

/-- a call of the thread `i` -/
def perform (i : Nat) (replies : MediaReplies) (s : MediaShared) :
    (c : MediaCall) → c.Answer × MediaShared
  | .getRun id => ((s.db.runs id, s.clock), s)
  | .updateRunForOwnerFromStatus id owner expected req =>
    s.commit (s.db.updateRunForOwnerFromStatus id owner s.clock expected req)
      [.wrote i owner id]
  | .updateRunFromStatus id expected req =>
    s.commit (s.db.updateRunFromStatus id expected req) []
  | .renewRunLease id owner leaseDuration =>
    s.commit (s.db.renewRunLease id owner (s.clock + leaseDuration))
      (s.renewal i id ++ [.wrote i owner id])
  | .clearRunLease id owner => s.commit (s.db.clearRunLease id owner) [.wrote i owner id]
  | .retryRun id => s.commit (s.db.retryRun id) []
  | .updatePriority id priority => s.commit (s.db.updatePriority id priority) []
  | .findRunByRemoteJobId providerId remoteJobId =>
    (s.db.findRunByRemoteJobId providerId remoteJobId, s)
  | .updateFromEvent id providerId remoteJobId req =>
    s.commit (s.db.updateFromEvent id providerId remoteJobId req) []
  | .insertAssetForRunOwner runId owner output assetId =>
    s.commit (s.db.insertAssetForRunOwner runId assetId owner s.clock)
      [.stored i runId output assetId, .wrote i owner runId]
  | .getNode _ => (replies.node, s)
  | .prepare _ => (replies.prepared, s)
  | .requireAdapter _ => (replies.adapter, s)
  | .submit runId attempt => ((), s.note (.submitted i runId attempt))
  | .submitAnswer runId attempt =>
    match replies.submitted with
    | .error e => (.error e, s)
    | .ok job => (.ok job, s.note (.returned i runId attempt job))
  | .poll runId remoteJobId =>
    match replies.polled with
    | .error e => (.error e, s)
    | .ok report => (.ok report, s.note (.reported i runId remoteJobId report))
  | .cancel runId remoteJobId =>
    match replies.canceled with
    | .error e => (.error e, s)
    | .ok () => (.ok (), s.note (.canceledJob i runId remoteJobId))
  | .download _ _ => (replies.downloaded, s)
  | .persist _ _ => (replies.persisted, s)

/-! ## what a call does -/

/-- how a call of the thread `i` changes a row, and what the trace records -/
inductive RowChange (i now : Nat) :
    (c : MediaCall) → c.Answer → String → MediaRun → MediaRun → List MediaEvent → Prop
  | leased (id owner : String) (req : UpdateMediaRunRequest) (run : MediaRun)
      (hfenced : fenced owner now run = true) :
      RowChange i now (.updateRunForOwnerFromStatus id owner run.status req) true id run
        (run.apply req) [.wrote i owner id]
  | updated (id : String) (req : UpdateMediaRunRequest) (run : MediaRun) :
      RowChange i now (.updateRunFromStatus id run.status req) true id run (run.apply req) []
  | renewed (id owner : String) (leaseDuration : Nat) (run : MediaRun)
      (hheld : run.heldBy owner = true) (hstatus : run.status.isTerminal = false) :
      RowChange i now (.renewRunLease id owner leaseDuration) true id run
        { run with leaseExpiresAt := some (now + leaseDuration) }
        [.renewed i id run.attempt, .wrote i owner id]
  | cleared (id owner : String) (run : MediaRun) (hheld : run.heldBy owner = true) :
      RowChange i now (.clearRunLease id owner) true id run
        { run with leaseOwner := none, leaseExpiresAt := none } [.wrote i owner id]
  | retried (id : String) (run : MediaRun) (hstatus : run.status = .failed ∨ run.status = .canceled) :
      RowChange i now (.retryRun id) true id run run.retry []
  | prioritized (id : String) (priority : Int) (run : MediaRun) :
      RowChange i now (.updatePriority id priority) true id run
        { run with priority := priority } []
  | event (id providerId remoteJobId : String) (req : UpdateMediaRunRequest) (run : MediaRun)
      (hstatus : run.status.isTerminal = false) :
      RowChange i now (.updateFromEvent id providerId remoteJobId req) true id run (run.apply req) []

/-- the answers of the calls that leave everything as it is -/
def Quiet (s : MediaShared) : (c : MediaCall) → c.Answer → Prop
  | .getRun id, r => r = (s.db.runs id, s.clock)
  | .updateRunForOwnerFromStatus id owner expected _, r =>
    r = false ∧ ∀ run, s.db.runs id = some run →
      (run.status = expected && fenced owner s.clock run) = false
  | .renewRunLease id owner _, r =>
    r = false ∧ ∀ run, s.db.runs id = some run →
      (run.heldBy owner && !run.status.isTerminal) = false
  | .insertAssetForRunOwner id owner _ _, r =>
    r = false ∧ ∀ run, s.db.runs id = some run → fenced owner s.clock run = false
  | .updateRunFromStatus _ _ _, r | .clearRunLease _ _, r | .retryRun _, r
  | .updatePriority _ _, r | .updateFromEvent _ _ _ _, r => r = false
  | .submit _ _, _ => False
  | .submitAnswer _ _, r | .poll _ _, r => ∀ job, r ≠ .ok job
  | .cancel _ _, r => r ≠ .ok ()
  | _, _ => True

/-- what a call of the thread `i` answers and does -/
inductive CallEffect (i : Nat) (s : MediaShared) : (c : MediaCall) → c.Answer → MediaShared → Prop
  | quiet (c : MediaCall) (r : c.Answer) (h : Quiet s c r) : CallEffect i s c r s
  | row (c : MediaCall) (r : c.Answer) (id : String) (run run' : MediaRun) (events : List MediaEvent)
      (hrow : s.db.runs id = some run) (h : RowChange i s.clock c r id run run' events) :
      CallEffect i s c r { s with db := s.db.setRun id run', trace := events ++ s.trace }
  | stored (runId owner : String) (output : RemoteOutput) (assetId : String) (run : MediaRun)
      (hrow : s.db.runs runId = some run) (h : fenced owner s.clock run = true) :
      CallEffect i s (.insertAssetForRunOwner runId owner output assetId) true
        { s with
          db := { s.db with
            outputs := Function.update s.db.outputs runId (s.db.outputs runId ++ [assetId]) }
          trace := [.stored i runId output assetId, .wrote i owner runId] ++ s.trace }
  | submitted (runId : String) (attempt : Nat) :
      CallEffect i s (.submit runId attempt) () (s.note (.submitted i runId attempt))
  | returned (runId : String) (attempt : Nat) (job : RemoteJob) :
      CallEffect i s (.submitAnswer runId attempt) (.ok job)
        (s.note (.returned i runId attempt job))
  | reported (runId remoteJobId : String) (report : RemoteJob) :
      CallEffect i s (.poll runId remoteJobId) (.ok report)
        (s.note (.reported i runId remoteJobId report))
  | canceledJob (runId remoteJobId : String) :
      CallEffect i s (.cancel runId remoteJobId) (.ok ())
        (s.note (.canceledJob i runId remoteJobId))

theorem perform_effect (i : Nat) (replies : MediaReplies) (s : MediaShared) (c : MediaCall) :
    CallEffect i s c (perform i replies s c).1 (perform i replies s c).2 := by
  cases c with
  | updateRunForOwnerFromStatus id owner expected req =>
    rcases updateWhere_cases s.db id (fun run => run.status = expected && fenced owner s.clock run)
      (fun run => run.apply req) with ⟨h, hcond⟩ | ⟨run, hrow, hcond, h⟩
    · rw [perform, updateRunForOwnerFromStatus, h]
      exact .quiet _ _ ⟨rfl, hcond⟩
    rw [perform, updateRunForOwnerFromStatus, h]
    obtain ⟨hstatus, hfenced⟩ := (Bool.and_eq_true _ _).mp hcond
    obtain rfl := of_decide_eq_true hstatus
    exact .row _ _ id run _ _ hrow (.leased id owner req run hfenced)
  | updateRunFromStatus id expected req =>
    rcases updateWhere_cases s.db id (fun run => run.status = expected)
      (fun run => run.apply req) with ⟨h, -⟩ | ⟨run, hrow, hcond, h⟩
    · rw [perform, updateRunFromStatus, h]
      exact .quiet _ _ rfl
    · rw [perform, updateRunFromStatus, h]
      obtain rfl := of_decide_eq_true hcond
      exact .row _ _ id run _ _ hrow (.updated id req run)
  | renewRunLease id owner leaseDuration =>
    rcases updateWhere_cases s.db id (fun run => run.heldBy owner && !run.status.isTerminal)
      (fun run => { run with leaseExpiresAt := some (s.clock + leaseDuration) })
      with ⟨h, hcond⟩ | ⟨run, hrow, hcond, h⟩
    · rw [perform, MediaDb.renewRunLease, h]
      exact .quiet _ _ ⟨rfl, hcond⟩
    rw [perform, MediaDb.renewRunLease, h, renewal, hrow]
    obtain ⟨hheld, hstatus⟩ := (Bool.and_eq_true _ _).mp hcond
    exact .row _ _ id run _ _ hrow (.renewed id owner leaseDuration run hheld
      (Bool.not_eq_true' _ |>.mp hstatus))
  | clearRunLease id owner =>
    rcases updateWhere_cases s.db id (fun run => run.heldBy owner)
      (fun run => { run with leaseOwner := none, leaseExpiresAt := none })
      with ⟨h, -⟩ | ⟨run, hrow, hcond, h⟩
    · rw [perform, MediaDb.clearRunLease, h]
      exact .quiet _ _ rfl
    · rw [perform, MediaDb.clearRunLease, h]
      exact .row _ _ id run _ _ hrow (.cleared id owner run hcond)
  | retryRun id =>
    rcases updateWhere_cases s.db id (fun run => run.status = .failed || run.status = .canceled)
      MediaRun.retry with ⟨h, -⟩ | ⟨run, hrow, hcond, h⟩
    · rw [perform, MediaDb.retryRun, h]
      exact .quiet _ _ rfl
    · rw [perform, MediaDb.retryRun, h]
      exact .row _ _ id run _ _ hrow (.retried id run (by simpa using hcond))
  | updatePriority id priority =>
    rcases updateWhere_cases s.db id (fun _ => true)
      (fun run => { run with priority := priority }) with ⟨h, -⟩ | ⟨run, hrow, -, h⟩
    · rw [perform, MediaDb.updatePriority, h]
      exact .quiet _ _ rfl
    · rw [perform, MediaDb.updatePriority, h]
      exact .row _ _ id run _ _ hrow (.prioritized id priority run)
  | updateFromEvent id providerId remoteJobId req =>
    rcases updateWhere_cases s.db id (fun run => run.providerId = some providerId &&
        run.remoteJobId = some remoteJobId && !run.status.isTerminal)
      (fun run => run.apply req) with ⟨h, -⟩ | ⟨run, hrow, hcond, h⟩
    · rw [perform, MediaDb.updateFromEvent, h]
      exact .quiet _ _ rfl
    rw [perform, MediaDb.updateFromEvent, h]
    obtain ⟨-, hstatus⟩ := (Bool.and_eq_true _ _).mp hcond
    exact .row _ _ id run _ _ hrow (.event id providerId remoteJobId req run
      (Bool.not_eq_true' _ |>.mp hstatus))
  | insertAssetForRunOwner runId owner output assetId =>
    rw [perform, MediaDb.insertAssetForRunOwner]
    cases hrow : s.db.runs runId with
    | none => exact .quiet _ _ ⟨rfl, fun run hrun => nomatch (hrow.symm.trans hrun)⟩
    | some run =>
      cases hfenced : fenced owner s.clock run with
      | false =>
        have hany : (some run).any (fenced owner s.clock) = false := hfenced
        rw [hany]
        refine .quiet _ _ ⟨rfl, fun run' hrun' => ?_⟩
        rwa [← Option.some.inj (hrow.symm.trans hrun')]
      | true =>
        have hany : (some run).any (fenced owner s.clock) = true := hfenced
        rw [hany]
        exact .stored runId owner output assetId run hrow hfenced
  | submitAnswer runId attempt =>
    rw [perform]
    cases replies.submitted with
    | error => exact .quiet _ _ (by simp [Quiet])
    | ok job => exact .returned runId attempt job
  | poll runId remoteJobId =>
    rw [perform]
    cases replies.polled with
    | error => exact .quiet _ _ (by simp [Quiet])
    | ok report => exact .reported runId remoteJobId report
  | cancel runId remoteJobId =>
    rw [perform]
    cases replies.canceled with
    | error => exact .quiet _ _ (by simp [Quiet])
    | ok => exact .canceledJob runId remoteJobId
  | submit runId attempt => exact .submitted runId attempt
  | getRun => exact .quiet _ _ rfl
  | _ => exact .quiet _ _ trivial

end MediaShared

abbrev MediaWorld := Threads MediaCall.Answer AppError MediaShared

inductive MediaRequest where
  | cancelRun (id : String)
  | retryRun (id : String)
  | setPriority (id : String) (priority : Int)
  | applyProviderEvent (providerId remoteJobId : String) (progress : Option Int)
      (errorCode errorMessage : Option String)

def MediaRequest.program : MediaRequest → MediaProgram Unit
  | .cancelRun id => do
    let _ ← MediaService.cancelRun id
  | .retryRun id => do
    let _ ← MediaService.retryRun id
  | .setPriority id priority => do
    let _ ← MediaService.setPriority id priority
  | .applyProviderEvent providerId remoteJobId progress errorCode errorMessage => do
    let _ ← MediaService.applyProviderEvent providerId remoteJobId progress errorCode errorMessage

def workerProgram (owner : String) (leaseDuration : Nat) (run : MediaRun) : MediaProgram Unit := do
  let _ ← processClaimed owner leaseDuration run

/-- `cached` are the outputs of a run that is answered from the cache -/
inductive MediaAction where
  | createRun (id : String) (priority : Int) (providerId : Option String) (createdAt : String)
      (cached : Option (List String))
  | claim (owner : String) (leaseDuration : Nat) (excludedIds : List String) (now : Nat)
  | request (r : MediaRequest)
  | advance (i : Nat) (now : Nat) (replies : MediaReplies)
  | crash (i : Nat)

namespace MediaWorld
open MediaDb

def init : MediaWorld where
  shared := ⟨MediaDb.empty, 0, 0, []⟩
  program _ := .done ()

def newRun (id : String) (priority : Int) (providerId : Option String) (createdAt : String)
    (cacheHit : Bool) : MediaRun where
  id := id
  status := if cacheHit then .succeeded else .queued
  attempt := 1
  priority := priority
  providerId := providerId
  remoteJobId := none
  progress := some (if cacheHit then 100 else 0)
  errorCode := none
  errorMessage := none
  leaseOwner := none
  leaseExpiresAt := none
  cacheHit := cacheHit
  createdAt := createdAt

def spawn (w : MediaWorld) (s : MediaShared) (p : MediaProgram Unit) : MediaWorld where
  shared := { s with started := s.started + 1 }
  program := Function.update w.program s.started p

/-- `claim_next_run_excluding` of the service, and the processing of the run that it returns -/
def claimAt (w : MediaWorld) (owner : String) (leaseDuration : Nat) (excludedIds : List String)
    (s : MediaShared) : MediaWorld :=
  if validLeaseOwner owner && 0 < leaseDuration then
    match s.db.claimNextRunExcluding owner s.clock (s.clock + leaseDuration) excludedIds with
    | (none, db) => { w with shared := { s with db := db } }
    | (some run, db) =>
      spawn w ({ s with db := db }.note (.claimed s.started owner run.id run.attempt))
        (workerProgram owner leaseDuration run)
  else { w with shared := s }

def step (w : MediaWorld) : MediaAction → MediaWorld
  | .createRun id priority providerId createdAt cached =>
    -- the id is a new UUID
    if validId id then
      { w with
        shared := { w.shared with
          db := w.shared.db.insertRun
            (newRun id priority providerId createdAt cached.isSome) (cached.getD []) } }
    else w
  | .claim owner leaseDuration excludedIds now =>
    claimAt w owner leaseDuration excludedIds (w.shared.tick now)
  | .request r => spawn w w.shared r.program
  | .advance i now replies =>
    stepThread (MediaShared.perform i replies) { w with shared := w.shared.tick now } i
  | .crash i => { w with program := Function.update w.program i (.done ()) }

def claimed (s : MediaShared) (owner : String) (leaseDuration : Nat) (run : MediaRun) :
    MediaShared where
  db := s.db.setRun run.id (run.claim owner (s.clock + leaseDuration))
  clock := s.clock
  started := s.started + 1
  trace := .claimed s.started owner run.id run.attempt :: s.trace

theorem claimAt_cases {s : MediaShared} (hkeys : s.db.Keyed) (w : MediaWorld) (owner : String)
    (leaseDuration : Nat) (excludedIds : List String) :
    claimAt w owner leaseDuration excludedIds s = { w with shared := s } ∨
      ∃ run, s.db.nextClaimable owner s.clock excludedIds = some run ∧
        s.db.runs run.id = some run ∧ run.claimable owner s.clock = true ∧
        run.id ∉ excludedIds ∧ validLeaseOwner owner = true ∧ 0 < leaseDuration ∧
        claimAt w owner leaseDuration excludedIds s =
          { shared := claimed s owner leaseDuration run
            program := Function.update w.program s.started
              (workerProgram owner leaseDuration (run.claim owner (s.clock + leaseDuration))) } := by
  unfold claimAt
  by_cases hvalid : (validLeaseOwner owner && 0 < leaseDuration) = true
  · rw [if_pos hvalid]
    obtain ⟨howner, hduration⟩ := (Bool.and_eq_true _ _).mp hvalid
    rcases claimNextRunExcluding_cases hkeys owner s.clock (s.clock + leaseDuration) excludedIds
      with h | ⟨run, hnext, hrow, hclaimable, hexcluded, h⟩
    · rw [h]
      exact .inl rfl
    · rw [h]
      exact .inr ⟨run, hnext, hrow, hclaimable, hexcluded, howner, of_decide_eq_true hduration, rfl⟩
  · rw [if_neg hvalid]
    exact .inl rfl

end MediaWorld

end CcPanes

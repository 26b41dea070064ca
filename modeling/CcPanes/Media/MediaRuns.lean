import Mathlib.Data.List.Sort
import Mathlib.Data.String.Basic
import Mathlib.Logic.Function.Basic

/-!
# Media runs

The rows of `media_runs` with the outputs linked to them, and the statements of `MediaRepository`
(`media_repo.rs`) that create, claim and update a run: each is one atomic step, and its answer says
whether a row was changed.  `MediaRunStatus` is from `models/media.rs`.  An instant is a number of
nanoseconds; the texts in the database are compared as texts, which is the order of the instants
that `to_rfc3339` writes.
-/

namespace CcPanes

inductive MediaRunStatus where
  | queued | submitting | processing | downloading | canceling | succeeded | failed | canceled
deriving DecidableEq

namespace MediaRunStatus

def isTerminal : MediaRunStatus → Bool
  | succeeded | failed | canceled => true
  | _ => false

def canTransitionTo (self next : MediaRunStatus) : Bool :=
  if self = next then true
  else
    match self with
    | queued => next = submitting || next = canceling || next = canceled
    | submitting => next = processing || next = failed || next = canceling
    | processing => next = downloading || next = failed || next = canceling
    | downloading => next = succeeded || next = failed || next = canceling
    | canceling => next = canceled || next = failed
    | succeeded | failed | canceled => false

def isActive : MediaRunStatus → Bool
  | submitting | processing | downloading | canceling => true
  | _ => false

theorem canTransitionTo_self (s : MediaRunStatus) : s.canTransitionTo s = true := if_pos rfl

theorem eq_of_terminal {s s' : MediaRunStatus} (h : s.isTerminal = true)
    (hs : s.canTransitionTo s' = true) : s' = s := by
  cases s <;> cases s' <;> first | rfl | exact absurd h (by decide) | exact absurd hs (by decide)

theorem ne_queued_of_transition {s s' : MediaRunStatus} (h : s ≠ queued)
    (hs : s.canTransitionTo s' = true) : s' ≠ queued := by
  rintro rfl
  cases s <;> first | exact h rfl | cases hs

end MediaRunStatus

structure MediaRun where
  id : String
  status : MediaRunStatus
  attempt : Nat
  priority : Int
  providerId : Option String
  remoteJobId : Option String
  progress : Option Int
  errorCode : Option String
  errorMessage : Option String
  leaseOwner : Option String
  leaseExpiresAt : Option Nat
  cacheHit : Bool
  createdAt : String
deriving DecidableEq

/-- what the updates of a run set; `none` leaves a column as it is -/
structure UpdateMediaRunRequest where
  status : Option MediaRunStatus
  progress : Option (Option Int)
  remoteJobId : Option (Option String)
  errorCode : Option (Option String)
  errorMessage : Option (Option String)

/-- the runs, in the order of their insertion, and the outputs of each, in the order of their
ordinals -/
structure MediaDb where
  runIds : List String
  runs : String → Option MediaRun
  outputs : String → List String

namespace MediaRun

/-- `lease_expires_at IS NOT NULL AND lease_expires_at < now` -/
def leaseExpired (run : MediaRun) (now : Nat) : Bool := run.leaseExpiresAt.any fun t => t < now

/-- `lease_expires_at IS NOT NULL AND lease_expires_at > now` -/
def leaseLive (run : MediaRun) (now : Nat) : Bool := run.leaseExpiresAt.any fun t => now < t

def heldBy (run : MediaRun) (owner : String) : Bool := run.leaseOwner = some owner

def isTracked (run : MediaRun) (owner : String) : Bool :=
  run.status.isActive && run.heldBy owner && run.remoteJobId.isSome

def claimable (run : MediaRun) (owner : String) (now : Nat) : Bool :=
  run.status = .queued && (run.leaseExpiresAt.isNone || run.leaseExpired now) ||
    run.status.isActive && (run.leaseExpired now || run.heldBy owner && run.remoteJobId.isSome)

def claim (run : MediaRun) (owner : String) (leaseExpiresAt : Nat) : MediaRun :=
  { run with
    status := if run.status = .queued then .submitting else run.status
    leaseOwner := some owner
    leaseExpiresAt := some leaseExpiresAt }

/-- the `SET` of an update -/
def apply (run : MediaRun) (req : UpdateMediaRunRequest) : MediaRun :=
  { run with
    status := req.status.getD run.status
    progress := req.progress.getD run.progress
    remoteJobId := req.remoteJobId.getD run.remoteJobId
    errorCode := req.errorCode.getD run.errorCode
    errorMessage := req.errorMessage.getD run.errorMessage }

def retry (run : MediaRun) : MediaRun :=
  { run with
    status := .queued
    attempt := run.attempt + 1
    progress := some 0
    errorCode := none
    errorMessage := none
    remoteJobId := none
    leaseOwner := none
    leaseExpiresAt := none
    cacheHit := false }

/-- the order of the claims: the worker's own jobs, then by priority, age and id -/
def claimBefore (owner : String) (a b : MediaRun) : Prop :=
  let rank (run : MediaRun) : Nat := if run.isTracked owner then 0 else 1
  rank a < rank b ∨ rank a = rank b ∧
    (b.priority < a.priority ∨ b.priority = a.priority ∧
      (a.createdAt < b.createdAt ∨ a.createdAt = b.createdAt ∧ a.id ≤ b.id))

instance (owner : String) : DecidableRel (claimBefore owner) :=
  fun _ _ => inferInstanceAs (Decidable (_ ∨ _ ∧ (_ ∨ _ ∧ (_ ∨ _ ∧ _))))

end MediaRun

namespace MediaDb

def empty : MediaDb := ⟨[], fun _ => none, fun _ => []⟩

def setRun (db : MediaDb) (id : String) (run : MediaRun) : MediaDb :=
  { db with runs := Function.update db.runs id (some run) }

/-- `UPDATE media_runs SET … WHERE id = …` -/
def updateWhere (db : MediaDb) (id : String) (cond : MediaRun → Bool)
    (set : MediaRun → MediaRun) : Bool × MediaDb :=
  match db.runs id with
  | none => (false, db)
  | some run => if cond run then (true, db.setRun id (set run)) else (false, db)

theorem updateWhere_cases (db : MediaDb) (id : String) (cond : MediaRun → Bool)
    (set : MediaRun → MediaRun) :
    db.updateWhere id cond set = (false, db) ∧ (∀ run, db.runs id = some run → cond run = false) ∨
      ∃ run, db.runs id = some run ∧ cond run = true ∧
        db.updateWhere id cond set = (true, db.setRun id (set run)) := by
  unfold updateWhere
  cases hrow : db.runs id with
  | none => exact .inl ⟨rfl, fun run hrun => absurd hrun (by simp)⟩
  | some run =>
    cases hcond : cond run with
    | false =>
      refine .inl ⟨by simp [hcond], fun run' hrun' => ?_⟩
      rwa [← Option.some.inj hrun']
    | true => exact .inr ⟨run, rfl, hcond, by simp [hcond]⟩

def Keyed (db : MediaDb) : Prop := ∀ id run, db.runs id = some run → run.id = id

theorem setRun_runs (db : MediaDb) (id : String) (run : MediaRun) :
    (db.setRun id run).runs = Function.update db.runs id (some run) := rfl

theorem Keyed.setRun {db : MediaDb} (h : db.Keyed) {id : String} {run : MediaRun}
    (hid : run.id = id) : (db.setRun id run).Keyed := by
  intro id' run' hrow
  rw [setRun_runs] at hrow
  by_cases hid' : id' = id
  · subst hid'
    rw [Function.update_self] at hrow
    cases hrow
    exact hid
  · rw [Function.update_of_ne hid'] at hrow
    exact h id' run' hrow

def insertRun (db : MediaDb) (run : MediaRun) (outputs : List String) : MediaDb :=
  if (db.runs run.id).isSome then db
  else
    { runIds := db.runIds ++ [run.id]
      runs := Function.update db.runs run.id (some run)
      outputs := Function.update db.outputs run.id outputs }

theorem insertRun_cases (db : MediaDb) (run : MediaRun) (outputs : List String) :
    db.insertRun run outputs = db ∨ db.runs run.id = none ∧
      db.insertRun run outputs =
        { runIds := db.runIds ++ [run.id]
          runs := Function.update db.runs run.id (some run)
          outputs := Function.update db.outputs run.id outputs } := by
  unfold insertRun
  cases hrow : db.runs run.id with
  | none => exact .inr ⟨rfl, rfl⟩
  | some old => exact .inl rfl

def nextClaimable (db : MediaDb) (owner : String) (now : Nat) (excludedIds : List String) :
    Option MediaRun :=
  (((db.runIds.filterMap db.runs).filter fun run => run.claimable owner now).insertionSort
    (MediaRun.claimBefore owner)).find? fun run => !excludedIds.contains run.id

def claimNextRunExcluding (db : MediaDb) (owner : String) (now leaseExpiresAt : Nat)
    (excludedIds : List String) : Option MediaRun × MediaDb :=
  match db.nextClaimable owner now excludedIds with
  | none => (none, db)
  | some candidate =>
    match db.updateWhere candidate.id (fun run => run.claimable owner now)
        fun run => run.claim owner leaseExpiresAt with
    | (false, db) => (none, db)
    | (true, db) => (db.runs candidate.id, db)

theorem claimNextRunExcluding_cases {db : MediaDb} (hkeys : db.Keyed) (owner : String)
    (now leaseExpiresAt : Nat) (excludedIds : List String) :
    db.claimNextRunExcluding owner now leaseExpiresAt excludedIds = (none, db) ∨
      ∃ run, db.nextClaimable owner now excludedIds = some run ∧ db.runs run.id = some run ∧
        run.claimable owner now = true ∧ run.id ∉ excludedIds ∧
        db.claimNextRunExcluding owner now leaseExpiresAt excludedIds =
          (some (run.claim owner leaseExpiresAt),
            db.setRun run.id (run.claim owner leaseExpiresAt)) := by
  unfold claimNextRunExcluding
  cases hnext : db.nextClaimable owner now excludedIds with
  | none => exact .inl rfl
  | some run =>
    have hmem := List.mem_of_find?_eq_some hnext
    have hexcluded := List.find?_some hnext
    rw [List.mem_insertionSort, List.mem_filter, List.mem_filterMap] at hmem
    obtain ⟨⟨id, -, hid⟩, hclaimable⟩ := hmem
    have hrow : db.runs run.id = some run := by rwa [hkeys id run hid]
    refine .inr ⟨run, rfl, hrow, hclaimable, by simpa using hexcluded, ?_⟩
    have hupdate : (db.updateWhere run.id (fun run => run.claimable owner now)
        fun run => run.claim owner leaseExpiresAt) =
          (true, db.setRun run.id (run.claim owner leaseExpiresAt)) := by
      rw [updateWhere, hrow]
      exact if_pos hclaimable
    dsimp only
    rw [hupdate]
    show ((db.setRun run.id (run.claim owner leaseExpiresAt)).runs run.id, _) = _
    rw [setRun_runs, Function.update_self]

def fenced (owner : String) (now : Nat) (run : MediaRun) : Bool :=
  run.heldBy owner && run.leaseLive now && !run.status.isTerminal

def updateRunForOwnerFromStatus (db : MediaDb) (id owner : String) (now : Nat)
    (expected : MediaRunStatus) (req : UpdateMediaRunRequest) : Bool × MediaDb :=
  db.updateWhere id (fun run => run.status = expected && fenced owner now run)
    fun run => run.apply req

def updateRunFromStatus (db : MediaDb) (id : String) (expected : MediaRunStatus)
    (req : UpdateMediaRunRequest) : Bool × MediaDb :=
  db.updateWhere id (fun run => run.status = expected) fun run => run.apply req

/-- without a look at whether the lease has expired -/
def renewRunLease (db : MediaDb) (id owner : String) (leaseExpiresAt : Nat) : Bool × MediaDb :=
  db.updateWhere id (fun run => run.heldBy owner && !run.status.isTerminal)
    fun run => { run with leaseExpiresAt := some leaseExpiresAt }

def clearRunLease (db : MediaDb) (id owner : String) : Bool × MediaDb :=
  db.updateWhere id (fun run => run.heldBy owner)
    fun run => { run with leaseOwner := none, leaseExpiresAt := none }

def retryRun (db : MediaDb) (id : String) : Bool × MediaDb :=
  db.updateWhere id (fun run => run.status = .failed || run.status = .canceled) MediaRun.retry

/-- `update_run` with a priority -/
def updatePriority (db : MediaDb) (id : String) (priority : Int) : Bool × MediaDb :=
  db.updateWhere id (fun _ => true) fun run => { run with priority := priority }

def findRunByRemoteJobId (db : MediaDb) (providerId remoteJobId : String) : Option MediaRun :=
  (db.runIds.filterMap db.runs).find? fun run =>
    run.providerId = some providerId && run.remoteJobId = some remoteJobId

/-- the second statement of `apply_provider_event` -/
def updateFromEvent (db : MediaDb) (id providerId remoteJobId : String)
    (req : UpdateMediaRunRequest) : Bool × MediaDb :=
  db.updateWhere id (fun run => run.providerId = some providerId &&
      run.remoteJobId = some remoteJobId && !run.status.isTerminal)
    fun run => run.apply req

/-- the next ordinal is the one after the greatest -/
def insertAssetForRunOwner (db : MediaDb) (runId assetId owner : String) (now : Nat) :
    Bool × MediaDb :=
  if (db.runs runId).any (fenced owner now) then
    (true, { db with outputs := Function.update db.outputs runId (db.outputs runId ++ [assetId]) })
  else (false, db)

end MediaDb

end CcPanes

import CcPanes.Foundation.Json
import CcPanes.Foundation.WriteOnce
import CcPanes.TaskQueue.Dispatcher

/-!
# Unattended permission decisions

`authorize_unattended_permission_request` of `task_queue_service.rs` and the table
`terminal_task_queue_permission_decisions` beside the tables of the queue.  What the service asks
of the terminal backend is an argument, since the sessions change on their own; the decision itself
is one transaction.  `serde_json` and SHA-256 are the parameter `fingerprint`.
-/

namespace CcPanes
open Function

structure StructuredPermissionRequest where
  toolUseId : String
  toolName : String
  toolInput : Json

inductive PermissionRequestValidationError where
  | unsupportedEvent
  | missingToolUseId
  | missingToolName
  | invalidToolInput
  deriving DecidableEq

def validatedPermissionString (payload : Json) (key : String) : Option String := do
  let value ← (← payload.get key).asStr
  if trim value = "" ∨ trim value ≠ value then none else some value

/-- `ClaudeAdapter::validate_permission_request` -/
def validatePermissionRequest (payload : Json) :
    Except PermissionRequestValidationError StructuredPermissionRequest :=
  if (payload.get "hook_event_name").bind Json.asStr ≠ some "PermissionRequest" then
    .error .unsupportedEvent
  else
    match validatedPermissionString payload "tool_use_id" with
    | none => .error .missingToolUseId
    | some toolUseId =>
      match validatedPermissionString payload "tool_name" with
      | none => .error .missingToolName
      | some toolName =>
        match (payload.get "tool_input").filter Json.isObject with
        | none => .error .invalidToolInput
        | some toolInput => .ok ⟨toolUseId, toolName, toolInput⟩

inductive PermissionDecisionStatus where
  | inserted
  | existing
  | fingerprintMismatch
  deriving DecidableEq

structure PermissionDecisionRecord where
  status : PermissionDecisionStatus
  decision : Option String

inductive UnattendedPermissionDecision where
  | allowNew
  | allowExisting
  | noDecision
  deriving DecidableEq

structure PermissionDecisionRow where
  requestFingerprint : String
  decision : String
  createdAt : Int

/-- the tables of the queue and `terminal_task_queue_permission_decisions`, whose key is the
session and the tool use -/
structure PermissionDb where
  queue : TaskQueueDb
  decisions : String × String → Option PermissionDecisionRow

namespace PermissionDb

def init (now : Int) : PermissionDb := ⟨TaskQueueDb.init now, fun _ => none⟩

def validatePermissionDecisionKey (toolUseId fingerprint : String) : AppResult Unit :=
  if trim toolUseId = "" ∨ trim fingerprint = "" then
    .error (.coded "QUEUE_ITEM_INVALID" "Permission decisions require a tool id and fingerprint")
  else .ok ()

def upsertPermissionDecision (db : PermissionDb) (sid toolUseId requestFingerprint : String)
    (now : Int) : PermissionDecisionRecord × PermissionDb :=
  match db.decisions (sid, toolUseId) with
  | none =>
    (⟨.inserted, some "allow"⟩, { db with
        decisions := Function.update db.decisions (sid, toolUseId)
          (some ⟨requestFingerprint, "allow", now⟩) })
  | some row =>
    if row.requestFingerprint = requestFingerprint then (⟨.existing, some "allow"⟩, db)
    else (⟨.fingerprintMismatch, none⟩, db)

def recordPermissionDecision (db : PermissionDb) (sid toolUseId requestFingerprint : String)
    (now : Int) : AppResult (PermissionDecisionRecord × PermissionDb) := do
  validatePermissionDecisionKey toolUseId requestFingerprint
  let db := { db with queue := db.queue.ensureQueue sid now }
  .ok (db.upsertPermissionDecision sid toolUseId requestFingerprint now)

/-- the `SELECT EXISTS` of the eligibility -/
def eligible (db : PermissionDb) (sid : String) : Bool :=
  match db.queue.runtime, db.queue.queues sid with
  | some runtime, some q => runtime.enabled && q.unattended && !(db.queue.rows sid).isEmpty
  | _, _ => false

def recordPermissionDecisionIfEligible (db : PermissionDb)
    (sid toolUseId requestFingerprint : String) (now : Int) :
    AppResult (Option PermissionDecisionRecord × PermissionDb) := do
  validatePermissionDecisionKey toolUseId requestFingerprint
  if !db.eligible sid then .ok (none, db)
  else
    let (record, db) := db.upsertPermissionDecision sid toolUseId requestFingerprint now
    .ok (some record, db)

def commit {α : Type} (db : PermissionDb) : AppResult (α × PermissionDb) → PermissionDb
  | .ok (_, db') => db'
  | .error _ => db

end PermissionDb

/-- a call of the service, with what the backend answers it -/
structure AuthorizeCall where
  sid : String
  cliTool : String
  payload : Json
  status : AppResult (Option SessionStatus)
  authority : AppResult AutomaticWriteAuthority
  now : Int

namespace AuthorizeCall

variable (fingerprint : StructuredPermissionRequest → AppResult String)

/-- the request and its fingerprint, if the call gets as far as the transaction -/
def request (c : AuthorizeCall) : AppResult (Option (StructuredPermissionRequest × String)) :=
  if c.cliTool ≠ "claude" then .ok none
  else
    match validatePermissionRequest c.payload with
    | .error _ => .ok none
    | .ok request =>
      if request.toolName = "AskUserQuestion" then .ok none
      else do
        match ← c.status with
        | none => .ok none
        | some status =>
          if status = .exited then .ok none
          else do
            let authority ← c.authority
            if authority = .unavailable then .ok none
            else do
              let fp ← fingerprint request
              .ok (some (request, fp))

def decisionOf (record : PermissionDecisionRecord) : UnattendedPermissionDecision :=
  if record.status = .inserted ∧ record.decision = some "allow" then .allowNew
  else if record.status = .existing ∧ record.decision = some "allow" then .allowExisting
  else .noDecision

def authorizeUnattendedPermissionRequest (db : PermissionDb) (c : AuthorizeCall) :
    AppResult (UnattendedPermissionDecision × PermissionDb) := do
  match ← c.request fingerprint with
  | none => .ok (.noDecision, db)
  | some (request, fp) =>
    let (record, db) ← db.recordPermissionDecisionIfEligible c.sid request.toolUseId fp c.now
    match record with
    | none => .ok (.noDecision, db)
    | some record => .ok (decisionOf record, db)

end AuthorizeCall

/-! ## the transaction -/

namespace PermissionDb

def fingerprints (db : PermissionDb) (k : String × String) : Option String :=
  (db.decisions k).map (·.requestFingerprint)

def outcomeOf : PermissionDecisionStatus → WriteOnce.Outcome
  | .inserted => .inserted
  | .existing => .existing
  | .fingerprintMismatch => .mismatch

theorem upsert_put (db : PermissionDb) (sid toolUseId fp : String) (now : Int) :
    WriteOnce.put db.fingerprints (sid, toolUseId) fp =
      (outcomeOf (db.upsertPermissionDecision sid toolUseId fp now).1.status,
        (db.upsertPermissionDecision sid toolUseId fp now).2.fingerprints) := by
  unfold upsertPermissionDecision
  cases h : db.decisions (sid, toolUseId) with
  | none =>
    have hfp : db.fingerprints (sid, toolUseId) = none := by
      unfold fingerprints
      rw [h]
      rfl
    rw [WriteOnce.put_of_none fp hfp]
    refine Prod.ext rfl ?_
    funext k
    show update db.fingerprints (sid, toolUseId) (some fp) k =
      (update db.decisions (sid, toolUseId) (some ⟨fp, "allow", now⟩) k).map
        (·.requestFingerprint)
    by_cases hk : k = (sid, toolUseId)
    · rw [hk, update_self, update_self]
      rfl
    · rw [update_of_ne hk, update_of_ne hk]
      rfl
  | some row =>
    have hfp : db.fingerprints (sid, toolUseId) = some row.requestFingerprint := by
      unfold fingerprints
      rw [h]
      rfl
    dsimp only
    by_cases hsame : row.requestFingerprint = fp
    · rw [if_pos hsame, WriteOnce.put_of_same (hfp.trans (congrArg some hsame))]
      rfl
    · rw [if_neg hsame, WriteOnce.put_of_other hfp hsame]
      rfl

theorem upsert_decision (db : PermissionDb) (sid toolUseId fp : String) (now : Int) :
    AuthorizeCall.decisionOf (db.upsertPermissionDecision sid toolUseId fp now).1 =
      match (db.upsertPermissionDecision sid toolUseId fp now).1.status with
      | .inserted => .allowNew
      | .existing => .allowExisting
      | .fingerprintMismatch => .noDecision := by
  unfold upsertPermissionDecision
  split
  · rfl
  · split
    · rfl
    · rfl

/-- the global switch is on, the queue of the session is unattended and not empty -/
def Eligible (db : PermissionDb) (sid : String) : Prop :=
  (∃ runtime, db.queue.runtime = some runtime ∧ runtime.enabled = true) ∧
    (∃ q, db.queue.queues sid = some q ∧ q.unattended = true) ∧ db.queue.rows sid ≠ []

theorem eligible_iff (db : PermissionDb) (sid : String) :
    db.eligible sid = true ↔ Eligible db sid := by
  unfold eligible Eligible
  cases hr : db.queue.runtime with
  | none => exact ⟨nofun, fun ⟨⟨_, h, _⟩, _⟩ => nomatch h⟩
  | some runtime =>
    cases hq : db.queue.queues sid with
    | none => exact ⟨nofun, fun ⟨_, ⟨_, h, _⟩, _⟩ => nomatch h⟩
    | some q =>
      dsimp only
      rw [Bool.and_eq_true, Bool.and_eq_true, Bool.not_eq_true', List.isEmpty_eq_false_iff]
      constructor
      · rintro ⟨⟨hen, hun⟩, hne⟩
        exact ⟨⟨runtime, rfl, hen⟩, ⟨q, rfl, hun⟩, hne⟩
      rintro ⟨⟨_, h, hen⟩, ⟨_, h', hun⟩, hne⟩
      cases h
      cases h'
      exact ⟨⟨hen, hun⟩, hne⟩

end PermissionDb

namespace AuthorizeCall

variable (fingerprint : StructuredPermissionRequest → AppResult String)

theorem authorize_cases (db : PermissionDb) (c : AuthorizeCall) {d : UnattendedPermissionDecision}
    {db' : PermissionDb}
    (h : c.authorizeUnattendedPermissionRequest fingerprint db = .ok (d, db')) :
    (d = .noDecision ∧ db' = db) ∨
      ∃ request fp, c.request fingerprint = .ok (some (request, fp)) ∧
        PermissionDb.Eligible db c.sid ∧
        d = decisionOf (db.upsertPermissionDecision c.sid request.toolUseId fp c.now).1 ∧
        db' = (db.upsertPermissionDecision c.sid request.toolUseId fp c.now).2 := by
  unfold authorizeUnattendedPermissionRequest at h
  cases hreq : c.request fingerprint with
  | error =>
    rw [hreq] at h
    cases h
  | ok r =>
    rw [hreq] at h
    cases r with
    | none =>
      cases h
      exact .inl ⟨rfl, rfl⟩
    | some r =>
      obtain ⟨request, fp⟩ := r
      have h' : (do
          let (record, db) ← db.recordPermissionDecisionIfEligible c.sid request.toolUseId fp c.now
          match record with
          | none =>
            (.ok (.noDecision, db) : AppResult (UnattendedPermissionDecision × PermissionDb))
          | some record => .ok (decisionOf record, db)) = .ok (d, db') := h
      unfold PermissionDb.recordPermissionDecisionIfEligible at h'
      cases hkey : PermissionDb.validatePermissionDecisionKey request.toolUseId fp with
      | error =>
        rw [hkey] at h'
        cases h'
      | ok =>
        rw [hkey] at h'
        cases hel : db.eligible c.sid with
        | false =>
          rw [hel] at h'
          cases h'
          exact .inl ⟨rfl, rfl⟩
        | true =>
          rw [hel] at h'
          cases h'
          exact .inr ⟨request, fp, rfl, (db.eligible_iff c.sid).mp hel, rfl, rfl⟩

end AuthorizeCall

/-! ## runs -/

/-- the calls that were answered with an allow: the session and the tool use, the fingerprint, and
whether the answer was `AllowNew` -/
abbrev AllowLog := List (WriteOnce.Accepted (String × String) String)

structure PermissionWorld where
  db : PermissionDb
  allows : AllowLog

inductive PermissionAction where
  | queue (op : QueueOp)
  | record (sid toolUseId requestFingerprint : String) (now : Int)
  | authorize (c : AuthorizeCall)

namespace PermissionWorld

def init (now : Int) : PermissionWorld := ⟨.init now, []⟩

variable (fingerprint : StructuredPermissionRequest → AppResult String)

/-- the log after a call that was answered `d` -/
def logAllow (allows : AllowLog) (sid toolUseId fp : String) :
    UnattendedPermissionDecision → AllowLog
  | .allowNew => ⟨(sid, toolUseId), fp, true⟩ :: allows
  | .allowExisting => ⟨(sid, toolUseId), fp, false⟩ :: allows
  | .noDecision => allows

def authorize (w : PermissionWorld) (c : AuthorizeCall) : PermissionWorld where
  db := w.db.commit (c.authorizeUnattendedPermissionRequest fingerprint w.db)
  allows :=
    match c.request fingerprint, c.authorizeUnattendedPermissionRequest fingerprint w.db with
    | .ok (some (request, fp)), .ok (d, _) => logAllow w.allows c.sid request.toolUseId fp d
    | _, _ => w.allows

def step (w : PermissionWorld) : PermissionAction → PermissionWorld
  | .queue op => { w with db := { w.db with queue := op.apply w.db.queue } }
  | .record sid toolUseId requestFingerprint now =>
    { w with
      db := w.db.commit (w.db.recordPermissionDecision sid toolUseId requestFingerprint now) }
  | .authorize c => w.authorize fingerprint c

def Logged (w : PermissionWorld) : Prop := WriteOnce.Logged w.db.fingerprints w.allows

theorem logAllow_accept (db : PermissionDb) (sid toolUseId fp : String) (now : Int)
    (allows : AllowLog) :
    logAllow allows sid toolUseId fp
        (AuthorizeCall.decisionOf (db.upsertPermissionDecision sid toolUseId fp now).1) =
      WriteOnce.accept allows (sid, toolUseId) fp
        (PermissionDb.outcomeOf (db.upsertPermissionDecision sid toolUseId fp now).1.status) := by
  rw [PermissionDb.upsert_decision]
  cases (db.upsertPermissionDecision sid toolUseId fp now).1.status with
  | inserted => rfl
  | existing => rfl
  | fingerprintMismatch => rfl

theorem logged_record {w : PermissionWorld} (h : Logged w) (sid toolUseId fp : String)
    (now : Int) : Logged (w.step fingerprint (.record sid toolUseId fp now)) := by
  unfold Logged
  rw [step, PermissionDb.recordPermissionDecision]
  cases PermissionDb.validatePermissionDecisionKey toolUseId fp with
  | error => exact h
  | ok =>
    have hput := PermissionDb.upsert_put { w.db with queue := w.db.queue.ensureQueue sid now } sid
      toolUseId fp now
    have hsilent := WriteOnce.Logged.silent (k := (sid, toolUseId)) (r := fp) h
    have hsnd : (WriteOnce.put w.db.fingerprints (sid, toolUseId) fp).2 = _ :=
      congrArg Prod.snd hput
    rw [hsnd] at hsilent
    exact hsilent

theorem logged_authorize {w : PermissionWorld} (h : Logged w) (c : AuthorizeCall) :
    Logged (w.authorize fingerprint c) := by
  cases hans : c.authorizeUnattendedPermissionRequest fingerprint w.db with
  | error =>
    have hdb : (w.authorize fingerprint c).db = w.db := by
      unfold authorize
      rw [hans]
      rfl
    have hallows : (w.authorize fingerprint c).allows = w.allows := by
      unfold authorize
      rw [hans]
      dsimp only
      split
      next heq => cases heq
      next => rfl
    unfold Logged
    rw [hdb, hallows]
    exact h
  | ok r =>
    obtain ⟨d, db'⟩ := r
    have hdb : (w.authorize fingerprint c).db = db' := by
      unfold authorize
      rw [hans]
      rfl
    obtain ⟨rfl, rfl⟩ | ⟨request, fp, hreq, -, rfl, rfl⟩ := c.authorize_cases fingerprint w.db hans
    · have hallows : (w.authorize fingerprint c).allows = w.allows := by
        unfold authorize
        rw [hans]
        dsimp only
        split
        next heq =>
          cases heq
          rfl
        next => rfl
      unfold Logged
      rw [hdb, hallows]
      exact h
    have hallows : (w.authorize fingerprint c).allows =
        WriteOnce.accept w.allows (c.sid, request.toolUseId) fp
          (PermissionDb.outcomeOf
            (w.db.upsertPermissionDecision c.sid request.toolUseId fp c.now).1.status) := by
      rw [← logAllow_accept]
      unfold authorize
      rw [hans, hreq]
    have hput := w.db.upsert_put c.sid request.toolUseId fp c.now
    have hlog := WriteOnce.Logged.put (k := (c.sid, request.toolUseId)) (r := fp) h
    rw [hput] at hlog
    unfold Logged
    rw [hdb, hallows]
    exact hlog

theorem logged_step (w : PermissionWorld) (a : PermissionAction) (h : Logged w) :
    Logged (w.step fingerprint a) := by
  cases a with
  | queue => exact h
  | record sid toolUseId fp now => exact logged_record fingerprint h sid toolUseId fp now
  | authorize c => exact logged_authorize fingerprint h c

theorem run_logged (now : Int) (as : List PermissionAction) :
    Logged (Run.run (step fingerprint) (init now) as) :=
  Run.run_inv (logged_step fingerprint) (WriteOnce.Logged.nil (init now).db.fingerprints) as

/-- In every run of queue operations and authorizations, for every session and tool use: `AllowNew`
is answered at most once, all allows carry one fingerprint, and an allow is only answered by a
transaction that finds the session eligible and leaves the fingerprint recorded. -/
theorem unattended_decisions (now : Int) (as : List PermissionAction) :
    (∀ sid toolUseId, (Run.run (step fingerprint) (init now) as).allows.countP
        (fun a => a.key = (sid, toolUseId) && a.isNew) ≤ 1) ∧
      (∀ a ∈ (Run.run (step fingerprint) (init now) as).allows,
        ∀ b ∈ (Run.run (step fingerprint) (init now) as).allows, a.key = b.key →
          a.value = b.value) ∧
      ∀ pre c post, as = pre ++ .authorize c :: post → ∀ d db',
        c.authorizeUnattendedPermissionRequest fingerprint
            (Run.run (step fingerprint) (init now) pre).db = .ok (d, db') →
          d ≠ .noDecision →
            PermissionDb.Eligible (Run.run (step fingerprint) (init now) pre).db c.sid ∧
              ∃ request fp, c.request fingerprint = .ok (some (request, fp)) ∧
                db'.fingerprints (c.sid, request.toolUseId) = some fp ∧
                ∀ a ∈ (Run.run (step fingerprint) (init now) pre).allows,
                  a.key = (c.sid, request.toolUseId) → a.value = fp := by
  have hlog := run_logged fingerprint now as
  refine ⟨?_, ?_, ?_⟩
  · intro sid toolUseId
    exact hlog.once (sid, toolUseId)
  · intro a ha b hb hk
    exact hlog.same ha hb hk
  intro pre c post _ d db' hans hd
  have hpre := run_logged fingerprint now pre
  obtain ⟨rfl, -⟩ | ⟨request, fp, hreq, hel, rfl, rfl⟩ := c.authorize_cases fingerprint _ hans
  · exact absurd rfl hd
  have hput := (Run.run (step fingerprint) (init now) pre).db.upsert_put c.sid
    request.toolUseId fp c.now
  have haccepted : (WriteOnce.put (Run.run (step fingerprint) (init now) pre).db.fingerprints
      (c.sid, request.toolUseId) fp).1 ≠ .mismatch := by
    intro hm
    rw [hput] at hm
    rw [PermissionDb.upsert_decision] at hd
    split at hd
    next hst => rw [hst] at hm; cases hm
    next hst => rw [hst] at hm; cases hm
    next => exact hd rfl
  have hget := WriteOnce.put_get haccepted
  refine ⟨hel, request, fp, hreq, ?_, ?_⟩
  · rw [hput] at hget
    exact hget
  intro a ha hk
  have hkept := WriteOnce.put_keeps (hpre.value a ha) (c.sid, request.toolUseId) fp
  rw [hk, hget] at hkept
  exact (Option.some.inj hkept).symm

def bashRequest (toolUseId command : String) : Json :=
  .object [("hook_event_name", .string "PermissionRequest"), ("tool_use_id", .string toolUseId),
    ("tool_name", .string "Bash"), ("tool_input", .object [("command", .string command)])]

def callFor (toolUseId command : String) : AuthorizeCall where
  sid := "pty-1"
  cliTool := "claude"
  payload := bashRequest toolUseId command
  status := .ok (some .thinking)
  authority := .ok .exclusiveInProcess
  now := 10

/-- the digest of the request of `callFor "tool-1" "cargo test"` -/
def sampleFingerprint (_ : StructuredPermissionRequest) : AppResult String :=
  .ok "65ebc575b62b9b698fc1d2b53f1c0a74f20823f4d4e09a557550ad651bd7fa19"

def unattendedSession : List PermissionAction :=
  [.queue (.addItem "pty-1" ⟨"queued follow-up", []⟩ "item-1" 1),
    .queue (.updateControl "pty-1" ⟨none, some true⟩ 2)]

theorem unattended_decisions_bash :
    PermissionDb.Eligible (Run.run (step sampleFingerprint) (init 0) unattendedSession).db "pty-1" ∧
      ((callFor "tool-1" "cargo test").authorizeUnattendedPermissionRequest sampleFingerprint
        (Run.run (step sampleFingerprint) (init 0) unattendedSession).db).toOption.map Prod.fst =
        some .allowNew := by
  have hnew : ((callFor "tool-1" "cargo test").authorizeUnattendedPermissionRequest
      sampleFingerprint (Run.run (step sampleFingerprint) (init 0)
        unattendedSession).db).toOption.map Prod.fst = some .allowNew := by
    decide +kernel
  refine ⟨?_, hnew⟩
  cases hans : (callFor "tool-1" "cargo test").authorizeUnattendedPermissionRequest
      sampleFingerprint (Run.run (step sampleFingerprint) (init 0) unattendedSession).db with
  | error e =>
    rw [hans] at hnew
    cases hnew
  | ok r =>
    rw [hans] at hnew
    obtain ⟨d, db'⟩ := r
    cases hnew
    have hall := unattended_decisions sampleFingerprint 0
      (unattendedSession ++ [.authorize (callFor "tool-1" "cargo test")])
    exact (hall.2.2 unattendedSession _ [] rfl .allowNew db' hans (by decide)).1

end PermissionWorld
end CcPanes

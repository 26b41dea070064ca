import CcPanes.Media.RunRequests

/-!
# Concurrent creation of media runs

`create_run` and `replay_run` of `media_service.rs`, from the lookup of the client request id on,
with `insert_run` of `media_repo.rs`.  A call that finds a run compares its own body with it; a call
whose insert is refused returns the run that is there as it is.
-/

namespace CcPanes.RunCreation
open List Function Option

/-- what a call meets at an access: an error of the repository, the valid outputs of a cache entry,
and what it draws for a new row -/
structure CreationReply where
  io : Option String := none
  cached : Option (List String) := none
  newId : String := ""
  now : String := ""

inductive CreationCall where
  /-- `find_run_by_client_request_id`, before the comparison -/
  | lookup (body : Prepared)
  | cache (body : Prepared)
  | insert (body : Prepared) (run : CreatedRun)
  /-- the insert was refused -/
  | recheck (body : Prepared) (key : String) (error : AppError)
  | ended (body : Option Prepared) (result : AppResult CreatedRun)

/-- `failed` is history: the calls that met an error of the repository, or an id that was taken -/
structure CreationWorld where
  rows : List CreatedRun := []
  calls : Nat → Option CreationCall := fun _ => none
  failed : List Nat := []

inductive CreationAction where
  | create (i : Nat) (reads : MediaReads) (req : CreateMediaRunRequest)
      (providerConfigFingerprint : Option String)
  | replay (i : Nat) (reads : MediaReads) (sourceRunId : String)
      (overrides : ReplayMediaRunRequest) (providerConfigFingerprint : Option String)
      (newId : String) (io : Option String)
  | advance (i : Nat) (reply : CreationReply)

def findRunByClientRequestId (rows : List CreatedRun) (key : String) : Option CreatedRun :=
  rows.find? fun run => run.clientRequestId = some key

def findRun (rows : List CreatedRun) (id : String) : Option CreatedRun :=
  rows.find? fun run => run.id = id

/-- the primary key and the unique index on the client request ids -/
def refuses (rows : List CreatedRun) (run : CreatedRun) : Bool :=
  rows.any fun row =>
    row.id = run.id || row.clientRequestId.isSome && row.clientRequestId = run.clientRequestId

def idempotencyConflict : AppError :=
  .coded "MEDIA_IDEMPOTENCY_CONFLICT" "client request id was already used with a different request"

def newRun (body : Prepared) (cached : Option (List String)) (reply : CreationReply) :
    CreatedRun where
  id := reply.newId
  nodeId := body.nodeId
  operation := body.operation
  status := if cached.isSome then .succeeded else .queued
  attempt := 1
  priority := body.priority
  cachePolicy := body.cachePolicy
  clientRequestId := body.clientRequestId
  providerRef := body.node.providerRef
  request := body.request
  progress := some (if cached.isSome then 100 else 0)
  inputAssetIds := body.inputAssetIds
  executionFingerprint := some body.executionFingerprint
  cacheHit := cached.isSome
  outputAssetIds := cached.getD []
  createdAt := reply.now

def insertError (io : Option String) : AppError :=
  .message none ("Failed to insert media run: " ++ io.getD "UNIQUE constraint failed")

namespace CreationWorld

def setCall (w : CreationWorld) (i : Nat) (call : CreationCall) : CreationWorld :=
  { w with calls := Function.update w.calls i (some call) }

def fail (w : CreationWorld) (i : Nat) : CreationWorld := { w with failed := i :: w.failed }

def begin (w : CreationWorld) (i : Nat) (body : AppResult Prepared) : CreationWorld :=
  match w.calls i with
  | some _ => w
  | none =>
    match body with
    | .ok body => w.setCall i (.lookup body)
    | .error e => w.setCall i (.ended none (.error e))

def replay (codec : MediaCodec) (w : CreationWorld) (reads : MediaReads) (sourceRunId : String)
    (overrides : ReplayMediaRunRequest) (providerConfigFingerprint : Option String)
    (newId : String) (io : Option String) : AppResult Prepared := do
  validateId sourceRunId "runId"
  let source ← match io with
    | some text => .error (.message none text)
    | none => .ok (findRun w.rows sourceRunId)
  match source with
  | none => .error (.coded "MEDIA_RUN_NOT_FOUND" "source media run not found")
  | some source =>
    let req ← replayRequest codec source overrides newId
    prepare codec reads req providerConfigFingerprint

def lookup (w : CreationWorld) (i : Nat) (body : Prepared) (reply : CreationReply) :
    CreationWorld :=
  match body.clientRequestId, reply.io with
  | none, _ => w.setCall i (.cache body)
  | some _, some text => (w.setCall i (.ended (some body) (.error (.message none text)))).fail i
  | some key, none =>
    match findRunByClientRequestId w.rows key with
    | none => w.setCall i (.cache body)
    | some existing =>
      if body.agrees existing then w.setCall i (.ended (some body) (.ok existing))
      else w.setCall i (.ended (some body) (.error idempotencyConflict))

def lookCacheUp (w : CreationWorld) (i : Nat) (body : Prepared) (reply : CreationReply) :
    CreationWorld :=
  if !body.cachePolicy.allowsLookup then w.setCall i (.insert body (newRun body none reply))
  else
    match reply.io with
    | some text => (w.setCall i (.ended (some body) (.error (.message none text)))).fail i
    | none => w.setCall i (.insert body (newRun body reply.cached reply))

/-- `insert_run`; the cache entry that is touched afterwards plays no part -/
def insertRun (w : CreationWorld) (i : Nat) (body : Prepared) (run : CreatedRun)
    (reply : CreationReply) : CreationWorld :=
  if reply.io.isNone && !refuses w.rows run then
    { w.setCall i (.ended (some body) (.ok run)) with rows := w.rows ++ [run] }
  else
    match body.clientRequestId with
    | none => (w.setCall i (.ended (some body) (.error (insertError reply.io)))).fail i
    | some key =>
      let w' := w.setCall i (.recheck body key (insertError reply.io))
      if reply.io.isSome || (findRunByClientRequestId w.rows key).isNone then w'.fail i else w'

def recheck (w : CreationWorld) (i : Nat) (body : Prepared) (key : String) (error : AppError)
    (reply : CreationReply) : CreationWorld :=
  match reply.io with
  | some _ => (w.setCall i (.ended (some body) (.error error))).fail i
  | none =>
    match findRunByClientRequestId w.rows key with
    | some existing => w.setCall i (.ended (some body) (.ok existing))
    | none => w.setCall i (.ended (some body) (.error error))

def advance (w : CreationWorld) (i : Nat) (reply : CreationReply) : CreationWorld :=
  match w.calls i with
  | some (.lookup body) => w.lookup i body reply
  | some (.cache body) => w.lookCacheUp i body reply
  | some (.insert body run) => w.insertRun i body run reply
  | some (.recheck body key error) => w.recheck i body key error reply
  | _ => w

def step (codec : MediaCodec) (w : CreationWorld) : CreationAction → CreationWorld
  | .create i reads req fingerprint => w.begin i (prepare codec reads req fingerprint)
  | .replay i reads sourceRunId overrides fingerprint newId io =>
    w.begin i (w.replay codec reads sourceRunId overrides fingerprint newId io)
  | .advance i reply => w.advance i reply

/-! ## idempotency -/

def Answered (w : CreationWorld) (i : Nat) (body : Prepared) (run : CreatedRun) : Prop :=
  w.calls i = some (.ended (some body) (.ok run))

/-- one run for each client request id, with the body of every call that got it, and a conflict for
the others -/
structure Idempotent (w : CreationWorld) : Prop where
  sameRun : ∀ i j body body' run run' key, Answered w i body run → Answered w j body' run' →
    body.clientRequestId = some key → body'.clientRequestId = some key → run.id = run'.id
  sameBody : ∀ i body run key, Answered w i body run → body.clientRequestId = some key →
    body.agrees run = true
  oneRow : (w.rows.filterMap (·.clientRequestId)).Nodup
  refused : ∀ i body result key, w.calls i = some (.ended (some body) result) →
    body.clientRequestId = some key → i ∉ w.failed → ∀ run ∈ w.rows,
    run.clientRequestId = some key → body.agrees run = false → result = .error idempotencyConflict

/-- the condition: the run that a call finds after its insert was refused is of its body -/
def ReturnsOwnBody (w : CreationWorld) : CreationAction → Prop
  | .advance i reply => ∀ body key error existing, w.calls i = some (.recheck body key error) →
      reply.io = none → findRunByClientRequestId w.rows key = some existing →
      body.agrees existing = true
  | _ => True

def CallRecorded (w : CreationWorld) (i : Nat) : CreationCall → Prop
  | .insert body run => body.agrees run = true ∧ run.clientRequestId = body.clientRequestId
  | .recheck body key _ => body.clientRequestId = some key ∧
      (i ∉ w.failed → ∃ run ∈ w.rows, run.clientRequestId = some key)
  | .ended (some body) (.ok run) => ∀ key, body.clientRequestId = some key →
      run ∈ w.rows ∧ run.clientRequestId = some key
  | .ended (some body) (.error e) => i ∉ w.failed → body.clientRequestId.isSome = true →
      e = idempotencyConflict
  | _ => True

structure Recorded (w : CreationWorld) : Prop where
  keys : (w.rows.filterMap (·.clientRequestId)).Nodup
  calls : ∀ i call, w.calls i = some call → CallRecorded w i call

section
variable {w : CreationWorld} {i : Nat} {body : Prepared} {run existing : CreatedRun} {key : String}
  {call : CreationCall} {j : Nat} {reply : CreationReply}

theorem find_mem (h : findRunByClientRequestId w.rows key = some existing) :
    existing ∈ w.rows ∧ existing.clientRequestId = some key := by
  refine ⟨mem_of_find?_eq_some h, ?_⟩
  have hkey := find?_some h
  exact of_decide_eq_true hkey

theorem find_none (h : findRunByClientRequestId w.rows key = none) (run : CreatedRun)
    (hrun : run ∈ w.rows) : run.clientRequestId ≠ some key := by
  have hnot := find?_eq_none.mp h run hrun
  simpa using hnot

theorem eq_of_key {rows : List CreatedRun} (h : (rows.filterMap (·.clientRequestId)).Nodup)
    {run run' : CreatedRun} (hrun : run ∈ rows) (hrun' : run' ∈ rows)
    (hkey : run.clientRequestId = some key) (hkey' : run'.clientRequestId = some key) :
    run = run' := by
  induction rows with
  | nil => cases hrun
  | cons row rows ih =>
    rw [filterMap_cons] at h
    have hmem : ∀ r ∈ rows, r.clientRequestId = some key →
        key ∈ rows.filterMap (·.clientRequestId) := by
      intro r hr hk
      exact mem_filterMap.mpr ⟨r, hr, hk⟩
    have htail : (rows.filterMap (·.clientRequestId)).Nodup := by
      cases hc : row.clientRequestId with
      | none =>
        rw [hc] at h
        exact h
      | some =>
        rw [hc] at h
        exact (nodup_cons.mp h).2
    have hhead : row.clientRequestId = some key → key ∉ rows.filterMap (·.clientRequestId) := by
      intro hc
      rw [hc] at h
      exact (nodup_cons.mp h).1
    rcases mem_cons.mp hrun with rfl | hin
    · rcases mem_cons.mp hrun' with rfl | hin'
      · rfl
      · exact absurd (hmem run' hin' hkey') (hhead hkey)
    · rcases mem_cons.mp hrun' with rfl | hin'
      · exact absurd (hmem run hin hkey) (hhead hkey')
      · exact ih htail hin hin'

theorem newRun_agrees (body : Prepared) (cached : Option (List String)) (reply : CreationReply) :
    body.agrees (newRun body cached reply) = true := by
  simp [Prepared.agrees, newRun]

theorem Recorded.setCall (h : Recorded w) (hcall : CallRecorded w i call) :
    Recorded (w.setCall i call) := by
  refine ⟨h.keys, ?_⟩
  intro j call' hj
  by_cases hji : j = i
  · subst hji
    have e : call' = call := by
      have hself : (w.setCall j call).calls j = some call := update_self _ _ _
      rw [hself] at hj
      exact (some.inj hj).symm
    subst e
    exact hcall
  · have hother : (w.setCall i call).calls j = w.calls j := update_of_ne hji _ _
    rw [hother] at hj
    exact h.calls j call' hj

theorem CallRecorded.fail (h : CallRecorded w j call) : CallRecorded (w.fail i) j call := by
  have hmem : j ∉ (w.fail i).failed → j ∉ w.failed := fun hj hmem =>
    hj (mem_cons_of_mem i hmem)
  match call with
  | .lookup _ | .cache _ => trivial
  | .insert _ _ => exact h
  | .recheck _ _ _ => exact ⟨h.1, fun hj => h.2 (hmem hj)⟩
  | .ended none _ => trivial
  | .ended (some _) (.ok _) => exact h
  | .ended (some _) (.error _) => exact fun hj hkey => h (hmem hj) hkey

theorem Recorded.fail (h : Recorded w) (i : Nat) : Recorded (w.fail i) :=
  ⟨h.keys, fun j call hj => (h.calls j call hj).fail⟩

theorem Recorded.setFailed (h : Recorded w) (hcall : CallRecorded (w.fail i) i call) :
    Recorded ((w.setCall i call).fail i) :=
  (h.fail i).setCall hcall

theorem begin_recorded (h : Recorded w) (i : Nat) (body : AppResult Prepared) :
    Recorded (w.begin i body) := by
  unfold begin
  cases w.calls i with
  | some => exact h
  | none =>
    cases body with
    | ok => exact h.setCall trivial
    | error => exact h.setCall trivial

theorem lookup_recorded (h : Recorded w) (body : Prepared) (reply : CreationReply) :
    Recorded (w.lookup i body reply) := by
  unfold lookup
  cases hkey : body.clientRequestId with
  | none => exact h.setCall trivial
  | some key =>
    cases reply.io with
    | some =>
      exact h.setFailed fun hnot => absurd (mem_cons_self : i ∈ i :: w.failed) hnot
    | none =>
      dsimp only
      cases hfind : findRunByClientRequestId w.rows key with
      | none => exact h.setCall trivial
      | some existing =>
        dsimp only
        by_cases hagrees : body.agrees existing = true
        · rw [if_pos hagrees]
          refine h.setCall ?_
          intro key' hkey'
          cases hkey.symm.trans hkey'
          exact find_mem hfind
        · rw [if_neg hagrees]
          exact h.setCall fun _ _ => rfl

theorem cache_recorded (h : Recorded w) (body : Prepared) (reply : CreationReply) :
    Recorded (w.lookCacheUp i body reply) := by
  unfold lookCacheUp
  by_cases hbypass : (!body.cachePolicy.allowsLookup) = true
  · rw [if_pos hbypass]
    exact h.setCall ⟨newRun_agrees body none reply, rfl⟩
  rw [if_neg hbypass]
  cases reply.io with
  | some =>
    exact h.setFailed fun hnot => absurd (mem_cons_self : i ∈ i :: w.failed) hnot
  | none => exact h.setCall ⟨newRun_agrees body reply.cached reply, rfl⟩

theorem CallRecorded.append (h : CallRecorded w j call) (run : CreatedRun) :
    CallRecorded { w with rows := w.rows ++ [run] } j call := by
  match call with
  | .lookup _ | .cache _ => trivial
  | .insert _ _ => exact h
  | .recheck _ _ _ =>
    refine ⟨h.1, fun hj => ?_⟩
    obtain ⟨row, hrow, hkey⟩ := h.2 hj
    exact ⟨row, mem_append_left _ hrow, hkey⟩
  | .ended none _ => trivial
  | .ended (some _) (.ok _) =>
    intro key hkey
    exact ⟨mem_append_left _ (h key hkey).1, (h key hkey).2⟩
  | .ended (some _) (.error _) => exact h

theorem insert_recorded (h : Recorded w) (hcall : w.calls i = some (.insert body run))
    (reply : CreationReply) : Recorded (w.insertRun i body run reply) := by
  obtain ⟨-, hkey⟩ := h.calls i _ hcall
  unfold insertRun
  by_cases hok : (reply.io.isNone && !refuses w.rows run) = true
  · rw [if_pos hok]
    have hfree : refuses w.rows run = false := by
      rw [Bool.and_eq_true, Bool.not_eq_true'] at hok
      exact hok.2
    have hnew : Recorded { w with rows := w.rows ++ [run] } := by
      refine ⟨?_, fun j call hj => (h.calls j call hj).append run⟩
      rw [filterMap_append]
      cases hrun : run.clientRequestId with
      | none => simpa [hrun] using h.keys
      | some key =>
        refine nodup_append.mpr ⟨h.keys, by simp [hrun], ?_⟩
        intro key' hkey' key'' hkey'' heq
        subst heq
        obtain ⟨row, hrow, hrowKey⟩ := mem_filterMap.mp hkey'
        have hk : key' = key := by simpa [hrun] using hkey''
        subst hk
        have hnot := any_eq_false.mp hfree row hrow
        simp [hrowKey, hrun] at hnot
    exact hnew.setCall fun key hk => ⟨by simp, by rw [hkey, hk]⟩
  rw [if_neg hok]
  cases hbody : body.clientRequestId with
  | none =>
    refine h.setFailed ?_
    intro hnot
    exact absurd (mem_cons_self : i ∈ i :: w.failed) hnot
  | some key =>
    dsimp only
    by_cases hfailed : (reply.io.isSome || (findRunByClientRequestId w.rows key).isNone) = true
    · rw [if_pos hfailed]
      refine h.setFailed ⟨hbody, ?_⟩
      intro hnot
      exact absurd (mem_cons_self : i ∈ i :: w.failed) hnot
    rw [if_neg hfailed]
    refine h.setCall ⟨hbody, ?_⟩
    intro _
    rw [Bool.or_eq_true] at hfailed
    cases hfind : findRunByClientRequestId w.rows key with
    | none => exact absurd (.inr (by rw [hfind]; rfl)) hfailed
    | some existing => exact ⟨existing, find_mem hfind⟩

theorem recheck_recorded (h : Recorded w) {error : AppError}
    (hcall : w.calls i = some (.recheck body key error)) (reply : CreationReply) :
    Recorded (w.recheck i body key error reply) := by
  obtain ⟨hbody, hrow⟩ := h.calls i _ hcall
  unfold recheck
  cases reply.io with
  | some =>
    exact h.setFailed fun hnot => absurd (mem_cons_self : i ∈ i :: w.failed) hnot
  | none =>
    cases hfind : findRunByClientRequestId w.rows key with
    | some =>
      refine h.setCall ?_
      intro key' hkey'
      cases hbody.symm.trans hkey'
      exact find_mem hfind
    | none =>
      refine h.setCall ?_
      intro hnot
      obtain ⟨run, hrun, hkey⟩ := hrow hnot
      exact absurd hkey (find_none hfind run hrun)

theorem step_recorded (codec : MediaCodec) (a : CreationAction) (h : Recorded w) :
    Recorded (w.step codec a) := by
  cases a with
  | create i => exact begin_recorded h i _
  | replay i => exact begin_recorded h i _
  | advance i reply =>
    show Recorded (w.advance i reply)
    unfold advance
    cases hcall : w.calls i with
    | none => exact h
    | some call =>
      cases call with
      | lookup body => exact lookup_recorded h body reply
      | cache body => exact cache_recorded h body reply
      | insert => exact insert_recorded h hcall reply
      | recheck => exact recheck_recorded h hcall reply
      | ended => exact h

theorem idempotent_of (h : Recorded w)
    (hbody : ∀ i body run key, Answered w i body run → body.clientRequestId = some key →
      body.agrees run = true) : Idempotent w := by
  refine ⟨?_, hbody, h.keys, ?_⟩
  · intro i j body body' run run' key hi hj hkey hkey'
    obtain ⟨hrun, hrunKey⟩ := h.calls i _ hi key hkey
    obtain ⟨hrun', hrunKey'⟩ := h.calls j _ hj key hkey'
    rw [eq_of_key h.keys hrun hrun' hrunKey hrunKey']
  intro i body result key hi hkey hnot run hrun hrunKey hdiffers
  cases result with
  | ok run' =>
    obtain ⟨hrun', hrunKey'⟩ := h.calls i _ hi key hkey
    have hagrees := hbody i body run' key hi hkey
    rw [eq_of_key h.keys hrun' hrun hrunKey' hrunKey, hdiffers] at hagrees
    cases hagrees
  | error e =>
    have he : e = idempotencyConflict := h.calls i _ hi hnot (by rw [hkey]; rfl)
    rw [he]

theorem answered_setCall (h : Answered (w.setCall j call) i body run) :
    Answered w i body run ∨ j = i ∧ call = .ended (some body) (.ok run) := by
  by_cases hji : i = j
  · subst hji
    have hself : (w.setCall i call).calls i = some call := update_self _ _ _
    exact .inr ⟨rfl, some.inj (hself.symm.trans h)⟩
  · have hother : (w.setCall j call).calls i = w.calls i := update_of_ne hji _ _
    exact .inl (hother.symm.trans h)

theorem answered_of_setCall (hcall : call ≠ .ended (some body) (.ok run))
    (h : Answered (w.setCall j call) i body run) : Answered w i body run :=
  (answered_setCall h).resolve_right fun h' => hcall h'.2

theorem answered_begin {prepared : AppResult Prepared}
    (h : Answered (w.begin j prepared) i body run) : Answered w i body run := by
  unfold begin at h
  split at h
  · exact h
  · split at h
    all_goals exact answered_of_setCall (by simp) h

theorem answered_lookup {body' : Prepared} (h : Answered (w.lookup j body' reply) i body run) :
    Answered w i body run ∨ body.agrees run = true := by
  unfold lookup at h
  repeat' split at h
  case isTrue hagrees =>
    rcases answered_setCall h with hold | ⟨-, heq⟩
    · exact .inl hold
    · cases heq
      exact .inr hagrees
  all_goals exact .inl (answered_of_setCall (by simp) h)

theorem answered_lookCacheUp {body' : Prepared}
    (h : Answered (w.lookCacheUp j body' reply) i body run) : Answered w i body run := by
  unfold lookCacheUp at h
  repeat' split at h
  all_goals exact answered_of_setCall (by simp) h

theorem answered_cases (codec : MediaCodec) {a : CreationAction} (h : Recorded w)
    (hanswered : Answered (w.step codec a) i body run) (hkey : body.clientRequestId = some key) :
    Answered w i body run ∨ body.agrees run = true ∨
      ∃ reply error, a = .advance i reply ∧ w.calls i = some (.recheck body key error) ∧
        reply.io = none ∧ findRunByClientRequestId w.rows key = some run := by
  cases a with
  | create => exact .inl (answered_begin hanswered)
  | replay =>
    exact .inl (answered_begin hanswered)
  | advance j reply =>
    have hafter : Answered (w.advance j reply) i body run := hanswered
    unfold advance at hafter
    split at hafter
    · exact (answered_lookup hafter).imp_right .inl
    · exact .inl (answered_lookCacheUp hafter)
    · next body' run' hcall =>
      unfold insertRun at hafter
      split at hafter
      · rcases answered_setCall hafter with hold | ⟨-, heq⟩
        · exact .inl hold
        · cases heq
          exact .inr (.inl (h.calls j _ hcall).1)
      split at hafter
      · exact .inl (answered_of_setCall (by simp) hafter)
      · split at hafter
        all_goals exact .inl (answered_of_setCall (by simp) hafter)
    · next body' key' error hcall =>
      unfold recheck at hafter
      split at hafter
      · exact .inl (answered_of_setCall (by simp) hafter)
      next hio =>
      split at hafter
      · next existing hfind =>
        rcases answered_setCall hafter with hold | ⟨rfl, heq⟩
        · exact .inl hold
        · cases heq
          cases (h.calls j _ hcall).1.symm.trans hkey
          exact .inr (.inr ⟨reply, error, rfl, hcall, hio, hfind⟩)
      · exact .inl (answered_of_setCall (by simp) hafter)
    · exact .inl hafter

theorem recheck_answers (codec : MediaCodec) {error : AppError}
    (hcall : w.calls i = some (.recheck body key error)) (hio : reply.io = none)
    (hfind : findRunByClientRequestId w.rows key = some existing) :
    Answered (w.step codec (.advance i reply)) i body existing := by
  show (w.advance i reply).calls i = _
  unfold advance
  rw [hcall]
  unfold recheck
  rw [hio]
  dsimp only
  rw [hfind]
  exact update_self _ _ _

theorem fresh_recorded : Recorded {} :=
  ⟨nodup_nil, fun _ _ h => (by cases h)⟩

theorem fresh_idempotent : Idempotent {} :=
  idempotent_of fresh_recorded fun _ _ _ _ h _ => (by cases h)

theorem idempotent_iff (codec : MediaCodec) (as : List CreationAction) :
    Run.Along (step codec) Idempotent {} as ↔ Run.StepsOk (step codec) ReturnsOwnBody {} as := by
  refine Run.along_iff_stepsOk (fun _ a h => step_recorded codec a h) ?_ fresh_recorded
    fresh_idempotent as
  intro w a hrec hidem
  constructor
  · intro hafter
    cases a with
    | create => trivial
    | replay => trivial
    | advance i =>
      intro body key error existing hcall hio hfind
      exact hafter.sameBody i body existing key (recheck_answers codec hcall hio hfind)
        (hrec.calls i _ hcall).1
  intro hok
  refine idempotent_of (step_recorded codec a hrec) ?_
  intro i body run key hanswered hkey
  rcases answered_cases codec hrec hanswered hkey with hold | hagrees | ⟨reply, error, rfl, hcall,
    hio, hfind⟩
  · exact hidem.sameBody i body run key hold hkey
  · exact hagrees
  · exact hok body key error run hcall hio hfind

end

/-! ## two calls at once -/

def sampleCodec : MediaCodec where
  jsonBytes _ := 16
  jsonFingerprint
    | .object fields => .ok (if ((Json.object fields).get "request").bind (·.get "prompt") =
        some (.string "cat") then "cat" else "dog")
    | _ => .ok ""
  validateGenerationParameters _ := .ok ()

def sampleNode : MediaNode where
  id := "n"
  workspaceId := "w"
  kind := .image
  providerRef := none
  parameters := .object []
  deletedAt := none

def sampleReads : MediaReads where
  getNode _ := .ok (some sampleNode)
  getAsset _ := .ok none
  findProject := none

def promptRequest (prompt : String) : CreateMediaRunRequest where
  nodeId := "n"
  operation := .textToImage
  request := .object [("prompt", .string prompt)]
  clientRequestId := some "k"

/-- two calls with one client request id and different prompts look it up before either inserts -/
def racingCreates : List CreationAction :=
  [.create 0 sampleReads (promptRequest "cat") none,
   .create 1 sampleReads (promptRequest "dog") none,
   .advance 0 {}, .advance 1 {}, .advance 0 { newId := "a" }, .advance 1 { newId := "b" },
   .advance 0 {}, .advance 1 {}, .advance 1 {}]

theorem racingCreates_mixed :
    ¬Run.Along (step sampleCodec) Idempotent {} racingCreates := by
  intro h
  have hcall : ∃ body run, Answered (Run.run (step sampleCodec) {} racingCreates) 1 body run ∧
      body.clientRequestId = some "k" ∧ body.agrees run = false := ⟨_, _, rfl, rfl, by decide⟩
  obtain ⟨body, run, hanswered, hkey, hdiffers⟩ := hcall
  rw [h.last.sameBody 1 body run "k" hanswered hkey] at hdiffers
  cases hdiffers

end CreationWorld

end CcPanes.RunCreation

import CcPanes.Foundation.SerialOrder
import CcPanes.TaskBindings.Service

/-!
# What a call leaves that nothing interrupts
-/

namespace CcPanes.TaskBindings

open SerialCalls List

variable {b : TaskBinding} {t : Table} {req : UpdateTaskBindingRequest} {plan project : String}
  {id : String}

/-! ## a call alone -/

section
variable {now : Nat}

theorem serve_liftResult {α : Type} (r : AppResult α) (t : Table) :
    serve repository (liftResult r) t = (r, t) := by
  cases r <;> rfl

theorem serve_existing (h : findById t id = some b) :
    serve repository (existing id) t = (.ok b, t) := by
  have hfind : serve repository (findBinding id) t = (.ok (some b), t) := by
    show (Except.ok (findById t id), t) = _
    rw [h]
  rw [existing, serve_bind_ok hfind]
  rfl

theorem serve_updateWithEmit (id : String) (req : UpdateTaskBindingRequest) (now : Nat)
    (t : Table) : (serve repository (updateWithEmit id req now) t).2 =
      match checkedUpdate req with
      | .ok req => (update t id req now).2
      | .error _ => t := by
  rw [updateWithEmit, serve_bind, serve_liftResult]
  cases checkedUpdate req with
  | ok => rfl
  | error => rfl

theorem checkedUpdate_ok {req req' : UpdateTaskBindingRequest} (h : checkedUpdate req = .ok req') :
    req' = { req with
      normalizedPlanPath := req.normalizedPlanPath.or (req.planPath.map normalizePlanPath) } := by
  unfold checkedUpdate at h
  split at h
  · cases h
  split at h
  · cases h
  · cases h
    rfl

end

theorem get_insertField (key : String) (value : Json) (fields : List (String × Json)) :
    (Json.object (Json.insertField key value fields)).get key = some value := by
  induction fields with
  | nil => simp [Json.insertField, Json.get]
  | cons f fs ih =>
    obtain ⟨k, v⟩ := f
    rw [Json.insertField]
    by_cases hk : k = key
    · rw [if_pos hk]
      simp [Json.get]
    rw [if_neg hk]
    by_cases hlt : key < k
    · rw [if_pos hlt]
      simp [Json.get]
    · rw [if_neg hlt]
      simpa [Json.get, hk] using ih

theorem serve_append {key : String} {item : Json} {maxItems : Nat} {now : Nat}
    (hkey : trim key ≠ "") (hmax : 0 < maxItems) (hb : findById t id = some b) :
    ∃ b', findById (serve repository (appendMetadataArrayItem id key item maxItems now).body t).2 id
        = some b' ∧
      metadataItems b' key = appendedItems (metadataItems b key) item maxItems := by
  obtain ⟨items, hitems⟩ : ∃ items, items = appendedItems (metadataItems b key) item maxItems :=
    ⟨_, rfl⟩
  obtain ⟨metadata, hmetadata⟩ :
    ∃ metadata, metadata = Json.object (Json.insertField key (.array items) (metadataFields b)) :=
    ⟨_, rfl⟩
  have hserve : (serve repository (appendMetadataArrayItem id key item maxItems now).body t).2 =
      (update t id { metadata := some metadata } now).2 := by
    rw [appendMetadataArrayItem, if_neg hkey, if_neg (Nat.ne_of_gt hmax)]
    dsimp only
    rw [serve_bind_ok (serve_existing hb), serve_bind_pure, ← hitems, ← hmetadata,
      serve_updateWithEmit]
    rfl
  have hne : ({ metadata := some metadata } : UpdateTaskBindingRequest) ≠ {} := by
    intro h
    cases congrArg UpdateTaskBindingRequest.metadata h
  refine ⟨updateRow id { metadata := some metadata } now b, ?_, ?_⟩
  · rw [hserve, findById_update t id id hne now, hb]
    rfl
  have hrow : (updateRow id { metadata := some metadata } now b).metadata = some metadata := by
    rw [updateRow, if_pos (findById_id hb)]
    rfl
  have hfields : metadataFields (updateRow id { metadata := some metadata } now b) =
      Json.insertField key (.array items) (metadataFields b) := by
    rw [metadataFields, hrow, hmetadata]
    rfl
  rw [metadataItems, hfields, get_insertField, ← hitems]

/-! ### reconciling -/

theorem serve_resolveLeader (key : PlanCollaborationKey) (t : Table) :
    ∃ r, serve repository (resolveLeader key) t = (r, t) ∧ ∀ b, r = .ok b → b ∈ t.rows := by
  unfold resolveLeader
  split
  · next leaderId _ =>
    have hfind : serve repository (findBinding leaderId) t = (.ok (findById t leaderId), t) := rfl
    rw [serve_bind_ok hfind]
    split
    · exact ⟨_, rfl, fun b h => by cases h⟩
    next b hb =>
    split
    · exact ⟨_, rfl, fun b h => by cases h⟩
    refine ⟨.ok b, rfl, ?_⟩
    intro b' h
    cases h
    exact mem_of_find?_eq_some hb
  split
  · exact ⟨_, rfl, fun b h => by cases h⟩
  next plan _ =>
  have hfind : serve repository (findLeader plan none) t =
      (.ok (findLeaderByPlan t plan none), t) := rfl
  rw [serve_bind_ok hfind]
  split
  · next b hb =>
    refine ⟨.ok b, rfl, ?_⟩
    intro b' h
    cases h
    exact mem_of_mem_filter (newest_mem hb)
  · exact ⟨_, rfl, fun b h => by cases h⟩

theorem findWorkersOf_mem {parentId : String} (h : b ∈ findWorkersOf t parentId) : b ∈ t.rows := by
  unfold findWorkersOf at h
  rw [mem_insertionSort] at h
  exact mem_of_mem_filter h

theorem update_status {id id' : String} (hb : findById t id = some b)
    (hreq : id' = id → req.status = none) (now : Nat) :
    ∃ b', findById (update t id' req now).2 id = some b' ∧ b'.status = b.status := by
  by_cases hempty : req = {}
  · rw [update, if_pos hempty]
    exact ⟨b, hb, rfl⟩
  refine ⟨updateRow id' req now b, ?_, ?_⟩
  · rw [findById_update t id' id hempty now, hb]
    rfl
  unfold updateRow
  split
  · next h =>
    have hid : id' = id := h.symm.trans (findById_id hb)
    show req.status.getD b.status = b.status
    rw [hreq hid]
    rfl
  · rfl

theorem reconcileUpdate_status {live : List PlanLiveSession}
    (h : reconcileUpdate live b = some req) (hb : b.status ≠ .running) : req.status = none := by
  unfold reconcileUpdate at h
  split at h
  · cases h
  split at h
  · split at h <;> cases h
    rfl
  · split at h
    · next hrun => exact absurd hrun.2 hb
    · cases h

theorem serve_reconcileEach {live : List PlanLiveSession} {clock : String → Nat} {t₀ : Table}
    {b₀ : TaskBinding} (h₀ : findById t₀ id = some b₀) (hb₀ : b₀.status ≠ .running)
    {bs : List TaskBinding} (hbs : ∀ b ∈ bs, b ∈ t₀.rows) (hb : findById t id = some b) :
    ∃ b', findById (serve repository (reconcileEach live clock bs) t).2 id = some b' ∧
      b'.status = b.status := by
  induction bs generalizing t b with
  | nil => exact ⟨b, hb, rfl⟩
  | cons c cs ih =>
    have hcs : ∀ b ∈ cs, b ∈ t₀.rows := fun b h => hbs b (mem_cons_of_mem c h)
    unfold reconcileEach
    cases hreq : reconcileUpdate live c with
    | none => exact ih hcs hb
    | some req =>
      have hkept : c.id = id → req.status = none := by
        intro hid
        have hc : findById t₀ c.id = some c := findById_of_mem (hbs c mem_cons_self)
        rw [hid, h₀] at hc
        cases hc
        exact reconcileUpdate_status hreq hb₀
      obtain ⟨b', hb', hstatus⟩ := update_status hb hkept (clock c.id)
      obtain ⟨b'', hb'', hstatus'⟩ := ih hcs hb'
      exact ⟨b'', hb'', hstatus'.trans hstatus⟩

theorem serve_reconcile (key : PlanCollaborationKey) (live : List PlanLiveSession)
    (verbose : Bool) (clock : String → Nat) (hb : findById t id = some b)
    (hstatus : b.status ≠ .running) :
    ∃ b', findById
        (serve repository (reconcilePlanCollaboration key live verbose clock).body t).2 id = some b' ∧
      b'.status = b.status := by
  obtain ⟨r, hserve, hmem⟩ := serve_resolveLeader key t
  unfold reconcilePlanCollaboration
  dsimp only
  cases r with
  | error =>
    rw [serve_bind_error hserve]
    exact ⟨b, hb, rfl⟩
  | ok leader =>
    have hfind : serve repository (findWorkers leader.id) t =
        (.ok (findWorkersOf t leader.id), t) := rfl
    rw [serve_bind_ok hserve, serve_bind_ok hfind, serve_bind_pure]
    apply serve_reconcileEach hb hstatus _ hb
    intro c hc
    obtain rfl | hc := mem_cons.mp hc
    · exact hmem _ rfl
    · exact findWorkersOf_mem hc

/-! ### leaders -/

def leadersOf (plan project : String) (t : Table) : Nat :=
  t.rows.countP (leads plan (some project))

theorem leads_iff : leads plan (some project) b = true ↔
    b.role = .leader ∧ b.normalizedPlanPath = some plan ∧ b.projectPath = project := by
  simp [leads]

theorem leadersOf_none (h : findLeaderByPlan t plan (some project) = none) :
    leadersOf plan project t = 0 := by
  have hnil := newest_eq_none.mp h
  rw [leadersOf, countP_eq_length_filter, hnil]
  rfl

theorem leadersOf_update
    {now : Nat}
    (h : ∀ b ∈ t.rows, b.id = id →
      leads plan (some project) (req.applyTo now b) = leads plan (some project) b) :
    leadersOf plan project (update t id req now).2 = leadersOf plan project t := by
  by_cases hempty : req = {}
  · rw [update, if_pos hempty]
  rw [update, if_neg hempty, leadersOf]
  dsimp only
  rw [countP_map]
  apply countP_congr
  intro b hb
  show leads plan (some project) (updateRow id req now b) = true ↔ _
  unfold updateRow
  split
  · next hid => rw [h b hb hid]
  · exact Iff.rfl

theorem leadersOf_insert_le (plan project : String) (t : Table) (b : TaskBinding) :
    leadersOf plan project (insert t b).2 ≤ leadersOf plan project t + 1 := by
  unfold insert
  split
  · exact Nat.le_succ _
  show (t.rows ++ [b]).countP _ ≤ _
  rw [countP_append]
  have hone : [b].countP (leads plan (some project)) ≤ 1 := countP_le_length
  exact Nat.add_le_add_left hone _

theorem leadersOf_insert (hinsert : (insert t b).1 = true)
    (hb : leads plan (some project) b = true) :
    leadersOf plan project (insert t b).2 = leadersOf plan project t + 1 := by
  unfold insert at hinsert ⊢
  split at hinsert
  · cases hinsert
  next hnew =>
  rw [dif_neg hnew]
  show (t.rows ++ [b]).countP _ = _
  rw [countP_append, countP_singleton, if_pos hb]
  rfl

theorem leadersOf_running (plan project : String) (t : Table) (id : String) (now : Nat) :
    leadersOf plan project (update t id { status := some .running } now).2 =
      leadersOf plan project t :=
  leadersOf_update fun _ _ _ => rfl

theorem serve_running (id : String) (now : Nat) (t : Table) :
    (serve repository (updateWithEmit id { status := some .running } now) t).2 =
      (update t id { status := some .running } now).2 := by
  rw [serve_updateWithEmit]
  rfl

theorem serve_createWithEmit (req : CreateTaskBindingRequest) (id : String) (now : Nat)
    (t : Table) :
    (insert t (req.binding id now)).1 = true ∧
        serve repository (createWithEmit req id now) t =
          (.ok (req.binding id now), (insert t (req.binding id now)).2) ∨
      ∃ e, serve repository (createWithEmit req id now) t = (.error e, t) := by
  unfold createWithEmit
  by_cases htitle : trim req.title = ""
  · rw [if_pos htitle]
    exact .inr ⟨_, rfl⟩
  rw [if_neg htitle]
  have hwrite : serve repository (write (.insert (req.binding id now))) t =
      (.ok (insert t (req.binding id now)).1, (insert t (req.binding id now)).2) := rfl
  rw [serve_bind_ok hwrite]
  cases hinsert : (insert t (req.binding id now)).1 with
  | true => exact .inl ⟨rfl, rfl⟩
  | false =>
    have hsame : (insert t (req.binding id now)).2 = t := by
      unfold insert at hinsert ⊢
      split at hinsert
      · next hold => rw [dif_pos hold]
      · cases hinsert
    rw [hsame]
    exact .inr ⟨_, rfl⟩

theorem serve_createRunning (req : CreateTaskBindingRequest) (id : String) (created updated : Nat)
    (t : Table) :
    (insert t (req.binding id created)).1 = true ∧
        (serve repository (createRunning req id created updated) t).2 =
          (update (insert t (req.binding id created)).2 id { status := some .running } updated).2 ∨
      ∃ e, serve repository (createRunning req id created updated) t = (.error e, t) := by
  unfold createRunning
  obtain ⟨hinsert, hserve⟩ | ⟨e, hserve⟩ := serve_createWithEmit req id created t
  · rw [serve_bind_ok hserve, serve_bind_pure]
    exact .inl ⟨hinsert, serve_running _ _ _⟩
  · rw [serve_bind_error hserve]
    exact .inr ⟨e, rfl⟩

section
variable (req : RegisterPlanLeaderRequest) (id : String) (created updated : Nat) (t : Table)

def planOf (req : RegisterPlanLeaderRequest) : String := normalizePlanPath (trim req.planPath)

def projectOf (req : RegisterPlanLeaderRequest) : String := trim req.projectPath

/-- The request is refused; or the leader is known and is updated, or the update is refused; or there
is none and one is created. -/
theorem serve_register :
    (∃ e, serve repository (registerPlanLeader req id created updated).body t = (.error e, t)) ∨
    (∃ b session req', findLeaderByPlan t (planOf req) (some (projectOf req)) = some b ∧
      checkedUpdate (knownLeader req (trim req.planPath) (planOf req) session) = .ok req' ∧
      (serve repository (registerPlanLeader req id created updated).body t).2 =
        (update t b.id req' updated).2) ∨
    ∃ session, findLeaderByPlan t (planOf req) (some (projectOf req)) = none ∧
      serve repository (registerPlanLeader req id created updated).body t =
        serve repository (createRunning
          (newLeader req (trim req.planPath) (planOf req) (projectOf req) session) id created
          updated) t := by
  unfold registerPlanLeader
  dsimp only
  split
  · exact .inl ⟨_, rfl⟩
  split
  · exact .inl ⟨_, rfl⟩
  cases hsession : leaderSession req.sessionId with
  | error e => exact .inl ⟨e, rfl⟩
  | ok session =>
    have hlift : serve repository (liftResult (.ok session)) t = (.ok session, t) := rfl
    have hfind : serve repository (findLeader (planOf req) (some (projectOf req))) t =
        (.ok (findLeaderByPlan t (planOf req) (some (projectOf req))), t) := rfl
    rw [serve_bind_ok hlift, ← planOf, ← projectOf, serve_bind_ok hfind]
    cases hleader : findLeaderByPlan t (planOf req) (some (projectOf req)) with
    | none => exact .inr (.inr ⟨session, rfl, rfl⟩)
    | some b =>
      dsimp only
      cases hcheck : checkedUpdate (knownLeader req (trim req.planPath) (planOf req) session) with
      | error e =>
        refine .inl ⟨e, ?_⟩
        rw [updateWithEmit, hcheck]
        rfl
      | ok req' =>
        refine .inr (.inl ⟨b, session, req', rfl, hcheck, ?_⟩)
        rw [serve_bind_pure, serve_updateWithEmit, hcheck]

theorem leadersOf_known {b : TaskBinding} {session : String} {req' : UpdateTaskBindingRequest}
    (hb : findLeaderByPlan t (planOf req) (some (projectOf req)) = some b)
    (hcheck : checkedUpdate (knownLeader req (trim req.planPath) (planOf req) session) = .ok req') :
    leadersOf (planOf req) (projectOf req) (update t b.id req' updated).2 =
      leadersOf (planOf req) (projectOf req) t := by
  have hmem := mem_filter.mp (newest_mem hb)
  apply leadersOf_update
  intro c hc hid
  have hcb : some c = some b := by
    rw [← findById_of_mem hc, hid, findById_of_mem hmem.1]
  cases hcb
  obtain ⟨hrole, hplan, hproject⟩ := leads_iff.mp hmem.2
  rw [hmem.2, checkedUpdate_ok hcheck, leads_iff]
  exact ⟨rfl, rfl, hproject⟩

theorem leadersOf_register_le : leadersOf (planOf req) (projectOf req)
    (serve repository (registerPlanLeader req id created updated).body t).2 ≤
      max 1 (leadersOf (planOf req) (projectOf req) t) := by
  obtain ⟨e, hserve⟩ | ⟨b, session, req', hb, hcheck, hserve⟩ | ⟨session, hnone, hserve⟩ :=
    serve_register req id created updated t
  · rw [hserve]
    exact Nat.le_max_right _ _
  · rw [hserve, leadersOf_known req updated t hb hcheck]
    exact Nat.le_max_right _ _
  have hzero := leadersOf_none hnone
  rw [hserve]
  obtain ⟨-, hrow⟩ | ⟨e, hfail⟩ := serve_createRunning
    (newLeader req (trim req.planPath) (planOf req) (projectOf req) session) id created updated t
  · rw [hrow, leadersOf_running]
    have hle := leadersOf_insert_le (planOf req) (projectOf req) t
      ((newLeader req (trim req.planPath) (planOf req) (projectOf req) session).binding id created)
    omega
  · rw [hfail]
    exact Nat.le_max_right _ _

/-- A registration that is not refused leaves one leader where there was none, if the normal form of
the plan path is not blank and has no blanks around it. -/
theorem leadersOf_register (hclean : cleanOptional (some (planOf req)) = some (planOf req))
    {answer : Answer Response}
    (hok : (serve repository (registerPlanLeader req id created updated).body t).1 = .ok answer) :
    leadersOf (planOf req) (projectOf req)
        (serve repository (registerPlanLeader req id created updated).body t).2 =
      max 1 (leadersOf (planOf req) (projectOf req) t) := by
  obtain ⟨e, hserve⟩ | ⟨b, session, req', hb, hcheck, hserve⟩ | ⟨session, hnone, hserve⟩ :=
    serve_register req id created updated t
  · rw [hserve] at hok
    cases hok
  · have hpos : 0 < leadersOf (planOf req) (projectOf req) t := by
      have hmem := mem_filter.mp (newest_mem hb)
      exact countP_pos_iff.mpr ⟨b, hmem.1, hmem.2⟩
    rw [hserve, leadersOf_known req updated t hb hcheck]
    omega
  rw [hserve] at hok ⊢
  obtain ⟨hinsert, hrow⟩ | ⟨e, hfail⟩ := serve_createRunning
    (newLeader req (trim req.planPath) (planOf req) (projectOf req) session) id created updated t
  · have hleads : leads (planOf req) (some (projectOf req))
        ((newLeader req (trim req.planPath) (planOf req) (projectOf req) session).binding id
          created) = true := by
      rw [leads_iff]
      refine ⟨rfl, ?_, rfl⟩
      simp only [CreateTaskBindingRequest.binding, newLeader, hclean, Option.some_or]
    rw [hrow, leadersOf_running, leadersOf_insert hinsert hleads, leadersOf_none hnone]
    rfl
  · rw [hfail] at hok
    cases hok

end

theorem returning_reports {now : Nat} {answer : Answer Response} {a : Response}
    (hok : (serve repository (updateReturningPreviousStatus id req now).body t).1 = .ok answer)
    (ha : answer.Reaches a) : ∃ b, a = .previous ((findById t id).map (·.status)) b := by
  have hfind : serve repository (findBinding id) t = (.ok (findById t id), t) := rfl
  unfold updateReturningPreviousStatus at hok
  dsimp only at hok
  rw [serve_bind_ok hfind, serve_bind] at hok
  split at hok
  · cases hok
    obtain ⟨b, -, hb⟩ := Reads.reaches_bind.mp ha
    exact ⟨b, Reads.reaches_pure.mp hb⟩
  · cases hok

theorem serve_returning {req req' : UpdateTaskBindingRequest} {status : TaskBindingStatus}
    (hcheck : checkedUpdate req = .ok req') (hstatus : req.status = some status)
    (hb : findById t id = some b) (now : Nat) :
    (∃ b', findById (serve repository (updateReturningPreviousStatus id req now).body t).2 id =
        some b' ∧ b'.status = status) ∧
      ∃ answer b', (serve repository (updateReturningPreviousStatus id req now).body t).1 =
        .ok answer ∧ answer.Reaches (.previous (some b.status) b') := by
  have hfind : serve repository (findBinding id) t = (.ok (some b), t) := by
    rw [← hb]
    rfl
  have hstatus' : req'.status = some status := by
    rw [checkedUpdate_ok hcheck]
    exact hstatus
  have hne : req' ≠ {} := by
    intro h
    rw [h] at hstatus'
    cases hstatus'
  unfold updateReturningPreviousStatus
  dsimp only
  rw [serve_bind_ok hfind]
  constructor
  · rw [serve_bind_pure, serve_updateWithEmit, hcheck]
    refine ⟨updateRow id req' now b, ?_, ?_⟩
    · rw [findById_update t id id hne now, hb]
      rfl
    rw [updateRow, if_pos (findById_id hb)]
    show req'.status.getD b.status = status
    rw [hstatus']
    rfl
  · rw [updateWithEmit, hcheck]
    exact ⟨_, b, rfl, .read (some b) (.done _)⟩

end CcPanes.TaskBindings

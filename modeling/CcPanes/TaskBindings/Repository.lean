import CcPanes.Foundation.SerialCalls
import CcPanes.TaskBindings.Models
import Mathlib.Data.List.Sort

/-!
# The repository of the task bindings

The table `task_bindings`, in the order of its rows, and the functions of `task_binding_repo.rs` that
look at it (`Query`) and change it (`Change`).  Each is one access: it holds the connection while it
runs.

A query that takes the newest row of several takes the first of those with the greatest `updated_at`.
-/

namespace CcPanes.TaskBindings
open List

structure Table where
  rows : List TaskBinding
  key : (rows.map (·.id)).Nodup

/-! ## queries -/

/-- `ORDER BY updated_at DESC LIMIT 1` -/
def newest : List TaskBinding → Option TaskBinding
  | [] => none
  | b :: bs =>
    match newest bs with
    | none => some b
    | some b' => if b.updatedAt < b'.updatedAt then some b' else some b

def findById (t : Table) (id : String) : Option TaskBinding := t.rows.find? fun b => b.id = id

def findBySessionId (t : Table) (sessionId : String) : Option TaskBinding :=
  newest (t.rows.filter fun b => b.sessionId = some sessionId)

def leads (plan : String) (project : Option String) (b : TaskBinding) : Bool :=
  b.role = .leader ∧ b.normalizedPlanPath = some plan ∧ project.all fun p => b.projectPath = p

def findLeaderByPlan (t : Table) (plan : String) (project : Option String) :
    Option TaskBinding :=
  newest (t.rows.filter (leads plan project))

def worksFor (parentId : String) (b : TaskBinding) : Bool :=
  b.role = .worker ∧ b.parentId = some parentId

/-- `ORDER BY sort_order ASC, created_at ASC` -/
def findWorkersOf (t : Table) (parentId : String) : List TaskBinding :=
  (t.rows.filter (worksFor parentId)).insertionSort fun a b =>
    a.sortOrder < b.sortOrder ∨ a.sortOrder = b.sortOrder ∧ a.createdAt ≤ b.createdAt

def findWorkerForRegistration (t : Table) (parentId sessionId : String)
    (resumeId : Option String) : Option TaskBinding :=
  let workers := t.rows.filter (worksFor parentId)
  let resumed := (resumeId.filter fun value => trim value ≠ "").bind fun resumeId =>
    newest (workers.filter fun b => b.resumeId = some resumeId)
  resumed.or (newest (workers.filter fun b => b.sessionId = some sessionId))

def UpdateTaskBindingRequest.applyTo (req : UpdateTaskBindingRequest) (now : Nat)
    (b : TaskBinding) : TaskBinding :=
  { b with
    title := req.title.getD b.title
    role := req.role.getD b.role
    parentId := req.parentId.or b.parentId
    planPath := req.planPath.or b.planPath
    normalizedPlanPath := req.normalizedPlanPath.or b.normalizedPlanPath
    prompt := req.prompt.or b.prompt
    sessionId := req.sessionId.or b.sessionId
    resumeId := req.resumeId.or b.resumeId
    paneId := req.paneId.or b.paneId
    tabId := req.tabId.or b.tabId
    status := req.status.getD b.status
    progress := req.progress.getD b.progress
    completionSummary := req.completionSummary.or b.completionSummary
    exitCode := req.exitCode.or b.exitCode
    sortOrder := req.sortOrder.getD b.sortOrder
    workerKind := req.workerKind.or b.workerKind
    metadata := req.metadata.or b.metadata
    updatedAt := now }

def updateRow (id : String) (req : UpdateTaskBindingRequest) (now : Nat) (b : TaskBinding) :
    TaskBinding := if b.id = id then req.applyTo now b else b

@[simp] theorem updateRow_id (id : String) (req : UpdateTaskBindingRequest) (now : Nat)
    (b : TaskBinding) : (updateRow id req now b).id = b.id := by
  unfold updateRow
  split <;> rfl

def update (t : Table) (id : String) (req : UpdateTaskBindingRequest) (now : Nat) :
    Bool × Table :=
  if req = {} then (false, t)
  else (t.rows.any fun b => b.id = id,
    { rows := t.rows.map (updateRow id req now)
      key := by
        rw [List.map_map]
        exact (List.map_congr_left fun b _ => updateRow_id id req now b) ▸ t.key })

def insert (t : Table) (b : TaskBinding) : Bool × Table :=
  if h : ∃ b' ∈ t.rows, b'.id = b.id then (false, t)
  else (true,
    { rows := t.rows ++ [b]
      key := by
        rw [List.map_append, List.nodup_append]
        refine ⟨t.key, List.nodup_singleton _, ?_⟩
        intro x hx y hy hxy
        obtain ⟨b', hb', rfl⟩ := List.mem_map.mp hx
        exact h ⟨b', hb', hxy.trans (List.mem_singleton.mp hy)⟩ })

/-! ## the store -/

inductive Query where
  | get (id : String)
  | findBySessionId (sessionId : String)
  | findLeaderByPlan (plan : String) (project : Option String)
  | findWorkersOf (parentId : String)
  | findWorkerForRegistration (parentId sessionId : String) (resumeId : Option String)

inductive Change where
  | insert (b : TaskBinding)
  | update (id : String) (req : UpdateTaskBindingRequest) (now : Nat)

def Found : Query → Type
  | .findWorkersOf _ => List TaskBinding
  | _ => Option TaskBinding

instance : ∀ q, DecidableEq (Found q)
  | .get _ => inferInstanceAs (DecidableEq (Option TaskBinding))
  | .findBySessionId _ => inferInstanceAs (DecidableEq (Option TaskBinding))
  | .findLeaderByPlan _ _ => inferInstanceAs (DecidableEq (Option TaskBinding))
  | .findWorkersOf _ => inferInstanceAs (DecidableEq (List TaskBinding))
  | .findWorkerForRegistration _ _ _ => inferInstanceAs (DecidableEq (Option TaskBinding))

def look (t : Table) : (q : Query) → Found q
  | .get id => findById t id
  | .findBySessionId sessionId => findBySessionId t sessionId
  | .findLeaderByPlan plan project => findLeaderByPlan t plan project
  | .findWorkersOf parentId => findWorkersOf t parentId
  | .findWorkerForRegistration parentId sessionId resumeId =>
    findWorkerForRegistration t parentId sessionId resumeId

def change (t : Table) : Change → Bool × Table
  | .insert b => insert t b
  | .update id req now => update t id req now

def repository : SerialCalls.Store Found (fun _ : Change => Bool) Table := ⟨look, change⟩

section
variable {bs : List TaskBinding} {b : TaskBinding} {t : Table} {id : String}

theorem newest_mem (h : newest bs = some b) : b ∈ bs := by
  induction bs with
  | nil => cases h
  | cons a as ih =>
    rw [newest] at h
    cases hn : newest as with
    | none =>
      rw [hn] at h
      cases h
      exact mem_cons_self
    | some b' =>
      rw [hn] at h
      dsimp only at h
      by_cases hlt : a.updatedAt < b'.updatedAt
      · rw [if_pos hlt, ← hn] at h
        exact mem_cons_of_mem _ (ih h)
      · rw [if_neg hlt] at h
        cases h
        exact mem_cons_self

theorem newest_eq_none : newest bs = none ↔ bs = [] := by
  cases bs with
  | nil => exact ⟨fun _ => rfl, fun _ => rfl⟩
  | cons a as =>
    refine ⟨fun h => ?_, nofun⟩
    rw [newest] at h
    split at h
    · cases h
    · split at h <;> cases h

theorem findById_id (h : findById t id = some b) : b.id = id := by
  simpa using find?_some h

theorem findById_of_mem (h : b ∈ t.rows) : findById t b.id = some b := by
  obtain ⟨rows, key⟩ := t
  show rows.find? _ = some b
  induction rows with
  | nil => cases h
  | cons a as ih =>
    rw [map_cons, nodup_cons] at key
    rw [find?_cons]
    obtain rfl | h := mem_cons.mp h
    · rw [decide_eq_true rfl]
    · have hne : a.id ≠ b.id := fun e => key.1 (e ▸ mem_map_of_mem h)
      rw [decide_eq_false hne]
      exact ih key.2 h

theorem findById_update (t : Table) (id id' : String) {req : UpdateTaskBindingRequest}
    (hreq : req ≠ {}) (now : Nat) : findById (update t id req now).2 id' =
      (findById t id').map (updateRow id req now) := by
  rw [update, if_neg hreq]
  show (t.rows.map (updateRow id req now)).find? _ = _
  rw [find?_map]
  congr 1
  show t.rows.find? (fun b => decide ((updateRow id req now b).id = id')) = _
  simp only [updateRow_id]
  rfl

end

end CcPanes.TaskBindings

import CcPanes.Foundation.Run
import CcPanes.TaskQueue.Models
import CcPanes.Terminal.TitleRuns

/-!
# Todos and their recurrence

`todo_service.rs` and the writes of `todo_repo.rs`, on the rows of the table `todos`.  A call of
`update_todo` takes the lock of the database once to read the row, once to write it and once to
insert the next instance; `batch_update_status` takes it once.
-/

namespace CcPanes.Todos
open Run Function

inductive TodoStatus where
  | todo | inProgress | done
  deriving DecidableEq

inductive TodoPriority where
  | high | medium | low
  deriving DecidableEq

inductive TodoScope where
  | global | workspace | project | external | tempScript
  deriving DecidableEq

/-- a row of `todos`; a missing description is stored as the empty text -/
structure TodoItem where
  id : String
  title : String
  description : String
  status : TodoStatus
  priority : TodoPriority
  scope : TodoScope
  scopeRef : Option String
  tags : List String
  dueDate : Option String
  myDay : Bool
  myDayDate : Option String
  reminderAt : Option String
  recurrence : Option String
  todoType : String
  sortOrder : Int
  createdAt : String
  updatedAt : String
  deriving DecidableEq

structure CreateTodoRequest where
  title : String
  description : Option String
  status : Option TodoStatus
  priority : Option TodoPriority
  scope : Option TodoScope
  scopeRef : Option String
  tags : Option (List String)
  dueDate : Option String
  reminderAt : Option String
  recurrence : Option String
  todoType : Option String

structure UpdateTodoRequest where
  title : Option String := none
  description : Option String := none
  status : Option TodoStatus := none
  priority : Option TodoPriority := none
  scope : Option TodoScope := none
  scopeRef : Option String := none
  tags : Option (List String) := none
  dueDate : Option String := none
  myDay : Option Bool := none
  myDayDate : Option String := none
  reminderAt : Option String := none
  recurrence : Option String := none
  todoType : Option String := none
  deriving DecidableEq

/-- what a creation reads beside its request -/
structure Stamp where
  id : String
  now : String
  maxSortOrder : Int

def newTodo (stamp : Stamp) (req : CreateTodoRequest) : TodoItem where
  id := stamp.id
  title := trim req.title
  description := req.description.getD ""
  status := req.status.getD .todo
  priority := req.priority.getD .medium
  scope := req.scope.getD .global
  scopeRef := req.scopeRef
  tags := req.tags.getD []
  dueDate := req.dueDate
  myDay := false
  myDayDate := none
  reminderAt := req.reminderAt
  recurrence := req.recurrence
  todoType := req.todoType.getD ""
  sortOrder := stamp.maxSortOrder + 1
  createdAt := stamp.now
  updatedAt := stamp.now

/-- a scope that names a workspace or a project, with its reference -/
def scopeRefOk (scope : TodoScope) (scopeRef : Option String) : Bool :=
  !((scope = .workspace || scope = .project) && scopeRef.isNone)

def createTodo (stamp : Stamp) (req : CreateTodoRequest) : AppResult TodoItem :=
  if (trim req.title).isEmpty then
    .error (.message (some "TODO_TITLE_EMPTY") "Title cannot be empty")
  else if !scopeRefOk (req.scope.getD .global) req.scopeRef then
    .error (.message (some "TODO_SCOPE_REF_REQUIRED") "workspace/project scope requires scopeRef")
  else .ok (newTodo stamp req)

/-- the functions of the crate `chrono`; a point in time is a number of nanoseconds -/
structure Chrono (Date : Type) where
  /-- `NaiveDate::parse_from_str(_, "%Y-%m-%d")` -/
  parseDate : String → Option Date
  formatDate : Date → String
  addDays : Date → Nat → Date
  checkedAddMonth : Date → Option Date
  /-- the start of the day, in UTC -/
  midnight : Date → Int
  parseFromRfc3339 : String → Option Int
  toRfc3339 : Int → String

section
variable {Date : Type} (chrono : Chrono Date)

/-- the text that is read as a date; `none` where the slice would cut a character -/
def dateStr (d : String) : Option String :=
  if 10 ≤ byteLen d.toList then (sliceTo d.toList 10).map String.ofList else some d

def nextDate (recurrence : String) (date : Date) : Date :=
  if recurrence = "daily" then chrono.addDays date 1
  else if recurrence = "weekly" then chrono.addDays date 7
  else if recurrence = "monthly" then
    (chrono.checkedAddMonth date).getD (chrono.addDays date 30)
  else chrono.addDays date 1

def nextReminder (old : TodoItem) (nextDue : Option String) : Option String := do
  let due ← old.dueDate
  let reminder ← old.reminderAt
  let dueDt ← chrono.parseFromRfc3339 due
  let remDt ← chrono.parseFromRfc3339 reminder
  let date ← chrono.parseDate (← nextDue)
  return chrono.toRfc3339 (chrono.midnight date + (remDt - dueDt))

/-- the text of the due date that is read as a date, if there is one -/
def dueText (old : TodoItem) : Option (Option String) :=
  match old.dueDate with
  | none => some none
  | some d => (dateStr d).map some

def requestFor (old : TodoItem) (recurrence : String) (text : Option String) : CreateTodoRequest :=
  let nextDue := (text.bind chrono.parseDate).map fun date =>
    chrono.formatDate (nextDate chrono recurrence date)
  { title := old.title
    description := some old.description
    status := some .todo
    priority := some old.priority
    scope := some old.scope
    scopeRef := old.scopeRef
    tags := if old.tags = [] then none else some old.tags
    dueDate := nextDue
    reminderAt := nextReminder chrono old nextDue
    recurrence := some recurrence
    todoType := some old.todoType }

/-- `create_next_recurrence`; `none` where it panics -/
def createNextRecurrence (stamp : Stamp) (old : TodoItem) (recurrence : String) :
    Option (AppResult TodoItem) :=
  (dueText old).map fun text => createTodo stamp (requestFor chrono old recurrence text)

/-! ## calls -/

/-- `update` of the repository, unless the request is empty -/
def applyUpdate (now : String) (row : TodoItem) (req : UpdateTodoRequest) : TodoItem :=
  { row with
    title := req.title.getD row.title
    description := req.description.getD row.description
    status := req.status.getD row.status
    priority := req.priority.getD row.priority
    scope := req.scope.getD row.scope
    scopeRef := req.scopeRef <|> row.scopeRef
    tags := req.tags.getD row.tags
    dueDate := req.dueDate <|> row.dueDate
    myDay := req.myDay.getD row.myDay
    myDayDate := req.myDayDate <|> row.myDayDate
    reminderAt := req.reminderAt <|> row.reminderAt
    recurrence := req.recurrence <|> row.recurrence
    todoType := req.todoType.getD row.todoType
    updatedAt := now }

/-- what a todo and its next instance have in common -/
structure Content where
  title : String
  description : String
  priority : TodoPriority
  scope : TodoScope
  scopeRef : Option String
  tags : List String
  recurrence : Option String
  todoType : String
  deriving DecidableEq

def TodoItem.content (t : TodoItem) : Content :=
  ⟨t.title, t.description, t.priority, t.scope, t.scopeRef, t.tags, t.recurrence, t.todoType⟩

/-- the recurrence to follow when the row gets the status -/
def recurs (status : Option TodoStatus) (row : TodoItem) : Option String :=
  if status = some .done ∧ row.status ≠ .done then row.recurrence.filter (· ≠ "") else none

/-- the transition of a row to `done` for which there is to be a next instance -/
def completion (status : Option TodoStatus) (row : Option TodoItem) : List Content :=
  match row with
  | some row => if (recurs status row).isSome then [row.content] else []
  | none => []

/-- where a call is; `completed` and `created` are the contents of the todos that it completed and
created -/
inductive Call where
  | unused
  | reading (id : String) (req : UpdateTodoRequest)
  | updating (id : String) (req : UpdateTodoRequest) (old : TodoItem)
  | creating (old : TodoItem) (recurrence : String) (completed : List Content)
  | ended (completed created : List Content)
  deriving DecidableEq

structure TodoWorld where
  rows : String → Option TodoItem
  calls : Nat → Call := fun _ => .unused

inductive TodoAction where
  | updateTodo (c : Nat) (id : String) (req : UpdateTodoRequest)
  /-- the next access of an `update_todo`, which may fail -/
  | advance (c : Nat) (stamp : Stamp) (fails : Bool)
  /-- `batch_update_status`, which may fail behind `stored` of its ids -/
  | batchUpdateStatus (c : Nat) (ids : List String) (status : TodoStatus) (now : String)
      (stored : Nat)

/-- the writes of `batch_update_status`, with what they complete -/
def batchRows (status : TodoStatus) (now : String) :
    List String → (String → Option TodoItem) → (String → Option TodoItem) × List Content
  | [], rows => (rows, [])
  | id :: ids, rows =>
    let row := (rows id).map fun row => { row with status, updatedAt := now }
    let rest := batchRows status now ids (Function.update rows id row)
    (rest.1, completion (some status) (rows id) ++ rest.2)

/-- one access of an `update_todo` -/
def advanceCall (rows : String → Option TodoItem) (stamp : Stamp) (fails : Bool) :
    Call → (String → Option TodoItem) × Call
  | .reading id req =>
    match if fails then none else rows id with
    | some old => (rows, .updating id req old)
    | none => (rows, .ended [] [])
  | .updating id req old =>
    match if fails ∨ req = {} then none else rows id with
    | some row =>
      let rows' := Function.update rows id (some (applyUpdate stamp.now row req))
      let completed := completion req.status (some row)
      match recurs req.status old with
      | some recurrence => (rows', .creating old recurrence completed)
      | none => (rows', .ended completed [])
    | none => (rows, .ended [] [])
  | .creating old recurrence completed =>
    match if fails ∨ (rows stamp.id).isSome then none
        else createNextRecurrence chrono stamp old recurrence with
    | some (.ok todo) => (Function.update rows todo.id (some todo), .ended completed [todo.content])
    -- the error is dropped
    | _ => (rows, .ended completed [])
  | call => (rows, call)

def step (w : TodoWorld) : TodoAction → TodoWorld
  | .updateTodo c id req =>
    if w.calls c ≠ .unused then w
    else if req.title.any fun title => (trim title).isEmpty then
      { w with calls := Function.update w.calls c (.ended [] []) }
    else { w with calls := Function.update w.calls c (.reading id req) }
  | .advance c stamp fails =>
    let next := advanceCall chrono w.rows stamp fails (w.calls c)
    { rows := next.1, calls := Function.update w.calls c next.2 }
  | .batchUpdateStatus c ids status now stored =>
    if w.calls c ≠ .unused then w
    else
      let next := batchRows status now (ids.take stored) w.rows
      { rows := next.1, calls := Function.update w.calls c (.ended next.2 []) }

end

/-! ## exactly one next instance -/

/-- a call that is over has created the next instances of what it completed, and nothing else -/
def Call.Fair : Call → Prop
  | .ended completed created => created = completed
  | _ => True

def ExactlyOnce (w : TodoWorld) : Prop := ∀ c, (w.calls c).Fair

/-- the next instance can be created, and the due date is read without a cut character -/
def Creatable (old : TodoItem) : Prop :=
  (trim old.title).isEmpty = false ∧ scopeRefOk old.scope old.scopeRef ∧ (dueText old).isSome

instance (old : TodoItem) : Decidable (Creatable old) :=
  inferInstanceAs (Decidable (_ ∧ _ ∧ _))

def nextContent (old : TodoItem) (recurrence : String) : Content :=
  { old.content with title := trim old.title, recurrence := some recurrence }

/-- The condition.  A batch completes no todo that recurs; an update that read a row which it does
not complete does not complete it when it writes; and what is due when the next instance is created
is what that instance is, or nothing where the creation fails. -/
def Unshared (w : TodoWorld) : TodoAction → Prop
  | .updateTodo .. => True
  | .advance c stamp fails =>
    match w.calls c with
    | .updating id req old =>
      fails = false → req ≠ {} → recurs req.status old = none →
        completion req.status (w.rows id) = []
    | .creating old recurrence completed =>
      completed = if (fails = false ∧ w.rows stamp.id = none) ∧ Creatable old
        then [nextContent old recurrence] else []
    | _ => True
  | .batchUpdateStatus c ids status _ stored =>
    w.calls c = .unused → ∀ id ∈ ids.take stored, completion (some status) (w.rows id) = []

section
variable {Date : Type} {chrono : Chrono Date} {w : TodoWorld} {c : Nat} {stamp : Stamp}
  {old : TodoItem} {recurrence : String}

theorem requestFor_content (text : Option String) :
    (newTodo stamp (requestFor chrono old recurrence text)).content =
      nextContent old recurrence := by
  have htags : (if old.tags = [] then none else some old.tags).getD [] = old.tags := by
    split
    · next h => exact h.symm
    · rfl
  simp [newTodo, requestFor, nextContent, TodoItem.content, htags]

theorem createNextRecurrence_spec (chrono : Chrono Date) (stamp : Stamp) (recurrence : String)
    (h : Creatable old) :
    ∃ todo, createNextRecurrence chrono stamp old recurrence = some (.ok todo) ∧
      todo.content = nextContent old recurrence := by
  obtain ⟨htitle, hscope, hdue⟩ := h
  obtain ⟨text, htext⟩ := Option.isSome_iff_exists.mp hdue
  refine ⟨newTodo stamp (requestFor chrono old recurrence text), ?_, requestFor_content text⟩
  simp [createNextRecurrence, htext, createTodo, requestFor, htitle, hscope]

theorem createNextRecurrence_not (h : ¬ Creatable old) (todo : TodoItem) :
    createNextRecurrence chrono stamp old recurrence ≠ some (.ok todo) := by
  intro hok
  obtain ⟨text, htext, hcreate⟩ := Option.map_eq_some_iff.mp hok
  apply h
  unfold createTodo at hcreate
  split_ifs at hcreate with htitle hscope
  exact ⟨by simpa [requestFor] using htitle, by simpa [requestFor] using hscope, by simp [htext]⟩

theorem fair_update (h : ExactlyOnce w) {call : Call} :
    (∀ c', (Function.update w.calls c call c').Fair) ↔ call.Fair := by
  constructor
  · intro h'
    simpa using h' c
  intro hcall c'
  by_cases hc : c' = c
  · rw [hc, update_self]
    exact hcall
  · rw [update_of_ne hc]
    exact h c'

theorem batchRows_completed (status : TodoStatus) (now : String) (ids : List String)
    (rows : String → Option TodoItem) :
    (batchRows status now ids rows).2 = [] ↔
      ∀ id ∈ ids, completion (some status) (rows id) = [] := by
  induction ids generalizing rows with
  | nil => simp [batchRows]
  | cons id ids ih =>
    rw [batchRows, List.append_eq_nil_iff, ih, List.forall_mem_cons]
    refine and_congr_right fun hid => forall₂_congr fun id' _ => ?_
    by_cases h : id' = id
    · subst h
      rw [update_self]
      refine iff_of_true ?_ hid
      cases rows id' with
      | none => rfl
      | some row =>
        have hdone : recurs (some status) { row with status, updatedAt := now } = none := by
          unfold recurs
          exact if_neg fun h => h.2 (Option.some.inj h.1)
        simp [completion, hdone]
    · rw [update_of_ne h]

theorem fair_updating {id : String} {req : UpdateTodoRequest} {fails : Bool} :
    (advanceCall chrono w.rows stamp fails (.updating id req old)).2.Fair ↔
      (fails = false → req ≠ {} → recurs req.status old = none →
        completion req.status (w.rows id) = []) := by
  by_cases hstop : fails ∨ req = {}
  · simp only [advanceCall, if_pos hstop]
    refine iff_of_true rfl fun hf hreq => ?_
    rcases hstop with h | h
    · rw [hf] at h
      cases h
    · exact absurd h hreq
  simp only [advanceCall, if_neg hstop]
  rw [not_or] at hstop
  cases w.rows id with
  | none => exact iff_of_true rfl fun _ _ _ => rfl
  | some row =>
    cases recurs req.status old with
    | some => simp [Call.Fair]
    | none =>
      show [] = completion req.status (some row) ↔ _
      exact ⟨fun h _ _ _ => h.symm, fun h => (h (by simpa using hstop.1) hstop.2 rfl).symm⟩

theorem fair_creating {completed : List Content} {fails : Bool} :
    (advanceCall chrono w.rows stamp fails (.creating old recurrence completed)).2.Fair ↔
      completed = if (fails = false ∧ w.rows stamp.id = none) ∧ Creatable old
        then [nextContent old recurrence] else [] := by
  by_cases hstop : fails ∨ (w.rows stamp.id).isSome
  · simp only [advanceCall, if_pos hstop]
    rw [if_neg]
    · exact eq_comm
    · rintro ⟨⟨hf, hrow⟩, -⟩
      simp [hf, hrow] at hstop
  have hgo : fails = false ∧ w.rows stamp.id = none := by simpa using hstop
  by_cases hcr : Creatable old
  · obtain ⟨todo, htodo, hcontent⟩ := createNextRecurrence_spec chrono stamp recurrence hcr
    simp only [advanceCall, if_neg hstop, htodo]
    rw [if_pos ⟨hgo, hcr⟩, ← hcontent]
    exact eq_comm
  rw [if_neg fun h => hcr h.2]
  simp only [advanceCall, if_neg hstop]
  split
  · next todo h => exact absurd h (createNextRecurrence_not hcr todo)
  · exact eq_comm

theorem exactlyOnce_step (w : TodoWorld) (a : TodoAction) (h : ExactlyOnce w) :
    ExactlyOnce (step chrono w a) ↔ Unshared w a := by
  cases a with
  | updateTodo =>
    refine iff_of_true ?_ trivial
    simp only [step]
    split
    · exact h
    · split
      · exact (fair_update h).mpr rfl
      · exact (fair_update h).mpr trivial
  | advance c =>
    show (∀ c', (update w.calls c _ c').Fair) ↔ _
    rw [fair_update h]
    dsimp only [Unshared]
    cases hc : w.calls c with
    | unused => exact iff_of_true trivial trivial
    | reading =>
      refine iff_of_true ?_ trivial
      simp only [advanceCall]
      split
      · trivial
      · rfl
    | updating => exact fair_updating
    | creating => exact fair_creating
    | ended =>
      have hfair := h c
      rw [hc] at hfair
      exact iff_of_true hfair trivial
  | batchUpdateStatus c ids status now =>
    by_cases hc : w.calls c = .unused
    · simp only [step, Unshared, hc, ne_eq, not_true_eq_false, if_false, forall_const]
      rw [← batchRows_completed status now]
      show (∀ c', (update w.calls c _ c').Fair) ↔ _
      rw [fair_update h]
      exact eq_comm
    · simp only [step, Unshared, if_pos hc]
      exact iff_of_true h fun h' => absurd h' hc

def dailyTodo : TodoItem :=
  ⟨"a", "water the plants", "", .todo, .medium, .global, none, [], none, false, none, none,
    some "daily", "", 1, "", ""⟩

def noChrono : Chrono Unit :=
  ⟨fun _ => none, fun _ => "", fun date _ => date, fun _ => none, fun _ => 0, fun _ => none,
    fun _ => ""⟩

end
end CcPanes.Todos

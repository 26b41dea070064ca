import CcPanes.Spec.TaskLines
import Mathlib.Data.List.Infix
import Mathlib.Data.List.Nodup

/-!
# The tasks of a spec and the subtasks of its todo

`sync_tasks_inner` of `spec_service.rs`, on a file that is read and a todo that is there.  What is
ticked in the file goes to the subtasks, then the section is written anew from them.
-/

namespace CcPanes.Spec
open List

/-! ## reading the section -/

def trimStart (line : String) : String := String.ofList (line.toList.dropWhile isWhitespace)

/-- `strip_prefix` -/
def stripPrefix (start line : String) : Option String :=
  if startsWith line start then some (String.ofList (line.toList.drop start.toList.length)) else none

def parseBox (line : String) : Option (Bool × String) :=
  let trimmed := trimStart line
  match stripPrefix "- [x] " trimmed with
  | some rest => some (true, rest)
  | none =>
    match stripPrefix "- [X] " trimmed with
    | some rest => some (true, rest)
    | none => (stripPrefix "- [ ] " trimmed).map fun rest => (false, rest)

/-- from the heading of the tasks to the next heading -/
def extractTasksSection (content : String) : Option String :=
  let ls := lines content
  (ls.findIdx? (startsWith · "## Tasks")).map fun start =>
    joinLines ((ls.drop (start + 1)).takeWhile fun line => !startsWith line "## ")

def stripFencesFrom : Bool → List String → String
  | _, [] => ""
  | inFence, line :: ls =>
    if startsWith (trimStart line) "```" then stripFencesFrom (!inFence) ls
    else if inFence then stripFencesFrom inFence ls
    else line ++ "\n" ++ stripFencesFrom inFence ls

def stripCodeFences (text : String) : String := stripFencesFrom false (lines text)

def parseTasksSection (content : String) : List (Bool × String) :=
  match extractTasksSection content with
  | none => []
  | some tasksContent => (lines (stripCodeFences tasksContent)).filterMap parseBox

/-- `rfind(" (")` -/
def rfindOpen (text : List Char) : Option Nat :=
  ((List.range text.length).filter fun i => [' ', '('].isPrefixOf (text.drop i)).getLast?

def isPriority (inner : List Char) : Bool :=
  (inner.tails.any fun rest => "优先级".toList.isPrefixOf rest) ||
    inner = "high".toList || inner = "medium".toList || inner = "low".toList

def stripPrioritySuffix (title : String) : String :=
  let title := trim title
  match rfindOpen title.toList with
  | none => title
  | some idx =>
    let suffix := title.toList.drop idx
    if suffix.getLast? = some ')' && isPriority (suffix.drop 2).dropLast then
      String.ofList (title.toList.take idx)
    else title

structure SubtaskRow extends TodoSubtask where
  id : String

/-- `update_subtask(id, None, Some(completed))` -/
def updateSubtask (rows : List SubtaskRow) (id : String) (completed : Bool) : List SubtaskRow :=
  rows.map fun r => if r.id = id then { r with completed := completed } else r

/-- a ticked box completes the subtasks of its title, `subtasks` being as the todo was read -/
def recoverTick (subtasks : List SubtaskRow) (rows : List SubtaskRow) (box : Bool × String) :
    List SubtaskRow :=
  if box.1 then
    subtasks.foldl (fun rows subtask =>
      if stripPrioritySuffix subtask.title = stripPrioritySuffix box.2 && !subtask.completed then
        updateSubtask rows subtask.id true
      else rows) rows
  else rows

def recoverTicks (subtasks : List SubtaskRow) (boxes : List (Bool × String)) : List SubtaskRow :=
  boxes.foldl (recoverTick subtasks) subtasks

/-- the file and the todo -/
@[ext] structure TaskState where
  content : String
  subtasks : List SubtaskRow

def syncTasks (s : TaskState) : TaskState :=
  let subtasks := recoverTicks s.subtasks (parseTasksSection s.content)
  { content := replaceTasksSection s.content
      (renderTasksSection (subtasks.map SubtaskRow.toTodoSubtask))
    subtasks := subtasks }

/-! ## what it is for -/

/-- a file with a section, and subtasks as the todo service keeps them -/
structure SpecTasks extends TaskState where
  heading : (lines content).any (startsWith · "## Tasks") = true
  ids : (subtasks.map SubtaskRow.id).Nodup
  titles : ∀ r ∈ subtasks, trim r.title = r.title ∧ r.title ≠ ""

/-- the lines up to the heading of the tasks, and from the next heading on -/
def outsideLines (content : String) : List String × List String :=
  let ls := lines content
  let start := ls.findIdx (startsWith · "## Tasks")
  (ls.take (start + 1), (ls.drop (start + 1)).dropWhile fun line => !startsWith line "## ")

def SubtaskRow.box (r : SubtaskRow) : Bool × String := (r.completed, r.title)

def SubtaskRow.complete (r : SubtaskRow) : SubtaskRow := { r with completed := true }

/-- the box at this place has been ticked, and nothing else was changed -/
structure Ticked (content content' : String) (i : Nat) : Prop where
  edit : ∃ before behind, content = before ++ "- [ ] " ++ behind ∧
    content' = before ++ "- [x] " ++ behind
  box : ∃ title, (parseTasksSection content)[i]? = some (false, title) ∧
    parseTasksSection content' = (parseTasksSection content).set i (true, title)

/-- of one sync, and of the next one after it -/
structure Converges (s : TaskState) : Prop where
  parsed : parseTasksSection (syncTasks s).content = (syncTasks s).subtasks.map SubtaskRow.box
  outside : outsideLines (syncTasks s).content = outsideLines s.content
  fixed : syncTasks (syncTasks s) = syncTasks s
  ticked : ∀ i content', Ticked (syncTasks s).content content' i →
    (syncTasks ⟨content', (syncTasks s).subtasks⟩).subtasks =
      (syncTasks s).subtasks.modify i SubtaskRow.complete
  reopened : ∀ r ∈ (syncTasks s).subtasks, r.completed = true →
    ∀ r' ∈ (syncTasks ⟨(syncTasks s).content,
      updateSubtask (syncTasks s).subtasks r.id false⟩).subtasks,
      r'.id = r.id → r'.completed = false

/-- when it does -/
structure Plain (s : TaskState) : Prop where
  oneLine : ∀ r ∈ s.subtasks, '\n' ∉ r.title.toList
  before : ∀ line ∈ (outsideLines s.content).1, ¬EndsInCr line
  behind : ∀ line ∈ (outsideLines s.content).2.dropLast, ¬EndsInCr line
  last : (outsideLines s.content).2.getLast? ≠ some ""
  pending : ∀ r ∈ s.subtasks, r.completed = false ∧ ∀ box ∈ parseTasksSection s.content,
    box.1 = true → stripPrioritySuffix r.title ≠ stripPrioritySuffix box.2
  distinct : (s.subtasks.map fun r => stripPrioritySuffix r.title).Nodup

/-! ## what is completed -/

def ticks (boxes : List (Bool × String)) (title : String) : Bool :=
  boxes.any fun box => box.1 && stripPrioritySuffix title = stripPrioritySuffix box.2

def SubtaskRow.tick (r : SubtaskRow) (boxes : List (Bool × String)) : SubtaskRow :=
  if ticks boxes r.title then r.complete else r

@[simp] theorem tick_id (r : SubtaskRow) (boxes : List (Bool × String)) :
    (r.tick boxes).id = r.id := by
  unfold SubtaskRow.tick
  split <;> rfl

@[simp] theorem tick_title (r : SubtaskRow) (boxes : List (Bool × String)) :
    (r.tick boxes).title = r.title := by
  unfold SubtaskRow.tick
  split <;> rfl

theorem complete_of_completed {r : SubtaskRow} (h : r.completed = true) : r.complete = r := by
  obtain ⟨⟨title, completed⟩, id⟩ := r
  obtain rfl : completed = true := h
  rfl

theorem tick_completed (r : SubtaskRow) (boxes : List (Bool × String)) :
    (r.tick boxes).completed = (r.completed || ticks boxes r.title) := by
  unfold SubtaskRow.tick
  cases ticks boxes r.title with
  | true => exact (Bool.or_true _).symm
  | false => exact (Bool.or_false _).symm

theorem foldl_updateSubtask (p : SubtaskRow → Bool) (part rows : List SubtaskRow) :
    part.foldl (fun rows subtask => if p subtask then updateSubtask rows subtask.id true else rows)
        rows =
      rows.map fun r => if part.any fun t => t.id = r.id && p t then r.complete else r := by
  induction part generalizing rows with
  | nil => exact (map_id'' (fun _ => rfl) rows).symm
  | cons t part ih =>
    rw [foldl_cons, ih]
    by_cases hp : p t = true
    · rw [if_pos hp, updateSubtask, map_map]
      refine map_congr_left fun r _ => ?_
      rw [Function.comp_apply, any_cons, hp, Bool.and_true]
      by_cases hid : t.id = r.id
      · rw [if_pos hid.symm, decide_eq_true hid, Bool.true_or, if_pos rfl]
        split <;> rfl
      · rw [if_neg (Ne.symm hid), decide_eq_false hid, Bool.false_or]
    · rw [if_neg hp]
      refine map_congr_left fun r _ => ?_
      rw [any_cons, eq_false_of_ne_true hp, Bool.and_false, Bool.false_or]

theorem any_row {subtasks : List SubtaskRow} (hids : (subtasks.map SubtaskRow.id).Nodup)
    {r : SubtaskRow} (hr : r ∈ subtasks) (p : SubtaskRow → Bool) :
    (subtasks.any fun t => t.id = r.id && p t) = p r := by
  rw [Bool.eq_iff_iff, any_eq_true]
  constructor
  · rintro ⟨t, ht, hp⟩
    rw [Bool.and_eq_true, decide_eq_true_iff] at hp
    rw [inj_on_of_nodup_map hids ht hr hp.1] at hp
    exact hp.2
  · exact fun hp => ⟨r, hr, by rw [decide_eq_true rfl, hp, Bool.true_and]⟩

theorem recoverTick_map {subtasks : List SubtaskRow} (hids : (subtasks.map SubtaskRow.id).Nodup)
    (done : List (Bool × String)) (box : Bool × String) :
    recoverTick subtasks (subtasks.map fun r => r.tick done) box =
      subtasks.map fun r => r.tick (done ++ [box]) := by
  have htick : ∀ r : SubtaskRow, ticks (done ++ [box]) r.title =
      (ticks done r.title ||
        (box.1 && stripPrioritySuffix r.title = stripPrioritySuffix box.2)) := by
    intro r
    rw [ticks, any_append, any_cons, any_nil, Bool.or_false]
    rfl
  unfold recoverTick
  cases hbox : box.1 with
  | false =>
    rw [if_neg Bool.false_ne_true]
    refine map_congr_left fun r _ => ?_
    rw [SubtaskRow.tick, SubtaskRow.tick, htick, hbox, Bool.false_and, Bool.or_false]
  | true =>
    rw [if_pos rfl, foldl_updateSubtask, map_map]
    refine map_congr_left fun r hr => ?_
    rw [Function.comp_apply, tick_id, any_row hids hr]
    rw [SubtaskRow.tick, SubtaskRow.tick, htick, hbox, Bool.true_and]
    cases hcompleted : r.completed with
    | true =>
      rw [complete_of_completed hcompleted]
      simp
    | false =>
      by_cases hclean : stripPrioritySuffix r.title = stripPrioritySuffix box.2
      · rw [decide_eq_true hclean, Bool.or_true, if_pos rfl, Bool.not_false, Bool.and_true,
          if_pos rfl]
        split <;> rfl
      · rw [decide_eq_false hclean, Bool.or_false, Bool.false_and, if_neg Bool.false_ne_true]

theorem recoverTicks_eq {subtasks : List SubtaskRow}
    (hids : (subtasks.map SubtaskRow.id).Nodup) (boxes : List (Bool × String)) :
    recoverTicks subtasks boxes = subtasks.map fun r => r.tick boxes := by
  have hrun : ∀ (rest done : List (Bool × String)),
      rest.foldl (recoverTick subtasks) (subtasks.map fun r => r.tick done) =
        subtasks.map fun r => r.tick (done ++ rest) := by
    intro rest
    induction rest with
    | nil =>
      intro done
      rw [append_nil]
      rfl
    | cons box rest ih =>
      intro done
      rw [foldl_cons, recoverTick_map hids, ih, append_assoc]
      rfl
  have hstart : (subtasks.map fun r => r.tick []) = subtasks := map_id'' (fun _ => rfl) subtasks
  have hall := hrun boxes []
  rw [hstart, nil_append] at hall
  exact hall

theorem syncTasks_subtasks {s : TaskState} (hids : (s.subtasks.map SubtaskRow.id).Nodup) :
    (syncTasks s).subtasks = s.subtasks.map fun r => r.tick (parseTasksSection s.content) :=
  recoverTicks_eq hids _

end CcPanes.Spec

import CcPanes.TaskQueue.Models

/-!
# The text of a spec file

The functions of `spec_service.rs` that make names and contents: `title_to_filename`,
`render_template`, `replace_tasks_section` and `append_to_log_section`.

The Unicode tables (`to_lowercase`, `is_alphanumeric`) are a parameter.
-/

namespace CcPanes.Spec

structure UnicodeTables where
  toLowercase : String → String
  isAlphanumeric : Char → Bool

structure TodoSubtask where
  title : String
  completed : Bool

/-! ## lines -/

/-- `str::lines`, with the characters of the current line in reverse -/
def linesFrom : List Char → List Char → List String
  | line, [] => if line.isEmpty then [] else [String.ofList line.reverse]
  | line, c :: cs =>
    if c = '\n' then
      let line := match line with
        | '\r' :: line => line
        | line => line
      String.ofList line.reverse :: linesFrom [] cs
    else linesFrom (c :: line) cs

def lines (text : String) : List String := linesFrom [] text.toList

def joinLines (lines : List String) : String := String.intercalate "\n" lines

/-- `starts_with` -/
def startsWith (text start : String) : Bool := start.toList.isPrefixOf text.toList

/-- the parts between the characters `sep` -/
def splitOn (sep : Char) : List Char → List Char → List (List Char)
  | part, [] => [part.reverse]
  | part, c :: cs =>
    if c = sep then part.reverse :: splitOn sep [] cs else splitOn sep (c :: part) cs

def titleToFilename (tables : UnicodeTables) (title : String) : String :=
  let slug := (tables.toLowercase title).toList.map fun c =>
    if tables.isAlphanumeric c then c else '-'
  let parts := (splitOn '-' [] slug).filter fun part => !part.isEmpty
  String.intercalate "-" (parts.map String.ofList) ++ ".spec.md"

/-! ## contents -/

def tasksComment : String := "<!-- 此段由 CC-Panes 自动同步，请在 Todo 面板中编辑 -->"

def renderTemplate (title createdAt : String) : String :=
  let date := if createdAt.utf8ByteSize ≥ 10 then String.ofList (createdAt.toList.take 10)
    else createdAt
  joinLines ["# Spec: " ++ title, "> Status: draft | Created: " ++ date, "", "## Proposal",
    "变更动机和目标。", "", "## Design", "技术方案。", "", "### Affected Files",
    "- `src/xxx.ts` [ADDED]", "- `src/yyy.ts` [MODIFIED]", "",
    "## Tasks (auto-synced from CC-Panes)", tasksComment, "", "## Log", ""]

def renderTasksSection (subtasks : List TodoSubtask) : String :=
  joinLines (subtasks.map fun s => "- [" ++ (if s.completed then "x" else " ") ++ "] " ++ s.title)

def replaceTasksSection (content newTasks : String) : String :=
  let ls := lines content
  match ls.findIdx? (startsWith · "## Tasks") with
  | none => content
  | some start =>
    let rest := ls.drop (start + 1)
    joinLines (ls.take (start + 1) ++ [tasksComment] ++
      (if newTasks.isEmpty then [] else [newTasks]) ++ [""] ++
      rest.dropWhile fun line => !startsWith line "## ")

/-- the place of the last entry of the day; the state is `(found_today, insert_after)` -/
def insertAfter (logStart : Nat) (dateHeader : String) : List (String × Nat) → Bool × Nat → Nat
  | [], (_, at_) => at_
  | (line, i) :: ls, (foundToday, at_) =>
    if !foundToday && i > logStart && trim line = trim dateHeader then
      insertAfter logStart dateHeader ls (true, i)
    else if foundToday then
      if startsWith (trim line) "- " then insertAfter logStart dateHeader ls (true, i)
      else if startsWith (trim line) "### " then at_
      else insertAfter logStart dateHeader ls (true, at_)
    else insertAfter logStart dateHeader ls (foundToday, at_)

def lastLog (ls : List String) : Option Nat :=
  ((ls.zipIdx.filter fun e => startsWith e.1 "## Log").getLast?).map (·.2)

def appendToLogSection (content date logEntry : String) : String :=
  let ls := lines content
  let dateHeader := "### " ++ date
  let entry := "- " ++ logEntry
  match lastLog ls with
  | none => joinLines (ls ++ ["## Log", dateHeader, entry])
  | some logStart =>
    if (ls.drop logStart).any fun line => trim line = trim dateHeader then
      let at_ := insertAfter logStart dateHeader ls.zipIdx (false, 0)
      joinLines (ls.take (at_ + 1) ++ [entry] ++ ls.drop (at_ + 1))
    else joinLines (ls ++ [dateHeader, entry])

end CcPanes.Spec

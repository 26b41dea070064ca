import CcPanes.Foundation.CaseFolding
import CcPanes.Foundation.FileCalls

/-!
# The file operations

`filesystem_service.rs`, as it is built for systems other than Windows: there `validate_system_path`
and `simplify_path` do nothing.  A path comes as a text.  Some operations look up the whole path,
others only the directory above it.
-/

namespace CcPanes.Files
open FileTree CaseFolding

def component (segment : List Char) : Component :=
  if segment = ['.'] then .curDir
  else if segment = ['.', '.'] then .parentDir
  else .normal (String.ofList segment)

/-- `.` counts at the front of a relative path only -/
def normalized (absolute : Bool) : List Component → List Component
  | .curDir :: rest =>
    if absolute then rest.filter (· ≠ .curDir) else .curDir :: rest.filter (· ≠ .curDir)
  | components => components.filter (· ≠ .curDir)

def pathBufFrom (path : String) : Path :=
  let segments := path.toList.splitOn '/'
  let components := (segments.filter (· ≠ [])).map component
  let absolute := path.toList.head? = some '/'
  { absolute
    components := normalized absolute components
    ending :=
      if components.getLast? = some .curDir then .dot
      else if segments.getLast? = some [] then .slash
      else .plain }

def fileName (path : Path) : Option String :=
  match path.components.getLast? with
  | some (.normal name) => some name
  | _ => none

def normalNames (path : Path) : List String :=
  path.components.filterMap fun
    | .normal name => some name
    | _ => none

/-! ## checks -/

inductive FsError where
  | message (text : String)
  /-- `Path contains illegal '..' component: {path}` -/
  | illegalParentDir (path : Path)
  /-- `Invalid path '{path}': {e}` -/
  | invalidPath (path : Path) (e : Errno)
  /-- `Invalid path '{path}': missing file name` -/
  | missingFileName (path : Path)
  /-- `'{name}' already exists` -/
  | alreadyExists (name : Path)
  /-- `Destination '{path}' is not a directory` -/
  | notADirectory (path : Path)
  | io (e : Errno)
  /-- the code `TRASH_FAILED` -/
  | trashFailed (detail : String) (path : String)
deriving DecidableEq

abbrev Result := Tree × Except FsError Unit

/-- `fs::…(…)?` at the end of an operation -/
def ofOutcome : Outcome → Result
  | (t, .ok ()) => (t, .ok ())
  | (t, .error e) => (t, .error (.io e))

/-- what the operations run on -/
structure Host where
  tables : CaseTables
  cwd : Loc
  /-- a rename that the system refuses -/
  refuses : Loc → Loc → Bool
  /-- the longest path, in components -/
  pathMax : Nat
  /-- `trash::delete`: the tree afterwards, and the detail of an error -/
  trash : Tree → Loc → Tree × Option String

def maxWriteSize : Nat := 10 * 1024 * 1024

def readonlyPrefixes : List (List Char) := ["node_modules".toList, ".git".toList]

def isReadonlyPath (tables : CaseTables) (names : List String) : Bool :=
  names.any fun name => readonlyPrefixes.contains (lowerCase tables name.toList)

def validateFilename (name : String) : Except FsError Unit :=
  if name = "" then .error (.message "File name cannot be empty")
  else if name = "." ∨ name = ".." then .error (.message "Invalid file name")
  else if name.toList.contains '/' ∨ name.toList.contains '\x00' then
    .error (.message "File name contains invalid characters")
  else .ok ()

def validatePathSyntax (path : Path) : Except FsError Unit :=
  if path.isEmpty then .error (.message "Path cannot be empty")
  else if path.components.contains .parentDir then .error (.illegalParentDir path)
  else .ok ()

def copyEntries (copyChild : Tree → String → Outcome) : Tree → List String → Outcome
  | t, [] => (t, .ok ())
  | t, name :: names =>
    match copyChild t name with
    | (t', .error e) => (t', .error e)
    | (t', .ok ()) => copyEntries copyChild t' names

/-- `depth` is how much longer the path may get -/
def copyDirRecursive (cwd : Loc) : (depth : Nat) → Tree → Loc → Loc → Outcome
  | 0, t, _, _ => (t, .error .nameTooLong)
  | depth + 1, t, src, dest =>
    match t.createDirAll cwd (.ofLoc dest) with
    | (t', .error e) => (t', .error e)
    | (t', .ok ()) =>
      copyEntries
        (fun t name =>
          match t.entry (src ++ [name]) with
          | none => (t, .error .notFound)
          | some .dir => copyDirRecursive cwd depth t (src ++ [name]) (dest ++ [name])
          | some _ =>
            t.outcome (t.copy cwd (.ofLoc (src ++ [name])) (.ofLoc (dest ++ [name]))))
        t' (t'.readDir src)

namespace Host

variable (host : Host) (t : Tree)

def validatePath (path : Path) : Except FsError Loc := do
  validatePathSyntax path
  match t.canonicalize host.cwd path with
  | .ok loc => .ok loc
  | .error e => .error (.invalidPath path e)

/-- the directory above the last component; for a single name that is `.` -/
def parentOrCurDir (path : Path) : Path :=
  match path.parent with
  | some parent => if parent.isEmpty then ⟨false, [.curDir], .plain⟩ else parent
  | none => ⟨false, [.curDir], .plain⟩

def validateDeletePath (path : Path) : Except FsError Loc := do
  validatePathSyntax path
  match fileName path with
  | none => .error (.missingFileName path)
  | some name =>
    match t.canonicalize host.cwd (parentOrCurDir path) with
    | .ok canonicalParent => .ok (canonicalParent ++ [name])
    | .error e => .error (.invalidPath path e)

/-! ## operations -/

def writeFile (path content : String) : Result :=
  match host.validatePath t (pathBufFrom path) with
  | .error e => (t, .error e)
  | .ok filePath =>
    if isReadonlyPath host.tables filePath then
      (t, .error (.message "Cannot write to read-only path"))
    else if content.utf8ByteSize > maxWriteSize then (t, .error (.message "Content too large"))
    else ofOutcome (t.outcome (t.write host.cwd (.ofLoc filePath) content))

/-- what `create_file` and `create_directory` check -/
def checkCreate (path : Path) (readonlyText : String) : Except FsError Unit := do
  match fileName path with
  | some name => validateFilename name
  | none => .ok ()
  if isReadonlyPath host.tables (normalNames path) then .error (.message readonlyText)
  else if t.pathExists host.cwd path then .error (.alreadyExists path)
  else
    match path.parent with
    | some parent => (host.validatePath t parent).map fun _ => ()
    | none => .ok ()

def createFile (path : String) : Result :=
  match host.checkCreate t (pathBufFrom path) "Cannot create file in read-only path" with
  | .error e => (t, .error e)
  | .ok () => ofOutcome (t.outcome (t.write host.cwd (pathBufFrom path) ""))

def createDirectory (path : String) : Result :=
  match host.checkCreate t (pathBufFrom path) "Cannot create directory in read-only path" with
  | .error e => (t, .error e)
  | .ok () => ofOutcome (t.createDirAll host.cwd (pathBufFrom path))

def deleteEntry (path : String) (permanent : Bool) : Result :=
  match host.validateDeletePath t (pathBufFrom path) with
  | .error e => (t, .error e)
  | .ok entryPath =>
    if isReadonlyPath host.tables entryPath then
      (t, .error (.message "Cannot delete read-only path"))
    else if permanent then
      match t.symlinkMetadata host.cwd (.ofLoc entryPath) with
      | .error e => (t, .error (.io e))
      | .ok .dir => ofOutcome (t.outcome (t.removeDirAll host.cwd (.ofLoc entryPath)))
      | .ok _ => ofOutcome (t.outcome (t.removeFile host.cwd (.ofLoc entryPath)))
    else
      match host.trash t entryPath with
      | (t', none) => (t', .ok ())
      | (t', some detail) => (t', .error (.trashFailed detail path))

def renameEntry (oldPath newName : String) : Result :=
  match validateFilename newName with
  | .error e => (t, .error e)
  | .ok () =>
    match host.validatePath t (pathBufFrom oldPath) with
    | .error e => (t, .error e)
    | .ok source =>
      if isReadonlyPath host.tables source then
        (t, .error (.message "Cannot rename read-only path"))
      else if source = [] then (t, .error (.message "Cannot determine parent directory"))
      else
        let newPath := Path.ofLoc (source.dropLast ++ [newName])
        if t.pathExists host.cwd newPath then (t, .error (.alreadyExists newPath))
        else ofOutcome (t.outcome (t.rename host.cwd host.refuses (.ofLoc source) newPath))

def copyEntry (src destDir : String) : Result :=
  match host.validatePath t (pathBufFrom src) with
  | .error e => (t, .error e)
  | .ok source =>
    match host.validatePath t (pathBufFrom destDir) with
    | .error e => (t, .error e)
    | .ok destParent =>
      if t.entry destParent ≠ some .dir then (t, .error (.notADirectory (pathBufFrom destDir)))
      else if t.entry source = some .dir ∧ source <+: destParent then
        (t, .error (.message "Cannot copy a directory into itself"))
      else
        match source.getLast? with
        | none => (t, .error (.message "Cannot determine source name"))
        | some name =>
          let dest := destParent ++ [name]
          if t.pathExists host.cwd (.ofLoc dest) then (t, .error (.alreadyExists (.ofLoc [name])))
          else if t.entry source = some .dir then
            ofOutcome (copyDirRecursive host.cwd host.pathMax t source dest)
          else ofOutcome (t.outcome (t.copy host.cwd (.ofLoc source) (.ofLoc dest)))

/-- what `move_entry` does when the system has refused to rename -/
def moveByCopy (source dest : Loc) : Entry → Result
  | .link _ => (t, .error (.message "Cannot move a symbolic link across filesystems"))
  | .dir =>
    match copyDirRecursive host.cwd host.pathMax t source dest with
    | (t', .error e) => (t', .error (.io e))
    | (t', .ok ()) => ofOutcome (t'.outcome (t'.removeDirAll host.cwd (.ofLoc source)))
  | .file _ =>
    match t.copy host.cwd (.ofLoc source) (.ofLoc dest) with
    | .error e => (t, .error (.io e))
    | .ok t' => ofOutcome (t'.outcome (t'.removeFile host.cwd (.ofLoc source)))

def moveEntry (src destDir : String) : Result :=
  match host.validateDeletePath t (pathBufFrom src) with
  | .error e => (t, .error e)
  | .ok source =>
    if isReadonlyPath host.tables source then (t, .error (.message "Cannot move read-only path"))
    else
      match host.validatePath t (pathBufFrom destDir) with
      | .error e => (t, .error e)
      | .ok destParent =>
        if t.entry destParent ≠ some .dir then (t, .error (.notADirectory (pathBufFrom destDir)))
        else
          match source.getLast? with
          | none => (t, .error (.message "Cannot determine source name"))
          | some name =>
            let dest := destParent ++ [name]
            if t.pathExists host.cwd (.ofLoc dest) then (t, .error (.alreadyExists (.ofLoc [name])))
            else
              match t.symlinkMetadata host.cwd (.ofLoc source) with
              | .error e => (t, .error (.io e))
              | .ok sourceMeta =>
                match t.rename host.cwd host.refuses (.ofLoc source) (.ofLoc dest) with
                | .ok t' => (t', .ok ())
                | .error _ => host.moveByCopy t source dest sourceMeta

end Host

inductive FileOp where
  | writeFile (path content : String)
  | createFile (path : String)
  | createDirectory (path : String)
  | deleteEntry (path : String) (permanent : Bool)
  | renameEntry (oldPath newName : String)
  | copyEntry (src destDir : String)
  | moveEntry (src destDir : String)

def Host.perform (host : Host) (t : Tree) : FileOp → Result
  | .writeFile path content => host.writeFile t path content
  | .createFile path => host.createFile t path
  | .createDirectory path => host.createDirectory t path
  | .deleteEntry path permanent => host.deleteEntry t path permanent
  | .renameEntry oldPath newName => host.renameEntry t oldPath newName
  | .copyEntry src destDir => host.copyEntry t src destDir
  | .moveEntry src destDir => host.moveEntry t src destDir

end CcPanes.Files

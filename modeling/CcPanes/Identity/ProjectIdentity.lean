import Mathlib

/-!
# Project paths: normal forms on one host, and identity across hosts

`normalize_project_path` of `path_normalize.rs`.  A path is the list of its characters.

The library function `dunce::simplified` is a parameter: it is the identity, or takes the verbatim
prefix off a drive path (`Dunce`), and what it does makes no difference (`strip_simplified`).
-/

namespace CcPanes.Identity

abbrev Path := List Char

instance : LawfulBEq Path := inferInstance

def isSeparator (c : Char) : Bool := c = '/' || c = '\\'

/-- `replace('\\', "/")` -/
def toSlashes (path : Path) : Path := path.map fun c => if c = '\\' then '/' else c

/-- `replace('/', "\\")` -/
def toBackslashes (path : Path) : Path := path.map fun c => if c = '/' then '\\' else c

def isDrivePath : Path → Bool
  | drive :: ':' :: _ => drive.isAlpha
  | _ => false

/-- `strip_prefix` -/
def after (start value : Path) : Option Path :=
  if start.isPrefixOf value then some (value.drop start.length) else none

def verbatim : Path := ['\\', '\\', '?', '\\']
def slashVerbatim : Path := ['/', '/', '?', '/']

def stripVerbatimDiskPrefix (value : Path) : Path :=
  match (after verbatim value).or (after slashVerbatim value) with
  | some rest => if isDrivePath rest then rest else value
  | none => value

/-- `trim_start_matches("//")` -/
def trimStartPairs : Path → Path
  | '/' :: '/' :: cs => trimStartPairs cs
  | cs => cs

/-- `trim_end_matches('/')` -/
def trimEndSlashes (path : Path) : Path := path.rdropWhile fun c => c = '/'

/-- `trim_start_matches('/')` -/
def trimStartSlashes (path : Path) : Path := path.dropWhile fun c => c = '/'

def isShareRoot (value : Path) : Bool :=
  let normalized := toSlashes value
  if !(['/', '/'].isPrefixOf normalized) || slashVerbatim.isPrefixOf normalized then false
  else ((trimStartPairs (trimEndSlashes normalized)).splitOn '/').length = 2

/-- the shortest prefix that keeps its separators -/
def minLen (value : Path) : Nat :=
  if value.head?.any isSeparator then 1
  else if isDrivePath value && value[2]?.any isSeparator then 3
  else 0

/-- `pop` while the path, here in reverse, is longer and ends in a separator -/
def popFrom (minLen : Nat) : Path → Path
  | [] => []
  | c :: cs => if minLen < cs.length + 1 ∧ isSeparator c then popFrom minLen cs else c :: cs

def trimTrailingSeparators (value : Path) : Path :=
  if value = [] ∨ isShareRoot value then value
  else (popFrom (minLen value) value.reverse).reverse

def upperDrive (value : Path) : Path :=
  match value with
  | drive :: rest => if isDrivePath value then drive.toUpper :: rest else value
  | [] => []

structure Dunce where
  simplified : Path → Path
  spec : ∀ path, simplified path = path ∨
    ∃ rest, path = verbatim ++ rest ∧ isDrivePath rest ∧ simplified path = rest

def Dunce.unix : Dunce := ⟨id, fun _ => .inl rfl⟩

def normalizeProjectPath (dunce : Dunce) (path : Path) : Path :=
  trimTrailingSeparators (upperDrive (stripVerbatimDiskPrefix (dunce.simplified path)))

/-! ## project identity across Windows and WSL paths: `project_identity.rs` -/

def toLower (path : Path) : Path := path.map Char.toLower

def isSshUrl (path : Path) : Bool := toLower (path.take 6) = "ssh://".toList

/-- `trim_matches('/')` -/
def trimSlashes (path : Path) : Path := trimEndSlashes (trimStartSlashes path)

def formatDrivePath (drive : Char) (tail : Path) : Path :=
  let tail := trimSlashes tail
  if tail = [] then [drive, ':', '\\'] else drive :: ':' :: '\\' :: toBackslashes tail

def canonicalWindowsDrivePath : Path → Option Path
  | drive :: ':' :: rest =>
    if drive.isAlpha then
      if rest = [] then some [drive.toUpper, ':']
      else if rest.head? ≠ some '/' then none
      else some (formatDrivePath drive.toUpper (trimStartSlashes rest))
    else none
  | _ => none

def canonicalMntDrivePath (path : Path) : Option Path :=
  match after "/mnt/".toList path with
  | some (drive :: rest) =>
    if !drive.isAlpha then none
    else if rest.head?.any (· ≠ '/') then none
    else some (formatDrivePath drive.toUpper (trimStartSlashes rest))
  | _ => none

def wslServers : List Path := ["wsl.localhost".toList, "wsl$".toList, "wsl".toList]

def matchesWslServer (server : Path) : Bool := toLower server ∈ wslServers

def singleDriveLetter : Path → Option Char
  | [c] => if c.isAlpha then some c.toUpper else none
  | _ => none

def join (separator : Char) (parts : List Path) : Path := List.intercalate [separator] parts

/-- the parts of a path below a WSL distribution: a mounted drive and what is below it -/
def mountedDrive : List Path → Option (Char × List Path)
  | mnt :: drive :: tail =>
    if mnt = "mnt".toList then (singleDriveLetter drive).map fun d => (d, tail) else none
  | _ => none

def wslPath (distro : Path) (parts : List Path) : Path :=
  "\\\\wsl.localhost\\".toList ++ distro ++
    if parts = [] then [] else '\\' :: join '\\' parts

def canonicalWslUncPath (path : Path) : Option Path :=
  match (after "//".toList path).map (List.splitOn '/') with
  | some (server :: distro :: parts) =>
    if !matchesWslServer server then none
    else if distro = [] then none
    else
      let remoteParts := parts.filter fun part => part ≠ []
      match mountedDrive remoteParts with
      | some (drive, tail) => some (formatDrivePath drive (join '/' tail))
      | none => some (wslPath distro remoteParts)
  | _ => none

/-- the forms that are recognised, one after the other -/
def recognised (slashPath : Path) : Path :=
  (canonicalWindowsDrivePath slashPath).getD <|
  (canonicalMntDrivePath slashPath).getD <|
  (canonicalWslUncPath slashPath).getD <|
  if ['/', '/'].isPrefixOf slashPath then toBackslashes slashPath else slashPath

def canonicalProjectPath (dunce : Dunce) (path : Path) : Path :=
  if isSshUrl path then path
  else recognised (toSlashes (normalizeProjectPath dunce path))

def projectIdentityKey (dunce : Dunce) (path : Path) : Path :=
  let canonical := canonicalProjectPath dunce path
  if isDrivePath canonical then toLower canonical else canonical

inductive HostPlatform where
  | windows | unix
  deriving DecidableEq

def windowsDriveToMntPath : Path → Option Path
  | drive :: ':' :: rest =>
    if drive.isAlpha then
      let tail := toSlashes (rest.dropWhile isSeparator)
      if tail = [] then some ("/mnt/".toList ++ [drive.toLower])
      else some ("/mnt/".toList ++ drive.toLower :: '/' :: tail)
    else none
  | _ => none

def repairProjectPathForHostWith (dunce : Dunce) (path : Path) (host : HostPlatform)
    (isUsableDirectory : Path → Bool) : Path :=
  if isSshUrl path || isUsableDirectory path then path
  else
    let canonical := canonicalProjectPath dunce path
    let candidate :=
      match host with
      | .windows => some canonical
      | .unix => windowsDriveToMntPath canonical
    (candidate.filter fun candidate => candidate ≠ path && isUsableDirectory candidate).getD path

end CcPanes.Identity

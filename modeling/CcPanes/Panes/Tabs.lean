import CcPanes.Foundation.RoseTree

/-!
# Tabs and their terminals

`types/terminal.ts`, and what `lib/paneTree.ts`, `lib/paneSessions.ts` and
`lib/tabLifecycle/terminalLeafReset.ts` do with one tab.  A terminal tab shows a tree of its own,
with terminals at the leaves; a tab of another kind has no session.  A string that is empty counts
as absent where the source tests it.
-/

namespace CcPanes.Panes
open RoseTree

inductive Direction
  | horizontal
  | vertical
deriving DecidableEq

inductive RestoreMode
  | adopted
  | resumed
  | fresh
  | shell
deriving DecidableEq

inductive RestoreBlockedReason
  | claimsUnsupported
  | reconciliationFailed
  | missingProvenance
  | identityMismatch
  | anchorlessSession
  | attachRejected
  | ambiguousCandidates
  | claimConflict
  | autoAdoptDisabled
deriving DecidableEq

structure LaunchExtras where
  initialPrompt : Option String
  /-- the other keys that are set -/
  others : List (String × String)
deriving DecidableEq

/-- what a terminal was or is to be launched as; the fields that are only copied are left out -/
structure LaunchIdentity where
  resumeId : Option String
  cliTool : Option String
  launchClaude : Bool
deriving DecidableEq

structure TerminalPaneLeaf where
  id : String
  launchId : Option String
  restoreMode : Option RestoreMode
  sessionId : Option String
  savedSessionId : Option String
  restoring : Bool
  disconnected : Bool
  identity : LaunchIdentity
  restoreBlockedReason : Option RestoreBlockedReason
  leaseReadOnly : Bool
  launchExtras : Option LaunchExtras
deriving DecidableEq

structure TerminalPaneSplit where
  id : String
  direction : Direction
  sizes : List Rat
deriving DecidableEq

abbrev TerminalPaneNode : Type := RoseTree TerminalPaneLeaf TerminalPaneSplit

/-- A tab without `terminalRootPane` is of an old form, and its other fields say what a leaf says. -/
structure TerminalTab where
  sessionId : Option String
  savedSessionId : Option String
  restoring : Bool
  disconnected : Bool
  identity : LaunchIdentity
  restoreBlockedReason : Option RestoreBlockedReason
  leaseReadOnly : Bool
  launchExtras : Option LaunchExtras
  terminalRootPane : Option TerminalPaneNode
  activeTerminalPaneId : Option String
deriving DecidableEq

inductive TabContent
  | terminal (t : TerminalTab)
  | browser (browserUrl : Option String)
  | dsh (browserUrl : Option String)
  | agentChat
  | editor (filePath : Option String) (dirty : Bool)
  | fileExplorer
  | mcpConfig
  | skillManager
  | memoryManager
deriving DecidableEq

structure Tab where
  id : String
  pinned : Bool
  projectPath : String
  content : TabContent
deriving DecidableEq

/-! ## terminals -/

def terminalPaneId : TerminalPaneNode → String
  | .leaf l => l.id
  | .node s _ => s.id

def collectTerminalLeaves (node : Option TerminalPaneNode) : List TerminalPaneLeaf :=
  (node.map leaves).getD []

def truthy (s : Option String) : Option String := s.filter (· ≠ "")

def references (sessionId savedSessionId : Option String) : List String :=
  (truthy sessionId).toList ++ (truthy savedSessionId).toList

def TerminalPaneLeaf.references (leaf : TerminalPaneLeaf) : List String :=
  Panes.references leaf.sessionId leaf.savedSessionId

def TerminalTab.references (t : TerminalTab) : List String :=
  match t.terminalRootPane with
  | none => Panes.references t.sessionId t.savedSessionId
  | some root => (leaves root).flatMap TerminalPaneLeaf.references

def collectTerminalSessionIdsWithSaved (tab : Tab) : List String :=
  match tab.content with
  | .terminal t => t.references.eraseDups
  | _ => []

/-! ## relaunch -/

def stripInitialPrompt (extras : Option LaunchExtras) : Option LaunchExtras :=
  extras.bind fun e =>
    match e.initialPrompt with
    | none => some e
    | some _ => if e.others = [] then none else some { e with initialPrompt := none }

def inferCliTool (cliTool : Option String) (claudeHints : List Bool) : String :=
  cliTool.getD (if claudeHints.any id then "claude" else "none")

def resolveRestoreMode (cliTool : String) (resumeId : Option String)
    (hasRestorableSession : Bool) : RestoreMode :=
  if cliTool = "none" then .shell
  else if hasRestorableSession then .resumed
  else if (truthy resumeId).any (· ≠ "new") then .resumed
  else .fresh

/-- what `generateId` returns for an id of another kind than the pane and the tab -/
def terminalPaneIdOf (draw : String) : String := "terminal-pane-" ++ draw
def terminalSplitIdOf (draw : String) : String := "terminal-split-" ++ draw
def launchIdOf (draw : String) : String := "launch-" ++ draw

def resetTerminalLeafForRelaunch (draw : String) (source : TerminalPaneLeaf) :
    TerminalPaneLeaf where
  id := terminalPaneIdOf draw
  launchId := some (launchIdOf draw)
  restoreMode := some (resolveRestoreMode (inferCliTool source.identity.cliTool
      [source.identity.launchClaude, (truthy source.identity.resumeId).isSome])
    source.identity.resumeId false)
  sessionId := none
  savedSessionId := none
  restoring := false
  disconnected := false
  identity := source.identity
  restoreBlockedReason := none
  leaseReadOnly := false
  launchExtras := stripInitialPrompt source.launchExtras

mutual
/-- the tree, and how many ids have been drawn by then -/
def resetTerminalTreeForRelaunch (ids : Nat → String) :
    Nat → TerminalPaneNode → TerminalPaneNode × Nat
  | k, .leaf l => (.leaf (resetTerminalLeafForRelaunch (ids k) l), k + 1)
  | k, .node s children =>
    let r := resetTerminalTreesForRelaunch ids (k + 1) children
    (.node { s with id := terminalSplitIdOf (ids k) } r.1, r.2)
def resetTerminalTreesForRelaunch (ids : Nat → String) :
    Nat → List TerminalPaneNode → List TerminalPaneNode × Nat
  | k, [] => ([], k)
  | k, t :: ts =>
    let r := resetTerminalTreeForRelaunch ids k t
    let rs := resetTerminalTreesForRelaunch ids r.2 ts
    (r.1 :: rs.1, rs.2)
end

/-- the terminal of a tab that is launched anew, or the empty one of a placeholder -/
def freshLeaf (draw : String) (identity : LaunchIdentity) (restoreMode : RestoreMode) :
    TerminalPaneLeaf where
  id := terminalPaneIdOf draw
  launchId := some (launchIdOf draw)
  restoreMode := some restoreMode
  sessionId := none
  savedSessionId := none
  restoring := false
  disconnected := false
  identity := identity
  restoreBlockedReason := none
  leaseReadOnly := false
  launchExtras := none

/-- the ids that the caller has allocated, and what is to be launched -/
structure CreateTabOptions where
  tabId : Option String
  terminalPaneId : Option String
  launchId : Option String
  sessionId : Option String
  projectPath : String
  resumeId : Option String
  cliTool : Option String
  launchExtras : Option LaunchExtras

def createTerminalLeaf (draw : String) (opts : CreateTabOptions) : TerminalPaneLeaf :=
  let identity : LaunchIdentity :=
    ⟨opts.resumeId, opts.cliTool, (truthy opts.cliTool).any (· ≠ "none")⟩
  let cliTool := inferCliTool opts.cliTool [(truthy opts.resumeId).isSome]
  let leaf := freshLeaf draw identity (resolveRestoreMode cliTool opts.resumeId false)
  { leaf with
    id := opts.terminalPaneId.getD leaf.id
    launchId := opts.launchId.or leaf.launchId
    sessionId := opts.sessionId
    launchExtras := opts.launchExtras }

def TerminalTab.ofLeaf (leaf : TerminalPaneLeaf) : TerminalTab where
  sessionId := leaf.sessionId
  savedSessionId := none
  restoring := false
  disconnected := false
  identity := leaf.identity
  restoreBlockedReason := none
  leaseReadOnly := false
  launchExtras := leaf.launchExtras
  terminalRootPane := some (.leaf leaf)
  activeTerminalPaneId := some leaf.id

def placeholderTab (draw : String) : Tab where
  id := draw
  pinned := false
  projectPath := ""
  content := .terminal (.ofLeaf (freshLeaf draw ⟨none, none, false⟩ .shell))

theorem placeholderTab_references (draw : String) :
    collectTerminalSessionIdsWithSaved (placeholderTab draw) = [] := rfl

end CcPanes.Panes

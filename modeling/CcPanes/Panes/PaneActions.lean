import CcPanes.Panes.PaneTree

/-!
# The actions on the pane tree

`splitActions.ts`, `tabMoveActions.ts` and `paneRemovalActions.ts` of the pane store, on one holder
of a tree: the working copy of the store or a layout, each with a root pane and an active pane.

An action that does not find its pane leaves the holder as it is.  Panes are references into the
tree, so each write is made in the tree.
-/

namespace CcPanes.Panes
open RoseTree

inductive SplitDirection
  | right
  | down
deriving DecidableEq

def directionMap : SplitDirection → Direction
  | .right => .horizontal
  | .down => .vertical

structure Holder where
  rootPane : PaneNode
  activePaneId : String

def initialHolder (ids : Nat → String) : Holder where
  rootPane := .leaf (createPanel ids 0 none)
  activePaneId := (createPanel ids 0 none).id

/-- beside the pane in the place: into its split, if that has the direction, or into a new one -/
def insertOrWrap (splitId : String) (splitDirection : Direction) (targetPane newPane : PaneNode) :
    Place → PaneNode
  | [] => .node ⟨splitId, splitDirection, [50, 50]⟩ [targetPane, newPane]
  | fr :: frs =>
    if fr.label.direction = splitDirection then
      plug (.node { fr.label with sizes := evenSizes (childCount fr + 1) }
        (fr.left ++ [targetPane, newPane] ++ fr.right)) frs
    else plug (fr.fill [.node ⟨splitId, splitDirection, [50, 50]⟩ [targetPane, newPane]]) frs

/-- the same, but a split with one child takes the direction -/
def insertBeside (splitId : String) (splitDirection : Direction) (targetPane newPane : PaneNode) :
    Place → PaneNode
  | [] => insertOrWrap splitId splitDirection targetPane newPane []
  | fr :: frs =>
    if childCount fr = 1 then
      plug (.node { fr.label with
          direction := splitDirection
          sizes := [50, 50] } (fr.left ++ [targetPane] ++ fr.right ++ [newPane])) frs
    else insertOrWrap splitId splitDirection targetPane newPane (fr :: frs)

def split (ids : Nat → String) (h : Holder) (paneId : String) (direction : SplitDirection) :
    Holder :=
  match locatePane h.rootPane paneId with
  | some (.leaf targetPane, place) =>
    let newPane := createPanel ids 0 none
    { rootPane :=
        insertBeside (ids 2) (directionMap direction) (.leaf targetPane) (.leaf newPane) place
      activePaneId := newPane.id }
  | _ => h

/-- against the nearest ancestor that has at least two children -/
def resolveAutoDirection (root : PaneNode) (paneId : String) : SplitDirection :=
  match findAncestorSplits root paneId with
  | none => .right
  | some chain =>
    match chain.reverse.find? fun fr => childCount fr ≥ 2 with
    | some ancestor => if ancestor.label.direction = .horizontal then .down else .right
    | none => .right

def createTab (ids : Nat → String) (k : Nat) (opts : CreateTabOptions) : Tab where
  id := (truthy opts.tabId).getD (ids k)
  pinned := false
  projectPath := opts.projectPath
  content := .terminal (.ofLeaf (createTerminalLeaf (ids k) opts))

def pushTab (pane : Panel) (tab : Tab) : Panel := ⟨pane.id, pane.tabs ++ [tab], tab.id⟩

def isPanel : PaneNode → Bool
  | .leaf _ => true
  | .node _ _ => false

/-- `direction` is `none` for `auto` -/
def openSessionBesidePane (ids : Nat → String) (h : Holder) (paneId : String)
    (direction : Option SplitDirection) (opts : CreateTabOptions) : Holder :=
  let splitDirection := directionMap (direction.getD (resolveAutoDirection h.rootPane paneId))
  let tab := createTab ids 0 opts
  match locatePane h.rootPane paneId with
  | some (.leaf targetPane, place) =>
    if targetPane.tabs = [] then
      { rootPane := plug (.leaf (pushTab targetPane tab)) place
        activePaneId := targetPane.id }
    else
      let newPane := createPanel ids 1 (some tab)
      { rootPane := insertBeside (ids 3) splitDirection (.leaf targetPane) (.leaf newPane) place
        activePaneId := newPane.id }
  | _ =>
    -- not found, or not a panel: the first panel takes the tab
    match locate isPanel h.rootPane with
    | some (.leaf fallback, place) =>
      { rootPane := plug (.leaf (pushTab fallback tab)) place
        activePaneId := fallback.id }
    | _ => h

/-! ## tabs moved -/

def splitAndMoveTab (ids : Nat → String) (h : Holder) (paneId tabId : String)
    (direction : SplitDirection) : Holder :=
  match locatePane h.rootPane paneId with
  | some (.leaf sourcePane, place) =>
    if sourcePane.tabs.length ≤ 1 then h
    else
      match findTab sourcePane tabId with
      | none => h
      | some (tabIndex, tab) =>
        let newPane : Panel := ⟨ids 0, [tab], tab.id⟩
        { rootPane := insertOrWrap (ids 1) (directionMap direction)
            (.leaf (spliceTab sourcePane tabIndex tabId)) (.leaf newPane) place
          activePaneId := newPane.id }
  | _ => h

def modifyPanel (root : PaneNode) (paneId : String) (write : Panel → Panel) : PaneNode :=
  match locatePane root paneId with
  | some (.leaf pane, place) => plug (.leaf (write pane)) place
  | _ => root

def removeEmptyPane (ids : Nat → String) (h : Holder) (paneId : String) : Holder :=
  match locatePane h.rootPane paneId with
  | some (.leaf pane, place) =>
    if pane.tabs ≠ [] then h
    else
      match place with
      | [] =>
        { rootPane := .leaf (createPanel ids 0 none)
          activePaneId := (createPanel ids 0 none).id }
      | fr :: frs =>
        let children := fr.left ++ fr.right
        let nextPane := children[min fr.left.length (children.length - 1)]?
        let activePaneId :=
          ((nextPane.bind fun pane => (collectPanels pane).head?).map Panel.id).getD h.activePaneId
        let rootPane := (normalizePaneTree ids 0 (plug (removeChild fr) frs)).1
        match findPane rootPane activePaneId with
        | some (.leaf _) => ⟨rootPane, activePaneId⟩
        | _ => ⟨rootPane, ((collectPanels rootPane).head?.map Panel.id).getD activePaneId⟩
  | _ => h

def selectTab (h : Holder) (paneId tabId : String) : Holder :=
  match locatePane h.rootPane paneId with
  | some (.leaf pane, place) =>
    { rootPane := plug (.leaf ⟨pane.id, pane.tabs, tabId⟩) place
      activePaneId := paneId }
  | _ => h

/-- the index where a tab goes in: `toIndex`, if it is one -/
def insertAt (toIndex : Option Int) (tabs : List Tab) : Nat :=
  match toIndex with
  | some i => if 0 ≤ i then min i.toNat tabs.length else tabs.length
  | none => tabs.length

def insertTab (tab : Tab) (toIndex : Option Int) (toPane : Panel) : Panel :=
  let index := insertAt toIndex toPane.tabs
  ⟨toPane.id, toPane.tabs.take index ++ tab :: toPane.tabs.drop index, tab.id⟩

/-- the panel showing the tab at the index, or the last one -/
def showTabAt (tabIndex : Nat) (fromPane : Panel) : Panel :=
  if fromPane.tabs.length > 0 then
    ⟨fromPane.id, fromPane.tabs, tabIdAt fromPane.tabs tabIndex⟩
  else fromPane

/-- the first part of `moveTab`: the tab changes its panel -/
def transferTab (h : Holder) (fromPaneId toPaneId tabId : String) (toIndex : Option Int) : Holder :=
  match locatePane h.rootPane fromPaneId, locatePane h.rootPane toPaneId with
  | some (.leaf fromPane, fromPlace), some (.leaf _, _) =>
    match findTab fromPane tabId with
    | none => h
    | some (tabIndex, tab) =>
      let taken :=
        plug (.leaf ⟨fromPane.id, fromPane.tabs.eraseIdx tabIndex, fromPane.activeTabId⟩) fromPlace
      let given := modifyPanel taken toPaneId (insertTab tab toIndex)
      ⟨modifyPanel given fromPaneId (showTabAt tabIndex), toPaneId⟩
  | _, _ => h

def moveTab (ids : Nat → String) (h : Holder) (fromPaneId toPaneId tabId : String)
    (toIndex : Option Int) : Holder :=
  let moved := transferTab h fromPaneId toPaneId tabId toIndex
  match findPane moved.rootPane fromPaneId with
  | some (.leaf fromPane) =>
    if fromPane.tabs = [] then
      let closed := removeEmptyPane ids moved fromPaneId
      match findPane closed.rootPane toPaneId with
      | some (.leaf targetPane) =>
        if targetPane.tabs.any (·.id == tabId) then selectTab closed toPaneId tabId else closed
      | _ => closed
    else moved
  | _ => moved

def assignTreeAndConvergeActive (h : Holder) (nextTree : PaneNode) : Holder :=
  match findPane nextTree h.activePaneId with
  | some (.leaf _) => ⟨nextTree, h.activePaneId⟩
  | _ => ⟨nextTree, ((collectPanels nextTree).head?.map Panel.id).getD (nodeId nextTree)⟩

/-- `closeTabInTree` as its callers use it -/
def closeTab (ids : Nat → String) (h : Holder) (paneId tabId : String) (force : Bool) : Holder :=
  assignTreeAndConvergeActive h (closeTabInTree ids h.rootPane paneId tabId force)

/-! ## layout presets -/

/-- one tab to each of `slotCount` slots in order, all others to the last -/
def slotTabs (slotCount : Nat) (allTabs : List Tab) : List (List Tab) :=
  allTabs.zipIdx.foldl
    (fun slots entry => slots.modify (min entry.2 (slotCount - 1)) (· ++ [entry.1]))
    (List.replicate slotCount [])

/-- the panel of a slot: it keeps the id of the panel of this index, and a tab that was shown -/
def presetSlot (ids : Nat → String) (existingPanels : List Panel) (slots : List (List Tab))
    (index : Nat) : Panel :=
  let tabs := slots.getD index []
  let reused := existingPanels[index]?
  let prevActiveTabIds := existingPanels.map Panel.activeTabId
  let active :=
    ((tabs.find? fun tab => reused.any fun pane => tab.id == pane.activeTabId).or
      (tabs.find? fun tab => prevActiveTabIds.contains tab.id)).or tabs.head?
  ⟨(reused.map Panel.id).getD (ids index), tabs, (active.map Tab.id).getD ""⟩

def rootSplitId : PaneNode → Option String
  | .leaf _ => none
  | .node s _ => some s.id

/-- the tab that the active panel shows, `none` where there is no such panel or it shows none -/
def prevActiveTabId (h : Holder) : Option String :=
  match findPane h.rootPane h.activePaneId with
  | some (.leaf pane) => if pane.activeTabId = "" then none else some pane.activeTabId
  | _ => none

def applyLayoutPreset (ids : Nat → String) (h : Holder) (preset : LayoutPresetId) : Holder :=
  let slotCount := layoutPresetSlots preset
  let existingPanels := collectPanels h.rootPane
  let allTabs := existingPanels.flatMap Panel.tabs
  let slot := presetSlot ids existingPanels (slotTabs slotCount allTabs)
  let focusSlot := (prevActiveTabId h).bind fun tabId =>
    ((List.range slotCount).map slot).find? fun pane => pane.tabs.any (·.id == tabId)
  { rootPane := buildPresetTree ids slotCount preset slot (rootSplitId h.rootPane)
    activePaneId := (focusSlot.getD (slot 0)).id }

inductive PaneAction
  | split (paneId : String) (direction : SplitDirection)
  | openSessionBesidePane (paneId : String) (direction : Option SplitDirection)
      (opts : CreateTabOptions)
  | splitAndMoveTab (paneId tabId : String) (direction : SplitDirection)
  | moveTab (fromPaneId toPaneId tabId : String) (toIndex : Option Int)
  | closeTab (paneId tabId : String) (force : Bool)
  | removeEmptyPane (paneId : String)
  | applyLayoutPreset (preset : LayoutPresetId)

/-- an action, with the ids that `generateId` returns during it -/
structure Call where
  ids : Nat → String
  action : PaneAction

def act (h : Holder) (c : Call) : Holder :=
  match c.action with
  | .split paneId direction => split c.ids h paneId direction
  | .openSessionBesidePane paneId direction opts =>
    openSessionBesidePane c.ids h paneId direction opts
  | .splitAndMoveTab paneId tabId direction => splitAndMoveTab c.ids h paneId tabId direction
  | .moveTab fromPaneId toPaneId tabId toIndex =>
    moveTab c.ids h fromPaneId toPaneId tabId toIndex
  | .closeTab paneId tabId force => closeTab c.ids h paneId tabId force
  | .removeEmptyPane paneId => removeEmptyPane c.ids h paneId
  | .applyLayoutPreset preset => applyLayoutPreset c.ids h preset

end CcPanes.Panes

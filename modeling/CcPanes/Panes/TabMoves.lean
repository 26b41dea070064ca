import CcPanes.Panes.PanelList
import CcPanes.Panes.TerminalTree

/-!
# Tabs moved between panels and layouts

`tabMoveActions.ts` on the whole store.  A tab that leaves its panel empty takes the panel with it,
if the layout is shown.
-/

namespace CcPanes.Panes
open RoseTree

def syncTab (draw : String) (tab : Tab) : Tab :=
  match tab.content with
  | .terminal t => { tab with content := .terminal (syncTabTerminalState draw t) }
  | _ => tab

def dropTab (tabIndex : Nat) (pane : Panel) : Panel :=
  ⟨pane.id, pane.tabs.eraseIdx tabIndex, pane.activeTabId⟩

def showTab (draw tabId : String) (pane : Panel) : Panel :=
  ⟨pane.id, pane.tabs.modify (pane.tabs.findIdx (·.id == tabId)) (syncTab draw), tabId⟩

/-- a tab in a layout -/
structure TabAcrossLayoutsLocation where
  layoutId : String
  panel : Panel
  tab : Tab

/-- the panel that a tab goes to, and where it is -/
structure LayoutMove where
  targetPaneId : String
  layoutId : String
  panel : Panel
  tabIndex : Nat
  tab : Tab

inductive TabMove
  | moveTab (fromPaneId toPaneId tabId : String) (toIndex : Option Int)
  | splitAndMoveTab (paneId tabId : String) (direction : SplitDirection)
  | moveTabToLayoutPane (fromPaneId toLayoutId tabId : String) (toPaneId : Option String)
      (toIndex : Option Int)

namespace TabMove

def fromPaneId : TabMove → String
  | .moveTab fromPaneId _ _ _ => fromPaneId
  | .splitAndMoveTab paneId _ _ => paneId
  | .moveTabToLayoutPane fromPaneId _ _ _ _ => fromPaneId

def tabId : TabMove → String
  | .moveTab _ _ tabId _ => tabId
  | .splitAndMoveTab _ tabId _ => tabId
  | .moveTabToLayoutPane _ _ tabId _ _ => tabId

end TabMove

namespace PanesState

/-- the source looks a layout up by its id and writes to its draft, which the working copy shares -/
def modifyLayout (state : PanesState) (layoutId : String) (write : Holder → Holder) : PanesState :=
  { state with
    toHolder := if layoutId = state.currentLayoutId then write state.toHolder else state.toHolder
    layouts := state.layouts.map fun l =>
      if l.id = layoutId then { l with toHolder := write l.toHolder } else l }

def syncWorkingCopyToCurrentLayout (state : PanesState) : PanesState :=
  { state with
    layouts := state.layouts.map fun l =>
      if l.id = state.currentLayoutId ∧ isNormalLayout l then { l with toHolder := state.toHolder }
      else l }

def layoutTree (state : PanesState) (layoutId : String) : Option PaneNode :=
  (state.layouts.find? (·.id == layoutId)).bind fun layout =>
    if isStarredLayout layout then none else some (state.holderOf layout).rootPane

def findTabAcrossLayouts (state : PanesState) (tabId : String) :
    Option TabAcrossLayoutsLocation :=
  (state.layouts.filter isNormalLayout).findSome? fun layout =>
    (state.layoutTree layout.id).bind fun tree =>
      (findTabLocation tree tabId).map fun location => ⟨layout.id, location.1, location.2⟩

def selectTab (draw : String) (state : PanesState) (paneId tabId : String) : PanesState :=
  match findPane state.rootPane paneId with
  | some (.leaf _) =>
    { state with
      rootPane := modifyPanel state.rootPane paneId (showTab draw tabId)
      activePaneId := paneId }
  | _ => state

def removeEmptyPane (ids : Nat → String) (state : PanesState) (paneId : String) : PanesState :=
  { state with toHolder := Panes.removeEmptyPane ids state.toHolder paneId }

/-- the ids from the third on are left for the terminal that `selectTab` may make -/
def moveTab (ids : Nat → String) (state : PanesState) (fromPaneId toPaneId tabId : String)
    (toIndex : Option Int) : PanesState :=
  let moved : PanesState :=
    { state with toHolder := transferTab state.toHolder fromPaneId toPaneId tabId toIndex }
  match findPane moved.rootPane fromPaneId with
  | some (.leaf fromPane) =>
    if fromPane.tabs = [] then
      let closed := moved.removeEmptyPane ids fromPaneId
      match findPane closed.rootPane toPaneId with
      | some (.leaf targetPane) =>
        if targetPane.tabs.any (·.id == tabId) then closed.selectTab (ids 2) toPaneId tabId
        else closed
      | _ => closed
    else moved
  | _ => moved

def splitAndMoveTab (ids : Nat → String) (state : PanesState) (paneId tabId : String)
    (direction : SplitDirection) : PanesState :=
  { state with toHolder := Panes.splitAndMoveTab ids state.toHolder paneId tabId direction }

def resolveLayoutMove (state : PanesState) (fromPaneId toLayoutId tabId : String)
    (toPaneId : Option String) : Option LayoutMove :=
  (state.layoutTree toLayoutId).bind fun targetTree =>
    (truthy (toPaneId.or ((collectPanels targetTree).head?.map Panel.id))).bind fun targetPaneId =>
      match findPane targetTree targetPaneId with
      | some (.leaf targetPane) =>
        (state.findTabAcrossLayouts tabId).bind fun source =>
          if source.panel.id ≠ fromPaneId then none
          else if source.layoutId = toLayoutId ∧ source.panel.id = targetPane.id then none
          else
            (findTab source.panel tabId).map fun found =>
              ⟨targetPane.id, source.layoutId, source.panel, found.1, found.2⟩
      | _ => none

def moveTabToLayoutPane (ids : Nat → String) (state : PanesState)
    (fromPaneId toLayoutId tabId : String) (toPaneId : Option String) (toIndex : Option Int) :
    PanesState :=
  let state := state.syncWorkingCopyToCurrentLayout
  match state.resolveLayoutMove fromPaneId toLayoutId tabId toPaneId with
  | none => state
  | some m =>
    let taken := state.modifyLayout m.layoutId fun h =>
      ⟨modifyPanel h.rootPane fromPaneId (dropTab m.tabIndex), h.activePaneId⟩
    let given := taken.modifyLayout toLayoutId fun h =>
      ⟨modifyPanel h.rootPane m.targetPaneId (insertTab m.tab toIndex), m.targetPaneId⟩
    if m.panel.tabs.length > 1 then
      let shown := given.modifyLayout m.layoutId fun h =>
        ⟨modifyPanel h.rootPane fromPaneId (showTabAt m.tabIndex), fromPaneId⟩
      -- the working copy turns to the old panel only if the tab has left it
      if toLayoutId = state.currentLayoutId then { shown with activePaneId := m.targetPaneId }
      else shown
    else if m.layoutId = state.currentLayoutId then given.removeEmptyPane ids fromPaneId
    else given

def move (ids : Nat → String) (state : PanesState) : TabMove → PanesState
  | .moveTab fromPaneId toPaneId tabId toIndex =>
    state.moveTab ids fromPaneId toPaneId tabId toIndex
  | .splitAndMoveTab paneId tabId direction => state.splitAndMoveTab ids paneId tabId direction
  | .moveTabToLayoutPane fromPaneId toLayoutId tabId toPaneId toIndex =>
    state.moveTabToLayoutPane ids fromPaneId toLayoutId tabId toPaneId toIndex

/-! ## what is expected -/

def normalIds (state : PanesState) : List String :=
  (state.layouts.filter isNormalLayout).map LayoutEntry.id

def normalTabs (state : PanesState) : List Tab := state.normalIds.flatMap state.tabsOf

def otherTabsOf (state : PanesState) (tabId layoutId : String) : List (String × List Tab) :=
  ((state.holder layoutId).map fun h => otherTabs tabId h.rootPane).getD []

/-- the tree of a layout; that of the one that is shown is the working copy -/
def treeOf (state : PanesState) (layoutId : String) : Option PaneNode :=
  if layoutId = state.currentLayoutId then some state.rootPane
  else (state.holder layoutId).map Holder.rootPane

def Shows (state : PanesState) (layoutId paneId tabId : String) : Prop :=
  ∃ root, state.treeOf layoutId = some root ∧ ∃ p ∈ collectPanels root,
    p.id = paneId ∧ p.activeTabId = tabId ∧ ∃ tab ∈ p.tabs, tab.id = tabId

end PanesState

/-- the tab of this id may have been brought up to date with its active terminal -/
def refreshed (tabId : String) (refresh : Tab → Tab) (tab : Tab) : Tab :=
  if tab.id = tabId then refresh tab else tab

/-- the tabs are the same, and the others in the panels and the order they were in -/
structure Kept (state state' : PanesState) (tabId : String) : Prop where
  tabs : ∃ refresh, (refresh = id ∨ ∃ draw, refresh = syncTab draw) ∧
    state'.normalTabs.Perm (state.normalTabs.map (refreshed tabId refresh))
  others : ∀ layoutId ∈ state.normalIds,
    state'.otherTabsOf tabId layoutId = state.otherTabsOf tabId layoutId

/-- the panel that the tab is taken from, in the working copy, is left empty -/
def Empties (state : PanesState) : TabMove → Prop
  | .moveTab fromPaneId toPaneId tabId _ =>
    ∃ pane, findPane state.rootPane fromPaneId = some (.leaf pane) ∧
      (pane.tabs = [] ∨
        fromPaneId ≠ toPaneId ∧ (∃ q, findPane state.rootPane toPaneId = some (.leaf q)) ∧
          pane.tabs.map Tab.id = [tabId])
  | .splitAndMoveTab _ _ _ => False
  | .moveTabToLayoutPane fromPaneId toLayoutId tabId toPaneId _ =>
    ∃ m, state.resolveLayoutMove fromPaneId toLayoutId tabId toPaneId = some m ∧
      m.layoutId = state.currentLayoutId ∧ m.panel.tabs.length = 1

/-- `moveTabToLayoutPane` turns to the neighbour of a panel that it has taken out -/
def LeavesFocus (state : PanesState) : TabMove → Prop
  | .moveTabToLayoutPane fromPaneId toLayoutId tabId toPaneId toIndex =>
    Empties state (.moveTabToLayoutPane fromPaneId toLayoutId tabId toPaneId toIndex)
  | _ => False

/-- what `moveTab` finds -/
structure Found (root : PaneNode) (fromPaneId toPaneId tabId : String) (p q : Panel)
    (tabIndex : Nat) (tab : Tab) : Prop where
  source : findPane root fromPaneId = some (.leaf p)
  target : findPane root toPaneId = some (.leaf q)
  tab : findTab p tabId = some (tabIndex, tab)

/-- the move is made, to this panel of this layout -/
def Succeeds (ids : Nat → String) (state : PanesState) (layoutId paneId : String) : TabMove → Prop
  | .moveTab fromPaneId toPaneId tabId _ =>
    layoutId = state.currentLayoutId ∧ paneId = toPaneId ∧ fromPaneId ≠ toPaneId ∧
      ∃ p q tabIndex tab, Found state.rootPane fromPaneId toPaneId tabId p q tabIndex tab
  | .splitAndMoveTab sourcePaneId tabId _ =>
    layoutId = state.currentLayoutId ∧ paneId = ids 0 ∧
      ∃ p, findPane state.rootPane sourcePaneId = some (.leaf p) ∧ 1 < p.tabs.length ∧
        (findTab p tabId).isSome
  | .moveTabToLayoutPane fromPaneId toLayoutId tabId toPaneId _ =>
    layoutId = toLayoutId ∧ ∃ m,
      state.resolveLayoutMove fromPaneId toLayoutId tabId toPaneId = some m ∧ paneId = m.targetPaneId

/-- a state with distinct ids -/
structure MovesOk (state : PanesState) : Prop where
  store : StoreOk state
  working : TreeOk state.rootPane
  tabs : (state.normalTabs.map Tab.id).Nodup

end CcPanes.Panes

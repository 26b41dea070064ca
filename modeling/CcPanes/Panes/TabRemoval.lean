import CcPanes.Panes.DestroyPipeline
import Mathlib.Data.List.ProdSigma

/-!
# Tabs removed from all layouts

`stores/paneRemovalActions.ts` and `stores/closedTabsUndo.ts`.  A tab may have a copy in several
layouts, with a pin and sessions of its own.  A removal collects the copies and gives back what they
hold, then it takes them out of the trees; a copy that is pinned stays where the reason respects it.
-/

namespace CcPanes.Panes
open RoseTree List

def closedTabsLimit : Nat := 20

def trimClosedTabs (list : List ClosedTabSnapshot) : List ClosedTabSnapshot :=
  list.drop (list.length - closedTabsLimit)

def snapshotTerminalTree (ids : Nat → String) : Option TerminalPaneNode → Option TerminalPaneNode
  | some (.node s ts) => some (resetTerminalTreeForRelaunch ids 0 (.node s ts)).1
  | _ => none

def toClosedTabSnapshot (ids : Nat → String) (tab : Tab) (t : TerminalTab) : ClosedTabSnapshot :=
  .terminal tab.projectPath tab.pinned t.identity (stripInitialPrompt t.launchExtras)
    (snapshotTerminalTree ids t.terminalRootPane)

def persistForUndo (rt : Runtime) (tab : Tab) : Option ClosedTabSnapshot :=
  match tab.content with
  | .browser browserUrl => (truthy browserUrl).map (.browser tab.projectPath)
  | .editor filePath _ => (truthy filePath).bind fun filePath =>
    if tab.projectPath = "" then none
    else some (.editor tab.projectPath filePath (rt.editorCursor tab.id))
  | _ => none

def closedTabSnapshot (rt : Runtime) (ids : Nat → String) (tab : Tab) : Option ClosedTabSnapshot :=
  match tab.content with
  | .terminal t => if tab.projectPath = "" then none else some (toClosedTabSnapshot ids tab t)
  | _ => persistForUndo rt tab

/-! ## the removal -/

def exempt (policy : DestroyPolicy) (tab : Tab) : Bool := policy.respectsPinned && tab.pinned

def visits (state : PanesState) (tabIds : List String) : List (String × String) :=
  tabIds ×ˢ state.layouts.map LayoutEntry.id

def locateCopy (state : PanesState) (visit : String × String) : Option (Holder × Panel × Tab) :=
  (state.holder visit.2).bind fun h =>
    (findTabLocation h.rootPane visit.1).map fun location => (h, location)

def locatedTabs (state : PanesState) (tabIds : List String) : List Tab :=
  (visits state tabIds).filterMap fun visit => (locateCopy state visit).map fun copy => copy.2.2

def relocateAndCollect (rt : Runtime) (state : PanesState) (tabIds : List String)
    (policy : DestroyPolicy) (reason : DestroyReason) (protectSessionIds : List String) :
    List ResourceEffect :=
  let doomedTabs := (locatedTabs state tabIds).filter fun tab => !exempt policy tab
  let pinnedProtected := ((locatedTabs state tabIds).filter (exempt policy)).flatMap
    collectTerminalSessionIdsWithSaved
  if doomedTabs = [] then []
  else commitResourceDestroy rt doomedTabs reason (protectSessionIds ++ pinnedProtected)

/-- the state between two visits; each removal draws ids of its own -/
structure Splicing where
  state : PanesState
  removedIds : List String
  removals : Nat

def spliceCopy (rt : Runtime) (ids : Nat → String) (policy : DestroyPolicy) (acc : Splicing)
    (visit : String × String) : Splicing :=
  match locateCopy acc.state visit with
  | none => acc
  | some (h, panel, tab) =>
    if exempt policy tab then acc
    else
      let snapshot :=
        if policy.recordsClosedTabs then closedTabSnapshot rt (draw ids (2 * acc.removals)) tab
        else none
      let closed := closeTab (draw ids (2 * acc.removals + 1)) h panel.id visit.1 true
      { state :=
          { acc.state.setHolder visit.2 closed with
            closedTabs := acc.state.closedTabs ++ snapshot.toList }
        removedIds :=
          if visit.1 ∈ acc.removedIds then acc.removedIds else acc.removedIds ++ [visit.1]
        removals := acc.removals + 1 }

def spliceAcrossLayouts (rt : Runtime) (ids : Nat → String) (state : PanesState)
    (tabIds : List String) (policy : DestroyPolicy) : PanesState × List String :=
  let acc := (visits state tabIds).foldl (spliceCopy rt ids policy) ⟨state, [], 0⟩
  if acc.removedIds = [] then (acc.state, [])
  else ({ acc.state with closedTabs := trimClosedTabs acc.state.closedTabs }, acc.removedIds)

def sweepOwnerState (tabIds : List String) : List ResourceEffect :=
  tabIds.flatMap fun tabId => [.removeOwner tabId, .clearAttention tabId]

def cleanupSatelliteState (rt : Runtime) (state : PanesState) (removedIds : List String) :
    PanesState × List ResourceEffect :=
  ({ state with poppedOutTabs := state.poppedOutTabs.filter fun id => !removedIds.contains id },
    (if rt.fullscreenTabId.any removedIds.contains then [.exitFullscreen] else []) ++
      sweepOwnerState removedIds)

def removeTabsInternal (rt : Runtime) (ids : Nat → String) (state : PanesState)
    (tabIds : List String) (reason : DestroyReason) (protectSessionIds : List String) :
    PanesState × List ResourceEffect :=
  if tabIds = [] then (state, [])
  else
    let policy := destroyPolicy reason
    let destroyed := relocateAndCollect rt state tabIds policy reason protectSessionIds
    let spliced := spliceAcrossLayouts rt ids state tabIds policy
    if spliced.2 = [] then (spliced.1, destroyed)
    else
      let cleaned := cleanupSatelliteState rt spliced.1 spliced.2
      (cleaned.1, destroyed ++ cleaned.2)

/-! ## one copy taken out -/

structure Ready (ids : Nat → String) (n : Nat) (state : PanesState) : Prop where
  store : StoreOk state
  distinct : Function.Injective ids
  new : ∀ layoutId h, state.holder layoutId = some h → ∀ m k, n ≤ m →
    draw ids m k ∉ treeIds h.rootPane

def goes (policy : DestroyPolicy) (list : List (String × String)) (layoutId : String) (tab : Tab) :
    Bool :=
  list.contains (tab.id, layoutId) && !exempt policy tab

section
variable {rt : Runtime} {ids : Nat → String} {policy : DestroyPolicy} {state : PanesState}
  {tab : Tab} {layoutId : String}

theorem ready_of_new (h : StoreOk state) (hnew : NewIdsFor ids state) :
    Ready ids 0 state where
  store := h
  distinct := hnew.distinct
  new layoutId h hh _ _ _ := hnew.new layoutId h hh _

theorem Ready.newIds {n : Nat} (hr : Ready ids n state) {h : Holder}
    (hh : state.holder layoutId = some h) {m : Nat} (hm : n ≤ m) :
    NewIds (draw ids m) h.rootPane where
  distinct := draw_injective hr.distinct m
  node k hk := hr.new layoutId h hh m k hm (mem_append_left _ hk)
  tab k hk := hr.new layoutId h hh m k hm (mem_append_right _ hk)

theorem Placeholders.of_draw {n : Nat} {tabs : List Tab} (h : Placeholders (draw ids n) tabs) :
    Placeholders ids tabs := fun tab htab =>
  let ⟨_, hk⟩ := h tab htab
  ⟨_, hk⟩

theorem locateCopy_some {visit : String × String} {h : Holder} {panel : Panel}
    (hloc : locateCopy state visit = some (h, panel, tab)) :
    state.holder visit.2 = some h ∧ panel ∈ collectPanels h.rootPane ∧ tab ∈ panel.tabs ∧
      tab.id = visit.1 := by
  obtain ⟨h', hh, hmap⟩ := Option.bind_eq_some_iff.mp hloc
  obtain ⟨⟨panel', tab'⟩, hfind, heq⟩ := Option.map_eq_some_iff.mp hmap
  cases heq
  exact ⟨hh, findTabLocation_some hfind⟩

theorem locateCopy_none {visit : String × String} (hloc : locateCopy state visit = none)
    (htab : tab ∈ state.tabsOf visit.2) : tab.id ≠ visit.1 := by
  cases hh : state.holder visit.2 with
  | none =>
    rw [PanesState.tabsOf, hh] at htab
    cases htab
  | some h =>
    rw [PanesState.tabsOf_of_holder hh] at htab
    refine findTabLocation_none ?_ htab
    have hmap := Option.bind_eq_none_iff.mp hloc h hh
    exact Option.map_eq_none_iff.mp hmap

theorem goes_nil (layoutId : String) (tab : Tab) : goes policy [] layoutId tab = false := rfl

theorem goes_cons (visit : String × String) (list : List (String × String)) (layoutId : String)
    (tab : Tab) : goes policy (visit :: list) layoutId tab =
      (goes policy [visit] layoutId tab || goes policy list layoutId tab) := by
  simp only [goes, contains_cons, contains_nil, Bool.or_false, Bool.and_or_distrib_right]

theorem goes_iff {list : List (String × String)} :
    goes policy list layoutId tab = true ↔
      (tab.id, layoutId) ∈ list ∧ exempt policy tab = false := by
  simp [goes]

theorem filter_goes_perm (layoutId : String) {tabs rest : List Tab}
    (hnodup : (tabs.map Tab.id).Nodup) (hperm : tabs.Perm (tab :: rest))
    (hgo : exempt policy tab = false) :
    rest.Perm (tabs.filter fun t => !goes policy [(tab.id, layoutId)] layoutId t) := by
  have hids : ((tab :: rest).map Tab.id).Nodup := (hperm.map Tab.id).nodup_iff.mp hnodup
  rw [map_cons, nodup_cons] at hids
  have hstay : ∀ t ∈ rest, (!goes policy [(tab.id, layoutId)] layoutId t) = true := by
    intro t ht
    have hne : t.id ≠ tab.id := fun heq => hids.1 (heq ▸ mem_map_of_mem ht)
    simp [goes, hne]
  have hleaves : (!goes policy [(tab.id, layoutId)] layoutId tab) = false := by
    simp [goes, hgo]
  refine List.Perm.trans ?_ (hperm.filter _).symm
  rw [filter_cons, hleaves, filter_eq_self.mpr hstay]
  exact .refl _

theorem Ready.closedTabs {n : Nat} (hr : Ready ids n state) (closedTabs : List ClosedTabSnapshot) :
    Ready ids n { state with closedTabs := closedTabs } := { hr with
  store := { layout_ids := hr.store.layout_ids, tree := hr.store.tree } }

theorem Ready.setHolder {n m n' : Nat} (hr : Ready ids n state) {h h' : Holder}
    (hh : state.holder layoutId = some h) (htree : TreeOk h'.rootPane) (hnm : n ≤ m)
    (hmn : m < n')
    (hids : ∀ id ∈ treeIds h'.rootPane, id ∈ treeIds h.rootPane ∨ ∃ k, id = draw ids m k) :
    Ready ids n' (state.setHolder layoutId h') where
  store := hr.store.setHolder htree
  distinct := hr.distinct
  new := by
    intro layoutId' h'' hh'' m' k hm' hmem
    by_cases hid : layoutId' = layoutId
    · subst hid
      rw [PanesState.holder_setHolder_self (by rw [hh]; rfl)] at hh''
      cases hh''
      rcases hids _ hmem with hold | ⟨k', heq⟩
      · exact hr.new layoutId' h hh m' k (by omega) hold
      · have := (draw_eq hr.distinct heq).1
        omega
    · rw [PanesState.holder_setHolder_of_ne hid] at hh''
      exact hr.new layoutId' h'' hh'' m' k (by omega) hmem

@[simp] theorem closeTab_rootPane (ids : Nat → String) (h : Holder) (paneId tabId : String)
    (force : Bool) : (closeTab ids h paneId tabId force).rootPane =
      closeTabInTree ids h.rootPane paneId tabId force := by
  unfold closeTab assignTreeAndConvergeActive
  split <;> rfl

theorem closeTabInTree_treeIds {ids : Nat → String} {root : PaneNode} (h : TreeOk root)
    {p : Panel} (hp : p ∈ collectPanels root) (htab : tab ∈ p.tabs) {id : String}
    (hid : id ∈ treeIds (closeTabInTree ids root p.id tab.id true)) :
    id ∈ treeIds root ∨ ∃ k, id = ids k := by
  rcases mem_append.mp hid with hnode | hmem
  · exact (closeTabInTree_nodeIds ids hnode).imp_left (mem_append_left _)
  obtain ⟨extra, hextra, hperm⟩ := closeTabInTree_tabs ids h hp htab
  rw [tabIds_eq_map] at hmem
  obtain ⟨t, ht, rfl⟩ := mem_map.mp hmem
  rcases mem_append.mp (hperm.mem_iff.mp (mem_cons_of_mem tab ht)) with hnew | hold
  · obtain ⟨k, rfl⟩ := hextra t hnew
    exact .inr ⟨k, rfl⟩
  · refine .inl (mem_append_right _ ?_)
    rw [tabIds_eq_map]
    exact mem_map_of_mem hold

/-- **One copy taken out**: each layout has the tabs that do not go, and placeholders, and the ids
that are not drawn yet are still new. -/
theorem spliceCopy_spec (rt : Runtime) (policy : DestroyPolicy) {acc : Splicing}
    (hr : Ready ids (2 * acc.removals) acc.state)
    (visit : String × String) :
    Ready ids (2 * (spliceCopy rt ids policy acc visit).removals)
        (spliceCopy rt ids policy acc visit).state ∧
      ∀ layoutId, ∃ extra, Placeholders ids extra ∧
        ((spliceCopy rt ids policy acc visit).state.tabsOf layoutId).Perm
          (extra ++ (acc.state.tabsOf layoutId).filter
            fun tab => !goes policy [visit] layoutId tab) := by
  have hkept : ∀ layoutId, (∀ tab ∈ acc.state.tabsOf layoutId,
      goes policy [visit] layoutId tab = false) → ∃ extra, Placeholders ids extra ∧
        (acc.state.tabsOf layoutId).Perm (extra ++ (acc.state.tabsOf layoutId).filter
          fun tab => !goes policy [visit] layoutId tab) := by
    intro layoutId hstay
    refine ⟨[], placeholders_nil, ?_⟩
    rw [nil_append, filter_eq_self.mpr fun tab htab => by rw [hstay tab htab]; rfl]
  unfold spliceCopy
  split
  next hloc =>
    refine ⟨hr, fun layoutId => hkept layoutId fun tab htab => ?_⟩
    rw [Bool.eq_false_iff]
    intro hgo
    have hvisit := mem_singleton.mp (goes_iff.mp hgo).1
    cases hvisit
    exact locateCopy_none hloc htab rfl
  next h panel tab hloc =>
    obtain ⟨hh, hpanel, htab, hid⟩ := locateCopy_some hloc
    have hok := hr.store.tree visit.2 h hh
    split
    next hexempt =>
      refine ⟨hr, fun layoutId => hkept layoutId fun t ht => ?_⟩
      rw [Bool.eq_false_iff]
      intro hgo
      obtain ⟨hmem, hnot⟩ := goes_iff.mp hgo
      cases mem_singleton.mp hmem
      rw [PanesState.tabsOf_of_holder hh] at ht
      have hsame := hok.tab_unique ht (mem_collectTabs.mpr ⟨panel, hpanel, htab⟩) hid.symm
      rw [hsame, hexempt] at hnot
      cases hnot
    next hexempt =>
      obtain ⟨extra, hextra, hperm⟩ :=
        closeTabInTree_tabs (draw ids (2 * acc.removals + 1)) hok hpanel htab
      have hids : NewIds (draw ids (2 * acc.removals + 1)) h.rootPane := hr.newIds hh (by omega)
      have hmem : tab ∈ collectTabs h.rootPane := mem_collectTabs.mpr ⟨panel, hpanel, htab⟩
      have hrest := perm_cons_erase hmem
      obtain ⟨tabId, layoutId₀⟩ := visit
      subst hid
      constructor
      · refine (hr.setHolder hh (m := 2 * acc.removals + 1) ?_ (by omega) ?_ ?_).closedTabs _
        · rw [closeTab_rootPane]
          exact closeTabInTree_treeOk hok hids panel.id tab.id true
        · dsimp only
          omega
        · intro id hid
          rw [closeTab_rootPane] at hid
          exact closeTabInTree_treeIds hok hpanel htab hid
      intro layoutId
      by_cases hsame : layoutId = layoutId₀
      · subst hsame
        refine ⟨extra, hextra.of_draw, ?_⟩
        have hafter : (acc.state.setHolder layoutId (closeTab (draw ids (2 * acc.removals + 1)) h
            panel.id tab.id true)).tabsOf layoutId =
              collectTabs (closeTabInTree (draw ids (2 * acc.removals + 1)) h.rootPane panel.id
                tab.id true) := by
          rw [PanesState.tabsOf_of_holder (PanesState.holder_setHolder_self (by rw [hh]; rfl)),
            closeTab_rootPane]
        have hother : (collectTabs (closeTabInTree (draw ids (2 * acc.removals + 1)) h.rootPane
            panel.id tab.id true)).Perm (extra ++ (collectTabs h.rootPane).erase tab) :=
          (hperm.trans ((hrest.append_left extra).trans perm_middle)).cons_inv
        have hgone := filter_goes_perm layoutId
          (tabIds_eq_map h.rootPane ▸ hok.tab_ids) hrest (Bool.not_eq_true _ ▸ hexempt)
        show ((acc.state.setHolder layoutId _).tabsOf layoutId).Perm _
        rw [hafter, PanesState.tabsOf_of_holder hh]
        exact hother.trans (hgone.append_left extra)
      obtain ⟨extra', hextra', hperm'⟩ := hkept layoutId fun t _ => by
        rw [Bool.eq_false_iff]
        intro hgo
        exact hsame (Prod.mk.inj (mem_singleton.mp (goes_iff.mp hgo).1)).2
      refine ⟨extra', hextra', ?_⟩
      have hunchanged : (acc.state.setHolder layoutId₀ (closeTab (draw ids
          (2 * acc.removals + 1)) h panel.id tab.id true)).tabsOf layoutId =
            acc.state.tabsOf layoutId := by
        rw [PanesState.tabsOf, PanesState.holder_setHolder_of_ne hsame]
        rfl
      show ((acc.state.setHolder layoutId₀ _).tabsOf layoutId).Perm _
      rw [hunchanged]
      exact hperm'

theorem spliceCopies_spec (rt : Runtime) (policy : DestroyPolicy) : ∀ (list : List (String × String)) (acc : Splicing),
    Ready ids (2 * acc.removals) acc.state →
      (∃ n, Ready ids n (list.foldl (spliceCopy rt ids policy) acc).state) ∧
        ∀ layoutId, ∃ extra, Placeholders ids extra ∧
          ((list.foldl (spliceCopy rt ids policy) acc).state.tabsOf layoutId).Perm
            (extra ++ (acc.state.tabsOf layoutId).filter fun tab => !goes policy list layoutId tab)
  | [], acc, hr => by
    refine ⟨⟨_, hr⟩, fun layoutId => ⟨[], placeholders_nil, ?_⟩⟩
    rw [nil_append, filter_eq_self.mpr fun tab _ => by rw [goes_nil]; rfl]
    exact .refl _
  | visit :: list, acc, hr => by
    obtain ⟨hr', hone⟩ := spliceCopy_spec rt policy hr visit
    obtain ⟨hlast, hrest⟩ := spliceCopies_spec rt policy list (spliceCopy rt ids policy acc visit) hr'
    refine ⟨hlast, fun layoutId => ?_⟩
    obtain ⟨extra, hextra, hperm⟩ := hone layoutId
    obtain ⟨extra', hextra', hperm'⟩ := hrest layoutId
    refine ⟨extra' ++ extra.filter fun tab => !goes policy list layoutId tab,
      hextra'.append fun tab htab => hextra tab (mem_of_mem_filter htab), ?_⟩
    refine hperm'.trans ?_
    rw [append_assoc]
    refine List.Perm.append_left extra' ((hperm.filter _).trans ?_)
    rw [filter_append, filter_filter]
    refine List.Perm.append_left _ (.of_eq (filter_congr fun tab _ => ?_))
    rw [goes_cons visit list, Bool.not_or, Bool.and_comm]

end

/-! ## the removal as a whole -/

def doomed (policy : DestroyPolicy) (tabIds : List String) (tab : Tab) : Bool :=
  tabIds.contains tab.id && !exempt policy tab

theorem doomed_iff {policy : DestroyPolicy} {tabIds : List String} {tab : Tab} :
    doomed policy tabIds tab = true ↔ tab.id ∈ tabIds ∧ exempt policy tab = false := by
  simp [doomed]

section
variable {rt : Runtime} {ids : Nat → String} {state : PanesState} {tabIds : List String}
  {reason : DestroyReason} {protectSessionIds : List String}

variable {s : String} {layoutId : String} {tab : Tab}

theorem mem_layouts_of_tabsOf (h : tab ∈ state.tabsOf layoutId) :
    layoutId ∈ state.layouts.map LayoutEntry.id := by
  cases hh : state.holder layoutId with
  | none =>
    rw [PanesState.tabsOf, hh] at h
    cases h
  | some =>
    obtain ⟨l, hl, hid, -⟩ := PanesState.mem_of_holder hh
    exact mem_map.mpr ⟨l, hl, hid⟩

theorem goes_visits {policy : DestroyPolicy} (h : tab ∈ state.tabsOf layoutId) :
    goes policy (visits state tabIds) layoutId tab = doomed policy tabIds tab := by
  rw [Bool.eq_iff_iff, goes_iff, doomed_iff, visits]
  have hpair : (tab.id, layoutId) ∈ tabIds ×ˢ state.layouts.map LayoutEntry.id ↔ tab.id ∈ tabIds :=
    pair_mem_product.trans (and_iff_left (mem_layouts_of_tabsOf h))
  rw [hpair]

theorem spliceAcrossLayouts_tabsOf (policy : DestroyPolicy) (layoutId : String) :
    (spliceAcrossLayouts rt ids state tabIds policy).1.tabsOf layoutId =
      ((visits state tabIds).foldl (spliceCopy rt ids policy) ⟨state, [], 0⟩).state.tabsOf
        layoutId := by
  unfold spliceAcrossLayouts
  dsimp only
  split <;> rfl

variable (rt tabIds reason protectSessionIds) in
/-- **What a layout has after a removal** -/
theorem removeTabsInternal_tabsOf (hs : StoreOk state) (hnew : NewIdsFor ids state)
    (layoutId : String) : ∃ extra, Placeholders ids extra ∧
      ((removeTabsInternal rt ids state tabIds reason protectSessionIds).1.tabsOf layoutId).Perm
        (extra ++ (state.tabsOf layoutId).filter fun tab =>
          !doomed (destroyPolicy reason) tabIds tab) := by
  obtain ⟨-, hall⟩ := spliceCopies_spec rt (destroyPolicy reason) (visits state tabIds)
    ⟨state, [], 0⟩ (ready_of_new hs hnew)
  obtain ⟨extra, hextra, hperm⟩ := hall layoutId
  have hsame : (removeTabsInternal rt ids state tabIds reason protectSessionIds).1.tabsOf layoutId =
      ((visits state tabIds).foldl (spliceCopy rt ids (destroyPolicy reason))
        ⟨state, [], 0⟩).state.tabsOf layoutId := by
    unfold removeTabsInternal
    split
    next hnil =>
      subst hnil
      rfl
    next =>
      dsimp only
      split
      · exact spliceAcrossLayouts_tabsOf ..
      · exact spliceAcrossLayouts_tabsOf ..
  refine ⟨extra, hextra, ?_⟩
  rw [hsame]
  refine hperm.trans (.of_eq ?_)
  congr 1
  exact filter_congr fun tab htab => by rw [goes_visits htab]

variable (rt ids state tabIds reason protectSessionIds) in
theorem removeTabsInternal_effects : ∃ rest : List ResourceEffect,
    (removeTabsInternal rt ids state tabIds reason protectSessionIds).2 =
      relocateAndCollect rt state tabIds (destroyPolicy reason) reason protectSessionIds ++ rest ∧
        ∀ e ∈ rest, e.sessionId = none := by
  unfold removeTabsInternal
  split
  next hnil =>
    subst hnil
    refine ⟨[], rfl, nofun⟩
  next =>
    dsimp only
    split
    · exact ⟨[], (append_nil _).symm, nofun⟩
    refine ⟨_, rfl, fun e he => ?_⟩
    rcases mem_append.mp he with he | he
    · split at he
      · rw [mem_singleton.mp he]
        rfl
      · cases he
    · obtain ⟨tabId, -, he⟩ := mem_flatMap.mp he
      simp only [mem_cons, not_mem_nil, or_false] at he
      rcases he with rfl | rfl <;> rfl

/-! ## who is harmed -/

def PanesState.RefersTo (state : PanesState) (s : String) : Prop :=
  ∃ layoutId, ∃ tab ∈ state.tabsOf layoutId, s ∈ collectTerminalSessionIdsWithSaved tab

def DoomedSession (state : PanesState) (tabIds : List String) (policy : DestroyPolicy)
    (s : String) : Prop :=
  ∃ layoutId, ∃ tab ∈ state.tabsOf layoutId, doomed policy tabIds tab = true ∧
    s ∈ collectTerminalSessionIdsWithSaved tab

def KeptSession (state : PanesState) (tabIds : List String) (policy : DestroyPolicy)
    (s : String) : Prop :=
  ∃ layoutId, ∃ tab ∈ state.tabsOf layoutId, doomed policy tabIds tab = false ∧
    s ∈ collectTerminalSessionIdsWithSaved tab

/-- the session is killed, detached or disposed of -/
def ResourceEffect.harms (s : String) : ResourceEffect → Bool
  | .detachOutput s' | .detachExit s' | .killSession s' _ | .disposeSessionScopedResources s' =>
    s' == s
  | _ => false

/-- the copies that are listed and not exempt go, and only they; what only they refer to is
detached, and killed once where the policy kills; what another copy refers to is left alone -/
structure Unharmed (state after : PanesState) (tabIds : List String) (policy : DestroyPolicy)
    (effects : List ResourceEffect) : Prop where
  removed : ∀ layoutId, ∀ tab ∈ state.tabsOf layoutId,
    tab ∉ after.tabsOf layoutId ↔ tab.id ∈ tabIds ∧ exempt policy tab = false
  released : ∀ s, state.RefersTo s → ¬ after.RefersTo s →
    .detachOutput s ∈ effects ∧ .detachExit s ∈ effects ∧
      (policy.kills = true → effects.countP (ResourceEffect.isKillOf s) = 1)
  kept : ∀ s, after.RefersTo s → ∀ e ∈ effects, e.harms s = false

/-- no session of a copy that goes is one of a copy that stays, nor, where the policy kills, one
that the caller protects -/
def Separate (state : PanesState) (tabIds : List String) (policy : DestroyPolicy)
    (protectSessionIds : List String) : Prop :=
  ∀ s, DoomedSession state tabIds policy s →
    ¬ KeptSession state tabIds policy s ∧ (policy.kills = true → s ∉ protectSessionIds)

theorem ResourceEffect.sessionId_of_harms {e : ResourceEffect} (h : e.harms s = true) :
    e.sessionId = some s := by
  cases e with
  | detachOutput | detachExit | killSession | disposeSessionScopedResources =>
    exact congrArg some (by simpa [ResourceEffect.harms] using h)
  | _ => cases h

theorem mem_locatedTabs (hs : StoreOk state) : tab ∈ locatedTabs state tabIds ↔
    tab.id ∈ tabIds ∧ ∃ layoutId, tab ∈ state.tabsOf layoutId := by
  unfold locatedTabs
  rw [mem_filterMap]
  constructor
  · rintro ⟨visit, hvisit, hmap⟩
    obtain ⟨⟨h, panel, tab'⟩, hloc, rfl⟩ := Option.map_eq_some_iff.mp hmap
    obtain ⟨hh, hpanel, htab, hid⟩ := locateCopy_some hloc
    refine ⟨hid ▸ (mem_product.mp hvisit).1, visit.2, ?_⟩
    rw [PanesState.tabsOf_of_holder hh]
    exact mem_collectTabs.mpr ⟨panel, hpanel, htab⟩
  rintro ⟨hid, layoutId, htab⟩
  refine ⟨(tab.id, layoutId), mem_product.mpr ⟨hid, mem_layouts_of_tabsOf htab⟩, ?_⟩
  cases hloc : locateCopy state (tab.id, layoutId) with
  | none => exact absurd rfl (locateCopy_none hloc htab)
  | some =>
    obtain ⟨hh, hpanel, htab', hid'⟩ := locateCopy_some hloc
    rw [PanesState.tabsOf_of_holder hh] at htab
    have hsame := (hs.tree _ _ hh).tab_unique (mem_collectTabs.mpr ⟨_, hpanel, htab'⟩) htab hid'
    exact congrArg some hsame

variable (rt) in
theorem plan_doomed (hs : StoreOk state) :
    s ∈ (planTabDestroy rt ((locatedTabs state tabIds).filter
      fun tab => !exempt (destroyPolicy reason) tab) reason).sessionIds ↔
        DoomedSession state tabIds (destroyPolicy reason) s := by
  rw [mem_plan_sessionIds]
  show (∃ tab ∈ filter (fun tab => !exempt (destroyPolicy reason) tab) (filter _ _), _) ↔ _
  rw [filter_filter]
  simp only [Bool.and_self, mem_filter, mem_locatedTabs hs, Bool.not_eq_true']
  constructor
  · rintro ⟨tab, ⟨⟨hid, layoutId, htab⟩, hstay⟩, hs⟩
    exact ⟨layoutId, tab, htab, doomed_iff.mpr ⟨hid, hstay⟩, hs⟩
  · rintro ⟨layoutId, tab, htab, hdoomed, hs⟩
    obtain ⟨hid, hstay⟩ := doomed_iff.mp hdoomed
    exact ⟨tab, ⟨⟨hid, layoutId, htab⟩, hstay⟩, hs⟩

theorem doomedTabs_ne_nil (hs : StoreOk state)
    (h : DoomedSession state tabIds (destroyPolicy reason) s) :
    (locatedTabs state tabIds).filter (fun tab => !exempt (destroyPolicy reason) tab) ≠ [] := by
  obtain ⟨layoutId, tab, htab, hdoomed, -⟩ := h
  obtain ⟨hid, hstay⟩ := doomed_iff.mp hdoomed
  refine ne_nil_of_mem (mem_filter.mpr ⟨(mem_locatedTabs hs).mpr ⟨hid, layoutId, htab⟩, ?_⟩)
  rw [hstay]
  rfl

theorem doomed_of_harms (hs : StoreOk state) {e : ResourceEffect}
    (he : e ∈ (removeTabsInternal rt ids state tabIds reason protectSessionIds).2)
    (hharm : e.harms s = true) : DoomedSession state tabIds (destroyPolicy reason) s := by
  have hsession := ResourceEffect.sessionId_of_harms hharm
  obtain ⟨rest, heq, hrest⟩ := removeTabsInternal_effects rt ids state tabIds reason protectSessionIds
  rw [heq] at he
  rcases mem_append.mp he with he | he
  · unfold relocateAndCollect at he
    dsimp only at he
    split at he
    · cases he
    · exact (plan_doomed rt hs).mp (commit_session he hsession)
  · rw [hrest e he] at hsession
    cases hsession

variable (rt ids protectSessionIds) in
theorem detaches_of_doomed (hs : StoreOk state)
    (h : DoomedSession state tabIds (destroyPolicy reason) s) :
    .detachOutput s ∈ (removeTabsInternal rt ids state tabIds reason protectSessionIds).2 ∧
      .detachExit s ∈ (removeTabsInternal rt ids state tabIds reason protectSessionIds).2 := by
  obtain ⟨rest, heq, -⟩ := removeTabsInternal_effects rt ids state tabIds reason protectSessionIds
  have hdetached := commit_detaches (protectSessionIds ++
    ((locatedTabs state tabIds).filter (exempt (destroyPolicy reason))).flatMap
      collectTerminalSessionIdsWithSaved) ((plan_doomed rt hs).mpr h)
  rw [heq]
  unfold relocateAndCollect
  rw [if_neg (doomedTabs_ne_nil hs h)]
  exact hdetached.imp (mem_append_left _) (mem_append_left _)

theorem kills_of_doomed (hs : StoreOk state)
    (h : DoomedSession state tabIds (destroyPolicy reason) s)
    (hkept : ¬ KeptSession state tabIds (destroyPolicy reason) s) :
    (removeTabsInternal rt ids state tabIds reason protectSessionIds).2.countP
        (ResourceEffect.isKillOf s) =
      if (destroyPolicy reason).kills ∧ s ∉ protectSessionIds then 1 else 0 := by
  obtain ⟨rest, heq, hrest⟩ := removeTabsInternal_effects rt ids state tabIds reason protectSessionIds
  have hpinned : s ∉ ((locatedTabs state tabIds).filter (exempt (destroyPolicy reason))).flatMap
      collectTerminalSessionIdsWithSaved := by
    intro hmem
    obtain ⟨tab, htab, hs'⟩ := mem_flatMap.mp hmem
    obtain ⟨hloc, hexempt⟩ := mem_filter.mp htab
    obtain ⟨-, layoutId, htab⟩ := (mem_locatedTabs hs).mp hloc
    refine hkept ⟨layoutId, tab, htab, ?_, hs'⟩
    rw [doomed, hexempt, Bool.not_true, Bool.and_false]
  have hnone : rest.countP (ResourceEffect.isKillOf s) = 0 := by
    refine countP_kills_eq_zero fun e he reason heq => ?_
    have hsession := hrest e he
    rw [heq] at hsession
    cases hsession
  rw [heq, countP_append, hnone, Nat.add_zero]
  unfold relocateAndCollect
  rw [if_neg (doomedTabs_ne_nil hs h), commit_kills ((plan_doomed rt hs).mpr h)]
  refine if_congr (and_congr_right fun _ => not_congr ?_) rfl rfl
  rw [mem_append, or_iff_left hpinned]

theorem mem_tabsOf_after (hs : StoreOk state) (hnew : NewIdsFor ids state)
    (htab : tab ∈ state.tabsOf layoutId) :
    tab ∈ (removeTabsInternal rt ids state tabIds reason protectSessionIds).1.tabsOf layoutId ↔
      doomed (destroyPolicy reason) tabIds tab = false := by
  obtain ⟨extra, hextra, hperm⟩ := removeTabsInternal_tabsOf rt tabIds reason protectSessionIds hs hnew
    layoutId
  have hold : tab ∉ extra := by
    intro hmem
    obtain ⟨k, rfl⟩ := hextra tab hmem
    cases hh : state.holder layoutId with
    | none =>
      rw [PanesState.tabsOf, hh] at htab
      cases htab
    | some h =>
      rw [PanesState.tabsOf_of_holder hh] at htab
      refine hnew.new layoutId h hh k (mem_append_right _ ?_)
      rw [tabIds_eq_map]
      exact mem_map_of_mem htab
  rw [hperm.mem_iff, mem_append, or_iff_right hold, mem_filter, and_iff_right htab,
    Bool.not_eq_true']

theorem refersTo_after (hs : StoreOk state) (hnew : NewIdsFor ids state) :
    (removeTabsInternal rt ids state tabIds reason protectSessionIds).1.RefersTo s ↔
      KeptSession state tabIds (destroyPolicy reason) s := by
  constructor
  · rintro ⟨layoutId, tab, htab, hs'⟩
    obtain ⟨extra, hextra, hperm⟩ := removeTabsInternal_tabsOf rt tabIds reason protectSessionIds hs
      hnew layoutId
    rcases mem_append.mp (hperm.mem_iff.mp htab) with hfresh | hold
    · obtain ⟨k, rfl⟩ := hextra tab hfresh
      rw [placeholderTab_references] at hs'
      cases hs'
    · obtain ⟨hmem, hstay⟩ := mem_filter.mp hold
      exact ⟨layoutId, tab, hmem, by simpa using hstay, hs'⟩
  · rintro ⟨layoutId, tab, htab, hstay, hs'⟩
    exact ⟨layoutId, tab, (mem_tabsOf_after hs hnew htab).mpr hstay, hs'⟩

/-- **Tabs removed**: the copies that stay are unharmed exactly if they share no session with those
that go. -/
theorem remaining_unharmed (rt : Runtime) (ids : Nat → String) (state : PanesState)
    (tabIds : List String) (reason : DestroyReason) (protectSessionIds : List String)
    (hs : StoreOk state) (hnew : NewIdsFor ids state) :
    Unharmed state (removeTabsInternal rt ids state tabIds reason protectSessionIds).1 tabIds
        (destroyPolicy reason)
        (removeTabsInternal rt ids state tabIds reason protectSessionIds).2 ↔
      Separate state tabIds (destroyPolicy reason) protectSessionIds := by
  constructor
  · intro h s hdoomed
    have hnot : ¬ KeptSession state tabIds (destroyPolicy reason) s := by
      intro hkept
      have hharm := h.kept s ((refersTo_after hs hnew).mpr hkept) _ (detaches_of_doomed rt ids protectSessionIds hs hdoomed).1
      simp [ResourceEffect.harms] at hharm
    refine ⟨hnot, fun hkills hprotect => ?_⟩
    have href : state.RefersTo s := by
      obtain ⟨layoutId, tab, htab, -, hs'⟩ := hdoomed
      exact ⟨layoutId, tab, htab, hs'⟩
    have hgone : ¬ (removeTabsInternal rt ids state tabIds reason
        protectSessionIds).1.RefersTo s := fun hafter => hnot ((refersTo_after hs hnew).mp hafter)
    have hone := (h.released s href hgone).2.2 hkills
    rw [kills_of_doomed hs hdoomed hnot, if_neg fun h => h.2 hprotect] at hone
    cases hone
  intro h
  refine ⟨fun layoutId tab htab => ?_, fun s href hgone => ?_, fun s hafter e he => ?_⟩
  · rw [mem_tabsOf_after hs hnew htab, Bool.not_eq_false, doomed_iff]
  · rw [refersTo_after hs hnew] at hgone
    obtain ⟨layoutId, tab, htab, hs'⟩ := href
    have hdoomed : DoomedSession state tabIds (destroyPolicy reason) s := by
      refine ⟨layoutId, tab, htab, ?_, hs'⟩
      by_contra hstay
      exact hgone ⟨layoutId, tab, htab, Bool.not_eq_true _ ▸ hstay, hs'⟩
    obtain ⟨hout, hexit⟩ := detaches_of_doomed rt ids protectSessionIds hs hdoomed
    refine ⟨hout, hexit, fun hkills => ?_⟩
    rw [kills_of_doomed hs hdoomed hgone, if_pos ⟨hkills, (h s hdoomed).2 hkills⟩]
  · by_contra hharm
    rw [Bool.not_eq_false] at hharm
    exact (h s (doomed_of_harms hs he hharm)).1 ((refersTo_after hs hnew).mp hafter)

end

/-! ## two copies of one tab -/

def plainRuntime : Runtime := ⟨true, [], none, fun _ => none⟩

def tabCopy (pinned : Bool) (sessionId : String) : Tab where
  id := "tab"
  pinned := pinned
  projectPath := "/p"
  content := .terminal (.ofLeaf
    { freshLeaf "1" ⟨none, none, false⟩ .shell with sessionId := some sessionId })

def copyOf (paneId : String) (pinned : Bool) (sessionId : String) : Panel :=
  ⟨paneId, [tabCopy pinned sessionId], "tab"⟩

/-- a tab pinned in the layout that is shown, and a copy of it in another layout -/
def forkedState (sessionId : String) : PanesState where
  rootPane := .leaf (copyOf "pane-a" true "s")
  activePaneId := "pane-a"
  layouts :=
    [{ id := "a", name := "A", kind := some .normal, workspaceName := none, lastActiveAt := none
       rootPane := .leaf (copyOf "pane-a" true "s"), activePaneId := "pane-a" },
     { id := "b", name := "B", kind := some .normal, workspaceName := none, lastActiveAt := none
       rootPane := .leaf (copyOf "pane-b" false sessionId), activePaneId := "pane-b" }]
  currentLayoutId := "a"
  closedTabs := []
  poppedOutTabs := []

theorem forkedState_holder {sessionId layoutId : String} {h : Holder}
    (hh : (forkedState sessionId).holder layoutId = some h) :
    ∃ paneId pinned s, (paneId = "pane-a" ∨ paneId = "pane-b") ∧
      h = ⟨.leaf (copyOf paneId pinned s), paneId⟩ := by
  obtain ⟨l, hl, -, rfl⟩ := PanesState.mem_of_holder hh
  rcases mem_cons.mp hl with rfl | hl
  · exact ⟨"pane-a", true, "s", .inl rfl, rfl⟩
  · cases mem_singleton.mp hl
    exact ⟨"pane-b", false, sessionId, .inr rfl, rfl⟩

theorem forkedState_ok (sessionId : String) : StoreOk (forkedState sessionId) where
  layout_ids := by
    show ["a", "b"].Nodup
    decide
  tree := by
    intro layoutId h hh
    obtain ⟨paneId, pinned, s, -, rfl⟩ := forkedState_holder hh
    refine ⟨(holds_leaf _ _ _).mpr trivial, ?_, ?_, fun p hp _ => ?_⟩
    · rw [nodeIds, collect_leaf]
      exact nodup_singleton _
    · rw [tabIds, collect_leaf]
      exact nodup_singleton _
    · rw [collectPanels, leaves, collect_leaf, mem_singleton] at hp
      subst hp
      exact ⟨_, mem_singleton.mpr rfl, rfl⟩

theorem forkedState_new (sessionId : String) : NewIdsFor (letters 'x') (forkedState sessionId) where
  distinct := letters_injective 'x'
  new := by
    intro layoutId h hh k hmem
    obtain ⟨paneId, pinned, s, hpane, rfl⟩ := forkedState_holder hh
    have hids : treeIds (.leaf (copyOf paneId pinned s)) = [paneId, "tab"] := by
      rfl
    have hhead : (letters 'x' k).toList.head? = some 'x' := by
      simp [letters, replicate_succ]
    rw [hids, mem_cons, mem_singleton] at hmem
    rcases hmem with hid | hid
    · rcases hpane with rfl | rfl <;>
      · rw [hid] at hhead
        cases hhead
    · rw [hid] at hhead
      cases hhead

theorem forkedState_tabs (sessionId : String) :
    (forkedState sessionId).tabsOf "a" = [tabCopy true "s"] ∧
      (forkedState sessionId).tabsOf "b" = [tabCopy false sessionId] := by
  constructor
  · rw [PanesState.tabsOf_of_holder (h := ⟨.leaf (copyOf "pane-a" true "s"), "pane-a"⟩) rfl,
      collectTabs_leaf]
    rfl
  · rw [PanesState.tabsOf_of_holder (h := ⟨.leaf (copyOf "pane-b" false sessionId), "pane-b"⟩) rfl,
      collectTabs_leaf]
    rfl

theorem mem_forkedState {sessionId layoutId : String} {tab : Tab}
    (h : tab ∈ (forkedState sessionId).tabsOf layoutId) :
    tab = tabCopy true "s" ∨ tab = tabCopy false sessionId := by
  obtain ⟨l, hl, rfl⟩ := mem_map.mp (mem_layouts_of_tabsOf h)
  rcases mem_cons.mp hl with rfl | hl
  · exact .inl (mem_singleton.mp ((forkedState_tabs sessionId).1 ▸ h))
  · cases mem_singleton.mp hl
    exact .inr (mem_singleton.mp ((forkedState_tabs sessionId).2 ▸ h))

/-- the copy that is pinned loses its terminal when the other one is closed -/
theorem pinned_copy_detached : ¬ Unharmed (forkedState "s")
    (removeTabsInternal plainRuntime (letters 'x') (forkedState "s") ["tab"]
      .userClose []).1 ["tab"] (destroyPolicy .userClose)
    (removeTabsInternal plainRuntime (letters 'x') (forkedState "s") ["tab"] .userClose []).2 := by
  intro h
  have hb : tabCopy false "s" ∈ (forkedState "s").tabsOf "b" :=
    (forkedState_tabs "s").2 ▸ mem_singleton.mpr rfl
  have ha : tabCopy true "s" ∈ (forkedState "s").tabsOf "a" :=
    (forkedState_tabs "s").1 ▸ mem_singleton.mpr rfl
  have hdoomed : DoomedSession (forkedState "s") ["tab"] (destroyPolicy .userClose) "s" :=
    ⟨"b", _, hb, by decide, by decide⟩
  have hkept : KeptSession (forkedState "s") ["tab"] (destroyPolicy .userClose) "s" :=
    ⟨"a", _, ha, by decide, by decide⟩
  have hharm := h.kept "s" ((refersTo_after (forkedState_ok "s") (forkedState_new "s")).mpr hkept)
    _ (detaches_of_doomed _ _ _ (forkedState_ok "s") hdoomed).1
  cases hharm

/-- with sessions of their own, the copies do not harm each other -/
theorem remaining_unharmed_forked : Unharmed (forkedState "other")
    (removeTabsInternal plainRuntime (letters 'x') (forkedState "other") ["tab"]
      .userClose []).1 ["tab"] (destroyPolicy .userClose)
    (removeTabsInternal plainRuntime (letters 'x') (forkedState "other") ["tab"]
      .userClose []).2 := by
  refine (remaining_unharmed _ _ _ _ _ _ (forkedState_ok _) (forkedState_new _)).mpr ?_
  rintro s ⟨layoutId, tab, htab, hgo, hs⟩
  refine ⟨?_, fun _ => not_mem_nil⟩
  rintro ⟨layoutId', tab', htab', hstay, hs'⟩
  rcases mem_forkedState htab with rfl | rfl
  · cases hgo
  rcases mem_forkedState htab' with rfl | rfl
  · have hother : s = "other" := mem_singleton.mp hs
    rw [hother] at hs'
    exact absurd hs' (by decide)
  · cases hstay

end CcPanes.Panes

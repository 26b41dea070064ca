import CcPanes.Panes.TabMovesStore

/-!
# The writes of a move between layouts
-/

namespace CcPanes.Panes
open RoseTree List

namespace PanesState

theorem layoutTree_some {state : PanesState} {layoutId : String} {root : PaneNode}
    (h : state.layoutTree layoutId = some root) :
    layoutId ∈ state.normalIds ∧ ∃ holder, state.holder layoutId = some holder ∧
      holder.rootPane = root := by
  obtain ⟨l, hfind, hl⟩ := Option.bind_eq_some_iff.mp h
  have hid : l.id = layoutId := by simpa using find?_some hfind
  split at hl
  · cases hl
  next hstarred =>
  refine ⟨?_, state.holderOf l, ?_, Option.some.inj hl⟩
  · rw [← hid]
    refine mem_map_of_mem (mem_filter.mpr ⟨mem_of_find?_eq_some hfind, ?_⟩)
    simp [isNormalLayout, hstarred]
  · rw [holder, hfind]
    rfl

theorem layoutTree_sync {state : PanesState} (layoutId : String) :
    state.syncWorkingCopyToCurrentLayout.layoutTree layoutId = state.layoutTree layoutId := by
  unfold layoutTree syncWorkingCopyToCurrentLayout
  rw [find_map fun l => by split <;> rfl]
  cases hfind : state.layouts.find? (·.id == layoutId) with
  | none => rfl
  | some l =>
    simp only [Option.map_some, Option.bind_some]
    split
    · next hsync =>
      unfold holderOf
      rw [if_pos hsync.1, if_pos hsync.1]
      rfl
    · rfl

theorem findTabAcrossLayouts_eq (state : PanesState) (tabId : String) :
    state.findTabAcrossLayouts tabId = state.normalIds.findSome? fun layoutId =>
      (state.layoutTree layoutId).bind fun tree =>
        (findTabLocation tree tabId).map fun location => ⟨layoutId, location.1, location.2⟩ := by
  unfold findTabAcrossLayouts normalIds
  rw [findSome?_map]
  rfl

theorem resolve_sync {state : PanesState} (fromPaneId toLayoutId tabId : String)
    (toPaneId : Option String) :
    state.syncWorkingCopyToCurrentLayout.resolveLayoutMove fromPaneId toLayoutId tabId toPaneId =
      state.resolveLayoutMove fromPaneId toLayoutId tabId toPaneId := by
  unfold resolveLayoutMove
  rw [layoutTree_sync, findTabAcrossLayouts_eq, findTabAcrossLayouts_eq, normalIds_sync]
  simp only [layoutTree_sync]

end PanesState

/-- what `moveTabToLayoutPane` has found: the trees of both layouts, and the panel in the second -/
structure Resolved (state : PanesState) (fromPaneId toLayoutId tabId : String) (m : LayoutMove)
    (s t : Holder) (q : Panel) : Prop where
  sourceId : m.layoutId ∈ state.normalIds
  source : state.holder m.layoutId = some s
  panel : m.panel ∈ collectPanels s.rootPane
  panelId : m.panel.id = fromPaneId
  tab : findTab m.panel tabId = some (m.tabIndex, m.tab)
  targetId : toLayoutId ∈ state.normalIds
  target : state.holder toLayoutId = some t
  mem : q ∈ collectPanels t.rootPane
  id : q.id = m.targetPaneId
  apart : m.layoutId = toLayoutId → fromPaneId ≠ m.targetPaneId

theorem resolved {state : PanesState} (hok : MovesOk state) {fromPaneId toLayoutId tabId : String}
    {toPaneId : Option String} {m : LayoutMove}
    (h : state.resolveLayoutMove fromPaneId toLayoutId tabId toPaneId = some m) :
    ∃ s t q, Resolved state fromPaneId toLayoutId tabId m s t q := by
  obtain ⟨targetTree, htree, hrest⟩ := Option.bind_eq_some_iff.mp h
  obtain ⟨targetPaneId, -, hrest'⟩ := Option.bind_eq_some_iff.mp hrest
  split at hrest'
  · next q hq =>
    obtain ⟨location, hlocation, hguards⟩ := Option.bind_eq_some_iff.mp hrest'
    obtain ⟨layoutId, -, hinner⟩ := exists_of_findSome?_eq_some hlocation
    obtain ⟨tree, hsource, hmap⟩ := Option.bind_eq_some_iff.mp hinner
    obtain ⟨⟨panel, tab⟩, hfind, rfl⟩ := Option.map_eq_some_iff.mp hmap
    obtain ⟨hsourceId, s, hholder, rfl⟩ := PanesState.layoutTree_some hsource
    obtain ⟨htargetId, t, hholder', rfl⟩ := PanesState.layoutTree_some htree
    split at hguards
    · cases hguards
    next hfrom =>
    split at hguards
    · cases hguards
    next hapart =>
    obtain ⟨found, hfound, rfl⟩ := Option.map_eq_some_iff.mp hguards
    have hnodup := (hok.store.tree _ _ hholder').node_ids
    have hpanel := (findTabLocation_some hfind).1
    have hid := not_not.mp hfrom
    exact ⟨s, t, q, hsourceId, hholder, hpanel, hid, hfound, htargetId, hholder',
      ((findPane_iff hnodup).mp hq).1, rfl, fun hl hq => hapart ⟨hl, hid.trans hq⟩⟩
  · cases hrest'

/-! ## the writes -/

/-- the tabs `x` are taken out of the layouts and the tabs `y` put in, and the others stay -/
structure Carried (state state' : PanesState) (tabId : String) (x y : List Tab) : Prop where
  ids : state'.normalIds = state.normalIds
  tabs : (x ++ state'.normalTabs).Perm (y ++ state.normalTabs)
  others : ∀ layoutId ∈ state.normalIds,
    state'.otherTabsOf tabId layoutId = state.otherTabsOf tabId layoutId

section
variable {state state' state'' : PanesState} {tabId layoutId : String} {x y z : List Tab}

theorem Carried.trans (h : Carried state state' tabId x y) (h' : Carried state' state'' tabId z x) :
    Carried state state'' tabId z y :=
  ⟨h'.ids.trans h.ids, h'.tabs.trans h.tabs,
    fun layoutId hl => (h'.others layoutId (h.ids ▸ hl)).trans (h.others layoutId hl)⟩

theorem Carried.kept (h : Carried state state' tabId [] []) : Kept state state' tabId := by
  refine ⟨⟨id, .inl rfl, ?_⟩, h.others⟩
  rw [refreshed_same, map_id']
  exact h.tabs

theorem carried_of_holder (hnodup : state.normalIds.Nodup)
    (hids : state'.normalIds = state.normalIds) (hlayout : layoutId ∈ state.normalIds) {h h' : Holder}
    (hh : state.holder layoutId = some h) (hh' : state'.holder layoutId = some h')
    (hother : ∀ id, id ≠ layoutId → state'.holder id = state.holder id)
    (hothers : otherTabs tabId h'.rootPane = otherTabs tabId h.rootPane)
    (htabs : (x ++ collectTabs h'.rootPane).Perm (y ++ collectTabs h.rootPane)) :
    Carried state state' tabId x y := by
  refine ⟨hids, PanesState.normalTabs_update hnodup hids hlayout hother ?_, fun id _ => ?_⟩
  · rw [PanesState.tabsOf_of_holder hh, PanesState.tabsOf_of_holder hh']
    exact htabs
  by_cases hid : id = layoutId
  · subst hid
    unfold PanesState.otherTabsOf
    rw [hh, hh']
    exact hothers
  · exact PanesState.otherTabsOf_congr (hother id hid)

theorem carried_write (hnodup : state.normalIds.Nodup) (hlayout : layoutId ∈ state.normalIds)
    {h : Holder} (hh : state.holder layoutId = some h) {write : Holder → Holder}
    (hothers : otherTabs tabId (write h).rootPane = otherTabs tabId h.rootPane)
    (htabs : (x ++ collectTabs (write h).rootPane).Perm (y ++ collectTabs h.rootPane)) :
    Carried state (state.modifyLayout layoutId write) tabId x y := by
  refine carried_of_holder hnodup PanesState.normalIds_modifyLayout hlayout hh ?_
    (fun id hne => PanesState.holder_modifyLayout_of_ne hne) hothers htabs
  rw [PanesState.holder_modifyLayout_self, hh]
  rfl

theorem carried_sync : Carried state state.syncWorkingCopyToCurrentLayout tabId [] [] := by
  refine ⟨PanesState.normalIds_sync, .of_eq ?_, fun layoutId _ =>
    PanesState.otherTabsOf_congr (PanesState.holder_sync layoutId)⟩
  unfold PanesState.normalTabs
  rw [PanesState.normalIds_sync]
  exact flatMap_congr fun layoutId _ => PanesState.tabsOf_congr (PanesState.holder_sync layoutId)

theorem carried_working (hnodup : state.normalIds.Nodup)
    (hcurrent : state.currentLayoutId ∈ state.normalIds) (h : Holder)
    (hothers : otherTabs tabId h.rootPane = otherTabs tabId state.rootPane)
    (htabs : (x ++ collectTabs h.rootPane).Perm (y ++ collectTabs state.rootPane)) :
    Carried state { state with toHolder := h } tabId x y := by
  have hh := PanesState.holder_current hcurrent
  refine carried_of_holder hnodup rfl hcurrent hh ?_
    (fun id hne => PanesState.holder_working_of_ne h hne) hothers htabs
  rw [PanesState.holder_working, hh]
  rfl

end

/-! ## the tab carried over -/

namespace LayoutMove

def take (m : LayoutMove) (fromPaneId : String) (h : Holder) : Holder :=
  ⟨modifyPanel h.rootPane fromPaneId (dropTab m.tabIndex), h.activePaneId⟩

def give (m : LayoutMove) (toIndex : Option Int) (h : Holder) : Holder :=
  ⟨modifyPanel h.rootPane m.targetPaneId (insertTab m.tab toIndex), m.targetPaneId⟩

def show_ (m : LayoutMove) (fromPaneId : String) (h : Holder) : Holder :=
  ⟨modifyPanel h.rootPane fromPaneId (showTabAt m.tabIndex), fromPaneId⟩

/-- the state in which the tab has changed its panel -/
def carry (m : LayoutMove) (state : PanesState) (fromPaneId toLayoutId : String)
    (toIndex : Option Int) : PanesState :=
  (state.syncWorkingCopyToCurrentLayout.modifyLayout m.layoutId (m.take fromPaneId)).modifyLayout
    toLayoutId (m.give toIndex)

end LayoutMove

section
variable {ids : Nat → String} {state : PanesState} {fromPaneId toLayoutId tabId : String}
  {toPaneId : Option String} {toIndex : Option Int} {m : LayoutMove} {s t : Holder} {q : Panel}

theorem moveTabToLayoutPane_cases
    (h : state.resolveLayoutMove fromPaneId toLayoutId tabId toPaneId = some m) :
    (1 < m.panel.tabs.length ∧
      state.moveTabToLayoutPane ids fromPaneId toLayoutId tabId toPaneId toIndex =
        (let shown := (m.carry state fromPaneId toLayoutId toIndex).modifyLayout m.layoutId
          (m.show_ fromPaneId)
        if toLayoutId = state.currentLayoutId then { shown with activePaneId := m.targetPaneId }
        else shown)) ∨
    (m.panel.tabs.length ≤ 1 ∧ m.layoutId = state.currentLayoutId ∧
      state.moveTabToLayoutPane ids fromPaneId toLayoutId tabId toPaneId toIndex =
        (m.carry state fromPaneId toLayoutId toIndex).removeEmptyPane ids fromPaneId) ∨
    (m.panel.tabs.length ≤ 1 ∧ m.layoutId ≠ state.currentLayoutId ∧
      state.moveTabToLayoutPane ids fromPaneId toLayoutId tabId toPaneId toIndex =
        m.carry state fromPaneId toLayoutId toIndex) := by
  unfold PanesState.moveTabToLayoutPane
  dsimp only
  rw [PanesState.resolve_sync, h]
  dsimp only
  by_cases hlen : m.panel.tabs.length > 1
  · rw [if_pos hlen]
    exact .inl ⟨hlen, rfl⟩
  rw [if_neg hlen]
  by_cases hcurrent : m.layoutId = state.currentLayoutId
  · exact .inr (.inl ⟨Nat.not_lt.mp hlen, hcurrent, if_pos hcurrent⟩)
  · exact .inr (.inr ⟨Nat.not_lt.mp hlen, hcurrent, if_neg hcurrent⟩)

def targetTree (m : LayoutMove) (fromPaneId toLayoutId : String) (t : Holder) : Holder :=
  if m.layoutId = toLayoutId then m.take fromPaneId t else t

theorem take_nodeIds (h : Holder) :
    nodeIds (m.take fromPaneId h).rootPane = nodeIds h.rootPane := nodeIds_drop _ _ _

theorem give_nodeIds (h : Holder) :
    nodeIds (m.give toIndex h).rootPane = nodeIds h.rootPane := nodeIds_insert _ _ _ _

theorem mem_targetTree (hok : MovesOk state) (hr : Resolved state fromPaneId toLayoutId tabId m s t q) :
    q ∈ collectPanels (targetTree m fromPaneId toLayoutId t).rootPane ∧
      (nodeIds (targetTree m fromPaneId toLayoutId t).rootPane).Nodup := by
  have hnodup := (hok.store.tree _ _ hr.target).node_ids
  unfold targetTree
  split
  · next hsame =>
    have hmem := mem_modifyPanel (dropTab m.tabIndex) fromPaneId hnodup hr.mem
    rw [atPanel_of_ne fun heq => hr.apart hsame (heq.symm.trans hr.id)] at hmem
    exact ⟨hmem, take_nodeIds t ▸ hnodup⟩
  · exact ⟨hr.mem, hnodup⟩

theorem taken_holder (hr : Resolved state fromPaneId toLayoutId tabId m s t q) :
    (state.syncWorkingCopyToCurrentLayout.modifyLayout m.layoutId (m.take fromPaneId)).holder
      toLayoutId = some (targetTree m fromPaneId toLayoutId t) := by
  unfold targetTree
  split
  · next hsame =>
    rw [← hsame, PanesState.holder_modifyLayout_self, PanesState.holder_sync, hsame, hr.target]
    rfl
  · next hne =>
    rw [PanesState.holder_modifyLayout_of_ne (Ne.symm hne), PanesState.holder_sync, hr.target]

theorem carry_holder (toIndex : Option Int)
    (hr : Resolved state fromPaneId toLayoutId tabId m s t q) :
    (m.carry state fromPaneId toLayoutId toIndex).holder toLayoutId =
      some (m.give toIndex (targetTree m fromPaneId toLayoutId t)) := by
  rw [LayoutMove.carry, PanesState.holder_modifyLayout_self, taken_holder hr]
  rfl

/-- **The tab is taken out of one layout and put into the other.** -/
theorem carried (toIndex : Option Int) (hok : MovesOk state)
    (hr : Resolved state fromPaneId toLayoutId tabId m s t q) :
    Carried state (m.carry state fromPaneId toLayoutId toIndex) tabId [] [] := by
  have hids := PanesState.normalIds_nodup hok.store
  have hsnodup := (hok.store.tree _ _ hr.source).node_ids
  obtain ⟨hq, htnodup⟩ := mem_targetTree hok hr
  have hsync : Carried state state.syncWorkingCopyToCurrentLayout tabId [] [] := carried_sync
  have htake : Carried state.syncWorkingCopyToCurrentLayout
      (state.syncWorkingCopyToCurrentLayout.modifyLayout m.layoutId (m.take fromPaneId)) tabId
      [m.tab] [] := by
    obtain ⟨hothers, htabs⟩ := dropped hsnodup hr.panel hr.tab
    rw [hr.panelId] at hothers htabs
    exact carried_write (hsync.ids ▸ hids) (hsync.ids ▸ hr.sourceId)
      ((PanesState.holder_sync _).trans hr.source) hothers htabs
  have hgive : Carried
      (state.syncWorkingCopyToCurrentLayout.modifyLayout m.layoutId (m.take fromPaneId))
      (m.carry state fromPaneId toLayoutId toIndex) tabId [] [m.tab] := by
    obtain ⟨hothers, htabs⟩ := inserted toIndex htnodup hq (findTab_spec hr.tab).2
    rw [hr.id] at hothers htabs
    exact carried_write (htake.ids.trans hsync.ids ▸ hids) (htake.ids.trans hsync.ids ▸ hr.targetId)
      (taken_holder hr) hothers htabs
  exact (hsync.trans htake).trans hgive

def sourceTree (m : LayoutMove) (fromPaneId toLayoutId : String) (toIndex : Option Int)
    (s : Holder) : Holder :=
  if m.layoutId = toLayoutId then m.give toIndex (m.take fromPaneId s) else m.take fromPaneId s

theorem carry_source (toIndex : Option Int)
    (hr : Resolved state fromPaneId toLayoutId tabId m s t q) :
    (m.carry state fromPaneId toLayoutId toIndex).holder m.layoutId =
      some (sourceTree m fromPaneId toLayoutId toIndex s) := by
  have htaken : (state.syncWorkingCopyToCurrentLayout.modifyLayout m.layoutId
      (m.take fromPaneId)).holder m.layoutId = some (m.take fromPaneId s) := by
    rw [PanesState.holder_modifyLayout_self, PanesState.holder_sync, hr.source]
    rfl
  unfold sourceTree LayoutMove.carry
  split
  · next hsame =>
    rw [← hsame, PanesState.holder_modifyLayout_self, htaken]
    rfl
  · next hne => rw [PanesState.holder_modifyLayout_of_ne hne, htaken]

structure SourceTree (m : LayoutMove) (fromPaneId : String) (s s' : Holder) : Prop where
  ids : nodeIds s'.rootPane = nodeIds s.rootPane
  splits : SplitsOk s'.rootPane ↔ SplitsOk s.rootPane
  alone : Alone s'.rootPane fromPaneId ↔ Alone s.rootPane fromPaneId
  count : (collectPanels s'.rootPane).length = (collectPanels s.rootPane).length
  panel : dropTab m.tabIndex m.panel ∈ collectPanels s'.rootPane

theorem take_source (hok : MovesOk state) (hr : Resolved state fromPaneId toLayoutId tabId m s t q) :
    SourceTree m fromPaneId s (m.take fromPaneId s) := by
  have hnodup := (hok.store.tree _ _ hr.source).node_ids
  refine ⟨take_nodeIds s, modifyPanel_splits, alone_modifyPanel hnodup (dropTab_id _) _ _,
    modifyPanel_count hnodup _ _, ?_⟩
  have hmem := mem_modifyPanel (dropTab m.tabIndex) fromPaneId hnodup hr.panel
  rwa [atPanel_of_eq _ hr.panelId] at hmem

theorem sourceTree_spec (toIndex : Option Int) (hok : MovesOk state)
    (hr : Resolved state fromPaneId toLayoutId tabId m s t q) :
    SourceTree m fromPaneId s (sourceTree m fromPaneId toLayoutId toIndex s) := by
  obtain ⟨hids, hsplits, halone, hcount, hpanel⟩ := take_source hok hr
  unfold sourceTree
  split
  · next hsame =>
    have hnodup := hids ▸ (hok.store.tree _ _ hr.source).node_ids
    refine ⟨(give_nodeIds _).trans hids, modifyPanel_splits.trans hsplits,
      (alone_modifyPanel hnodup (insertTab_id _ _) _ _).trans halone,
      (modifyPanel_count hnodup _ _).trans hcount, ?_⟩
    have hmem := mem_modifyPanel (insertTab m.tab toIndex) m.targetPaneId hnodup hpanel
    have hne : (dropTab m.tabIndex m.panel).id ≠ m.targetPaneId :=
      fun heq => hr.apart hsame (hr.panelId.symm.trans heq)
    rwa [atPanel_of_ne hne] at hmem
  · exact ⟨hids, hsplits, halone, hcount, hpanel⟩

theorem dropTab_nil (hr : Resolved state fromPaneId toLayoutId tabId m s t q)
    (hlen : m.panel.tabs.length ≤ 1) :
    (dropTab m.tabIndex m.panel).tabs = [] ∧ m.panel.tabs.length = 1 := by
  have hperm := (findTab_spec hr.tab).1.length_eq
  rw [length_cons] at hperm
  refine ⟨eq_nil_of_length_eq_zero ?_, ?_⟩
  · show (m.panel.tabs.eraseIdx m.tabIndex).length = 0
    omega
  · omega

end

end CcPanes.Panes

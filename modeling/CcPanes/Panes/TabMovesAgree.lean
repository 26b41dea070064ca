import CcPanes.Panes.TabMovesKeep

/-!
# The moves of a tab
-/

namespace CcPanes.Panes
open RoseTree List Option

section
variable {state : PanesState} {fromPaneId toPaneId tabId layoutId : String} {p q : Panel}
  {tabIndex : Nat} {tab : Tab}

theorem PanesState.layoutTree_normal (hok : StoreOk state) (h : layoutId ∈ state.normalIds) :
    state.layoutTree layoutId = (state.holder layoutId).map Holder.rootPane := by
  obtain ⟨l, hl, rfl⟩ := mem_map.mp h
  obtain ⟨hmem, hnormal⟩ := mem_filter.mp hl
  have hfind : state.layouts.find? (·.id == l.id) = some l := by
    cases hfind : state.layouts.find? (·.id == l.id) with
    | none =>
      have hnone := find?_eq_none.mp hfind l hmem
      simp at hnone
    | some l' =>
      have hid : l'.id = l.id := by simpa using find?_some hfind
      exact congrArg some
        (inj_on_of_nodup_map hok.layout_ids (mem_of_find?_eq_some hfind) hmem hid)
  have hstarred : isStarredLayout l = false := by simpa [isNormalLayout] using hnormal
  rw [PanesState.layoutTree, PanesState.holder, hfind]
  simp [hstarred]

theorem findTabAcrossLayouts_current (hok : MovesOk state)
    (hcurrent : state.currentLayoutId ∈ state.normalIds) (hp : p ∈ collectPanels state.rootPane)
    (htab : tab ∈ p.tabs) (hid : tab.id = tabId) :
    ∃ tab', state.findTabAcrossLayouts tabId = some ⟨state.currentLayoutId, p, tab'⟩ := by
  have htree : ∀ id ∈ state.normalIds, ∃ h, state.holder id = some h ∧
      state.layoutTree id = some h.rootPane ∧ state.tabsOf id = collectTabs h.rootPane := by
    intro id hmem
    obtain ⟨h, hh⟩ := PanesState.mem_normalIds hmem
    exact ⟨h, hh, (PanesState.layoutTree_normal hok.store hmem).trans (by rw [hh]; rfl),
      PanesState.tabsOf_of_holder hh⟩
  have hin : tab ∈ collectTabs state.rootPane := mem_collectTabs.mpr ⟨p, hp, htab⟩
  rw [PanesState.findTabAcrossLayouts_eq]
  cases hfind : state.normalIds.findSome? fun layoutId =>
      (state.layoutTree layoutId).bind fun tree =>
        (findTabLocation tree tabId).map fun location =>
          (⟨layoutId, location.1, location.2⟩ : TabAcrossLayoutsLocation) with
  | none =>
    obtain ⟨h, hh, htree, -⟩ := htree _ hcurrent
    cases (PanesState.holder_current hcurrent).symm.trans hh
    have hnone := findSome?_eq_none_iff.mp hfind _ hcurrent
    rw [htree] at hnone
    exact absurd hid (findTabLocation_none (map_eq_none_iff.mp hnone) hin)
  | some found =>
    obtain ⟨layoutId, hmem, hinner⟩ := exists_of_findSome?_eq_some hfind
    obtain ⟨h, hh, htree', htabs⟩ := htree _ hmem
    obtain ⟨h', hh', -, htabs'⟩ := htree _ hcurrent
    cases (PanesState.holder_current hcurrent).symm.trans hh'
    rw [htree'] at hinner
    obtain ⟨⟨panel, tab'⟩, hlocation, rfl⟩ := map_eq_some_iff.mp hinner
    obtain ⟨hpanel, htab', hid'⟩ := findTabLocation_some hlocation
    have hin' : tab' ∈ collectTabs h.rootPane := mem_collectTabs.mpr ⟨panel, hpanel, htab'⟩
    obtain rfl : layoutId = state.currentLayoutId := by
      have hnodup := hok.tabs
      unfold PanesState.normalTabs at hnodup
      rw [map_flatMap] at hnodup
      refine eq_of_mem_flatMap hnodup hmem hcurrent (htabs ▸ mem_map_of_mem hin') ?_
      rw [hid', ← hid]
      exact htabs' ▸ mem_map_of_mem hin
    cases hh'.symm.trans hh
    have hdistinct : ((collectTabs state.rootPane).map Tab.id).Nodup := by
      rw [← tabIds_eq_map]
      exact hok.working.tab_ids
    obtain rfl := panel_of_tab hdistinct hp hpanel htab htab' (hid.trans hid'.symm)
    exact ⟨tab', rfl⟩

theorem resolve_of_found (hok : MovesOk state) (hcurrent : state.currentLayoutId ∈ state.normalIds)
    (hto : toPaneId ≠ "") (hne : fromPaneId ≠ toPaneId)
    (hf : Found state.rootPane fromPaneId toPaneId tabId p q tabIndex tab) :
    state.resolveLayoutMove fromPaneId state.currentLayoutId tabId (some toPaneId) =
      some ⟨toPaneId, state.currentLayoutId, p, tabIndex, tab⟩ := by
  obtain ⟨hp, rfl⟩ := (findPane_iff hok.working.node_ids).mp hf.source
  obtain ⟨-, rfl⟩ := (findPane_iff hok.working.node_ids).mp hf.target
  obtain ⟨hperm, hid⟩ := findTab_spec hf.tab
  obtain ⟨tab', hsource⟩ := findTabAcrossLayouts_current hok hcurrent hp
    (hperm.mem_iff.mp mem_cons_self) hid
  have htree : state.layoutTree state.currentLayoutId = some state.rootPane := by
    rw [PanesState.layoutTree_normal hok.store hcurrent, PanesState.holder_current hcurrent]
    rfl
  have htruthy : truthy ((some q.id).or ((collectPanels state.rootPane).head?.map Panel.id)) =
      some q.id := if_pos (by simpa using hto)
  unfold PanesState.resolveLayoutMove
  rw [htree, bind_some, htruthy, bind_some, hf.target]
  dsimp only
  rw [hsource, bind_some]
  rw [if_neg (not_not.mpr rfl), if_neg fun h => hne h.2, hf.tab]
  rfl

theorem modifyPanel_same {root : PaneNode} {write : Panel → Panel} {paneId : String}
    (h : ∀ r ∈ collectPanels root, r.id = paneId → write r = r) :
    modifyPanel root paneId write = root := by
  unfold modifyPanel
  split
  · next r place hloc =>
    obtain ⟨rfl, hid⟩ := locatePane_spec hloc
    rw [h r (mem_collectPanels_plug r place) hid]
  · rfl

theorem showTabAt_nil (tabIndex : Nat) {p : Panel} (h : p.tabs = []) : showTabAt tabIndex p = p := by
  unfold showTabAt
  rw [h]
  rfl

end

section
variable {state : PanesState} {fromPaneId tabId : String} {toPaneId : Option String}
  {toIndex : Option Int} {m : LayoutMove} {t : Holder} {q : Panel}

theorem carry_current (toIndex : Option Int) (hok : MovesOk state)
    (hr : Resolved state fromPaneId state.currentLayoutId tabId m state.toHolder t q)
    (hlayout : m.layoutId = state.currentLayoutId) :
    (m.carry state fromPaneId state.currentLayoutId toIndex).toHolder =
      m.give toIndex (m.take fromPaneId state.toHolder) :=
  (carry_working toIndex hok hr hlayout).1.trans (if_pos hlayout)

theorem shownState_current (toIndex : Option Int) (hok : MovesOk state)
    (hr : Resolved state fromPaneId state.currentLayoutId tabId m state.toHolder t q)
    (hlayout : m.layoutId = state.currentLayoutId) :
    (shownState m state fromPaneId state.currentLayoutId toIndex).rootPane =
      passTab state.rootPane fromPaneId m.targetPaneId m.tabIndex m.tab toIndex := by
  have hcurrent : m.layoutId =
      (m.carry state fromPaneId state.currentLayoutId toIndex).currentLayoutId := hlayout
  have hshown := modifyLayout_toHolder (m.show_ fromPaneId) hcurrent
  rw [carry_current toIndex hok hr hlayout] at hshown
  exact congrArg Holder.rootPane hshown

theorem carry_emptied (toIndex : Option Int) (hok : MovesOk state)
    (hr : Resolved state fromPaneId state.currentLayoutId tabId m state.toHolder t q)
    (hlayout : m.layoutId = state.currentLayoutId) (hlen : m.panel.tabs.length ≤ 1) :
    (m.carry state fromPaneId state.currentLayoutId toIndex).toHolder =
      ⟨passTab state.rootPane fromPaneId m.targetPaneId m.tabIndex m.tab toIndex,
        m.targetPaneId⟩ := by
  obtain ⟨hids, -, -, -, hpanel⟩ := sourceTree_spec toIndex hok hr
  have hgiven := carry_current toIndex hok hr hlayout
  rw [← (carry_working toIndex hok hr hlayout).1, hgiven] at hids hpanel
  have hnodup := hids ▸ hok.working.node_ids
  rw [hgiven]
  refine congrArg (Holder.mk · m.targetPaneId) (modifyPanel_same fun r hr' hid => ?_).symm
  obtain rfl := panel_unique hnodup hr' hpanel (hid.trans hr.panelId.symm)
  exact showTabAt_nil m.tabIndex (dropTab_nil hr hlen).1

end

section
variable {state : PanesState} {fromPaneId toPaneId tabId : String} {p q : Panel} {tabIndex : Nat}
  {tab : Tab}

/-- **Within the layout that is shown the two moves are one**, but that `moveTab` selects the tab
again when a panel has been taken out. -/
theorem moves_agree (ids : Nat → String) (toIndex : Option Int) (hok : MovesOk state)
    (hcurrent : state.currentLayoutId ∈ state.normalIds) (hto : toPaneId ≠ "")
    (hne : fromPaneId ≠ toPaneId)
    (hf : Found state.rootPane fromPaneId toPaneId tabId p q tabIndex tab) :
    (1 < p.tabs.length →
        (state.moveTabToLayoutPane ids fromPaneId state.currentLayoutId tabId (some toPaneId)
          toIndex).toHolder = (state.moveTab ids fromPaneId toPaneId tabId toIndex).toHolder) ∧
      (p.tabs.length = 1 → ¬ Alone state.rootPane fromPaneId →
        ((state.moveTabToLayoutPane ids fromPaneId state.currentLayoutId tabId (some toPaneId)
          toIndex).selectTab (ids 2) toPaneId tabId).toHolder =
            (state.moveTab ids fromPaneId toPaneId tabId toIndex).toHolder) := by
  have hm := resolve_of_found hok hcurrent hto hne hf
  obtain ⟨s, t, r, hr⟩ := resolved hok hm
  obtain ⟨hworking, rfl⟩ := carry_working toIndex hok hr rfl
  have hpass : transferTab state.toHolder fromPaneId toPaneId tabId toIndex =
      ⟨passTab state.rootPane fromPaneId toPaneId tabIndex tab toIndex, toPaneId⟩ :=
    transferTab_found hf
  constructor
  · intro hlen
    rcases moveTabToLayoutPane_cases hm with ⟨-, heq⟩ | ⟨hle, -⟩ | ⟨-, hother, -⟩
    · rcases moveTab_cases ids state fromPaneId toPaneId tabId toIndex rfl with
        ⟨hmove, -⟩ | ⟨r, place, hloc, hempty, -⟩
      · rw [heq, if_pos rfl, hmove, hpass]
        exact congrArg (Holder.mk · toPaneId) (shownState_current toIndex hok hr rfl)
      obtain ⟨pane, hpane, hcase⟩ := empties_of_left hok hloc hempty
      cases some.inj (hf.source.symm.trans hpane)
      rcases hcase with hnil | ⟨-, -, hone⟩
      · rw [hnil] at hlen
        exact absurd hlen (Nat.not_lt_zero 1)
      · have hcount := congrArg length hone
        rw [length_map] at hcount
        exact absurd hlen (hcount ▸ Nat.lt_irrefl 1)
    · exact absurd hlen (Nat.not_lt.mpr hle)
    · exact absurd rfl hother
  intro hlen halone
  rcases moveTabToLayoutPane_cases hm with ⟨hlt, -⟩ | ⟨-, -, heq⟩ | ⟨-, hother, -⟩
  · exact absurd hlen (Nat.ne_of_gt hlt)
  · obtain ⟨hids, hsplits, hsame, -, hpanel⟩ := sourceTree_spec toIndex hok hr
    have hnil := (dropTab_nil hr (Nat.le_of_eq hlen)).1
    rw [← hworking] at hids hsplits hsame hpanel
    have hnodup := hids ▸ hok.working.node_ids
    have hmoved := hpass.trans (carry_emptied toIndex hok hr rfl (Nat.le_of_eq hlen)).symm
    rcases moveTab_cases ids state fromPaneId toPaneId tabId toIndex hmoved with
      ⟨-, hsome⟩ | ⟨pane, place, hloc, hempty, hcase⟩
    · exact absurd hnil (hsome _ ((findPane_iff hnodup).mpr ⟨hpanel, hr.panelId⟩))
    have hroot := removeEmptyPane_root ids hloc hempty
    have he := emptied ids (hsplits.mpr hok.working.splits) hnodup hloc hempty
      (fun h => halone (hsame.mp h)) tabId
    rcases hcase with ⟨pane', hfind, -, hmove⟩ | ⟨hnone, -⟩
    · rw [heq, hmove]
      unfold PanesState.selectTab PanesState.removeEmptyPane
      dsimp only
      rw [hroot, hfind]
    -- the panel that has got the tab is still there
    have hid : r.id = toPaneId := hr.id
    have hstays : insertTab tab toIndex r ∈ collectPanels (withoutPanel ids place) := by
      refine he.panels _ (carry_working_mem toIndex hok hr rfl) fun heq => ?_
      have hin : tab ∈ (insertTab tab toIndex r).tabs :=
        (insertTab_perm tab toIndex r).mem_iff.mp mem_cons_self
      rw [heq, hempty] at hin
      cases hin
    have hfind := (findPane_iff he.node_ids).mpr ⟨hstays, hid⟩
    exact absurd (findTab_spec hf.tab).2 (hnone _ hfind tab
      ((insertTab_perm tab toIndex r).mem_iff.mp mem_cons_self))
  · exact absurd rfl hother

end

/-! ## every move -/

def tabPanel (paneId tabId : String) : Panel := ⟨paneId, [placeholderTab tabId], tabId⟩

def twoLayouts : PanesState where
  rootPane := .leaf (tabPanel "pane-a" "tab-a")
  activePaneId := "pane-a"
  layouts :=
    [{ id := "a", name := "A", kind := some .normal, workspaceName := none, lastActiveAt := none
       rootPane := .leaf (tabPanel "pane-a" "tab-a"), activePaneId := "pane-a" },
     { id := "b", name := "B", kind := some .normal, workspaceName := none, lastActiveAt := none
       rootPane := .leaf (tabPanel "pane-b" "tab-b"), activePaneId := "pane-b" }]
  currentLayoutId := "a"
  closedTabs := []
  poppedOutTabs := []

/-- the tab of the layout that is shown goes to the other one, or the other way round -/
def away : TabMove := .moveTabToLayoutPane "pane-a" "b" "tab-a" none none

def home : TabMove := .moveTabToLayoutPane "pane-b" "a" "tab-b" none none

theorem tabPanel_ok (paneId tabId : String) : TreeOk (.leaf (tabPanel paneId tabId)) := by
  refine ⟨(holds_leaf _ _ _).mpr trivial, ?_, ?_, fun p hp _ => ?_⟩
  · rw [nodeIds, collect_leaf]
    exact nodup_singleton _
  · rw [tabIds, collect_leaf]
    exact nodup_singleton _
  · rw [collectPanels, leaves, collect_leaf, mem_singleton] at hp
    subst hp
    exact ⟨_, mem_singleton.mpr rfl, rfl⟩

theorem twoLayouts_ok : MovesOk twoLayouts where
  store :=
    { layout_ids := by
        decide
      tree := by
        intro layoutId h hh
        obtain ⟨l, hl, -, rfl⟩ := PanesState.mem_of_holder hh
        rcases mem_cons.mp hl with rfl | hl
        · exact tabPanel_ok "pane-a" "tab-a"
        · cases mem_singleton.mp hl
          exact tabPanel_ok "pane-b" "tab-b" }
  working := tabPanel_ok "pane-a" "tab-a"
  tabs := by
    decide

end CcPanes.Panes

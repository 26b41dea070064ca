import CcPanes.Panes.LayoutMoves

/-!
# A tab moved to another layout
-/

namespace CcPanes.Panes
open RoseTree List Option

/-! ## the ends of a move to a layout -/

section
variable {state : PanesState} {layoutId paneId tabId : String}

theorem PanesState.treeOf_eq (h : layoutId ∈ state.normalIds) :
    state.treeOf layoutId = (state.holder layoutId).map Holder.rootPane := by
  unfold PanesState.treeOf
  split
  · next hcurrent =>
    rw [hcurrent, PanesState.holder_current (hcurrent ▸ h)]
    rfl
  · rfl

theorem PanesState.holder_shown (h : layoutId ∈ state.normalIds)
    (hcurrent : layoutId = state.currentLayoutId) : state.holder layoutId = some state.toHolder := by
  subst hcurrent
  exact PanesState.holder_current h

theorem modifyLayout_toHolder (write : Holder → Holder) (h : layoutId = state.currentLayoutId) :
    (state.modifyLayout layoutId write).toHolder = write state.toHolder := if_pos h

theorem shows_of_holder (hlayout : layoutId ∈ state.normalIds) {h : Holder}
    (hh : state.holder layoutId = some h) {p : Panel} (hp : p ∈ collectPanels h.rootPane)
    (hid : p.id = paneId) (hactive : p.activeTabId = tabId) (htab : ∃ tab ∈ p.tabs, tab.id = tabId) :
    state.Shows layoutId paneId tabId := by
  refine ⟨h.rootPane, ?_, p, hp, hid, hactive, htab⟩
  rw [PanesState.treeOf_eq hlayout, hh]
  rfl

end

section
variable {ids : Nat → String} {state : PanesState} {fromPaneId toLayoutId tabId : String}
  {toPaneId : Option String} {toIndex : Option Int} {m : LayoutMove} {s t : Holder} {q : Panel}

def shownState (m : LayoutMove) (state : PanesState) (fromPaneId toLayoutId : String)
    (toIndex : Option Int) : PanesState :=
  (m.carry state fromPaneId toLayoutId toIndex).modifyLayout m.layoutId (m.show_ fromPaneId)

theorem shownState_carried (hok : MovesOk state)
    (hr : Resolved state fromPaneId toLayoutId tabId m s t q) :
    Carried state (shownState m state fromPaneId toLayoutId toIndex) tabId [] [] := by
  have hcarry := carried toIndex hok hr
  have hsource := sourceTree_spec toIndex hok hr
  have hnodup := hsource.ids ▸ (hok.store.tree _ _ hr.source).node_ids
  obtain ⟨hothers, htabs⟩ := shown tabId m.tabIndex hnodup fromPaneId
  exact hcarry.trans (carried_write (hcarry.ids ▸ PanesState.normalIds_nodup hok.store)
    (hcarry.ids ▸ hr.sourceId) (carry_source toIndex hr) hothers (.of_eq htabs))

theorem carry_working (toIndex : Option Int) (hok : MovesOk state)
    (hr : Resolved state fromPaneId toLayoutId tabId m s t q)
    (hcurrent : m.layoutId = state.currentLayoutId) :
    (m.carry state fromPaneId toLayoutId toIndex).toHolder =
        sourceTree m fromPaneId toLayoutId toIndex s ∧ state.toHolder = s := by
  have hmem := hcurrent ▸ hr.sourceId
  have hold := PanesState.holder_current hmem
  have hcarried : (m.carry state fromPaneId toLayoutId toIndex).holder state.currentLayoutId =
      some (m.carry state fromPaneId toLayoutId toIndex).toHolder := by
    refine PanesState.holder_current ?_
    rw [(carried toIndex hok hr).ids]
    exact hmem
  rw [← hcurrent, carry_source toIndex hr] at hcarried
  rw [← hcurrent, hr.source] at hold
  exact ⟨(some.inj hcarried).symm, (some.inj hold).symm⟩

theorem removed (ids : Nat → String) (toIndex : Option Int) (hok : MovesOk state)
    (hr : Resolved state fromPaneId toLayoutId tabId m s t q)
    (hcurrent : m.layoutId = state.currentLayoutId) (hlen : m.panel.tabs.length ≤ 1)
    (halone : ¬ Alone state.rootPane fromPaneId) :
    ∃ place, ((m.carry state fromPaneId toLayoutId toIndex).removeEmptyPane ids
        fromPaneId).rootPane = withoutPanel ids place ∧
      Emptied ids (m.carry state fromPaneId toLayoutId toIndex).rootPane (withoutPanel ids place)
        (dropTab m.tabIndex m.panel) place tabId := by
  obtain ⟨hworking, rfl⟩ := carry_working toIndex hok hr hcurrent
  obtain ⟨hids, hsplits, hsame, -, hpanel⟩ := sourceTree_spec toIndex hok hr
  obtain ⟨hnil, -⟩ := dropTab_nil hr hlen
  rw [← hworking] at hids hsplits hsame hpanel
  have hnodup := hids ▸ hok.working.node_ids
  obtain ⟨place, hloc⟩ := findPane_place ((findPane_iff hnodup).mpr ⟨hpanel, hr.panelId⟩)
  exact ⟨place, removeEmptyPane_root ids hloc hnil, emptied ids (hsplits.mpr hok.working.splits)
    hnodup hloc hnil (fun h => halone (hsame.mp h)) tabId⟩

theorem removed_carried (hok : MovesOk state)
    (hr : Resolved state fromPaneId toLayoutId tabId m s t q)
    (hcurrent : m.layoutId = state.currentLayoutId) (hlen : m.panel.tabs.length ≤ 1)
    (halone : ¬ Alone state.rootPane fromPaneId) :
    Carried state
      ((m.carry state fromPaneId toLayoutId toIndex).removeEmptyPane ids fromPaneId) tabId [] [] := by
  have hcarry := carried toIndex hok hr
  obtain ⟨place, hroot, he⟩ := removed ids toIndex hok hr hcurrent hlen halone
  refine hcarry.trans (carried_working (hcarry.ids ▸ PanesState.normalIds_nodup hok.store) ?_
    (removeEmptyPane ids _ fromPaneId) ?_ ?_)
  · show state.currentLayoutId ∈ _
    rw [hcarry.ids]
    exact hcurrent ▸ hr.sourceId
  · exact (congrArg (otherTabs tabId) hroot).trans he.others
  · exact .of_eq ((congrArg collectTabs hroot).trans he.tabs)

theorem turned_carried (hnodup : state.normalIds.Nodup)
    (hcurrent : state.currentLayoutId ∈ state.normalIds) (paneId : String) :
    Carried state { state with activePaneId := paneId } tabId [] [] :=
  carried_working hnodup hcurrent ⟨state.rootPane, paneId⟩ rfl (.refl _)

theorem moveTabToLayoutPane_none
    (h : state.resolveLayoutMove fromPaneId toLayoutId tabId toPaneId = none) :
    state.moveTabToLayoutPane ids fromPaneId toLayoutId tabId toPaneId toIndex =
      state.syncWorkingCopyToCurrentLayout := by
  unfold PanesState.moveTabToLayoutPane
  dsimp only
  rw [PanesState.resolve_sync, h]

theorem moveTabToLayoutPane_carried (hok : MovesOk state)
    (hbeside : ¬ (Empties state (.moveTabToLayoutPane fromPaneId toLayoutId tabId toPaneId toIndex) ∧
      Alone state.rootPane fromPaneId)) :
    Carried state (state.moveTabToLayoutPane ids fromPaneId toLayoutId tabId toPaneId toIndex)
      tabId [] [] := by
  cases hm : state.resolveLayoutMove fromPaneId toLayoutId tabId toPaneId with
  | none =>
    rw [moveTabToLayoutPane_none hm]
    exact carried_sync
  | some m =>
    obtain ⟨s, t, q, hr⟩ := resolved hok hm
    rcases moveTabToLayoutPane_cases hm with ⟨-, heq⟩ | ⟨hlen, hcurrent, heq⟩ | ⟨-, -, heq⟩
    · have hshown : Carried state (shownState m state fromPaneId toLayoutId toIndex) tabId [] [] :=
        shownState_carried hok hr
      rw [heq]
      split
      · next hto =>
        have hmem := hshown.ids.symm ▸ hto ▸ hr.targetId
        exact hshown.trans (turned_carried (hshown.ids ▸ PanesState.normalIds_nodup hok.store) hmem
          m.targetPaneId)
      · exact hshown
    · rw [heq]
      exact removed_carried hok hr hcurrent hlen fun halone =>
        hbeside ⟨⟨m, hm, hcurrent, (dropTab_nil hr hlen).2⟩, halone⟩
    · rw [heq]
      exact carried toIndex hok hr

/-! ### what is shown -/

theorem carry_mem (toIndex : Option Int) (hok : MovesOk state)
    (hr : Resolved state fromPaneId toLayoutId tabId m s t q) :
    insertTab m.tab toIndex q ∈
      collectPanels (m.give toIndex (targetTree m fromPaneId toLayoutId t)).rootPane := by
  obtain ⟨hq, hnodup⟩ := mem_targetTree hok hr
  have hmem := mem_modifyPanel (insertTab m.tab toIndex) m.targetPaneId hnodup hq
  rwa [atPanel_of_eq _ hr.id] at hmem

theorem carry_working_mem (toIndex : Option Int) (hok : MovesOk state)
    (hr : Resolved state fromPaneId toLayoutId tabId m s t q)
    (hto : toLayoutId = state.currentLayoutId) :
    insertTab m.tab toIndex q ∈
      collectPanels (m.carry state fromPaneId toLayoutId toIndex).rootPane := by
  have hmem := carry_mem toIndex hok hr
  have hto' : toLayoutId = (m.carry state fromPaneId toLayoutId toIndex).currentLayoutId := hto
  have hworking := (PanesState.holder_shown ((carried toIndex hok hr).ids.symm ▸ hr.targetId)
    hto').symm.trans (carry_holder toIndex hr)
  rwa [← some.inj hworking] at hmem

theorem target_ne (hr : Resolved state fromPaneId toLayoutId tabId m s t q)
    (hsame : m.layoutId = toLayoutId) : q.id ≠ fromPaneId :=
  fun heq => hr.apart hsame (heq.symm.trans hr.id)

theorem shownState_mem (toIndex : Option Int) (hok : MovesOk state)
    (hr : Resolved state fromPaneId toLayoutId tabId m s t q) :
    ∃ h, (shownState m state fromPaneId toLayoutId toIndex).holder toLayoutId = some h ∧
      insertTab m.tab toIndex q ∈ collectPanels h.rootPane := by
  have hholder := carry_holder toIndex hr
  have hmem := carry_mem toIndex hok hr
  by_cases hsame : m.layoutId = toLayoutId
  · refine ⟨m.show_ fromPaneId (m.give toIndex (targetTree m fromPaneId toLayoutId t)), ?_, ?_⟩
    · rw [shownState, ← hsame, PanesState.holder_modifyLayout_self, hsame, hholder]
      rfl
    have hids : nodeIds (m.give toIndex (targetTree m fromPaneId toLayoutId t)).rootPane =
        nodeIds (targetTree m fromPaneId toLayoutId t).rootPane := give_nodeIds _
    have hnodup := hids ▸ (mem_targetTree hok hr).2
    have hwritten := mem_modifyPanel (showTabAt m.tabIndex) fromPaneId hnodup hmem
    have hne := target_ne hr hsame
    rwa [atPanel_of_ne (p := insertTab m.tab toIndex q) hne] at hwritten
  · exact ⟨_, (PanesState.holder_modifyLayout_of_ne (Ne.symm hsame)).trans hholder, hmem⟩

theorem moveTabToLayoutPane_mem (ids : Nat → String) (toIndex : Option Int) (hok : MovesOk state)
    (hm : state.resolveLayoutMove fromPaneId toLayoutId tabId toPaneId = some m)
    (hr : Resolved state fromPaneId toLayoutId tabId m s t q)
    (hbeside : ¬ (Empties state (.moveTabToLayoutPane fromPaneId toLayoutId tabId toPaneId toIndex) ∧
      Alone state.rootPane fromPaneId)) :
    ∃ h, (state.moveTabToLayoutPane ids fromPaneId toLayoutId tabId toPaneId toIndex).holder
        toLayoutId = some h ∧ insertTab m.tab toIndex q ∈ collectPanels h.rootPane := by
  have hholder := carry_holder toIndex hr
  have hmem := carry_mem toIndex hok hr
  have hids := (carried toIndex hok hr).ids
  rcases moveTabToLayoutPane_cases hm with ⟨-, heq⟩ | ⟨hlen, hcurrent, heq⟩ | ⟨-, -, heq⟩
  · obtain ⟨h, hshown, hmem'⟩ := shownState_mem toIndex hok hr
    have hids' : (shownState m state fromPaneId toLayoutId toIndex).normalIds = state.normalIds :=
      (shownState_carried hok hr).ids
    rw [heq]
    split
    · next hto =>
      have hlayout := hids'.symm ▸ hr.targetId
      have hworking := (PanesState.holder_shown hlayout hto).symm.trans hshown
      refine ⟨⟨_, m.targetPaneId⟩, PanesState.holder_shown hlayout hto, ?_⟩
      rwa [← some.inj hworking] at hmem'
    · exact ⟨h, hshown, hmem'⟩
  · rw [heq]
    obtain ⟨place, hroot, he⟩ := removed ids toIndex hok hr hcurrent hlen fun halone =>
        hbeside ⟨⟨m, hm, hcurrent, (dropTab_nil hr hlen).2⟩, halone⟩
    by_cases hto : toLayoutId = (m.carry state fromPaneId toLayoutId toIndex).currentLayoutId
    · refine ⟨_, PanesState.holder_shown (hids.symm ▸ hr.targetId) hto, ?_⟩
      rw [hroot]
      refine he.panels _ (carry_working_mem toIndex hok hr hto) fun hsame =>
        target_ne hr (hcurrent.trans hto.symm) ?_
      exact (congrArg Panel.id hsame).trans hr.panelId
    · exact ⟨_, (PanesState.holder_working_of_ne _ hto).trans hholder, hmem⟩
  · rw [heq]
    exact ⟨_, hholder, hmem⟩

/-- **The tab is shown in the panel that has got it**, and this panel is active unless one has been
taken out. -/
theorem moveTabToLayoutPane_shows (ids : Nat → String) (toIndex : Option Int) (hok : MovesOk state)
    (hm : state.resolveLayoutMove fromPaneId toLayoutId tabId toPaneId = some m)
    (hbeside : ¬ (Empties state (.moveTabToLayoutPane fromPaneId toLayoutId tabId toPaneId toIndex) ∧
      Alone state.rootPane fromPaneId)) :
    (state.moveTabToLayoutPane ids fromPaneId toLayoutId tabId toPaneId toIndex).Shows toLayoutId
        m.targetPaneId tabId ∧
      (toLayoutId = state.currentLayoutId →
        ¬ Empties state (.moveTabToLayoutPane fromPaneId toLayoutId tabId toPaneId toIndex) →
        (state.moveTabToLayoutPane ids fromPaneId toLayoutId tabId toPaneId
          toIndex).activePaneId = m.targetPaneId) := by
  obtain ⟨s, t, q, hr⟩ := resolved hok hm
  have hid : m.tab.id = tabId := (findTab_spec hr.tab).2
  have htab : m.tab ∈ (insertTab m.tab toIndex q).tabs :=
    (insertTab_perm m.tab toIndex q).mem_iff.mp mem_cons_self
  constructor
  · obtain ⟨h, hh, hmem⟩ := moveTabToLayoutPane_mem ids toIndex hok hm hr hbeside
    refine shows_of_holder ?_ hh hmem hr.id hid ⟨m.tab, htab, hid⟩
    rw [(moveTabToLayoutPane_carried hok hbeside).ids]
    exact hr.targetId
  intro hto hkept
  rcases moveTabToLayoutPane_cases hm with ⟨-, heq⟩ | ⟨hlen, hcurrent, -⟩ | ⟨-, hcurrent, heq⟩
  · rw [heq, if_pos hto]
  · exact absurd ⟨m, hm, hcurrent, (dropTab_nil hr hlen).2⟩ hkept
  have hto' : toLayoutId = (state.syncWorkingCopyToCurrentLayout.modifyLayout m.layoutId
      (m.take fromPaneId)).currentLayoutId := hto
  rw [heq, LayoutMove.carry]
  exact congrArg Holder.activePaneId (modifyLayout_toHolder _ hto')

end

/-- the layout that is shown has a new panel, and no tab is missing -/
structure Refilled (ids : Nat → String) (state state' : PanesState) (tabId : String) : Prop where
  panels : collectPanels state'.rootPane = [createPanel ids 0 none]
  others : ∀ layoutId ∈ state.normalIds, layoutId ≠ state.currentLayoutId →
    state'.otherTabsOf tabId layoutId = state.otherTabsOf tabId layoutId
  tabs : state.currentLayoutId ∈ state.normalIds →
    state'.normalTabs.Perm (placeholderTab (ids 1) :: state.normalTabs)

section
variable {ids : Nat → String} {state : PanesState} {fromPaneId toPaneId tabId : String}
  {toIndex : Option Int} {p : Panel}

theorem withoutPanel_only (ids : Nat → String) {place : Place}
    (hsplits : SplitsOk (plug (.leaf p) place))
    (hone : collectPanels (plug (.leaf p) place) = [p]) :
    collectPanels (withoutPanel ids place) = [createPanel ids 0 none] := by
  have haround := ((holds_plug _ _ _ _).mp hsplits).2
  have hlen := congrArg length hone
  rw [plug_panels, collectPanels_leaf, length_append, length_append] at hlen
  have hbefore : panelsBefore place = [] := length_eq_zero_iff.mp (by omega)
  have hafter : panelsAfter place = [] := length_eq_zero_iff.mp (by omega)
  have hns : NoSibling place := by
    cases place with
    | nil => exact trivial
    | cons fr frs => exact shell_of_alone haround ⟨hbefore, hafter⟩
  rw [removed_panels ids haround, if_pos hns, hbefore, hafter]
  rfl

theorem refilled_working (hnodup : state.normalIds.Nodup) (hsplits : SplitsOk state.rootPane)
    (hids : (nodeIds state.rootPane).Nodup) (hone : collectPanels state.rootPane = [p])
    (hnil : p.tabs = []) : Refilled ids state (state.removeEmptyPane ids p.id) tabId := by
  obtain ⟨place, hloc⟩ := findPane_place
    ((findPane_iff hids).mpr ⟨hone ▸ mem_cons_self, rfl⟩)
  have hroot : (state.removeEmptyPane ids p.id).rootPane = withoutPanel ids place :=
    removeEmptyPane_root ids hloc hnil
  have hplug := (locatePane_spec hloc).1
  have hpanels := withoutPanel_only ids (hplug ▸ hsplits) (hplug ▸ hone)
  have hother : ∀ layoutId, layoutId ≠ state.currentLayoutId →
      (state.removeEmptyPane ids p.id).holder layoutId = state.holder layoutId :=
    fun _ hne => PanesState.holder_working_of_ne _ hne
  refine ⟨hroot ▸ hpanels, fun layoutId _ hne => ?_, fun hcurrent => ?_⟩
  · exact PanesState.otherTabsOf_congr (hother layoutId hne)
  have hsame : (state.removeEmptyPane ids p.id).normalIds = state.normalIds := rfl
  refine PanesState.normalTabs_update (x := []) (y := [placeholderTab (ids 1)]) hnodup hsame
    hcurrent hother ?_
  have hh := PanesState.holder_current hcurrent
  have hh' : (state.removeEmptyPane ids p.id).holder state.currentLayoutId =
      some (state.removeEmptyPane ids p.id).toHolder := PanesState.holder_current hcurrent
  rw [PanesState.tabsOf_of_holder hh, PanesState.tabsOf_of_holder hh', collectTabs, collectTabs,
    hroot, hpanels, hone, flatMap_singleton, flatMap_singleton, hnil]
  exact .refl _

theorem moveTab_refilled (hok : MovesOk state)
    (hempties : Empties state (.moveTab fromPaneId toPaneId tabId toIndex))
    (hone : collectPanels state.rootPane = [p]) (hnew : ids 1 ≠ tabId) :
    Refilled ids state (state.moveTab ids fromPaneId toPaneId tabId toIndex) tabId := by
  have hids := hok.working.node_ids
  obtain ⟨pane, hfind, hpane⟩ := hempties
  obtain ⟨hmem, rfl⟩ := (findPane_iff hids).mp hfind
  obtain rfl := mem_singleton.mp (hone ▸ hmem)
  have hnil : pane.tabs = [] := by
    rcases hpane with hnil | ⟨hne, ⟨q, hq⟩, -⟩
    · exact hnil
    · obtain ⟨hqmem, rfl⟩ := (findPane_iff hids).mp hq
      exact absurd (congrArg Panel.id (mem_singleton.mp (hone ▸ hqmem))).symm hne
  have hsame : transferTab state.toHolder pane.id toPaneId tabId toIndex = state.toHolder := by
    rcases transferTab_cases state.toHolder pane.id toPaneId tabId toIndex with
      heq | ⟨p', q, tabIndex, tab, hf⟩
    · exact heq
    cases some.inj (hfind.symm.trans hf.source)
    have hperm := (findTab_spec hf.tab).1.length_eq
    rw [hnil] at hperm
    exact absurd hperm (Nat.succ_ne_zero _)
  rcases moveTab_cases ids state pane.id toPaneId tabId toIndex hsame with
    ⟨-, hsome⟩ | ⟨r, place, hloc, hempty, hcase⟩
  · exact absurd hnil (hsome pane hfind)
  obtain ⟨hplug, hid⟩ := locatePane_spec hloc
  rcases hcase with ⟨q, hq, ⟨tab, htab, htabid⟩, -⟩ | ⟨-, heq⟩
  · -- the new panel has a tab that no one knows
    have hr : r = pane := by
      have hr : r ∈ collectPanels state.rootPane := hplug ▸ mem_collectPanels_plug r place
      exact mem_singleton.mp (hone ▸ hr)
    subst hr
    have hpanels := withoutPanel_only ids (hplug ▸ hok.working.splits) (hplug ▸ hone)
    have hqmem : q ∈ collectPanels (withoutPanel ids place) := by
      obtain ⟨⟨n, place'⟩, hloc', rfl⟩ := map_eq_some_iff.mp hq
      obtain ⟨heq, -⟩ := locatePane_spec hloc'
      rw [← heq]
      exact mem_collectPanels_plug q place'
    rw [hpanels] at hqmem
    rw [mem_singleton.mp hqmem] at htab
    rw [mem_singleton.mp htab] at htabid
    exact absurd htabid hnew
  · rw [heq]
    exact refilled_working (PanesState.normalIds_nodup hok.store) hok.working.splits hids hone hnil

end

section
variable {ids : Nat → String} {state : PanesState} {fromPaneId toLayoutId tabId : String}
  {toPaneId : Option String} {toIndex : Option Int} {p : Panel}

theorem moveTabToLayoutPane_refilled (hok : MovesOk state)
    (hempties : Empties state (.moveTabToLayoutPane fromPaneId toLayoutId tabId toPaneId toIndex))
    (hone : collectPanels state.rootPane = [p]) :
    Refilled ids state
      (state.moveTabToLayoutPane ids fromPaneId toLayoutId tabId toPaneId toIndex) tabId := by
  obtain ⟨m, hm, hcurrent, hlen⟩ := hempties
  obtain ⟨s, t, q, hr⟩ := resolved hok hm
  have hcarry := carried toIndex hok hr
  obtain ⟨hworking, rfl⟩ := carry_working toIndex hok hr hcurrent
  obtain ⟨hids, hsplits, -, hcount, hpanel⟩ := sourceTree_spec toIndex hok hr
  obtain ⟨hnil, -⟩ := dropTab_nil hr (Nat.le_of_eq hlen)
  rw [← hworking] at hids hsplits hcount hpanel
  have hnodup := hids ▸ hok.working.node_ids
  obtain ⟨r, honly⟩ := length_eq_one_iff.mp (hcount.trans (congrArg length hone))
  obtain rfl := mem_singleton.mp (honly ▸ hpanel)
  rcases moveTabToLayoutPane_cases hm with ⟨hlt, -⟩ | ⟨-, -, heq⟩ | ⟨-, hne, -⟩
  · exact absurd hlen (Nat.ne_of_gt hlt)
  · have hrefilled : Refilled ids (m.carry state fromPaneId toLayoutId toIndex)
        ((m.carry state fromPaneId toLayoutId toIndex).removeEmptyPane ids
          (dropTab m.tabIndex m.panel).id) tabId :=
      refilled_working (hcarry.ids ▸ PanesState.normalIds_nodup hok.store)
        (hsplits.mpr hok.working.splits) hnodup honly hnil
    rw [dropTab_id, hr.panelId] at hrefilled
    rw [heq]
    refine ⟨hrefilled.panels, fun layoutId hl hne => ?_, fun hl => ?_⟩
    · exact (hrefilled.others layoutId (hcarry.ids ▸ hl) hne).trans (hcarry.others layoutId hl)
    · exact (hrefilled.tabs (hcarry.ids.symm ▸ hl)).trans (hcarry.tabs.cons _)
  · exact absurd hcurrent hne

end

end CcPanes.Panes

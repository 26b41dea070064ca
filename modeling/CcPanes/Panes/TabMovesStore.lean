import CcPanes.Panes.TabMovesKept

/-!
# Tabs moved in the working copy
-/

namespace CcPanes.Panes
open RoseTree List

namespace PanesState

variable {state : PanesState}

/-! ## a write to a layout -/

section
variable {layoutId : String} {write : Holder → Holder} {f : LayoutEntry → LayoutEntry}

theorem find_map {layouts : List LayoutEntry} (hid : ∀ l, (f l).id = l.id) (layoutId : String) :
    (layouts.map f).find? (·.id == layoutId) = (layouts.find? (·.id == layoutId)).map f := by
  rw [find?_map]
  congr 2
  funext l
  show ((f l).id == layoutId) = _
  rw [hid]

theorem modifyLayout_entry_id (l : LayoutEntry) :
    (if l.id = layoutId then { l with toHolder := write l.toHolder } else l).id = l.id := by
  split <;> rfl

theorem normalIds_map {state' : PanesState} (hlayouts : state'.layouts = state.layouts.map f)
    (hid : ∀ l, (f l).id = l.id) (hkind : ∀ l, (f l).kind = l.kind) :
    state'.normalIds = state.normalIds := by
  unfold normalIds
  rw [hlayouts, filter_map, map_map]
  have hnormal : (isNormalLayout ∘ f) = isNormalLayout := by
    funext l
    show (!((f l).kind == some .starred)) = _
    rw [hkind]
    rfl
  rw [hnormal]
  exact map_congr_left fun l _ => hid l

theorem holder_map {state' : PanesState} {g : Holder → Holder}
    (hlayouts : state'.layouts = state.layouts.map f) (hid : ∀ l, (f l).id = l.id)
    {layoutId : String}
    (h : ∀ l : LayoutEntry, l.id = layoutId → state'.holderOf (f l) = g (state.holderOf l)) :
    state'.holder layoutId = (state.holder layoutId).map g := by
  unfold holder
  rw [hlayouts, find_map hid]
  cases hfind : state.layouts.find? (·.id == layoutId) with
  | none => rfl
  | some l => exact congrArg some (h l (by simpa using find?_some hfind))

theorem modifyLayout_entry_kind (l : LayoutEntry) :
    (if l.id = layoutId then { l with toHolder := write l.toHolder } else l).kind = l.kind := by
  split <;> rfl

theorem holder_modifyLayout_self :
    (state.modifyLayout layoutId write).holder layoutId = (state.holder layoutId).map write := by
  refine holder_map rfl modifyLayout_entry_id fun l hid => ?_
  unfold holderOf modifyLayout
  rw [modifyLayout_entry_id, if_pos hid, hid]
  split <;> rfl

theorem holder_modifyLayout_of_ne {layoutId' : String} (hne : layoutId' ≠ layoutId) :
    (state.modifyLayout layoutId write).holder layoutId' = state.holder layoutId' := by
  refine (holder_map (g := id) rfl modifyLayout_entry_id fun l hid => ?_).trans (congrFun Option.map_id _)
  unfold holderOf modifyLayout
  dsimp only
  rw [modifyLayout_entry_id, if_neg fun h => hne (hid.symm.trans h), hid]
  split
  · next hc => exact if_neg fun h => hne (hc.trans h.symm)
  · rfl

theorem normalIds_modifyLayout :
    (state.modifyLayout layoutId write).normalIds = state.normalIds :=
  normalIds_map rfl modifyLayout_entry_id modifyLayout_entry_kind

theorem holder_sync (layoutId : String) :
    state.syncWorkingCopyToCurrentLayout.holder layoutId = state.holder layoutId := by
  refine (holder_map (g := id) rfl (fun l => ?_) fun l _ => ?_).trans (congrFun Option.map_id _)
  · split <;> rfl
  unfold holderOf syncWorkingCopyToCurrentLayout
  split_ifs with hsync hc hc
  · rfl
  · exact absurd hsync.1 hc
  · rfl
  · rfl

theorem normalIds_sync : state.syncWorkingCopyToCurrentLayout.normalIds = state.normalIds := by
  refine normalIds_map rfl (fun l => ?_) fun l => ?_
  · split <;> rfl
  · split <;> rfl

theorem holder_working_of_ne (h : Holder) {layoutId : String}
    (hne : layoutId ≠ state.currentLayoutId) :
    PanesState.holder { state with toHolder := h } layoutId = state.holder layoutId := by
  refine (holder_map (f := fun l => l) (g := id) (by rw [map_id']) (fun _ => rfl)
    fun l hid => ?_).trans (congrFun Option.map_id _)
  unfold holderOf
  rw [if_neg (hid ▸ hne)]
  exact (if_neg (hid ▸ hne)).symm

theorem holder_working (h : Holder) :
    PanesState.holder { state with toHolder := h } state.currentLayoutId =
      (state.holder state.currentLayoutId).map fun _ => h := by
  refine holder_map (f := fun l => l) (by rw [map_id']) (fun _ => rfl) fun l hid => ?_
  unfold holderOf
  rw [if_pos hid]

end

/-! ## the tabs of the layouts -/

theorem mem_normalIds {layoutId : String} (h : layoutId ∈ state.normalIds) :
    ∃ holder, state.holder layoutId = some holder := by
  obtain ⟨l, hl, rfl⟩ := mem_map.mp h
  exact Option.isSome_iff_exists.mp (holder_isSome.mpr ⟨l, (mem_filter.mp hl).1, rfl⟩)

theorem holder_current (h : state.currentLayoutId ∈ state.normalIds) :
    state.holder state.currentLayoutId = some state.toHolder := by
  obtain ⟨holder, hh⟩ := mem_normalIds h
  obtain ⟨l, -, hid, rfl⟩ := mem_of_holder hh
  rw [hh, holderOf, if_pos hid]

theorem normalIds_nodup (h : StoreOk state) : state.normalIds.Nodup :=
  h.layout_ids.sublist (filter_sublist.map _)

section
variable {state' : PanesState} {layoutId : String}

theorem tabsOf_congr (h : state'.holder layoutId = state.holder layoutId) :
    state'.tabsOf layoutId = state.tabsOf layoutId := by
  unfold tabsOf
  rw [h]

theorem otherTabsOf_congr {tabId : String} (h : state'.holder layoutId = state.holder layoutId) :
    state'.otherTabsOf tabId layoutId = state.otherTabsOf tabId layoutId := by
  unfold otherTabsOf
  rw [h]

theorem normalTabs_update (hnodup : state.normalIds.Nodup)
    (hids : state'.normalIds = state.normalIds)
    (hlayout : layoutId ∈ state.normalIds)
    (hother : ∀ id, id ≠ layoutId → state'.holder id = state.holder id) {x y : List Tab}
    (h : (x ++ state'.tabsOf layoutId).Perm (y ++ state.tabsOf layoutId)) :
    (x ++ state'.normalTabs).Perm (y ++ state.normalTabs) := by
  unfold normalTabs
  rw [hids]
  refine flatMap_update (fun id => id) ?_ hlayout (fun id _ hne => ?_) h
  · rwa [map_id']
  · exact tabsOf_congr (hother id hne)

end

end PanesState

section
variable {state : PanesState} {tabId : String} {h : Holder}

theorem Kept.refl (state : PanesState) (tabId : String) : Kept state state tabId := by
  refine ⟨⟨id, .inl rfl, ?_⟩, fun _ _ => rfl⟩
  rw [refreshed_same, map_id']

theorem kept_working (hok : MovesOk state) (refresh : Tab → Tab)
    (hrefresh : refresh = id ∨ ∃ draw, refresh = syncTab draw)
    (hin : refresh = id ∨ ∃ tab ∈ collectTabs state.rootPane, tab.id = tabId)
    (htabs : (collectTabs h.rootPane).Perm
      ((collectTabs state.rootPane).map (refreshed tabId refresh)))
    (hothers : otherTabs tabId h.rootPane = otherTabs tabId state.rootPane) :
    Kept state { state with toHolder := h } tabId := by
  have hother : ∀ layoutId, layoutId ≠ state.currentLayoutId →
      PanesState.holder { state with toHolder := h } layoutId = state.holder layoutId :=
    fun _ hne => PanesState.holder_working_of_ne h hne
  by_cases hcur : state.currentLayoutId ∈ state.normalIds
  · have hold := PanesState.holder_current hcur
    have hnew : PanesState.holder { state with toHolder := h } state.currentLayoutId = some h := by
      rw [PanesState.holder_working, hold]
      rfl
    refine ⟨⟨refresh, hrefresh, ?_⟩, fun layoutId _ => ?_⟩
    · have htabsOf : state.tabsOf state.currentLayoutId = collectTabs state.rootPane :=
        PanesState.tabsOf_of_holder hold
      have hold' := hok.tabs
      unfold PanesState.normalTabs at hold' ⊢
      rw [map_flatMap] at hold' ⊢
      refine flatMap_update (x := []) (y := []) (fun id => id) ?_ hcur
        (fun layoutId hmem hne => ?_) ?_
      · rw [map_id']
        exact PanesState.normalIds_nodup hok.store
      · rw [PanesState.tabsOf_congr (hother layoutId hne)]
        rcases hin with rfl | ⟨tab, htab, hid⟩
        · rw [refreshed_same, map_id']
        refine (refreshed_absent fun t ht heq => hne ?_).symm
        refine eq_of_mem_flatMap hold' hmem hcur (mem_map_of_mem ht) ?_
        rw [htabsOf, heq, ← hid]
        exact mem_map_of_mem htab
      · rw [PanesState.tabsOf_of_holder hnew, htabsOf]
        exact htabs
    · by_cases hid : layoutId = state.currentLayoutId
      · subst hid
        unfold PanesState.otherTabsOf
        rw [hold, hnew]
        exact hothers
      · exact PanesState.otherTabsOf_congr (hother layoutId hid)
  · -- a tree that no normal layout shows
    have hne : ∀ layoutId ∈ state.normalIds, layoutId ≠ state.currentLayoutId :=
      fun layoutId hmem heq => hcur (heq ▸ hmem)
    refine ⟨⟨id, .inl rfl, ?_⟩, fun layoutId hmem =>
      PanesState.otherTabsOf_congr (hother layoutId (hne layoutId hmem))⟩
    rw [refreshed_same, map_id']
    refine List.Perm.of_eq (flatMap_congr fun layoutId hmem => ?_)
    exact PanesState.tabsOf_congr (hother layoutId (hne layoutId hmem))

end

/-! ## `moveTab` -/

theorem findPane_place {root : PaneNode} {paneId : String} {n : PaneNode}
    (h : findPane root paneId = some n) : ∃ place, locatePane root paneId = some (n, place) := by
  obtain ⟨⟨n', place⟩, hloc, rfl⟩ := Option.map_eq_some_iff.mp h
  exact ⟨place, hloc⟩

theorem transferTab_kept {h : Holder} (hnodup : (nodeIds h.rootPane).Nodup)
    (fromPaneId toPaneId tabId : String) (toIndex : Option Int) {t : Holder}
    (ht : transferTab h fromPaneId toPaneId tabId toIndex = t) :
    nodeIds t.rootPane = nodeIds h.rootPane ∧ (SplitsOk t.rootPane ↔ SplitsOk h.rootPane) ∧
      (∀ paneId, Alone t.rootPane paneId ↔ Alone h.rootPane paneId) ∧
      otherTabs tabId t.rootPane = otherTabs tabId h.rootPane ∧
      (collectTabs t.rootPane).Perm (collectTabs h.rootPane) := by
  subst ht
  rcases transferTab_cases h fromPaneId toPaneId tabId toIndex with heq | ⟨p, q, tabIndex, tab, hf⟩
  · rw [heq]
    exact ⟨rfl, Iff.rfl, fun _ => Iff.rfl, rfl, .refl _⟩
  rw [transferTab_found hf]
  obtain ⟨hothers, htabs⟩ := passTab_kept toIndex hnodup hf
  refine ⟨nodeIds_passTab, ?_, fun paneId => ?_, hothers, htabs⟩
  · exact modifyPanel_splits.trans (modifyPanel_splits.trans modifyPanel_splits)
  have hdrop := nodeIds_drop h.rootPane fromPaneId tabIndex
  have hinsert := nodeIds_insert (modifyPanel h.rootPane fromPaneId (dropTab tabIndex)) toPaneId
    tab toIndex
  exact (alone_modifyPanel (hinsert.trans hdrop ▸ hnodup) (showTabAt_id tabIndex) _ _).trans
    ((alone_modifyPanel (hdrop ▸ hnodup) (insertTab_id tab toIndex) _ _).trans
      (alone_modifyPanel hnodup (dropTab_id tabIndex) _ _))

section
variable {ids : Nat → String} {state : PanesState} {fromPaneId toPaneId tabId : String}
  {toIndex : Option Int}

theorem empties_of_left (hok : MovesOk state) {p : Panel} {place : Place}
    (hloc : locatePane (transferTab state.toHolder fromPaneId toPaneId tabId toIndex).rootPane
      fromPaneId = some (.leaf p, place)) (htabs : p.tabs = []) :
    Empties state (.moveTab fromPaneId toPaneId tabId toIndex) := by
  have hnodup := hok.working.node_ids
  rcases transferTab_cases state.toHolder fromPaneId toPaneId tabId toIndex with
    heq | ⟨r, q, tabIndex, tab, hf⟩
  · rw [heq] at hloc
    refine ⟨p, ?_, .inl htabs⟩
    rw [findPane, hloc]
    rfl
  rw [transferTab_found hf] at hloc
  obtain ⟨hr, rfl⟩ := (findPane_iff hnodup).mp hf.source
  obtain ⟨hplug, hid⟩ := locatePane_spec hloc
  have hmem : p ∈ collectPanels (passTab state.rootPane r.id toPaneId tabIndex tab toIndex) := by
    have hplug : plug (.leaf p) place =
        passTab state.rootPane r.id toPaneId tabIndex tab toIndex := hplug
    rw [← hplug]
    exact mem_collectPanels_plug p place
  rw [passTab_panels hnodup] at hmem
  obtain ⟨r', hr', rfl⟩ := mem_map.mp hmem
  have hid : r'.id = r.id := (passPanel_id r').symm.trans hid
  obtain rfl := panel_unique hnodup hr' hr hid
  by_cases hsame : r'.id = toPaneId
  · subst hsame
    exact absurd htabs passPanel_same
  refine ⟨r', hf.source, .inr ⟨hsame, ⟨q, hf.target⟩, ?_⟩⟩
  rw [passPanel_source hsame, showTabAt_tabs] at htabs
  obtain ⟨hperm, htab⟩ := findTab_spec hf.tab
  have hnil : r'.tabs.eraseIdx tabIndex = [] := htabs
  rw [hnil] at hperm
  rw [perm_singleton.mp hperm.symm, map_singleton, htab]

theorem moveTab_cases (ids : Nat → String) (state : PanesState)
    (fromPaneId toPaneId tabId : String) (toIndex : Option Int) {t : Holder}
    (ht : transferTab state.toHolder fromPaneId toPaneId tabId toIndex = t) :
    (state.moveTab ids fromPaneId toPaneId tabId toIndex = { state with toHolder := t } ∧
        ∀ p, findPane t.rootPane fromPaneId = some (.leaf p) → p.tabs ≠ []) ∨
      ∃ p place, locatePane t.rootPane fromPaneId = some (.leaf p, place) ∧ p.tabs = [] ∧
        ((∃ q, findPane (withoutPanel ids place) toPaneId = some (.leaf q) ∧
            (∃ tab ∈ q.tabs, tab.id = tabId) ∧ state.moveTab ids fromPaneId toPaneId tabId toIndex =
              { state with toHolder :=
                ⟨modifyPanel (withoutPanel ids place) toPaneId (showTab (ids 2) tabId), toPaneId⟩ }) ∨
          ((∀ q, findPane (withoutPanel ids place) toPaneId = some (.leaf q) →
              ∀ tab ∈ q.tabs, tab.id ≠ tabId) ∧
            state.moveTab ids fromPaneId toPaneId tabId toIndex =
              { state with toHolder := removeEmptyPane ids t fromPaneId })) := by
  subst ht
  unfold PanesState.moveTab
  dsimp only
  split
  · next p hfind =>
    split
    · next htabs =>
      obtain ⟨place, hloc⟩ := findPane_place hfind
      have hroot := removeEmptyPane_root ids hloc htabs
      refine .inr ⟨p, place, hloc, htabs, ?_⟩
      unfold PanesState.removeEmptyPane
      rw [hroot]
      split
      · next q hq =>
        split
        · next hany =>
          obtain ⟨tab, htab, hid⟩ := any_eq_true.mp hany
          refine .inl ⟨q, hq, ⟨tab, htab, by simpa using hid⟩, ?_⟩
          unfold PanesState.selectTab
          rw [hroot, hq]
        · next hany =>
          refine .inr ⟨fun q' hq' tab htab hid => hany ?_, rfl⟩
          cases Option.some.inj (hq.symm.trans hq')
          exact any_eq_true.mpr ⟨tab, htab, by simpa using hid⟩
      · next hnone => exact .inr ⟨fun q hq => absurd hq (hnone q), rfl⟩
    · next htabs =>
      refine .inl ⟨rfl, fun p' hp' => ?_⟩
      cases Option.some.inj (hfind.symm.trans hp')
      exact htabs
  · next hnone => exact .inl ⟨rfl, fun p hp => absurd hp (hnone p)⟩

structure Emptied (ids : Nat → String) (root root' : PaneNode) (p : Panel) (place : Place)
    (tabId : String) : Prop where
  plugged : plug (.leaf p) place = root
  empty : p.tabs = []
  node_ids : (nodeIds root').Nodup
  others : otherTabs tabId root' = otherTabs tabId root
  tabs : collectTabs root' = collectTabs root
  panels : ∀ r ∈ collectPanels root, r ≠ p → r ∈ collectPanels root'

theorem emptied (ids : Nat → String) {root : PaneNode} (hsplits : SplitsOk root) (hnodup : (nodeIds root).Nodup)
    {paneId : String} {p : Panel} {place : Place}
    (hloc : locatePane root paneId = some (.leaf p, place)) (htabs : p.tabs = [])
    (halone : ¬ Alone root paneId) (tabId : String) :
    Emptied ids root (withoutPanel ids place) p place tabId := by
  have hns : ¬ NoSibling place := fun hns => halone ⟨_, place, hloc, hns⟩
  obtain ⟨rfl, -⟩ := locatePane_spec hloc
  have haround := ((holds_plug _ _ _ _).mp hsplits).2
  obtain ⟨hothers, hcollect⟩ := withoutPanel_kept ids haround htabs hns tabId
  exact ⟨rfl, htabs, withoutPanel_nodeIds ids hsplits hnodup hns, hothers, hcollect,
    fun r hr hne => mem_withoutPanel ids haround hr hne⟩

theorem moveTab_kept (hok : MovesOk state)
    (hbeside : ¬ (Empties state (.moveTab fromPaneId toPaneId tabId toIndex) ∧
      Alone state.rootPane fromPaneId)) :
    Kept state (state.moveTab ids fromPaneId toPaneId tabId toIndex) tabId := by
  obtain ⟨hnodes, hsplits, halone, hothers, htabs⟩ :=
    transferTab_kept hok.working.node_ids fromPaneId toPaneId tabId toIndex rfl
  rcases moveTab_cases ids state fromPaneId toPaneId tabId toIndex rfl with
    ⟨heq, -⟩ | ⟨p, place, hloc, hempty, hcase⟩
  · rw [heq]
    refine kept_working hok id (.inl rfl) (.inl rfl) ?_ hothers
    rw [refreshed_same, map_id']
    exact htabs
  have he := emptied ids (hsplits.mpr hok.working.splits)
    (hnodes ▸ hok.working.node_ids) hloc hempty
    (fun h => hbeside ⟨empties_of_left hok hloc hempty, (halone _).mp h⟩) tabId
  have htabs' := htabs
  rw [← he.tabs] at htabs'
  rcases hcase with ⟨q, hq, htab, heq⟩ | ⟨-, heq⟩
  · obtain ⟨hmem, rfl⟩ := (findPane_iff he.node_ids).mp hq
    have hdistinct : ((collectTabs (withoutPanel ids place)).map Tab.id).Nodup := by
      rw [(htabs'.map Tab.id).nodup_iff, ← tabIds_eq_map]
      exact hok.working.tab_ids
    obtain ⟨hothers', hshown⟩ := showTab_kept (ids 2) he.node_ids hdistinct hmem htab
    rw [heq]
    refine kept_working hok _ (.inr ⟨ids 2, rfl⟩) (.inr ?_) ?_
      (hothers'.trans (he.others.trans hothers))
    · obtain ⟨tab, htab, hid⟩ := htab
      exact ⟨tab, htabs'.mem_iff.mp (mem_collectTabs.mpr ⟨q, hmem, htab⟩), hid⟩
    · rw [hshown]
      exact htabs'.map _
  · have hroot := removeEmptyPane_root ids hloc hempty
    rw [heq]
    refine kept_working hok id (.inl rfl) (.inl rfl) ?_ ?_
    · rw [refreshed_same, map_id', hroot]
      exact htabs'
    · rw [hroot]
      exact he.others.trans hothers

theorem treeOf_working (h : Holder) :
    PanesState.treeOf { state with toHolder := h } state.currentLayoutId = some h.rootPane :=
  if_pos rfl

/-- **On success the tab is shown, in the panel that is active.** -/
theorem moveTab_shows (hok : MovesOk state) (hne : fromPaneId ≠ toPaneId) {p q : Panel}
    {tabIndex : Nat} {tab : Tab}
    (hf : Found state.rootPane fromPaneId toPaneId tabId p q tabIndex tab)
    (hbeside : ¬ (Empties state (.moveTab fromPaneId toPaneId tabId toIndex) ∧
      Alone state.rootPane fromPaneId)) :
    (state.moveTab ids fromPaneId toPaneId tabId toIndex).Shows state.currentLayoutId toPaneId
        tabId ∧
      (state.moveTab ids fromPaneId toPaneId tabId toIndex).activePaneId = toPaneId := by
  obtain ⟨hnodes, hsplits, halone, hothers, htabs⟩ :=
    transferTab_kept hok.working.node_ids fromPaneId toPaneId tabId toIndex rfl
  have hnodup : (nodeIds (transferTab state.toHolder fromPaneId toPaneId tabId toIndex).rootPane).Nodup :=
    hnodes ▸ hok.working.node_ids
  -- the panel that has got the tab
  obtain ⟨hq, rfl⟩ := (findPane_iff hok.working.node_ids).mp hf.target
  have hmem : insertTab tab toIndex q ∈ collectPanels
      (transferTab state.toHolder fromPaneId q.id tabId toIndex).rootPane := by
    rw [transferTab_found hf]
    rw [passTab_panels hok.working.node_ids, ← passPanel_target (Ne.symm hne)]
    exact mem_map_of_mem hq
  have htab : tab ∈ (insertTab tab toIndex q).tabs :=
    (insertTab_perm tab toIndex q).mem_iff.mp mem_cons_self
  have hid : tab.id = tabId := (findTab_spec hf.tab).2
  rcases moveTab_cases ids state fromPaneId q.id tabId toIndex rfl with
    ⟨heq, -⟩ | ⟨r, place, hloc, hempty, hcase⟩
  · rw [heq, transferTab_found hf]
    refine ⟨⟨_, treeOf_working _, insertTab tab toIndex q, ?_, rfl, hid, tab, htab, hid⟩, rfl⟩
    rw [transferTab_found hf] at hmem
    exact hmem
  have he := emptied ids (hsplits.mpr hok.working.splits) hnodup hloc hempty
    (fun h => hbeside ⟨empties_of_left hok hloc hempty, (halone _).mp h⟩) tabId
  have hstays : insertTab tab toIndex q ∈ collectPanels (withoutPanel ids place) := by
    refine he.panels _ hmem fun heq => ?_
    rw [heq, hempty] at htab
    cases htab
  have hfind := (findPane_iff he.node_ids).mpr ⟨hstays, rfl⟩
  rcases hcase with ⟨q', hq', htab', heq⟩ | ⟨hnone, -⟩
  · obtain ⟨hmem', hid'⟩ := (findPane_iff he.node_ids).mp hq'
    rw [heq]
    refine ⟨⟨_, treeOf_working _, showTab (ids 2) tabId q', ?_, hid', rfl,
      showTab_shows (ids 2) htab'⟩, rfl⟩
    have hwritten := mem_modifyPanel (showTab (ids 2) tabId) q.id he.node_ids hmem'
    rwa [atPanel_of_eq _ hid'] at hwritten
  · exact absurd hid (hnone _ hfind tab htab)

theorem splitAndMoveTab_cases (ids : Nat → String) (h : Holder) (paneId tabId : String)
    (direction : SplitDirection) :
    splitAndMoveTab ids h paneId tabId direction = h ∧
        (∀ p, findPane h.rootPane paneId = some (.leaf p) → 1 < p.tabs.length →
          findTab p tabId = none) ∨
      ∃ p place tabIndex tab, plug (.leaf p) place = h.rootPane ∧
        findTab p tabId = some (tabIndex, tab) ∧
        splitAndMoveTab ids h paneId tabId direction =
          ⟨insertOrWrap (ids 1) (directionMap direction) (.leaf (spliceTab p tabIndex tabId))
            (.leaf ⟨ids 0, [tab], tab.id⟩) place, ids 0⟩ := by
  unfold splitAndMoveTab
  split
  · next p place hloc =>
    have hfind : findPane h.rootPane paneId = some (.leaf p) := by
      rw [findPane, hloc]
      rfl
    split
    · next hle =>
      refine .inl ⟨rfl, fun p' hp' hlt => ?_⟩
      cases Option.some.inj (hfind.symm.trans hp')
      exact absurd hlt (Nat.not_lt.mpr hle)
    split
    · next hnone =>
      refine .inl ⟨rfl, fun p' hp' _ => ?_⟩
      cases Option.some.inj (hfind.symm.trans hp')
      exact hnone
    · next tabIndex tab htab =>
      exact .inr ⟨p, place, tabIndex, tab, (locatePane_spec hloc).1, htab, rfl⟩
  · next hnone =>
    refine .inl ⟨rfl, fun p hp _ => ?_⟩
    obtain ⟨place, hloc⟩ := findPane_place hp
    exact absurd hloc (hnone p place)

theorem splitAndMoveTab_kept (hok : MovesOk state) (paneId tabId : String)
    (direction : SplitDirection) :
    Kept state (state.splitAndMoveTab ids paneId tabId direction) tabId := by
  unfold PanesState.splitAndMoveTab
  rcases splitAndMoveTab_cases ids state.toHolder paneId tabId direction with
    ⟨heq, -⟩ | ⟨p, place, tabIndex, tab, hplug, htab, heq⟩
  · rw [heq]
    exact Kept.refl state tabId
  obtain ⟨hperm, hid⟩ := findTab_spec htab
  have hnone : otherTabsOf tabId [⟨ids 0, [tab], tab.id⟩] = [] :=
    otherTabsOf_singleton (others_nil_iff.mpr fun t ht => mem_singleton.mp ht ▸ hid)
  have hsame : otherTabsOf tabId ([p].map fun _ => spliceTab p tabIndex tabId) =
      otherTabsOf tabId [p] := by
    refine otherTabsOf_map fun r hr => ?_
    rw [mem_singleton.mp hr]
    exact ⟨rfl, others_eraseIdx htab⟩
  rw [map_singleton] at hsame
  rw [heq]
  refine kept_working hok id (.inl rfl) (.inl rfl) ?_ ?_
  · rw [refreshed_same, map_id', collectTabs, collectTabs, insertOrWrap_panels, ← hplug,
      plug_panels, collectPanels_leaf, collectPanels_leaf, collectPanels_leaf]
    simp only [flatMap_append, flatMap_singleton]
    refine List.Perm.append_right _ (List.Perm.append_left _ ?_)
    exact (perm_append_singleton tab _).trans hperm
  · rw [otherTabs, otherTabs, insertOrWrap_panels, ← hplug, plug_panels, collectPanels_leaf,
      collectPanels_leaf, collectPanels_leaf, otherTabsOf_append, otherTabsOf_append,
      otherTabsOf_append, otherTabsOf_append, otherTabsOf_append, hsame, hnone, append_nil]

theorem splitAndMoveTab_shows {paneId tabId : String} (direction : SplitDirection) {p : Panel}
    (hp : findPane state.rootPane paneId = some (.leaf p)) (hlen : 1 < p.tabs.length)
    (htab : (findTab p tabId).isSome) :
    (state.splitAndMoveTab ids paneId tabId direction).Shows state.currentLayoutId (ids 0) tabId ∧
      (state.splitAndMoveTab ids paneId tabId direction).activePaneId = ids 0 := by
  unfold PanesState.splitAndMoveTab
  rcases splitAndMoveTab_cases ids state.toHolder paneId tabId direction with
    ⟨-, hnone⟩ | ⟨q, place, tabIndex, tab, -, hfound, heq⟩
  · rw [hnone p hp hlen] at htab
    cases htab
  have hid := (findTab_spec hfound).2
  rw [heq]
  refine ⟨⟨_, treeOf_working _, ⟨ids 0, [tab], tab.id⟩, ?_, rfl, hid, tab, ?_, hid⟩, rfl⟩
  · rw [insertOrWrap_panels, collectPanels_leaf, collectPanels_leaf]
    exact mem_append_left _ (mem_append_right _ (mem_append_right _ mem_cons_self))
  · exact mem_singleton.mpr rfl

end

end CcPanes.Panes

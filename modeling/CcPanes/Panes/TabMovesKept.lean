import CcPanes.Panes.TabMoves

/-!
# What a moved tab leaves as it was
-/

namespace CcPanes.Panes
open RoseTree List

/-! ## one tree -/

theorem dropTab_id (tabIndex : Nat) (p : Panel) : (dropTab tabIndex p).id = p.id := rfl

theorem insertTab_id (tab : Tab) (toIndex : Option Int) (p : Panel) :
    (insertTab tab toIndex p).id = p.id := rfl

section
variable {root : PaneNode} {tabId : String}

theorem mem_modifyPanel (write : Panel → Panel) (paneId : String) (hnodup : (nodeIds root).Nodup)
    {p : Panel} (hp : p ∈ collectPanels root) :
    atPanel paneId write p ∈ collectPanels (modifyPanel root paneId write) := by
  rw [modifyPanel_panels hnodup]
  exact mem_map_of_mem hp

theorem otherTabs_modifyPanel {write : Panel → Panel} {paneId : String}
    (hnodup : (nodeIds root).Nodup) (hid : ∀ p, (write p).id = p.id)
    (h : ∀ p ∈ collectPanels root, p.id = paneId →
      others tabId (write p).tabs = others tabId p.tabs) :
    otherTabs tabId (modifyPanel root paneId write) = otherTabs tabId root := by
  rw [otherTabs, modifyPanel_panels hnodup]
  refine otherTabsOf_map fun p hp => ?_
  refine ⟨atPanel_id hid p, ?_⟩
  by_cases hpid : p.id = paneId
  · rw [← hpid, atPanel_self]
    exact h p hp hpid
  · rw [atPanel_of_ne hpid]

theorem collectTabs_modifyPanel {write : Panel → Panel} (hnodup : (nodeIds root).Nodup) {p : Panel}
    (hp : p ∈ collectPanels root) {x y : List Tab}
    (h : (x ++ (write p).tabs).Perm (y ++ p.tabs)) :
    (x ++ collectTabs (modifyPanel root p.id write)).Perm (y ++ collectTabs root) := by
  rw [collectTabs, modifyPanel_panels hnodup, flatMap_map]
  refine flatMap_update Panel.id (panel_ids_nodup hnodup) hp (fun q _ hne => ?_) ?_
  · rw [atPanel_of_ne hne]
  · rw [atPanel_self]
    exact h

def passTab (root : PaneNode) (fromPaneId toPaneId : String) (tabIndex : Nat) (tab : Tab)
    (toIndex : Option Int) : PaneNode :=
  modifyPanel (modifyPanel (modifyPanel root fromPaneId (dropTab tabIndex)) toPaneId
    (insertTab tab toIndex)) fromPaneId (showTabAt tabIndex)

end

section
variable {h : Holder} {fromPaneId toPaneId tabId : String} {toIndex : Option Int}

theorem transferTab_found {p q : Panel} {tabIndex : Nat} {tab : Tab}
    (hf : Found h.rootPane fromPaneId toPaneId tabId p q tabIndex tab) :
    transferTab h fromPaneId toPaneId tabId toIndex =
      ⟨passTab h.rootPane fromPaneId toPaneId tabIndex tab toIndex, toPaneId⟩ := by
  obtain ⟨⟨n, place⟩, hloc, hn⟩ := Option.map_eq_some_iff.mp hf.source
  obtain ⟨⟨n', place'⟩, hloc', hn'⟩ := Option.map_eq_some_iff.mp hf.target
  obtain rfl : n = .leaf p := hn
  obtain rfl : n' = .leaf q := hn'
  have hdrop : modifyPanel h.rootPane fromPaneId (dropTab tabIndex) =
      plug (.leaf (dropTab tabIndex p)) place := by
    rw [modifyPanel, hloc]
  unfold transferTab passTab
  rw [hloc, hloc', hdrop]
  dsimp only
  rw [hf.tab]
  rfl

theorem transferTab_cases (h : Holder) (fromPaneId toPaneId tabId : String)
    (toIndex : Option Int) :
    transferTab h fromPaneId toPaneId tabId toIndex = h ∨
      ∃ p q tabIndex tab, Found h.rootPane fromPaneId toPaneId tabId p q tabIndex tab := by
  unfold transferTab
  split
  · next p place q place' hloc hloc' =>
    split
    · exact .inl rfl
    next tabIndex tab htab =>
    refine .inr ⟨p, q, tabIndex, tab, ?_, ?_, htab⟩
    · rw [findPane, hloc]
      rfl
    · rw [findPane, hloc']
      rfl
  · exact .inl rfl

end

section
variable {root : PaneNode} {fromPaneId toPaneId tabId : String} {p q : Panel} {tabIndex : Nat}
  {tab : Tab} {toIndex : Option Int}

theorem dropped (hnodup : (nodeIds root).Nodup) (hp : p ∈ collectPanels root)
    (htab : findTab p tabId = some (tabIndex, tab)) :
    otherTabs tabId (modifyPanel root p.id (dropTab tabIndex)) = otherTabs tabId root ∧
      ([tab] ++ collectTabs (modifyPanel root p.id (dropTab tabIndex))).Perm (collectTabs root) := by
  constructor
  · refine otherTabs_modifyPanel hnodup (fun _ => rfl) fun r hr hid => ?_
    obtain rfl := panel_unique hnodup hr hp hid
    exact others_eraseIdx htab
  · exact collectTabs_modifyPanel (y := []) hnodup hp (findTab_spec htab).1

theorem inserted (toIndex : Option Int) (hnodup : (nodeIds root).Nodup) (hq : q ∈ collectPanels root)
    (hid : tab.id = tabId) :
    otherTabs tabId (modifyPanel root q.id (insertTab tab toIndex)) = otherTabs tabId root ∧
      (collectTabs (modifyPanel root q.id (insertTab tab toIndex))).Perm
        ([tab] ++ collectTabs root) := by
  constructor
  · exact otherTabs_modifyPanel hnodup (fun _ => rfl) fun r _ _ => others_insertTab hid toIndex r
  · exact collectTabs_modifyPanel (x := []) hnodup hq (insertTab_perm tab toIndex q).symm

theorem shown (tabId : String) (tabIndex : Nat) (hnodup : (nodeIds root).Nodup) (paneId : String) :
    otherTabs tabId (modifyPanel root paneId (showTabAt tabIndex)) = otherTabs tabId root ∧
      collectTabs (modifyPanel root paneId (showTabAt tabIndex)) = collectTabs root := by
  constructor
  · refine otherTabs_modifyPanel hnodup (showTabAt_id tabIndex) fun r _ _ => ?_
    rw [showTabAt_tabs]
  rw [collectTabs, modifyPanel_panels hnodup, flatMap_map]
  refine flatMap_congr fun r _ => ?_
  unfold atPanel
  split
  · exact showTabAt_tabs tabIndex r
  · rfl

end

/-! ## a move within one tree -/

section
variable {root : PaneNode} {fromPaneId toPaneId tabId : String} {p q : Panel} {tabIndex : Nat}
  {tab : Tab} {toIndex : Option Int}

theorem nodeIds_drop (root : PaneNode) (paneId : String) (tabIndex : Nat) :
    nodeIds (modifyPanel root paneId (dropTab tabIndex)) = nodeIds root :=
  modifyPanel_nodeIds (dropTab_id tabIndex)

theorem nodeIds_insert (root : PaneNode) (paneId : String) (tab : Tab) (toIndex : Option Int) :
    nodeIds (modifyPanel root paneId (insertTab tab toIndex)) = nodeIds root :=
  modifyPanel_nodeIds (insertTab_id tab toIndex)

theorem nodeIds_passTab :
    nodeIds (passTab root fromPaneId toPaneId tabIndex tab toIndex) = nodeIds root := by
  unfold passTab
  rw [modifyPanel_nodeIds (showTabAt_id tabIndex), nodeIds_insert, nodeIds_drop]

def passPanel (fromPaneId toPaneId : String) (tabIndex : Nat) (tab : Tab) (toIndex : Option Int)
    (p : Panel) : Panel :=
  atPanel fromPaneId (showTabAt tabIndex)
    (atPanel toPaneId (insertTab tab toIndex) (atPanel fromPaneId (dropTab tabIndex) p))

theorem dropPanel_id (p : Panel) : (atPanel fromPaneId (dropTab tabIndex) p).id = p.id :=
  atPanel_id (dropTab_id tabIndex) p

theorem givenPanel_id (p : Panel) :
    (atPanel toPaneId (insertTab tab toIndex) p).id = p.id :=
  atPanel_id (insertTab_id tab toIndex) p

theorem passPanel_id (p : Panel) :
    (passPanel fromPaneId toPaneId tabIndex tab toIndex p).id = p.id := by
  rw [passPanel, atPanel_id (showTabAt_id tabIndex), givenPanel_id, dropPanel_id]

theorem passTab_panels (hnodup : (nodeIds root).Nodup) :
    collectPanels (passTab root fromPaneId toPaneId tabIndex tab toIndex) =
      (collectPanels root).map (passPanel fromPaneId toPaneId tabIndex tab toIndex) := by
  have hdrop := nodeIds_drop root fromPaneId tabIndex
  have hinsert := nodeIds_insert (modifyPanel root fromPaneId (dropTab tabIndex)) toPaneId tab toIndex
  unfold passTab
  rw [modifyPanel_panels (hinsert.trans hdrop ▸ hnodup), modifyPanel_panels (hdrop ▸ hnodup),
    modifyPanel_panels hnodup, map_map, map_map]
  rfl

theorem passPanel_target (hne : p.id ≠ fromPaneId) :
    passPanel fromPaneId p.id tabIndex tab toIndex p = insertTab tab toIndex p := by
  have hne' : (insertTab tab toIndex p).id ≠ fromPaneId := hne
  rw [passPanel, atPanel_of_ne hne, atPanel_self, atPanel_of_ne hne']

theorem passPanel_source (hne : p.id ≠ toPaneId) :
    passPanel p.id toPaneId tabIndex tab toIndex p = showTabAt tabIndex (dropTab tabIndex p) := by
  have hid : (dropTab tabIndex p).id = p.id := rfl
  rw [passPanel, atPanel_self, atPanel_of_ne (p := dropTab tabIndex p) hne, atPanel_of_eq _ hid]

theorem passPanel_same : (passPanel p.id p.id tabIndex tab toIndex p).tabs ≠ [] := by
  have hid : (dropTab tabIndex p).id = p.id := rfl
  have hid' : (insertTab tab toIndex (dropTab tabIndex p)).id = p.id := rfl
  rw [passPanel, atPanel_self, atPanel_of_eq _ hid, atPanel_of_eq _ hid', showTabAt_tabs]
  exact append_ne_nil_of_right_ne_nil _ (cons_ne_nil _ _)

/-- **A move within one tree keeps the tabs.** -/
theorem passTab_kept (toIndex : Option Int) (hnodup : (nodeIds root).Nodup)
    (hf : Found root fromPaneId toPaneId tabId p q tabIndex tab) :
    otherTabs tabId (passTab root fromPaneId toPaneId tabIndex tab toIndex) = otherTabs tabId root ∧
      (collectTabs (passTab root fromPaneId toPaneId tabIndex tab toIndex)).Perm
        (collectTabs root) := by
  obtain ⟨hp, rfl⟩ := (findPane_iff hnodup).mp hf.source
  obtain ⟨hq, rfl⟩ := (findPane_iff hnodup).mp hf.target
  have hdrop := nodeIds_drop root p.id tabIndex
  have hinsert := nodeIds_insert (modifyPanel root p.id (dropTab tabIndex)) q.id tab toIndex
  obtain ⟨hothers, htabs⟩ := dropped hnodup hp hf.tab
  obtain ⟨q', hq', hid⟩ : ∃ q' ∈ collectPanels (modifyPanel root p.id (dropTab tabIndex)),
      q'.id = q.id := by
    exact ⟨_, mem_modifyPanel _ _ hnodup hq, dropPanel_id q⟩
  have hgiven := inserted toIndex (hdrop ▸ hnodup) hq' (findTab_spec hf.tab).2
  rw [hid] at hgiven
  obtain ⟨hothers', htabs'⟩ := hgiven
  obtain ⟨hothers'', htabs''⟩ := shown tabId tabIndex (hinsert.trans hdrop ▸ hnodup) p.id
  refine ⟨hothers''.trans (hothers'.trans hothers), ?_⟩
  rw [passTab, htabs'']
  exact htabs'.trans htabs

end

section
variable (ids : Nat → String) {p : Panel} {place : Place}

theorem mem_withoutPanel (h : HoldsAround (fun _ => True) SplitOk place) {r : Panel}
    (hr : r ∈ collectPanels (plug (.leaf p) place)) (hne : r ≠ p) :
    r ∈ collectPanels (withoutPanel ids place) := by
  rw [plug_panels, collectPanels_leaf] at hr
  rw [removed_panels ids h]
  rcases mem_append.mp hr with hr | hr
  · rcases mem_append.mp hr with hr | hr
    · exact mem_append_left _ (mem_append_left _ hr)
    · exact absurd (mem_singleton.mp hr) hne
  · exact mem_append_right _ hr

/-- **Beside another pane an empty panel goes, and nothing else.** -/
theorem withoutPanel_kept (h : HoldsAround (fun _ => True) SplitOk place) (htabs : p.tabs = [])
    (hns : ¬ NoSibling place) (tabId : String) :
    otherTabs tabId (withoutPanel ids place) = otherTabs tabId (plug (.leaf p) place) ∧
      collectTabs (withoutPanel ids place) = collectTabs (plug (.leaf p) place) := by
  have hpanels := removed_panels ids h
  rw [if_neg hns, append_nil] at hpanels
  have hnone : otherTabsOf tabId [p] = [] := otherTabsOf_singleton (by rw [htabs]; rfl)
  constructor
  · rw [otherTabs, otherTabs, hpanels, plug_panels, collectPanels_leaf, otherTabsOf_append,
      otherTabsOf_append, otherTabsOf_append, hnone, append_nil]
  · rw [collectTabs, collectTabs, hpanels, plug_panels, collectPanels_leaf, flatMap_append,
      flatMap_append, flatMap_append, flatMap_singleton, htabs, append_nil]

theorem withoutPanel_nodeIds (h : SplitsOk (plug (.leaf p) place))
    (hnodup : (nodeIds (plug (.leaf p) place)).Nodup) (hns : ¬ NoSibling place) :
    (nodeIds (withoutPanel ids place)).Nodup := by
  cases place with
  | nil => exact absurd trivial hns
  | cons fr frs =>
    obtain ⟨hsplit, hleft, hright, hrest⟩ := ((holds_plug _ _ _ _).mp h).2
    have hok : SplitsOk (plug (removeChild fr) frs) :=
      (holds_plug _ _ _ _).mpr ⟨removeChild_splitsOk hns hsplit hleft hright, hrest⟩
    have hdrawn := (normalizePaneTree_same ids 0 _ hok).1
    refine nodup_iff_count_le_one.mpr fun x => ?_
    have hnormal := normalizePaneTree_count ids counted_nodeIds x 0 (plug (removeChild fr) frs)
    have hremoved := removeChild_count counted_nodeIds (.leaf p) fr frs x
    have hle := nodup_iff_count_le_one.mp hnodup x
    rw [hdrawn] at hnormal
    show (nodeIds (normalizePaneTree ids 0 (plug (removeChild fr) frs)).1).count x ≤ 1
    unfold nodeIds at hle ⊢
    omega

end

/-! ## a tab shown again -/

theorem syncTab_id (draw : String) (tab : Tab) : (syncTab draw tab).id = tab.id := by
  unfold syncTab
  split <;> rfl

section
variable {tabId : String} {refresh : Tab → Tab}

theorem refreshed_id (hid : ∀ tab, (refresh tab).id = tab.id) (tab : Tab) :
    (refreshed tabId refresh tab).id = tab.id := by
  unfold refreshed
  split
  · exact hid tab
  · rfl

theorem refreshed_absent {tabs : List Tab} (h : ∀ tab ∈ tabs, tab.id ≠ tabId) :
    tabs.map (refreshed tabId refresh) = tabs :=
  (map_congr_left fun tab htab => if_neg (h tab htab)).trans (map_id _)

theorem refreshed_same : refreshed tabId id = fun tab => tab := by
  funext tab
  unfold refreshed
  split <;> rfl

theorem modify_eq_refreshed {tabs : List Tab} (hnodup : (tabs.map Tab.id).Nodup) :
    tabs.modify (tabs.findIdx (·.id == tabId)) refresh = tabs.map (refreshed tabId refresh) := by
  induction tabs with
  | nil => rfl
  | cons tab tabs ih =>
    obtain ⟨hnot, hrest⟩ := nodup_cons.mp hnodup
    rw [findIdx_cons, map_cons]
    by_cases hid : tab.id = tabId
    · have habsent : tabs.map (refreshed tabId refresh) = tabs :=
        refreshed_absent fun t ht heq => hnot (hid.trans heq.symm ▸ mem_map_of_mem ht)
      rw [habsent, refreshed, if_pos hid, beq_iff_eq.mpr hid]
      rfl
    · rw [refreshed, if_neg hid, beq_eq_false_iff_ne.mpr hid, ← ih hrest]
      rfl

theorem others_refreshed (hid : ∀ tab, (refresh tab).id = tab.id) (tabs : List Tab) :
    others tabId (tabs.map (refreshed tabId refresh)) = others tabId tabs := by
  induction tabs with
  | nil => rfl
  | cons tab tabs ih =>
    unfold others at ih ⊢
    rw [map_cons, filter_cons, filter_cons, ih, refreshed_id hid]
    by_cases h : tab.id = tabId
    · rw [if_neg (by simpa using h), if_neg (by simpa using h)]
    · rw [if_pos (by simpa using h), if_pos (by simpa using h), refreshed, if_neg h]

end

theorem modify_ids {refresh : Tab → Tab} (hid : ∀ tab, (refresh tab).id = tab.id)
    (tabs : List Tab) (i : Nat) : (tabs.modify i refresh).map Tab.id = tabs.map Tab.id := by
  induction tabs generalizing i with
  | nil => cases i <;> rfl
  | cons tab tabs ih =>
    cases i with
    | zero => exact congrArg (· :: _) (hid tab)
    | succ i => exact congrArg (tab.id :: ·) (ih i)

theorem showTab_shows (draw : String) {tabId : String} {p : Panel}
    (h : ∃ tab ∈ p.tabs, tab.id = tabId) :
    ∃ tab ∈ (showTab draw tabId p).tabs, tab.id = tabId := by
  have hids : (showTab draw tabId p).tabs.map Tab.id = p.tabs.map Tab.id :=
    modify_ids (syncTab_id draw) _ _
  rw [← mem_map] at h ⊢
  rwa [hids]

theorem panel_of_tab {root : PaneNode} (htabs : ((collectTabs root).map Tab.id).Nodup) {p q : Panel}
    (hp : p ∈ collectPanels root) (hq : q ∈ collectPanels root) {tab tab' : Tab} (h : tab ∈ p.tabs)
    (h' : tab' ∈ q.tabs) (hid : tab.id = tab'.id) : p = q := by
  rw [collectTabs, map_flatMap] at htabs
  exact eq_of_mem_flatMap htabs hp hq (mem_map_of_mem h) (hid ▸ mem_map_of_mem h')

/-- **A tab shown again**: it may be brought up to date -/
theorem showTab_kept (draw : String) {root : PaneNode} {tabId : String} {p : Panel}
    (hnodup : (nodeIds root).Nodup) (htabs : ((collectTabs root).map Tab.id).Nodup)
    (hp : p ∈ collectPanels root) (htab : ∃ tab ∈ p.tabs, tab.id = tabId) :
    otherTabs tabId (modifyPanel root p.id (showTab draw tabId)) = otherTabs tabId root ∧
      collectTabs (modifyPanel root p.id (showTab draw tabId)) =
        (collectTabs root).map (refreshed tabId (syncTab draw)) := by
  have hpanel : ∀ r ∈ collectPanels root, (r.tabs.map Tab.id).Nodup := by
    intro r hr
    rw [collectTabs, map_flatMap] at htabs
    exact (nodup_flatMap.mp htabs).1 r hr
  have hshown : ∀ r ∈ collectPanels root,
      (showTab draw tabId r).tabs = r.tabs.map (refreshed tabId (syncTab draw)) :=
    fun r hr => modify_eq_refreshed (hpanel r hr)
  constructor
  · refine otherTabs_modifyPanel hnodup (fun _ => rfl) fun r hr _ => ?_
    rw [hshown r hr, others_refreshed (syncTab_id draw)]
  rw [collectTabs, modifyPanel_panels hnodup, flatMap_map, collectTabs, map_flatMap]
  refine flatMap_congr fun r hr => ?_
  by_cases hid : r.id = p.id
  · rw [← hid, atPanel_self]
    exact hshown r hr
  rw [atPanel_of_ne hid]
  refine (refreshed_absent fun t ht heq => hid ?_).symm
  obtain ⟨t', ht', hid'⟩ := htab
  rw [panel_of_tab htabs hr hp ht ht' (heq.trans hid'.symm)]

end CcPanes.Panes

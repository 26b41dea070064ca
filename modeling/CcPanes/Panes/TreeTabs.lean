import CcPanes.Panes.PaneInvariant

/-!
# The tabs of a tree

What an action does to the tabs of a tree, whatever they hold.  A new panel comes with a
placeholder.
-/

namespace CcPanes.Panes
open RoseTree

variable {root : PaneNode} {tab : Tab} {p : Panel}

def collectTabs (root : PaneNode) : List Tab := (collectPanels root).flatMap Panel.tabs

def findTabLocation (rootPane : PaneNode) (tabId : String) : Option (Panel × Tab) :=
  (collectPanels rootPane).findSome? fun panel =>
    (panel.tabs.find? (·.id == tabId)).map fun tab => (panel, tab)

def Placeholders (ids : Nat → String) (tabs : List Tab) : Prop :=
  ∀ tab ∈ tabs, ∃ n, tab = placeholderTab (ids n)

section
variable {ids : Nat → String} {tabs tabs' : List Tab}

theorem placeholders_nil : Placeholders ids [] := fun _ h => absurd h List.not_mem_nil

theorem placeholders_singleton (n : Nat) : Placeholders ids [placeholderTab (ids n)] :=
  fun _ h => ⟨n, List.mem_singleton.mp h⟩

theorem Placeholders.append (h : Placeholders ids tabs) (h' : Placeholders ids tabs') :
    Placeholders ids (tabs ++ tabs') :=
  fun tab htab => (List.mem_append.mp htab).elim (h tab) (h' tab)

end

theorem mem_collectTabs :
    tab ∈ collectTabs root ↔ ∃ p ∈ collectPanels root, tab ∈ p.tabs := List.mem_flatMap

theorem tabIds_eq_map (root : PaneNode) : tabIds root = (collectTabs root).map Tab.id :=
  tabIds_eq root

theorem collectTabs_eq (root : PaneNode) :
    collectTabs root = collect Panel.tabs (fun _ => []) root :=
  (collect_eq_flatMap Panel.tabs root).symm

theorem TreeOk.tab_unique (h : TreeOk root) {tab tab' : Tab} (ht : tab ∈ collectTabs root)
    (ht' : tab' ∈ collectTabs root) (hid : tab.id = tab'.id) : tab = tab' := by
  have hnodup : ((collectTabs root).map Tab.id).Nodup := tabIds_eq_map root ▸ h.tab_ids
  exact List.inj_on_of_nodup_map hnodup ht ht' hid

theorem findTabLocation_some {tabId : String} (h : findTabLocation root tabId = some (p, tab)) :
    p ∈ collectPanels root ∧ tab ∈ p.tabs ∧ tab.id = tabId := by
  obtain ⟨panel, hpanel, hfind⟩ := List.exists_of_findSome?_eq_some h
  obtain ⟨tab', htab, heq⟩ := Option.map_eq_some_iff.mp hfind
  cases heq
  exact ⟨hpanel, List.mem_of_find?_eq_some htab, by simpa using List.find?_some htab⟩

theorem findTabLocation_none {tabId : String} (h : findTabLocation root tabId = none)
    (htab : tab ∈ collectTabs root) : tab.id ≠ tabId := by
  obtain ⟨p, hp, htab⟩ := mem_collectTabs.mp htab
  have hnone := List.findSome?_eq_none_iff.mp h p hp
  have hfind := List.find?_eq_none.mp (Option.map_eq_none_iff.mp hnone) tab htab
  simpa using hfind

/-! ## a place in the tree -/

def tabsAround (place : Place) : List Tab :=
  before Panel.tabs (fun _ => []) place ++ after Panel.tabs (fun _ => []) place

theorem collectTabs_plug (t : PaneNode) (place : Place) :
    (collectTabs (plug t place)).Perm (collectTabs t ++ tabsAround place) := by
  rw [collectTabs_eq, collectTabs_eq, collect_plug, tabsAround]
  exact List.perm_append_comm_assoc ..

theorem collectTabs_leaf (p : Panel) : collectTabs (.leaf p) = p.tabs := by
  rw [collectTabs_eq, collect_leaf]

theorem collectTabs_plug_leaf (p : Panel) (place : Place) :
    (collectTabs (plug (.leaf p) place)).Perm (p.tabs ++ tabsAround place) := by
  have h := collectTabs_plug (.leaf p) place
  rwa [collectTabs_leaf] at h

theorem collectTabs_removeChild (fr : Frame Panel SplitPane) (frs : Place) :
    (collectTabs (plug (removeChild fr) frs)).Perm (tabsAround (fr :: frs)) := by
  rw [collectTabs_eq, collect_plug, removeChild, collect_node, collectAll_append, tabsAround,
    before, after]
  simp only [List.nil_append, List.append_assoc]
  exact .refl _

section
variable (ids : Nat → String)

mutual
theorem normalizePaneTree_tabs : ∀ (k : Nat) (t : PaneNode), ∃ extra, Placeholders ids extra ∧
    (collect Panel.tabs (fun _ => []) (normalizePaneTree ids k t).1).Perm
      (extra ++ collect Panel.tabs (fun _ => []) t)
  | k, .leaf p => by
    exact ⟨[], placeholders_nil, .refl _⟩
  | k, .node s ts => by
    obtain ⟨extra, hextra, hperm⟩ := normalizeChildren_tabs k ts
    rw [normalizePaneTree]
    split
    next hnil =>
      refine ⟨[placeholderTab (ids ((normalizeChildren ids k ts).2 + 1))] ++ extra,
        (placeholders_singleton _).append hextra, ?_⟩
      · rw [List.length_eq_zero_iff.mp hnil, collectAll_nil] at hperm
        show ([placeholderTab (ids ((normalizeChildren ids k ts).2 + 1))] ++ []).Perm _
        exact hperm.append_left _
    next =>
      refine ⟨extra, hextra, ?_⟩
      split
      all_goals
        exact hperm
theorem normalizeChildren_tabs : ∀ (k : Nat) (ts : List PaneNode), ∃ extra,
    Placeholders ids extra ∧
      (collectAll Panel.tabs (fun _ => []) (normalizeChildren ids k ts).1).Perm
        (extra ++ collectAll Panel.tabs (fun _ => []) ts)
  | k, [] => by
    exact ⟨[], placeholders_nil, .refl _⟩
  | k, t :: ts => by
    obtain ⟨extra, hextra, ht⟩ := normalizePaneTree_tabs k t
    obtain ⟨extra', hextra', hts⟩ := normalizeChildren_tabs (normalizePaneTree ids k t).2 ts
    refine ⟨extra ++ extra', hextra.append hextra', ?_⟩
    · rw [normalizeChildren, collectAll_cons, collectAll_cons, List.append_assoc]
      refine (ht.append hts).trans ?_
      rw [List.append_assoc]
      exact (List.perm_append_comm_assoc ..).append_left _
end

end

theorem findTab_of_mem (hnodup : (p.tabs.map Tab.id).Nodup) (h : tab ∈ p.tabs) :
    ∃ idx, findTab p tab.id = some (idx, tab) := by
  have hany : ∃ t ∈ p.tabs, (t.id == tab.id) = true := ⟨tab, h, by simp⟩
  cases hidx : p.tabs.findIdx? (·.id == tab.id) with
  | none =>
    obtain ⟨t, ht, hid⟩ := hany
    have hno := List.findIdx?_eq_none_iff.mp hidx t ht
    rw [hid] at hno
    cases hno
  | some idx =>
    obtain ⟨hlt, hid, -⟩ := List.findIdx?_eq_some_iff_getElem.mp hidx
    have hsame : p.tabs[idx] = tab :=
      List.inj_on_of_nodup_map hnodup (List.getElem_mem hlt) h (by simpa using hid)
    refine ⟨idx, ?_⟩
    rw [findTab, hidx, Option.bind_some, List.getElem?_eq_getElem hlt, hsame]
    rfl

theorem TreeOk.panel_tab_ids (h : TreeOk root) (hp : p ∈ collectPanels root) :
    (p.tabs.map Tab.id).Nodup := by
  have hnodup : ((collectTabs root).map Tab.id).Nodup := tabIds_eq_map root ▸ h.tab_ids
  rw [collectTabs, List.map_flatMap] at hnodup
  exact (List.nodup_flatMap.mp hnodup).1 p hp

/-- **A tab closed**: it goes, and a placeholder may come. -/
theorem closeTabInTree_tabs (ids : Nat → String) (h : TreeOk root) (hp : p ∈ collectPanels root)
    (htab : tab ∈ p.tabs) :
    ∃ extra, Placeholders ids extra ∧
      (tab :: collectTabs (closeTabInTree ids root p.id tab.id true)).Perm
        (extra ++ collectTabs root) := by
  obtain ⟨place, hloc, hroot⟩ := locatePane_panel h.node_ids hp
  obtain ⟨idx, hfind⟩ := findTab_of_mem (h.panel_tab_ids hp) htab
  have htabs : (tab :: p.tabs.eraseIdx idx).Perm p.tabs := (findTab_spec hfind).1
  unfold closeTabInTree
  simp only [hloc, hfind, Bool.not_true, Bool.false_and, Bool.false_eq_true, if_false]
  split
  · refine ⟨[], placeholders_nil, ?_⟩
    have hspliced := collectTabs_plug_leaf (spliceTab p idx tab.id) place
    refine (hspliced.cons tab).trans ?_
    rw [List.nil_append, ← hroot]
    exact (htabs.append_right _).trans (collectTabs_plug_leaf p place).symm
  next hone =>
    -- the panel has this tab only
    have hlen : p.tabs.length = (tab :: p.tabs.eraseIdx idx).length := htabs.length_eq.symm
    have hnil : p.tabs.eraseIdx idx = [] := by
      rw [List.length_cons] at hlen
      exact List.length_eq_zero_iff.mp (by omega)
    rw [hnil] at htabs
    cases place with
    | nil =>
      subst hroot
      refine ⟨[placeholderTab (ids 1)], placeholders_singleton 1, ?_⟩
      · show (tab :: collectTabs (.leaf (createPanel ids 0 none))).Perm
          ([placeholderTab (ids 1)] ++ collectTabs (.leaf p))
        rw [collectTabs_leaf, collectTabs_leaf]
        exact (List.Perm.swap _ _ _).trans (htabs.cons _)
    | cons fr frs =>
      obtain ⟨extra, hextra, hperm⟩ := normalizePaneTree_tabs ids 0 (plug (removeChild fr) frs)
      rw [← collectTabs_eq, ← collectTabs_eq] at hperm
      refine ⟨extra, hextra, ?_⟩
      have hrest := collectTabs_removeChild fr frs
      have hall := collectTabs_plug_leaf p (fr :: frs)
      rw [hroot] at hall
      refine (hperm.cons tab).trans ?_
      refine List.perm_middle.symm.trans (List.Perm.append_left extra ?_)
      exact (hrest.cons tab).trans ((htabs.append_right _).trans hall.symm)

theorem closeTabInTree_nodeIds (ids : Nat → String) {paneId tabId id : String} {force : Bool}
    (h : id ∈ nodeIds (closeTabInTree ids root paneId tabId force)) :
    id ∈ nodeIds root ∨ ∃ n, id = ids n := by
  unfold closeTabInTree at h
  split at h
  next pane place hloc =>
    obtain ⟨rfl, -⟩ := locatePane_spec hloc
    split at h
    · exact .inl h
    next idx tab hfind =>
      split at h
      · exact .inl h
      split at h
      · rw [nodeIds_plug_leaf (show (spliceTab pane idx tabId).id = pane.id from rfl) place] at h
        exact .inl h
      cases place with
      | nil =>
        rw [nodeIds, collect_leaf, List.mem_singleton] at h
        exact .inr ⟨0, h⟩
      | cons fr frs =>
        have hnorm := normalizePaneTree_count ids counted_nodeIds id 0 (plug (removeChild fr) frs)
        have hremove := removeChild_count counted_nodeIds (.leaf pane) fr frs id
        have hpos : 0 < (collect (fun p : Panel => [p.id]) (fun s : SplitPane => [s.id])
            (normalizePaneTree ids 0 (plug (removeChild fr) frs)).1).count id :=
          List.count_pos_iff.mpr h
        by_cases hold : id ∈ nodeIds (plug (.leaf pane) (fr :: frs))
        · exact .inl hold
        have hzero := List.count_eq_zero_of_not_mem hold
        have hstock : 0 < (stock ids
            (normalizePaneTree ids 0 (plug (removeChild fr) frs)).2).count id := by
          unfold nodeIds at hzero
          omega
        obtain ⟨n, -, rfl⟩ := List.mem_map.mp (List.count_pos_iff.mp hstock)
        exact .inr ⟨n, rfl⟩
  next => exact .inl h

end CcPanes.Panes

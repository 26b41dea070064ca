import CcPanes.Foundation.Run
import CcPanes.Panes.PaneActions
import Mathlib.Data.List.Nodup
import Mathlib.Data.List.Perm.Basic

/-!
# The invariant of the pane tree
-/

namespace CcPanes.Panes
open RoseTree Run List

variable {ids : Nat → String} {pane : Panel} {h : Holder} {root : PaneNode} {result : PaneNode}
  {place : Place} {tab : Tab} {p p' : Panel} {splitId : String} {newPane : Panel} {slotCount : Nat}
  {tabId : String}

structure TreeOk (root : PaneNode) : Prop where
  splits : SplitsOk root
  node_ids : (nodeIds root).Nodup
  tab_ids : (tabIds root).Nodup
  shown : ∀ p ∈ collectPanels root, PanelOk p

def NamesPanel (root : PaneNode) (paneId : String) : Prop :=
  ∃ p ∈ collectPanels root, p.id = paneId

structure WellFormed (h : Holder) : Prop where
  tree : TreeOk h.rootPane
  active : NamesPanel h.rootPane h.activePaneId

/-- the ids that are drawn are new: distinct, and none of them in the tree -/
structure NewIds (ids : Nat → String) (root : PaneNode) : Prop where
  distinct : Function.Injective ids
  node : ∀ k, ids k ∉ nodeIds root
  tab : ∀ k, ids k ∉ tabIds root

theorem stock_nodup (h : Function.Injective ids) (k : Nat) : (stock ids k).Nodup :=
  nodup_range.map h

theorem nodup_of_stock (h : Function.Injective ids) {l l' : List String} (hnew : ∀ k, ids k ∉ l)
    (hl : l.Nodup) {k : Nat} (hd : Draws l' (stock ids k) l) : l'.Nodup := by
  refine hd.nodup hl (stock_nodup h k) fun x hx => ?_
  obtain ⟨j, -, rfl⟩ := mem_map.mp hx
  exact hnew j

section
variable {γ : Type} [DecidableEq γ] {f : Panel → List γ} {g : SplitPane → List γ}
  {direction : Direction} {targetPane newPane : PaneNode}

/-- **A pane beside another**: what the tree collects is what it did, what the new pane collects,
and perhaps a new split -/
theorem insertOrWrap_perm (hg : ∀ s s', s.id = s'.id → g s = g s') (place : Place) :
    ∃ extra, (extra = [] ∨ extra = g ⟨splitId, direction, [50, 50]⟩) ∧
      (collect f g (insertOrWrap splitId direction targetPane newPane place)).Perm
        (extra ++ (collect f g newPane ++ collect f g (plug targetPane place))) := by
  have hpair : collectAll f g [targetPane, newPane] =
      collect f g targetPane ++ collect f g newPane := by
    rw [collectAll_cons, collectAll_cons, collectAll_nil, append_nil]
  have hone : ∀ t, collectAll f g [t] = collect f g t := fun t => by
    rw [collectAll_cons, collectAll_nil, append_nil]
  cases place with
  | nil =>
    refine ⟨_, .inr rfl, perm_iff_count.mpr fun x => ?_⟩
    rw [insertOrWrap, collect_node, hpair, plug]
    simp only [count_append]
    omega
  | cons fr =>
    rw [insertOrWrap]
    split
    · refine ⟨[], .inl rfl, perm_iff_count.mpr fun x => ?_⟩
      rw [plug, collect_plug, collect_plug, collect_fill, collect_node, collectAll_append,
        collectAll_append, hpair, hone,
        hg { fr.label with sizes := evenSizes (childCount fr + 1) } fr.label rfl]
      simp only [count_append, count_nil]
      omega
    · refine ⟨_, .inr rfl, perm_iff_count.mpr fun x => ?_⟩
      rw [plug, collect_plug, collect_plug, collect_fill, collect_fill, hone, hone, collect_node,
        hpair]
      simp only [count_append]
      omega

theorem insertBeside_perm (hg : ∀ s s', s.id = s'.id → g s = g s') (place : Place) :
    ∃ extra, (extra = [] ∨ extra = g ⟨splitId, direction, [50, 50]⟩) ∧
      (collect f g (insertBeside splitId direction targetPane newPane place)).Perm
        (extra ++ (collect f g newPane ++ collect f g (plug targetPane place))) := by
  cases place with
  | nil => exact insertOrWrap_perm hg []
  | cons fr frs =>
    rw [insertBeside]
    split
    · have hone : ∀ t, collectAll f g [t] = collect f g t := fun t => by
        rw [collectAll_cons, collectAll_nil, append_nil]
      have hlabel := hg { fr.label with
        direction := direction
        sizes := [50, 50] } fr.label rfl
      refine ⟨[], .inl rfl, perm_iff_count.mpr fun x => ?_⟩
      rw [plug, collect_plug, collect_plug, collect_fill, collect_node, collectAll_append,
        collectAll_append, collectAll_append, hone, hone, hlabel]
      simp only [count_append, count_nil]
      omega
    · exact insertOrWrap_perm hg (fr :: frs)

end

section
variable {direction : Direction} {targetPane newPane : PaneNode}

theorem insertOrWrap_splits {place : Place} (h : SplitsOk (plug targetPane place))
    (hnew : SplitsOk newPane) :
    SplitsOk (insertOrWrap splitId direction targetPane newPane place) := by
  unfold SplitsOk at h hnew ⊢
  have hwrap : Holds (fun _ => True) SplitOk targetPane →
      Holds (fun _ => True) SplitOk
        (.node ⟨splitId, direction, [50, 50]⟩ [targetPane, newPane]) := by
    intro ht
    exact ⟨⟨Nat.zero_lt_two, rfl⟩, ht, hnew, holdsAll_nil _ _⟩
  rw [holds_plug] at h
  obtain ⟨ht, haround⟩ := h
  cases place with
  | nil => exact hwrap ht
  | cons =>
    obtain ⟨hq, hl, hr, hrest⟩ := haround
    rw [insertOrWrap]
    split
    · rw [holds_plug, holds_node, holdsAll_append, holdsAll_append, holdsAll_cons, holdsAll_cons]
      refine ⟨⟨⟨?_, ?_⟩, ⟨hl, ht, hnew, holdsAll_nil _ _⟩, hr⟩, hrest⟩
      · simp only [length_append, length_cons]
        omega
      · rw [evenSizes_length, childCount]
        simp only [length_append, length_cons, length_nil]
        omega
    · rw [holds_plug, holds_fill, holdsAll_cons]
      exact ⟨⟨hq, hl, ⟨hwrap ht, holdsAll_nil _ _⟩, hr⟩, hrest⟩

theorem insertBeside_splits {place : Place} (h : SplitsOk (plug targetPane place))
    (hnew : SplitsOk newPane) :
    SplitsOk (insertBeside splitId direction targetPane newPane place) := by
  cases place with
  | nil => exact insertOrWrap_splits h hnew
  | cons =>
    rw [insertBeside]
    split
    · next hone =>
      unfold SplitsOk at h hnew ⊢
      rw [holds_plug] at h
      obtain ⟨ht, hq, hl, hr, hrest⟩ := h
      rw [holds_plug, holds_node, holdsAll_append, holdsAll_append, holdsAll_append, holdsAll_cons,
        holdsAll_cons]
      refine ⟨⟨⟨?_, ?_⟩, ⟨⟨hl, ht, holdsAll_nil _ _⟩, hr⟩, hnew, holdsAll_nil _ _⟩, hrest⟩
      · simp only [length_append, length_cons]
        omega
      · unfold childCount at hone
        simp only [length_append, length_cons, length_nil]
        omega
    · exact insertOrWrap_splits h hnew

end

theorem nodeIds_plug_leaf (h : p'.id = p.id) (place : Place) :
    nodeIds (plug (.leaf p') place) = nodeIds (plug (.leaf p) place) := by
  rw [nodeIds, collect_plug, collect_plug, collect_leaf, collect_leaf, h]

theorem splitsOk_plug_leaf (p p' : Panel) (place : Place) :
    SplitsOk (plug (.leaf p') place) ↔ SplitsOk (plug (.leaf p) place) := by
  unfold SplitsOk
  rw [holds_plug, holds_plug, holds_leaf, holds_leaf]

theorem mem_collectPanels_plug (p : Panel) (place : Place) :
    p ∈ collectPanels (plug (.leaf p) place) :=
  mem_leaves_plug.mpr (.inl rfl)

theorem TreeOk.plug_leaf (h : TreeOk (plug (.leaf p) place)) (hid : p'.id = p.id)
    (hok : PanelOk p') (htabs : (tabIds (plug (.leaf p') place)).Nodup) :
    TreeOk (plug (.leaf p') place) where
  splits := (splitsOk_plug_leaf p p' place).mpr h.splits
  node_ids := by
    rw [nodeIds_plug_leaf hid]
    exact h.node_ids
  tab_ids := htabs
  shown := by
    intro r hr
    rcases mem_plug_leaf h.node_ids hr with rfl | ⟨hr, -⟩
    · exact hok
    · exact h.shown r hr

theorem tabIds_plug_leaf (h : (tab :: p.tabs).Perm p'.tabs) (place : Place) :
    (tab.id :: tabIds (plug (.leaf p) place)).Perm (tabIds (plug (.leaf p') place)) := by
  refine perm_iff_count.mpr fun x => ?_
  have hplug :=
    count_plug_leaf (f := fun p : Panel => p.tabs.map Tab.id) (g := fun _ => []) p p' place x
  have htabs := (h.map Tab.id).count_eq x
  rw [map_cons, ← singleton_append, count_append] at htabs
  rw [← singleton_append, count_append, tabIds]
  omega

/-! ## the actions that insert -/

/-- `result` is the tree `root` with `newPane` in it, and perhaps a new split -/
structure Inserted (splitId : String) (newPane : Panel) (root result : PaneNode) : Prop where
  nodes : ∃ extra, (extra = [] ∨ extra = [splitId]) ∧
    (nodeIds result).Perm (extra ++ ([newPane.id] ++ nodeIds root))
  tabs : (tabIds result).Perm (newPane.tabs.map Tab.id ++ tabIds root)
  panels : (collectPanels result).Perm (newPane :: collectPanels root)
  splits : SplitsOk root → SplitsOk result

theorem inserted_of_perm {direction : Direction}
    (hperm : ∀ {γ : Type} [DecidableEq γ] (f : Panel → List γ) (g : SplitPane → List γ),
      (∀ s s', s.id = s'.id → g s = g s') →
        ∃ extra, (extra = [] ∨ extra = g ⟨splitId, direction, [50, 50]⟩) ∧
          (collect f g result).Perm (extra ++ (collect f g (.leaf newPane) ++ collect f g root)))
    (hsplits : SplitsOk root → SplitsOk result) : Inserted splitId newPane root result where
  nodes := by
    obtain ⟨extra, hextra, h⟩ := hperm (fun p => [p.id]) (fun s => [s.id]) fun _ _ h => by rw [h]
    exact ⟨extra, hextra, h⟩
  tabs := by
    obtain ⟨extra, hextra, h⟩ :=
      hperm (fun p => p.tabs.map Tab.id) (fun _ => []) fun _ _ _ => rfl
    rw [or_self] at hextra
    rwa [hextra, collect_leaf] at h
  panels := by
    obtain ⟨extra, hextra, h⟩ := hperm (fun p => [p]) (fun _ => []) fun _ _ _ => rfl
    rw [or_self] at hextra
    rwa [hextra, collect_leaf] at h
  splits := hsplits

theorem insertOrWrap_inserted (splitId : String) (direction : Direction) (targetPane : PaneNode)
    (newPane : Panel) (place : Place) : Inserted splitId newPane (plug targetPane place)
      (insertOrWrap splitId direction targetPane (.leaf newPane) place) :=
  inserted_of_perm (fun _ _ hg => insertOrWrap_perm hg place) fun h =>
    insertOrWrap_splits h ((holds_leaf _ _ _).mpr trivial)

theorem insertBeside_inserted (splitId : String) (direction : Direction) (targetPane : PaneNode)
    (newPane : Panel) (place : Place) : Inserted splitId newPane (plug targetPane place)
      (insertBeside splitId direction targetPane (.leaf newPane) place) :=
  inserted_of_perm (fun _ _ hg => insertBeside_perm hg place) fun h =>
    insertBeside_splits h ((holds_leaf _ _ _).mpr trivial)

theorem Inserted.treeOk (hin : Inserted splitId newPane root result) (h : TreeOk root)
    (hok : PanelOk newPane) (hsplit : splitId ∉ nodeIds root) (hpane : newPane.id ∉ nodeIds root)
    (hne : splitId ≠ newPane.id) (htabs : (newPane.tabs.map Tab.id ++ tabIds root).Nodup) :
    TreeOk result where
  splits := hin.splits h.splits
  node_ids := by
    obtain ⟨extra, hextra, hperm⟩ := hin.nodes
    have hinner : ([newPane.id] ++ nodeIds root).Nodup := nodup_cons.mpr ⟨hpane, h.node_ids⟩
    rw [hperm.nodup_iff]
    rcases hextra with rfl | rfl
    · exact hinner
    refine nodup_cons.mpr ⟨?_, hinner⟩
    rintro (_ | ⟨_, hmem⟩)
    · exact hne rfl
    · exact hsplit hmem
  tab_ids := hin.tabs.nodup_iff.mpr htabs
  shown := by
    intro p hp
    rcases mem_cons.mp (hin.panels.mem_iff.mp hp) with rfl | hp
    · exact hok
    · exact h.shown p hp

theorem Inserted.namesPanel (hin : Inserted splitId newPane root result) :
    NamesPanel result newPane.id :=
  ⟨newPane, hin.panels.mem_iff.mpr (mem_cons_self ..), rfl⟩

theorem split_wellFormed (hw : WellFormed h) (hids : NewIds ids h.rootPane) (paneId : String)
    (direction : SplitDirection) : WellFormed (split ids h paneId direction) := by
  unfold split
  split
  · next targetPane place hloc =>
    obtain ⟨hroot, -⟩ := locatePane_spec hloc
    have hin := insertBeside_inserted (ids 2) (directionMap direction) (.leaf targetPane)
      (createPanel ids 0 none) place
    rw [hroot] at hin
    have hne : ids 2 ≠ ids 0 := fun heq => nomatch (hids.distinct heq)
    exact ⟨hin.treeOk hw.tree (createPanel_ok ids 0 none) (hids.node 2) (hids.node 0) hne
      (nodup_cons.mpr ⟨hids.tab 1, hw.tree.tab_ids⟩), hin.namesPanel⟩
  · exact hw

theorem createTab_new (hids : NewIds ids root) {opts : CreateTabOptions}
    (hopts : ∀ id ∈ opts.tabId, id ∉ tabIds root) (k : Nat) :
    (createTab ids k opts).id ∉ tabIds root := by
  show ((opts.tabId).filter (· ≠ "")).getD (ids k) ∉ tabIds root
  cases hsome : (opts.tabId).filter (· ≠ "") with
  | none => exact hids.tab k
  | some id => exact hopts id (Option.filter_eq_some_iff.mp hsome).1

theorem pushTab_ok (pane : Panel) (tab : Tab) : PanelOk (pushTab pane tab) :=
  fun _ => ⟨tab, mem_append_right _ (mem_singleton.mpr rfl), rfl⟩

theorem pushTab_treeOk (h : TreeOk (plug (.leaf pane) place))
    (htab : tab.id ∉ tabIds (plug (.leaf pane) place)) :
    TreeOk (plug (.leaf (pushTab pane tab)) place) := by
  have hcomm : ([tab] ++ pane.tabs).Perm (pane.tabs ++ [tab]) := perm_append_comm
  have hperm : (tab :: pane.tabs).Perm (pushTab pane tab).tabs := hcomm
  refine h.plug_leaf rfl (pushTab_ok pane tab) ((tabIds_plug_leaf hperm place).nodup_iff.mp ?_)
  exact nodup_cons.mpr ⟨htab, h.tab_ids⟩

theorem openSessionBesidePane_wellFormed (hw : WellFormed h) (hids : NewIds ids h.rootPane)
    (paneId : String) (direction : Option SplitDirection) {opts : CreateTabOptions}
    (hopts : ∀ id ∈ opts.tabId, id ∉ tabIds h.rootPane) :
    WellFormed (openSessionBesidePane ids h paneId direction opts) := by
  have htab := createTab_new hids hopts 0
  unfold openSessionBesidePane
  split
  · next targetPane place hloc =>
    obtain ⟨hroot, -⟩ := locatePane_spec hloc
    split
    · rw [← hroot] at htab
      exact ⟨pushTab_treeOk (hroot ▸ hw.tree) htab,
        ⟨_, mem_collectPanels_plug (pushTab targetPane _) place, rfl⟩⟩
    have hin := insertBeside_inserted (ids 3)
      (directionMap (direction.getD (resolveAutoDirection h.rootPane paneId))) (.leaf targetPane)
      (createPanel ids 1 (some (createTab ids 0 opts))) place
    rw [hroot] at hin
    have hne : ids 3 ≠ ids 1 := fun heq => nomatch (hids.distinct heq)
    exact ⟨hin.treeOk hw.tree (createPanel_ok ids 1 _) (hids.node 3) (hids.node 1) hne
      (nodup_cons.mpr ⟨htab, hw.tree.tab_ids⟩), hin.namesPanel⟩
  · split
    · next fallback place hloc =>
      obtain ⟨hroot, -⟩ := plug_locate hloc
      rw [← hroot] at htab
      exact ⟨pushTab_treeOk (hroot ▸ hw.tree) htab,
        ⟨_, mem_collectPanels_plug (pushTab fallback _) place, rfl⟩⟩
    · exact hw

theorem findTab_spec {idx : Nat} (h : findTab pane tabId = some (idx, tab)) :
    (tab :: pane.tabs.eraseIdx idx).Perm pane.tabs ∧ tab.id = tabId := by
  obtain ⟨i, hi, hget⟩ := Option.bind_eq_some_iff.mp h
  obtain ⟨t, ht, heq⟩ := Option.map_eq_some_iff.mp hget
  obtain ⟨rfl, rfl⟩ := Prod.mk.inj heq
  obtain ⟨hlt, hid, -⟩ := findIdx?_eq_some_iff_getElem.mp hi
  obtain rfl : pane.tabs[i] = t := by
    rw [getElem?_eq_getElem hlt] at ht
    exact Option.some.inj ht
  exact ⟨getElem_cons_eraseIdx_perm hlt, by simpa using hid⟩

theorem spliceTab_ok (hok : PanelOk pane) {idx : Nat} (h : findTab pane tabId = some (idx, tab)) :
    PanelOk (spliceTab pane idx tabId) := by
  intro hne
  obtain ⟨hperm, hid⟩ := findTab_spec h
  by_cases hactive : pane.activeTabId = tabId
  · obtain ⟨t, ht, htid⟩ := tabIdAt_mem hne idx
    exact ⟨t, ht, htid.trans (if_pos hactive).symm⟩
  have htabs : pane.tabs ≠ [] := fun hnil => by
    rw [hnil] at hperm
    cases hperm.length_eq
  obtain ⟨t, ht, htid⟩ := hok htabs
  rcases mem_cons.mp (hperm.mem_iff.mpr ht) with rfl | ht
  · exact absurd (htid.symm.trans hid) hactive
  · exact ⟨t, ht, htid.trans (if_neg hactive).symm⟩

theorem spliceTab_treeOk (h : TreeOk (plug (.leaf pane) place)) {idx : Nat}
    (htab : findTab pane tabId = some (idx, tab)) :
    TreeOk (plug (.leaf (spliceTab pane idx tabId)) place) ∧
      tab.id ∉ tabIds (plug (.leaf (spliceTab pane idx tabId)) place) := by
  have hperm : (tab :: (spliceTab pane idx tabId).tabs).Perm pane.tabs := (findTab_spec htab).1
  have hok := spliceTab_ok (h.shown pane (mem_collectPanels_plug pane place)) htab
  have hnodup := (tabIds_plug_leaf hperm place).nodup_iff.mpr h.tab_ids
  obtain ⟨hnew, htabs⟩ := nodup_cons.mp hnodup
  exact ⟨h.plug_leaf rfl hok htabs, hnew⟩

theorem splitAndMoveTab_wellFormed (hw : WellFormed h) (hids : NewIds ids h.rootPane)
    (paneId tabId : String) (direction : SplitDirection) :
    WellFormed (splitAndMoveTab ids h paneId tabId direction) := by
  unfold splitAndMoveTab
  split
  · next sourcePane place hloc =>
    obtain ⟨hroot, -⟩ := locatePane_spec hloc
    split
    · exact hw
    split
    · exact hw
    next tabIndex tab htab =>
    obtain ⟨htree, hnew⟩ := spliceTab_treeOk (hroot ▸ hw.tree) htab
    have hin := insertOrWrap_inserted (ids 1) (directionMap direction)
      (.leaf (spliceTab sourcePane tabIndex tabId)) ⟨ids 0, [tab], tab.id⟩ place
    have hnodes : ∀ k,
        ids k ∉ nodeIds (plug (.leaf (spliceTab sourcePane tabIndex tabId)) place) := by
      have hsame : nodeIds (plug (.leaf (spliceTab sourcePane tabIndex tabId)) place) =
          nodeIds (plug (.leaf sourcePane) place) :=
        nodeIds_plug_leaf
          (show (spliceTab sourcePane tabIndex tabId).id = sourcePane.id from rfl) place
      rw [hsame, hroot]
      exact hids.node
    have hne : ids 1 ≠ ids 0 := fun heq => nomatch (hids.distinct heq)
    have hok : PanelOk ⟨ids 0, [tab], tab.id⟩ :=
      fun _ => ⟨tab, mem_singleton.mpr rfl, rfl⟩
    exact ⟨hin.treeOk htree hok (hnodes 1) (hnodes 0) hne
      (nodup_cons.mpr ⟨hnew, htree.tab_ids⟩), hin.namesPanel⟩
  · exact hw

/-! ## a panel taken out -/

theorem removeChild_treeOk {fr : Frame Panel SplitPane} {frs : Place}
    (h : TreeOk (plug (.leaf pane) (fr :: frs)))
    (hids : NewIds ids (plug (.leaf pane) (fr :: frs))) :
    TreeOk (normalizePaneTree ids 0 (plug (removeChild fr) frs)).1 := by
  have hdraws : ∀ {f : Panel → List String} {g : SplitPane → List String}, Counted f g →
      Draws (collect f g (normalizePaneTree ids 0 (plug (removeChild fr) frs)).1)
        (stock ids (normalizePaneTree ids 0 (plug (removeChild fr) frs)).2)
        (collect f g (plug (.leaf pane) (fr :: frs))) := by
    intro f g hc x
    have hnorm := normalizePaneTree_count ids hc x 0 (plug (removeChild fr) frs)
    have hremove := removeChild_count hc (.leaf pane) fr frs x
    omega
  exact
    { splits := normalizePaneTree_splits ids 0 _
      node_ids := nodup_of_stock hids.distinct hids.node h.node_ids (hdraws counted_nodeIds)
      tab_ids := nodup_of_stock hids.distinct hids.tab h.tab_ids (hdraws counted_tabIds)
      shown := by
        intro p hp
        rcases normalizePaneTree_panels ids 0 _ p hp with hp | ⟨j, rfl⟩
        · exact h.shown p (removeChild_panels (.leaf pane) fr frs p hp)
        · exact createPanel_ok ids j none }

theorem createPanel_treeOk (ids : Nat → String) (k : Nat) :
    TreeOk (.leaf (createPanel ids k none)) where
  splits := (holds_leaf _ _ _).mpr trivial
  node_ids := by
    exact nodup_singleton _
  tab_ids := by
    exact nodup_singleton _
  shown := by
    intro p hp
    rw [collectPanels, leaves, collect_leaf, mem_singleton] at hp
    rw [hp]
    exact createPanel_ok ids k none

theorem createPanel_wellFormed (ids : Nat → String) (k : Nat) :
    WellFormed ⟨.leaf (createPanel ids k none), (createPanel ids k none).id⟩ :=
  ⟨createPanel_treeOk ids k, ⟨_, mem_collectPanels_plug _ [], rfl⟩⟩

theorem namesPanel_of_findPane {paneId : String} (h : findPane root paneId = some (.leaf pane)) :
    NamesPanel root paneId := by
  obtain ⟨⟨n, place⟩, hloc, rfl⟩ := Option.map_eq_some_iff.mp h
  obtain ⟨rfl, hid⟩ := locatePane_spec hloc
  exact ⟨pane, mem_collectPanels_plug pane place, hid⟩

theorem namesPanel_first (h : SplitsOk root) (d : String) :
    NamesPanel root (((collectPanels root).head?.map Panel.id).getD d) := by
  have hne : collectPanels root ≠ [] := leaves_ne_nil (fun _ hq => absurd hq.1 (Nat.lt_irrefl 0)) h
  obtain ⟨p, ps, hps⟩ := exists_cons_of_ne_nil hne
  rw [NamesPanel, hps]
  exact ⟨p, mem_cons_self .., rfl⟩

theorem removeEmptyPane_wellFormed (hw : WellFormed h) (hids : NewIds ids h.rootPane)
    (paneId : String) : WellFormed (removeEmptyPane ids h paneId) := by
  unfold removeEmptyPane
  split
  · next pane place hloc =>
    obtain ⟨hroot, -⟩ := locatePane_spec hloc
    split
    · exact hw
    cases place with
    | nil => exact createPanel_wellFormed ids 0
    | cons fr frs =>
      have htree : TreeOk (normalizePaneTree ids 0 (plug (removeChild fr) frs)).1 :=
        removeChild_treeOk (hroot ▸ hw.tree) (hroot ▸ hids)
      dsimp only
      split
      · next hfind => exact ⟨htree, namesPanel_of_findPane hfind⟩
      · exact ⟨htree, namesPanel_first htree.splits _⟩
  · exact hw

theorem assignTreeAndConvergeActive_wellFormed (h : Holder) {nextTree : PaneNode}
    (htree : TreeOk nextTree) : WellFormed (assignTreeAndConvergeActive h nextTree) := by
  unfold assignTreeAndConvergeActive
  split
  · next hfind => exact ⟨htree, namesPanel_of_findPane hfind⟩
  · exact ⟨htree, namesPanel_first htree.splits _⟩

theorem closeTabInTree_treeOk (h : TreeOk root) (hids : NewIds ids root) (paneId tabId : String)
    (force : Bool) : TreeOk (closeTabInTree ids root paneId tabId force) := by
  unfold closeTabInTree
  split
  · next pane place hloc =>
    obtain ⟨rfl, -⟩ := locatePane_spec hloc
    split
    · exact h
    next idx tab htab =>
    split
    · exact h
    split
    · exact (spliceTab_treeOk h htab).1
    · cases place with
      | nil => exact createPanel_treeOk ids 0
      | cons => exact removeChild_treeOk h hids
  · exact h

theorem closeTab_wellFormed (hw : WellFormed h) (hids : NewIds ids h.rootPane)
    (paneId tabId : String) (force : Bool) : WellFormed (closeTab ids h paneId tabId force) :=
  assignTreeAndConvergeActive_wellFormed h (closeTabInTree_treeOk hw.tree hids paneId tabId force)

/-! ## a tab moved -/

theorem modifyPanel_eq (hnodup : (nodeIds root).Nodup) (hpane : pane ∈ collectPanels root)
    (write : Panel → Panel) :
    ∃ place, plug (.leaf pane) place = root ∧
      modifyPanel root pane.id write = plug (.leaf (write pane)) place := by
  obtain ⟨place, hloc, hroot⟩ := locatePane_panel hnodup hpane
  refine ⟨place, hroot, ?_⟩
  rw [modifyPanel, hloc]

theorem namesPanel_plug (hid : p'.id = p.id) {paneId : String}
    (h : NamesPanel (plug (.leaf p) place) paneId) : NamesPanel (plug (.leaf p') place) paneId := by
  obtain ⟨r, hr, rfl⟩ := h
  rcases mem_leaves_plug.mp hr with rfl | hr
  · exact ⟨p', mem_collectPanels_plug p' place, hid⟩
  · exact ⟨r, mem_leaves_plug.mpr (.inr hr), rfl⟩

theorem insertTab_perm (tab : Tab) (toIndex : Option Int) (pane : Panel) :
    (tab :: pane.tabs).Perm (insertTab tab toIndex pane).tabs := by
  have hmiddle : (insertTab tab toIndex pane).tabs.Perm
      (tab :: (pane.tabs.take (insertAt toIndex pane.tabs) ++
        pane.tabs.drop (insertAt toIndex pane.tabs))) := perm_middle
  rw [take_append_drop] at hmiddle
  exact hmiddle.symm

theorem insertTab_ok (tab : Tab) (toIndex : Option Int) (pane : Panel) :
    PanelOk (insertTab tab toIndex pane) :=
  fun _ => ⟨tab, mem_append_right _ (mem_cons_self ..), rfl⟩

theorem showTabAt_id (tabIndex : Nat) (pane : Panel) : (showTabAt tabIndex pane).id = pane.id := by
  unfold showTabAt
  split <;> rfl

theorem showTabAt_tabs (tabIndex : Nat) (pane : Panel) :
    (showTabAt tabIndex pane).tabs = pane.tabs := by
  unfold showTabAt
  split <;> rfl

theorem showTabAt_ok (tabIndex : Nat) (pane : Panel) : PanelOk (showTabAt tabIndex pane) := by
  intro hne
  rw [showTabAt_tabs] at hne ⊢
  rw [showTabAt, if_pos (length_pos_iff.mpr hne)]
  exact tabIdAt_mem hne tabIndex

/-- the tab goes from the panel `p`, which is `p'` without it, to the panel `q`, which is `q'` with
it; then the first panel, which is `r` by now, becomes `r'` -/
structure Transfer (tab : Tab) (p p' q q' r r' : Panel) (place toPlace fromPlace : Place) :
    Prop where
  taken : plug (.leaf q) toPlace = plug (.leaf p') place
  given : plug (.leaf r) fromPlace = plug (.leaf q') toPlace
  from_id : p'.id = p.id
  to_id : q'.id = q.id
  again_id : r.id = p.id
  shown_id : r'.id = r.id
  from_tabs : (tab :: p'.tabs).Perm p.tabs
  to_tabs : (tab :: q.tabs).Perm q'.tabs
  shown_tabs : r'.tabs = r.tabs
  to_ok : PanelOk q'
  shown_ok : PanelOk r'

section
variable {q q' r r' : Panel} {toPlace fromPlace : Place}
  (t : Transfer tab p p' q q' r r' place toPlace fromPlace)
include t

theorem Transfer.nodeIds_taken :
    nodeIds (plug (.leaf q) toPlace) = nodeIds (plug (.leaf p) place) := by
  rw [t.taken, nodeIds_plug_leaf t.from_id]

theorem Transfer.nodeIds_given :
    nodeIds (plug (.leaf r) fromPlace) = nodeIds (plug (.leaf p) place) := by
  rw [t.given, nodeIds_plug_leaf t.to_id, t.nodeIds_taken]

theorem Transfer.nodeIds_shown :
    nodeIds (plug (.leaf r') fromPlace) = nodeIds (plug (.leaf p) place) := by
  rw [nodeIds_plug_leaf t.shown_id, t.nodeIds_given]

theorem Transfer.tabIds_perm :
    (tabIds (plug (.leaf r') fromPlace)).Perm (tabIds (plug (.leaf p) place)) := by
  have hshown : tabIds (plug (.leaf r') fromPlace) = tabIds (plug (.leaf q') toPlace) := by
    rw [← t.given, tabIds, collect_plug, collect_plug, collect_leaf, collect_leaf, t.shown_tabs]
  have hgiven := tabIds_plug_leaf t.to_tabs toPlace
  rw [t.taken] at hgiven
  rw [hshown]
  exact hgiven.symm.trans (tabIds_plug_leaf t.from_tabs place)

theorem Transfer.treeOk (h : TreeOk (plug (.leaf p) place)) :
    TreeOk (plug (.leaf r') fromPlace) where
  splits := by
    rw [splitsOk_plug_leaf r, t.given, splitsOk_plug_leaf q, t.taken, splitsOk_plug_leaf p]
    exact h.splits
  node_ids := t.nodeIds_shown ▸ h.node_ids
  tab_ids := t.tabIds_perm.nodup_iff.mpr h.tab_ids
  shown := by
    intro x hx
    rcases mem_plug_leaf (t.nodeIds_given ▸ h.node_ids) hx with rfl | ⟨hx, hne⟩
    · exact t.shown_ok
    rw [t.given] at hx
    rcases mem_plug_leaf (t.nodeIds_taken ▸ h.node_ids) hx with rfl | ⟨hx, -⟩
    · exact t.to_ok
    rw [t.taken] at hx
    rcases mem_plug_leaf h.node_ids hx with rfl | ⟨hx, -⟩
    · exact absurd (t.from_id.trans t.again_id.symm) hne
    · exact h.shown x hx

end

/-- **The transfer of a tab**: the tree stays well formed, with the ids it had -/
theorem transferTab_spec (hw : WellFormed h) (fromPaneId toPaneId tabId : String)
    (toIndex : Option Int) :
    WellFormed (transferTab h fromPaneId toPaneId tabId toIndex) ∧
      nodeIds (transferTab h fromPaneId toPaneId tabId toIndex).rootPane = nodeIds h.rootPane ∧
      (tabIds (transferTab h fromPaneId toPaneId tabId toIndex).rootPane).Perm
        (tabIds h.rootPane) := by
  unfold transferTab
  split
  · next fromPane place toPane toPlace hfrom hto =>
    obtain ⟨hroot, hfromId⟩ := locatePane_spec hfrom
    obtain ⟨hroot', htoId⟩ := locatePane_spec hto
    obtain rfl : fromPane.id = fromPaneId := hfromId
    obtain rfl : toPane.id = toPaneId := htoId
    split
    · exact ⟨hw, rfl, List.Perm.refl _⟩
    next tabIndex tab htab =>
    have htree : TreeOk (plug (.leaf fromPane) place) := hroot ▸ hw.tree
    -- the tab is taken out
    let p' : Panel := ⟨fromPane.id, fromPane.tabs.eraseIdx tabIndex, fromPane.activeTabId⟩
    have hp' : p'.id = fromPane.id := rfl
    have hnodes1 : nodeIds (plug (.leaf p') place) = nodeIds (plug (.leaf fromPane) place) :=
      nodeIds_plug_leaf hp' place
    have hto1 : NamesPanel (plug (.leaf p') place) toPane.id := by
      refine namesPanel_plug hp' ?_
      rw [hroot, ← hroot']
      exact ⟨toPane, mem_collectPanels_plug toPane toPlace, rfl⟩
    have hfrom1 : NamesPanel (plug (.leaf p') place) fromPane.id :=
      ⟨p', mem_collectPanels_plug p' place, hp'⟩
    -- and put in
    obtain ⟨q, hqmem, hq⟩ := hto1
    obtain ⟨toPlace', htaken, hgiven⟩ :=
      modifyPanel_eq (hnodes1 ▸ htree.node_ids) hqmem (insertTab tab toIndex)
    have hq' : (insertTab tab toIndex q).id = q.id := rfl
    have hnodes2 : nodeIds (plug (.leaf (insertTab tab toIndex q)) toPlace') =
        nodeIds (plug (.leaf fromPane) place) := by
      rw [nodeIds_plug_leaf hq' toPlace', htaken, hnodes1]
    have hto2 : NamesPanel (plug (.leaf (insertTab tab toIndex q)) toPlace') toPane.id :=
      ⟨_, mem_collectPanels_plug _ toPlace', hq'.trans hq⟩
    -- and its old panel shows another one
    obtain ⟨r, hrmem, hr⟩ :
        NamesPanel (plug (.leaf (insertTab tab toIndex q)) toPlace') fromPane.id :=
      namesPanel_plug hq' (htaken.symm ▸ hfrom1)
    obtain ⟨fromPlace, hgiven', hshown⟩ :=
      modifyPanel_eq (hnodes2 ▸ htree.node_ids) hrmem (showTabAt tabIndex)
    have htransfer : Transfer tab fromPane p' q (insertTab tab toIndex q) r (showTabAt tabIndex r)
        place toPlace' fromPlace :=
      { taken := htaken
        given := hgiven'
        from_id := hp'
        to_id := hq'
        again_id := hr
        shown_id := showTabAt_id tabIndex r
        from_tabs := (findTab_spec htab).1
        to_tabs := insertTab_perm tab toIndex q
        shown_tabs := showTabAt_tabs tabIndex r
        to_ok := insertTab_ok tab toIndex q
        shown_ok := showTabAt_ok tabIndex r }
    rw [hq] at hgiven
    rw [hr] at hshown
    dsimp only
    rw [hgiven, hshown, ← hroot]
    refine ⟨⟨htransfer.treeOk htree, ?_⟩, htransfer.nodeIds_shown, htransfer.tabIds_perm⟩
    exact namesPanel_plug (showTabAt_id tabIndex r) (hgiven'.symm ▸ hto2)
  · exact ⟨hw, rfl, List.Perm.refl _⟩

theorem selectTab_wellFormed (hw : WellFormed h) {paneId tabId : String}
    (hfind : findPane h.rootPane paneId = some (.leaf pane))
    (htab : pane.tabs.any (·.id == tabId) = true) : WellFormed (selectTab h paneId tabId) := by
  obtain ⟨⟨n, place⟩, hloc, rfl⟩ := Option.map_eq_some_iff.mp hfind
  obtain ⟨hroot, hid⟩ := locatePane_spec hloc
  obtain ⟨t, ht, htid⟩ := any_eq_true.mp htab
  have hok : PanelOk ⟨pane.id, pane.tabs, tabId⟩ := fun _ => ⟨t, ht, by simpa using htid⟩
  have htree : TreeOk (plug (.leaf pane) place) := hroot ▸ hw.tree
  have htabs : tabIds (plug (.leaf ⟨pane.id, pane.tabs, tabId⟩) place) =
      tabIds (plug (.leaf pane) place) := by
    rw [tabIds, collect_plug, collect_plug, collect_leaf, collect_leaf]
  rw [selectTab, hloc]
  exact ⟨htree.plug_leaf rfl hok (htabs ▸ htree.tab_ids), ⟨_, mem_collectPanels_plug _ place, hid⟩⟩

theorem moveTab_wellFormed (hw : WellFormed h) (hids : NewIds ids h.rootPane)
    (fromPaneId toPaneId tabId : String) (toIndex : Option Int) :
    WellFormed (moveTab ids h fromPaneId toPaneId tabId toIndex) := by
  obtain ⟨hmoved, hnodes, htabs⟩ := transferTab_spec hw fromPaneId toPaneId tabId toIndex
  have hnew : NewIds ids (transferTab h fromPaneId toPaneId tabId toIndex).rootPane :=
    ⟨hids.distinct, fun k => hnodes ▸ hids.node k, fun k hk => hids.tab k (htabs.mem_iff.mp hk)⟩
  unfold moveTab
  dsimp only
  split
  · split
    · have hclosed := removeEmptyPane_wellFormed hmoved hnew fromPaneId
      split
      · next targetPane hfind =>
        split
        · next htab => exact selectTab_wellFormed hclosed hfind htab
        · exact hclosed
      · exact hclosed
    · exact hmoved
  · exact hmoved

/-! ## layout presets -/

section
variable (ids : Nat → String) (k : Nat) (preset : LayoutPresetId) (slots : Nat → Panel)
  (splitId : Option String)

theorem buildPresetTree_panels : collectPanels (buildPresetTree ids k preset slots splitId) =
    (List.range (layoutPresetSlots preset)).map slots := by
  cases preset <;> cases splitId <;>
    simp [buildPresetTree, createSplit, collectPanels, leaves, collect_leaf, collect_node,
      collectAll_cons, collectAll_nil, layoutPresetSlots, range_succ]

theorem buildPresetTree_splits : SplitsOk (buildPresetTree ids k preset slots splitId) := by
  cases preset <;> cases splitId <;>
    simp [buildPresetTree, createSplit, SplitsOk, holds_leaf, holds_node, holdsAll_cons,
      holdsAll_nil, SplitOk, evenSizes]

theorem buildPresetTree_nodeIds (x : String) :
    (nodeIds (buildPresetTree ids k preset slots splitId)).count x + (stock ids k).count x ≤
      ((List.range (layoutPresetSlots preset)).map fun i => (slots i).id).count x +
        splitId.toList.count x + (stock ids (k + 3)).count x := by
  rw [stock_count_succ, stock_count_succ, stock_count_succ]
  cases preset <;> cases splitId <;>
    simp only [buildPresetTree, createSplit, nodeIds, collect_leaf, collect_node, collectAll_cons,
      collectAll_nil, layoutPresetSlots, range_succ, range_zero, map_append,
      map_nil, map_cons, count_append, count_nil, Option.toList,
      Option.getD_none, Option.getD_some, Option.isSome, if_true, if_false, Bool.false_eq_true] <;>
    omega

end

theorem flatten_modify {γ : Type} (t : γ) {slots : List (List γ)} {i : Nat} (h : i < slots.length) :
    (slots.modify i (· ++ [t])).flatten.Perm (t :: slots.flatten) := by
  induction slots generalizing i with
  | nil => exact absurd h (Nat.not_lt_zero i)
  | cons s slots ih =>
    cases i with
    | zero =>
      show ((s ++ [t]) ++ slots.flatten).Perm (t :: (s ++ slots.flatten))
      rw [append_assoc]
      exact perm_middle
    | succ i =>
      exact ((ih (Nat.lt_of_succ_lt_succ h)).append_left s).trans perm_middle

theorem slotTabs_fold (hpos : 0 < slotCount) (entries : List (Tab × Nat)) :
    ∀ {slots filled : List (List Tab)}, slots.length = slotCount →
      entries.foldl
        (fun slots entry => slots.modify (min entry.2 (slotCount - 1)) (· ++ [entry.1])) slots
        = filled →
      filled.length = slotCount ∧ filled.flatten.Perm (slots.flatten ++ entries.map Prod.fst) := by
  induction entries with
  | nil =>
    rintro slots _ hlen rfl
    rw [map_nil, append_nil]
    exact ⟨hlen, List.Perm.refl _⟩
  | cons e es ih =>
    rintro slots _ hlen rfl
    have hi : min e.2 (slotCount - 1) < slots.length := by omega
    have hstep : (slots.modify (min e.2 (slotCount - 1)) (· ++ [e.1])).length = slotCount := by
      rw [length_modify, hlen]
    obtain ⟨hlen', hperm⟩ := ih hstep rfl
    refine ⟨hlen', hperm.trans ?_⟩
    exact ((flatten_modify e.1 hi).append_right (es.map Prod.fst)).trans perm_middle.symm

theorem slotTabs_spec (h : 0 < slotCount) (allTabs : List Tab) :
    (slotTabs slotCount allTabs).length = slotCount ∧
      (slotTabs slotCount allTabs).flatten.Perm allTabs := by
  have hfold := slotTabs_fold h allTabs.zipIdx (length_replicate (a := [])) rfl
  rw [flatten_replicate_nil, nil_append, zipIdx_map_fst] at hfold
  exact hfold

theorem range_map_getD {γ : Type} (slots : List (List γ)) :
    (List.range slots.length).map (fun i => slots.getD i []) = slots := by
  refine ext_getElem (by simp) fun i hi hi' => ?_
  simp [getD, getElem?_eq_getElem hi']

theorem layoutPresetSlots_pos (preset : LayoutPresetId) : 0 < layoutPresetSlots preset := by
  cases preset <;> decide

theorem or_find_mem {tabs : List Tab} (hne : tabs ≠ []) (p q : Tab → Bool) :
    ∃ tab ∈ tabs, ((tabs.find? p).or (tabs.find? q)).or tabs.head? = some tab := by
  cases hp : tabs.find? p with
  | some tab => exact ⟨tab, mem_of_find?_eq_some hp, rfl⟩
  | none =>
    cases hq : tabs.find? q with
    | some tab => exact ⟨tab, mem_of_find?_eq_some hq, rfl⟩
    | none =>
      obtain ⟨first, rest, rfl⟩ := exists_cons_of_ne_nil hne
      exact ⟨first, mem_cons_self .., rfl⟩

theorem presetSlot_ok (ids : Nat → String) (existingPanels : List Panel) (slots : List (List Tab))
    (index : Nat) : PanelOk (presetSlot ids existingPanels slots index) := by
  intro hne
  obtain ⟨tab, htab, hsome⟩ := or_find_mem (show slots.getD index [] ≠ [] from hne)
    (fun tab => (existingPanels[index]?).any fun pane => tab.id == pane.activeTabId)
    (fun tab => (existingPanels.map Panel.activeTabId).contains tab.id)
  refine ⟨tab, htab, ?_⟩
  rw [presetSlot]
  rw [hsome]
  rfl

theorem presetSlot_ids (ids : Nat → String) (existingPanels : List Panel) (slots : List (List Tab))
    (n : Nat) (x : String) :
    ((List.range n).map fun i => (presetSlot ids existingPanels slots i).id).count x ≤
      ((existingPanels.take n).map Panel.id).count x + (stock ids n).count x := by
  induction n with
  | zero => exact Nat.zero_le _
  | succ n =>
    rw [range_succ, map_append, count_append, stock_count_succ]
    cases hn : existingPanels[n]? with
    | some pane =>
      have hid : (presetSlot ids existingPanels slots n).id = pane.id := by
        rw [presetSlot, hn]
        rfl
      rw [take_add_one, hn, map_append, count_append, map_singleton, hid]
      show _ ≤ _ + [pane.id].count x + _
      omega
    | none =>
      have hid : (presetSlot ids existingPanels slots n).id = ids n := by
        rw [presetSlot, hn]
        rfl
      rw [take_add_one, hn, map_append, count_append, map_singleton, hid]
      omega

theorem rootSplitId_count (root : PaneNode) (x : String) :
    ((collectPanels root).map Panel.id).count x + (rootSplitId root).toList.count x ≤
      (nodeIds root).count x := by
  have hmap : ∀ ts : List PaneNode, (collectAll (fun a => [a]) (fun _ => []) ts).map Panel.id =
      collectAll (fun p => [p.id]) (fun _ => []) ts := by
    intro ts
    rw [collectAll_eq_flatMap (fun p : Panel => [p.id]) ts, map_eq_flatMap]
  cases root with
  | leaf =>
    exact Nat.le_refl _
  | node s ts =>
    have hle := countAll_leaves_le (fun p : Panel => [p.id]) (fun s : SplitPane => [s.id]) x ts
    rw [collectPanels, leaves, nodeIds, collect_node, collect_node, nil_append, hmap, count_append]
    show _ + [s.id].count x ≤ _
    omega

theorem tabIds_eq (root : PaneNode) :
    tabIds root = ((collectPanels root).flatMap Panel.tabs).map Tab.id := by
  rw [tabIds, collect_eq_flatMap, map_flatMap]
  rfl

theorem presetSlot_tabs (ids : Nat → String) (existingPanels : List Panel) (h : 0 < slotCount) :
    (((List.range slotCount).map (presetSlot ids existingPanels
      (slotTabs slotCount (existingPanels.flatMap Panel.tabs)))).flatMap Panel.tabs).Perm
      (existingPanels.flatMap Panel.tabs) := by
  obtain ⟨hlen, hperm⟩ := slotTabs_spec h (existingPanels.flatMap Panel.tabs)
  have hrange := range_map_getD (slotTabs slotCount (existingPanels.flatMap Panel.tabs))
  rw [hlen] at hrange
  have hdef : ∀ slots : List Panel, slots.flatMap Panel.tabs = (slots.map Panel.tabs).flatten :=
    fun _ => flatMap_def
  rw [hdef (map _ _), map_map]
  show ((range slotCount).map fun i =>
    (slotTabs slotCount (existingPanels.flatMap Panel.tabs)).getD i []).flatten.Perm _
  rw [hrange]
  exact hperm

theorem applyLayoutPreset_wellFormed (hw : WellFormed h) (hids : NewIds ids h.rootPane)
    (preset : LayoutPresetId) : WellFormed (applyLayoutPreset ids h preset) := by
  have hpos := layoutPresetSlots_pos preset
  have hslots := presetSlot_tabs ids (collectPanels h.rootPane) hpos
  unfold applyLayoutPreset
  dsimp only
  generalize hslot : presetSlot ids (collectPanels h.rootPane) (slotTabs (layoutPresetSlots preset)
    ((collectPanels h.rootPane).flatMap Panel.tabs)) = slot at hslots ⊢
  have hpanels := buildPresetTree_panels ids (layoutPresetSlots preset) preset slot
    (rootSplitId h.rootPane)
  constructor
  · constructor
    · exact buildPresetTree_splits ids _ preset slot _
    · refine nodup_of_stock hids.distinct hids.node hw.tree.node_ids
        (k := layoutPresetSlots preset + 3) fun x => ?_
      have hbuild := buildPresetTree_nodeIds ids (layoutPresetSlots preset) preset slot
        (rootSplitId h.rootPane) x
      have hslotIds := presetSlot_ids ids (collectPanels h.rootPane)
        (slotTabs (layoutPresetSlots preset) ((collectPanels h.rootPane).flatMap Panel.tabs))
        (layoutPresetSlots preset) x
      have htake := ((take_sublist (layoutPresetSlots preset)
        (collectPanels h.rootPane)).map Panel.id).count_le x
      have hroot := rootSplitId_count h.rootPane x
      rw [hslot] at hslotIds
      dsimp only
      omega
    · rw [tabIds_eq, hpanels]
      rw [(hslots.map Tab.id).nodup_iff, ← tabIds_eq]
      exact hw.tree.tab_ids
    · intro p hp
      rw [hpanels] at hp
      obtain ⟨i, -, rfl⟩ := mem_map.mp hp
      rw [← hslot]
      exact presetSlot_ok ids _ _ i
  · rw [NamesPanel, hpanels]
    refine ⟨_, ?_, rfl⟩
    cases hfocus : (prevActiveTabId h).bind fun tabId =>
        ((range (layoutPresetSlots preset)).map slot).find? fun pane =>
          pane.tabs.any (·.id == tabId) with
    | some pane =>
      obtain ⟨tabId, -, hfind⟩ := Option.bind_eq_some_iff.mp hfocus
      exact mem_of_find?_eq_some hfind
    | none => exact mem_map.mpr ⟨0, mem_range.mpr hpos, rfl⟩

/-! ## runs -/

def suppliedTabId (c : Call) : Option String :=
  match c.action with
  | .openSessionBesidePane _ _ opts => opts.tabId
  | _ => none

/-- the ids that come into the tree are new: those that `generateId` draws, and the tab id that the
caller of `openSessionBesidePane` has checked to be unused -/
def NewFor (h : Holder) (c : Call) : Prop :=
  NewIds c.ids h.rootPane ∧ ∀ id ∈ suppliedTabId c, id ∉ tabIds h.rootPane

/-- **Each action keeps the tree well formed** -/
theorem act_wellFormed (h : Holder) (c : Call) (hw : WellFormed h) (hnew : NewFor h c) :
    WellFormed (act h c) := by
  obtain ⟨ids, action⟩ := c
  obtain ⟨hids, hopts⟩ := hnew
  cases action with
  | split paneId direction => exact split_wellFormed hw hids paneId direction
  | openSessionBesidePane paneId direction =>
    exact openSessionBesidePane_wellFormed hw hids paneId direction hopts
  | splitAndMoveTab paneId tabId direction =>
    exact splitAndMoveTab_wellFormed hw hids paneId tabId direction
  | moveTab fromPaneId toPaneId tabId toIndex =>
    exact moveTab_wellFormed hw hids fromPaneId toPaneId tabId toIndex
  | closeTab paneId tabId force => exact closeTab_wellFormed hw hids paneId tabId force
  | removeEmptyPane paneId => exact removeEmptyPane_wellFormed hw hids paneId
  | applyLayoutPreset preset => exact applyLayoutPreset_wellFormed hw hids preset

/-- **Every reachable tree is well formed** -/
theorem run_wellFormed (ids : Nat → String) (calls : List Call)
    (hnew : StepsOk act NewFor (initialHolder ids) calls) :
    Along act WellFormed (initialHolder ids) calls :=
  along_of_inv act_wellFormed (createPanel_wellFormed ids 0) hnew

def letters (c : Char) (k : Nat) : String := String.ofList (List.replicate (k + 1) c)

theorem letters_injective (c : Char) : Function.Injective (letters c) := by
  intro i j h
  have hlen := congrArg (fun s => s.toList.length) h
  simpa [letters] using hlen

theorem letters_ne {c d : Char} (h : c ≠ d) (i j : Nat) : letters c i ≠ letters d j := by
  intro heq
  have hhead := congrArg (fun s => s.toList.head?) heq
  simp only [letters, String.toList_ofList, replicate_succ, head?_cons] at hhead
  exact h (Option.some.inj hhead)

theorem run_wellFormed_split : WellFormed
    (run act (initialHolder (letters 'a')) [⟨letters 'b', .split (letters 'a' 0) .right⟩]) := by
  have hne : ∀ i j, letters 'b' i ≠ letters 'a' j := letters_ne (by decide)
  refine (run_wellFormed (letters 'a') [⟨letters 'b', .split (letters 'a' 0) .right⟩]
    ⟨⟨⟨letters_injective 'b', ?_, ?_⟩, ?_⟩, trivial⟩).last
  · intro k hk
    rw [initialHolder, nodeIds, collect_leaf, mem_singleton] at hk
    exact hne k 0 hk
  · intro k hk
    rw [initialHolder, tabIds, collect_leaf, createPanel, map_singleton, mem_singleton] at hk
    exact hne k 1 hk
  · intro id hid
    exact absurd hid (by simp [suppliedTabId])

end CcPanes.Panes

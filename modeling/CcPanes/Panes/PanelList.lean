import CcPanes.Panes.PaneClosing
import CcPanes.Panes.TreeTabs
import Mathlib.Data.List.Pairwise

/-!
# The panels of a tree as a list

Where ids are distinct, what an action does to a tree is what it does to the list of its panels.
-/

namespace CcPanes.Panes
open RoseTree Option

variable {write : Panel → Panel} {root : PaneNode} {paneId : String} {p : Panel}

theorem flatMap_update {α β κ : Type} {l : List α} (key : α → κ) (hnodup : (l.map key).Nodup)
    {a : α} (ha : a ∈ l) {f f' : α → List β} (hother : ∀ b ∈ l, key b ≠ key a → f' b = f b)
    {x y : List β} (h : (x ++ f' a).Perm (y ++ f a)) :
    (x ++ l.flatMap f').Perm (y ++ l.flatMap f) := by
  obtain ⟨l₁, l₂, rfl⟩ := List.append_of_mem ha
  rw [List.map_append, List.map_cons, List.perm_middle.nodup_iff, List.nodup_cons, List.mem_append,
    not_or] at hnodup
  have hsame : ∀ m : List α, m ⊆ l₁ ++ a :: l₂ → key a ∉ m.map key → m.flatMap f' = m.flatMap f := by
    intro m hm hnot
    refine List.flatMap_congr fun b hb => hother b (hm hb) fun heq => hnot ?_
    exact heq ▸ List.mem_map_of_mem hb
  have hleft := hsame l₁ (List.subset_append_left _ _) hnodup.1.1
  have hright := hsame l₂ (fun b hb => List.mem_append_right _ (List.mem_cons_of_mem _ hb)) hnodup.1.2
  rw [List.flatMap_append, List.flatMap_append, List.flatMap_cons, List.flatMap_cons, hleft, hright]
  refine (List.perm_append_comm_assoc ..).trans ?_
  refine List.Perm.trans ?_ (List.perm_append_comm_assoc ..)
  rw [← List.append_assoc x, ← List.append_assoc y]
  exact (h.append_right _).append_left _

theorem eq_of_mem_flatMap {α β : Type} {l : List α} {f : α → List β} (h : (l.flatMap f).Nodup)
    {a b : α} (ha : a ∈ l) (hb : b ∈ l) {x : β} (hx : x ∈ f a) (hx' : x ∈ f b) : a = b := by
  by_contra hne
  have hsymm : Std.Symm (Function.onFun List.Disjoint f) := ⟨fun _ _ hd _ h h' => hd h' h⟩
  exact (List.nodup_flatMap.mp h).2.forall ha hb hne hx hx'

/-! ## writes to a panel -/

theorem plug_panels (t : PaneNode) (place : Place) :
    collectPanels (plug t place) = panelsBefore place ++ collectPanels t ++ panelsAfter place := by
  rw [collectPanels_plug, List.append_assoc]

theorem panel_ids_nodup (h : (nodeIds root).Nodup) : ((collectPanels root).map Panel.id).Nodup := by
  refine List.nodup_iff_count_le_one.mpr fun x => ?_
  have hle := count_leaves_le (fun p : Panel => [p.id]) (fun s : SplitPane => [s.id]) x root
  rw [collect_eq_flatMap] at hle
  have hmap : (collectPanels root).flatMap (fun p => [p.id]) = (collectPanels root).map Panel.id :=
    List.flatMap_pure_eq_map _ _
  rw [← hmap]
  exact Nat.le_trans hle (List.nodup_iff_count_le_one.mp h x)

theorem panel_unique (h : (nodeIds root).Nodup) {p q : Panel} (hp : p ∈ collectPanels root)
    (hq : q ∈ collectPanels root) (hid : p.id = q.id) : p = q :=
  List.inj_on_of_nodup_map (panel_ids_nodup h) hp hq hid

theorem findPane_iff (h : (nodeIds root).Nodup) :
    findPane root paneId = some (.leaf p) ↔ p ∈ collectPanels root ∧ p.id = paneId := by
  constructor
  · intro hfind
    obtain ⟨⟨n, place⟩, hloc, rfl⟩ := map_eq_some_iff.mp hfind
    obtain ⟨rfl, hid⟩ := locatePane_spec hloc
    exact ⟨mem_collectPanels_plug p place, hid⟩
  rintro ⟨hp, rfl⟩
  obtain ⟨place, hloc, -⟩ := locatePane_panel h hp
  rw [findPane, hloc]
  rfl

def atPanel (paneId : String) (write : Panel → Panel) (p : Panel) : Panel :=
  if p.id = paneId then write p else p

theorem atPanel_id (hid : ∀ p, (write p).id = p.id) (p : Panel) :
    (atPanel paneId write p).id = p.id := by
  unfold atPanel
  split
  · exact hid p
  · rfl

theorem atPanel_of_eq (write : Panel → Panel) (h : p.id = paneId) :
    atPanel paneId write p = write p := if_pos h

theorem atPanel_self (write : Panel → Panel) (p : Panel) : atPanel p.id write p = write p :=
  if_pos rfl

theorem atPanel_of_ne (h : p.id ≠ paneId) :
    atPanel paneId write p = p := if_neg h

section

/-- **A write to a panel**: every panel is what it was or written to -/
theorem modifyPanel_eq_map (hnodup : (nodeIds root).Nodup) (write : Panel → Panel)
    (paneId : String) :
    modifyPanel root paneId write = map (atPanel paneId write) (fun s => s) root := by
  unfold modifyPanel
  split
  · next p place hloc =>
    obtain ⟨rfl, hid⟩ := locatePane_spec hloc
    have hid : p.id = paneId := hid
    have hids := panel_ids_nodup hnodup
    rw [plug_panels, collectPanels_leaf, List.append_assoc, List.singleton_append, List.map_append,
      List.map_cons, List.perm_middle.nodup_iff, List.nodup_cons, List.mem_append, not_or, hid]
      at hids
    rw [map_plug, map_frames_self, map, atPanel_of_eq _ hid]
    · exact fun q hq => atPanel_of_ne fun heq => hids.1.1 (heq ▸ List.mem_map_of_mem hq)
    · exact fun q hq => atPanel_of_ne fun heq => hids.1.2 (heq ▸ List.mem_map_of_mem hq)
  · next hnone =>
    refine (map_self fun p hp => atPanel_of_ne fun hid => ?_).symm
    obtain ⟨place, hloc, -⟩ := locatePane_panel hnodup hp
    exact hnone p place (hid ▸ hloc)

theorem modifyPanel_panels (hnodup : (nodeIds root).Nodup) (write : Panel → Panel)
    (paneId : String) : collectPanels (modifyPanel root paneId write) =
      (collectPanels root).map (atPanel paneId write) := by
  rw [modifyPanel_eq_map hnodup]
  exact leaves_map _ _ root

theorem modifyPanel_count (hnodup : (nodeIds root).Nodup) (write : Panel → Panel)
    (paneId : String) :
    (collectPanels (modifyPanel root paneId write)).length = (collectPanels root).length := by
  rw [modifyPanel_panels hnodup, List.length_map]

theorem modifyPanel_nodeIds (hid : ∀ p, (write p).id = p.id) :
    nodeIds (modifyPanel root paneId write) = nodeIds root := by
  unfold modifyPanel
  split
  · next p place hloc =>
    rw [nodeIds_plug_leaf (hid p), (locatePane_spec hloc).1]
  · rfl

theorem modifyPanel_splits :
    SplitsOk (modifyPanel root paneId write) ↔ SplitsOk root := by
  unfold modifyPanel
  split
  · next p place hloc =>
    rw [splitsOk_plug_leaf p, (locatePane_spec hloc).1]
  · exact Iff.rfl

end

/-! ## panes put in and taken out -/

theorem insertOrWrap_panels (splitId : String) (direction : Direction) (targetPane newPane : PaneNode)
    (place : Place) : collectPanels (insertOrWrap splitId direction targetPane newPane place) =
      panelsBefore place ++ (collectPanels targetPane ++ collectPanels newPane) ++
        panelsAfter place := by
  have hpair : panelsOf [targetPane, newPane] = collectPanels targetPane ++ collectPanels newPane := by
    rw [panelsOf_cons, panelsOf_cons]
    simp [panelsOf, collectAll_nil]
  cases place with
  | nil =>
    rw [insertOrWrap, collectPanels_node, hpair]
    simp [panelsBefore, panelsAfter, before, after]
  | cons =>
    rw [insertOrWrap]
    split
    · rw [plug_panels, collectPanels_node, panelsOf_append, panelsOf_append, hpair,
        panelsBefore_cons, panelsAfter_cons]
      simp only [List.append_assoc]
    · rw [plug_panels, Frame.fill, collectPanels_node, panelsOf_append, panelsOf_append,
        panelsOf_cons, collectPanels_node, hpair, panelsBefore_cons, panelsAfter_cons]
      simp [panelsOf, collectAll_nil]

def NoSibling : Place → Prop
  | [] => True
  | fr :: _ => childCount fr = 1

instance decidableNoSibling : (place : Place) → Decidable (NoSibling place)
  | [] => .isTrue trivial
  | fr :: _ => inferInstanceAs (Decidable (childCount fr = 1))

def Alone (root : PaneNode) (paneId : String) : Prop :=
  ∃ n place, locatePane root paneId = some (n, place) ∧ NoSibling place

theorem removeEmptyPane_root (ids : Nat → String) {h : Holder} {place : Place}
    (hloc : locatePane h.rootPane paneId = some (.leaf p, place)) (htabs : p.tabs = []) :
    (removeEmptyPane ids h paneId).rootPane = withoutPanel ids place := by
  unfold removeEmptyPane
  rw [hloc]
  dsimp only
  rw [if_neg (not_not.mpr htabs)]
  cases place with
  | nil => rfl
  | cons =>
    dsimp only
    split <;> rfl

theorem locatePane_modifyPanel (hnodup : (nodeIds root).Nodup) (hid : ∀ p, (write p).id = p.id)
    (writtenId paneId : String) :
    locatePane (modifyPanel root writtenId write) paneId =
      (locatePane root paneId).map fun found =>
        (map (atPanel writtenId write) (fun s => s) found.1,
          found.2.map (mapFrame (atPanel writtenId write) fun s => s)) := by
  rw [modifyPanel_eq_map hnodup]
  refine locate_map (fun t => ?_) root
  cases t with
  | leaf p =>
    show ((atPanel writtenId write p).id == paneId) = _
    rw [atPanel_id hid]
    rfl
  | node =>
    rfl

theorem noSibling_map (f : Panel → Panel) (place : Place) :
    NoSibling (place.map (mapFrame f fun s => s)) ↔ NoSibling place := by
  cases place with
  | nil => exact Iff.rfl
  | cons fr =>
    show (mapAll _ _ fr.left).length + 1 + (mapAll _ _ fr.right).length = 1 ↔ _
    rw [mapAll_length, mapAll_length]
    rfl

theorem alone_modifyPanel (hnodup : (nodeIds root).Nodup) (hid : ∀ p, (write p).id = p.id)
    (writtenId paneId : String) :
    Alone (modifyPanel root writtenId write) paneId ↔ Alone root paneId := by
  unfold Alone
  rw [locatePane_modifyPanel hnodup hid]
  constructor
  · rintro ⟨n, place, hloc, hns⟩
    obtain ⟨⟨n', place'⟩, hloc', heq⟩ := map_eq_some_iff.mp hloc
    cases heq
    exact ⟨n', place', hloc', (noSibling_map _ _).mp hns⟩
  · rintro ⟨n, place, hloc, hns⟩
    rw [hloc]
    exact ⟨_, _, rfl, (noSibling_map _ _).mpr hns⟩

/-- **An empty panel taken out**: the panels but this one, or a new one in its place -/
theorem removed_panels (ids : Nat → String) {place : Place}
    (h : HoldsAround (fun _ => True) SplitOk place) : collectPanels (withoutPanel ids place) =
      panelsBefore place ++ (if NoSibling place then [createPanel ids 0 none] else []) ++
        panelsAfter place := by
  cases place with
  | nil =>
    exact collectPanels_leaf _
  | cons fr frs =>
    by_cases hcount : childCount fr = 1
    · rw [withoutPanel, if_pos (show NoSibling (fr :: frs) from hcount),
        closed_shell ids h hcount, List.append_assoc, List.singleton_append]
    · rw [withoutPanel, if_neg (show ¬ NoSibling (fr :: frs) from hcount),
        closed_panels ids h hcount, List.append_nil]

/-! ## the tabs but one -/

def others (tabId : String) (tabs : List Tab) : List Tab := tabs.filter fun tab => tab.id ≠ tabId

/-- panel by panel; a panel without such tabs is left out -/
def otherTabsOf (tabId : String) (panels : List Panel) : List (String × List Tab) :=
  (panels.map fun p => (p.id, others tabId p.tabs)).filter fun entry => entry.2 ≠ []

def otherTabs (tabId : String) (root : PaneNode) : List (String × List Tab) :=
  otherTabsOf tabId (collectPanels root)

section
variable {tabId : String}

theorem otherTabsOf_append (ps qs : List Panel) :
    otherTabsOf tabId (ps ++ qs) = otherTabsOf tabId ps ++ otherTabsOf tabId qs := by
  rw [otherTabsOf, List.map_append, List.filter_append]
  rfl

theorem otherTabsOf_singleton {p : Panel} (h : others tabId p.tabs = []) :
    otherTabsOf tabId [p] = [] := by
  rw [otherTabsOf, List.map_singleton, List.filter_cons, h, if_neg (by simp), List.filter_nil]

theorem otherTabsOf_map {write : Panel → Panel} {ps : List Panel}
    (h : ∀ p ∈ ps, (write p).id = p.id ∧ others tabId (write p).tabs = others tabId p.tabs) :
    otherTabsOf tabId (ps.map write) = otherTabsOf tabId ps := by
  rw [otherTabsOf, List.map_map]
  congr 1
  refine List.map_congr_left fun p hp => ?_
  obtain ⟨hid, hothers⟩ := h p hp
  exact Prod.ext hid hothers

theorem others_middle {tab : Tab} (h : tab.id = tabId) (tabs tabs' : List Tab) :
    others tabId (tabs ++ tab :: tabs') = others tabId (tabs ++ tabs') := by
  rw [others, others, List.filter_append, List.filter_append, List.filter_cons,
    if_neg (by simpa using h)]

theorem others_insertTab {tab : Tab} (h : tab.id = tabId) (toIndex : Option Int) (p : Panel) :
    others tabId (insertTab tab toIndex p).tabs = others tabId p.tabs := by
  rw [insertTab, others_middle h, List.take_append_drop]

theorem others_eraseIdx {p : Panel} {idx : Nat} {tab : Tab}
    (h : findTab p tabId = some (idx, tab)) :
    others tabId (p.tabs.eraseIdx idx) = others tabId p.tabs := by
  obtain ⟨i, -, hget⟩ := bind_eq_some_iff.mp h
  obtain ⟨t, ht, heq⟩ := map_eq_some_iff.mp hget
  obtain ⟨rfl, rfl⟩ := Prod.mk.inj heq
  obtain ⟨hlt, hget⟩ := List.getElem?_eq_some_iff.mp ht
  have htabs : p.tabs = p.tabs.take i ++ t :: p.tabs.drop (i + 1) := by
    rw [← hget, List.getElem_cons_drop, List.take_append_drop]
  rw [List.eraseIdx_eq_take_drop_succ, ← others_middle (findTab_spec h).2, ← htabs]

theorem others_nil_iff {tabs : List Tab} : others tabId tabs = [] ↔ ∀ tab ∈ tabs, tab.id = tabId := by
  rw [others, List.filter_eq_nil_iff]
  simp

end

end CcPanes.Panes

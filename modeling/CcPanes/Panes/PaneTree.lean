import CcPanes.Panes.Tabs
import Mathlib.Algebra.Ring.Rat

/-!
# The pane tree

`lib/paneTree.ts` and `stores/panes/layoutPresets.ts`: panels with tabs at the leaves of a tree of
splits.

`generateId` draws random ids; here an action draws from a sequence `ids` of them, and the prefix
that tells the kinds of ids apart is left out.  The sizes are exact percentages.
-/

namespace CcPanes.Panes
open RoseTree List

/-! ## the tree -/

structure Panel where
  id : String
  tabs : List Tab
  activeTabId : String
deriving DecidableEq

/-- a split without its children -/
structure SplitPane where
  id : String
  direction : Direction
  sizes : List Rat

abbrev PaneNode : Type := RoseTree Panel SplitPane

abbrev Place : Type := List (Frame Panel SplitPane)

def nodeId : PaneNode → String
  | .leaf p => p.id
  | .node s _ => s.id

def createPanel (ids : Nat → String) (k : Nat) (tab : Option Tab) : Panel :=
  let defaultTab := tab.getD (placeholderTab (ids (k + 1)))
  ⟨ids k, [defaultTab], defaultTab.id⟩

/-- the pane of this id and its place; `findPane`, `findParent` and `findAncestorSplits` search the
tree in this order -/
def locatePane (root : PaneNode) (paneId : String) : Option (PaneNode × Place) :=
  locate (fun n => nodeId n == paneId) root

def findPane (root : PaneNode) (paneId : String) : Option PaneNode :=
  (locatePane root paneId).map Prod.fst

def findAncestorSplits (root : PaneNode) (paneId : String) : Option Place :=
  (locatePane root paneId).map fun l => l.2.reverse

def collectPanels (root : PaneNode) : List Panel := leaves root

def childCount (fr : Frame Panel SplitPane) : Nat := fr.left.length + 1 + fr.right.length

def evenSizes (n : Nat) : List Rat := List.replicate n (100 / n)

/-- the sizes of a split with `n` children, normalised -/
def normalizeSplitSizes (sizes : List Rat) (n : Nat) : List Rat :=
  let total := sizes.sum
  if total > 0 then sizes.map fun size => size / total * 100 else evenSizes n

theorem evenSizes_length (n : Nat) : (evenSizes n).length = n := length_replicate

theorem normalizeSplitSizes_length {sizes : List Rat} {n : Nat} (h : sizes.length = n) :
    (normalizeSplitSizes sizes n).length = n := by
  unfold normalizeSplitSizes
  simp only
  split
  · rw [length_map, h]
  · exact evenSizes_length n

/-! ## removal -/

mutual
/-- the normalised tree, and how many ids have been drawn by then -/
def normalizePaneTree (ids : Nat → String) : Nat → PaneNode → PaneNode × Nat
  | k, .leaf p => (.leaf p, k)
  | k, .node s children =>
    let r := normalizeChildren ids k children
    if r.1.length = 0 then (.leaf (createPanel ids r.2 none), r.2 + 2)
    else if s.sizes.length ≠ r.1.length then
      (.node { s with sizes := evenSizes r.1.length } r.1, r.2)
    else (.node { s with sizes := normalizeSplitSizes s.sizes r.1.length } r.1, r.2)
def normalizeChildren (ids : Nat → String) : Nat → List PaneNode → List PaneNode × Nat
  | k, [] => ([], k)
  | k, t :: ts =>
    let r := normalizePaneTree ids k t
    let rs := normalizeChildren ids r.2 ts
    (r.1 :: rs.1, rs.2)
end

/-- the split of a frame without the child in the place -/
def removeChild (fr : Frame Panel SplitPane) : PaneNode :=
  .node { fr.label with
      sizes := normalizeSplitSizes (fr.label.sizes.eraseIdx fr.left.length)
        (fr.left.length + fr.right.length) }
    (fr.left ++ fr.right)

/-- `tabs[Math.min(index, tabs.length - 1)].id` -/
def tabIdAt (tabs : List Tab) (index : Nat) : String :=
  ((tabs[min index (tabs.length - 1)]?).map Tab.id).getD ""

def findTab (pane : Panel) (tabId : String) : Option (Nat × Tab) :=
  (pane.tabs.findIdx? (·.id == tabId)).bind fun idx => (pane.tabs[idx]?).map fun tab => (idx, tab)

/-- the panel without the tab at the index, another one shown if it was shown -/
def spliceTab (pane : Panel) (idx : Nat) (tabId : String) : Panel :=
  let tabs := pane.tabs.eraseIdx idx
  ⟨pane.id, tabs, if pane.activeTabId = tabId then tabIdAt tabs idx else pane.activeTabId⟩

def closeTabInTree (ids : Nat → String) (rootPane : PaneNode) (paneId tabId : String)
    (force : Bool) : PaneNode :=
  match locatePane rootPane paneId with
  | some (.leaf pane, place) =>
    match findTab pane tabId with
    | none => rootPane
    | some (idx, tab) =>
      if !force && tab.pinned then rootPane
      else if pane.tabs.length > 1 then plug (.leaf (spliceTab pane idx tabId)) place
      else
        match place with
        | [] => .leaf (createPanel ids 0 none)
        | fr :: frs => (normalizePaneTree ids 0 (plug (removeChild fr) frs)).1
  | _ => rootPane

inductive LayoutPresetId
  | single
  | twoCol
  | threeCol
  | twoRow
  | grid2x2
  | mainSide
deriving DecidableEq

def layoutPresetSlots : LayoutPresetId → Nat
  | .single => 1
  | .twoCol => 2
  | .threeCol => 3
  | .twoRow => 2
  | .grid2x2 => 4
  | .mainSide => 3

def createSplit (id : String) (direction : Direction) (children : List PaneNode)
    (sizes : Option (List Rat)) : PaneNode :=
  .node ⟨id, direction, sizes.getD (evenSizes children.length)⟩ children

/-- the tree of a preset over its slots; the root keeps the id of the root split there was, the
other splits draw ids from `k` on -/
def buildPresetTree (ids : Nat → String) (k : Nat) (preset : LayoutPresetId) (slots : Nat → Panel)
    (rootSplitId : Option String) : PaneNode :=
  let rootId := rootSplitId.getD (ids k)
  let slot := fun i => RoseTree.leaf (slots i)
  match preset with
  | .single =>
    if rootSplitId.isSome then createSplit rootId .horizontal [slot 0] (some [100]) else slot 0
  | .twoCol => createSplit rootId .horizontal [slot 0, slot 1] none
  | .threeCol => createSplit rootId .horizontal [slot 0, slot 1, slot 2] none
  | .twoRow => createSplit rootId .vertical [slot 0, slot 1] none
  | .grid2x2 =>
    createSplit rootId .vertical
      [createSplit (ids (k + 1)) .horizontal [slot 0, slot 1] none,
        createSplit (ids (k + 2)) .horizontal [slot 2, slot 3] none] none
  | .mainSide =>
    createSplit rootId .horizontal
      [slot 0, createSplit (ids (k + 1)) .vertical [slot 1, slot 2] none] (some [60, 40])

/-! ## what is counted -/

def stock (ids : Nat → String) (k : Nat) : List String := (List.range k).map ids

theorem stock_count_succ (ids : Nat → String) (k : Nat) (x : String) :
    (stock ids (k + 1)).count x = (stock ids k).count x + [ids k].count x := by
  rw [stock, range_succ, map_append, count_append]
  rfl

/-- what panels and splits contribute: a split what its id says, a new panel no more than the ids it
draws -/
structure Counted (f : Panel → List String) (g : SplitPane → List String) : Prop where
  split_id : ∀ s s', s.id = s'.id → g s = g s'
  fresh : ∀ ids k x, (f (createPanel ids k none)).count x ≤ [ids k].count x + [ids (k + 1)].count x

def nodeIds : PaneNode → List String := collect (fun p => [p.id]) (fun s => [s.id])

def tabIds : PaneNode → List String := collect (fun p => p.tabs.map Tab.id) (fun _ => [])

theorem counted_nodeIds : Counted (fun p => [p.id]) (fun s => [s.id]) where
  split_id s s' h := by rw [h]
  fresh _ _ _ := Nat.le_add_right ..

theorem counted_tabIds : Counted (fun p => p.tabs.map Tab.id) (fun _ => []) where
  split_id _ _ _ := rfl
  fresh _ _ _ := Nat.le_add_left ..

def SplitOk (s : SplitPane) (n : Nat) : Prop := 0 < n ∧ s.sizes.length = n

def SplitsOk : PaneNode → Prop := Holds (fun _ => True) SplitOk

def PanelOk (p : Panel) : Prop := p.tabs ≠ [] → ∃ t ∈ p.tabs, t.id = p.activeTabId

theorem createPanel_ok (ids : Nat → String) (k : Nat) (tab : Option Tab) :
    PanelOk (createPanel ids k tab) := by
  intro _
  exact ⟨tab.getD (placeholderTab (ids (k + 1))), mem_singleton.mpr rfl, rfl⟩

theorem tabIdAt_mem {tabs : List Tab} (h : tabs ≠ []) (index : Nat) :
    ∃ t ∈ tabs, t.id = tabIdAt tabs index := by
  have hpos := length_pos_iff.mpr h
  have hlt : min index (tabs.length - 1) < tabs.length := by omega
  refine ⟨tabs[min index (tabs.length - 1)], getElem_mem hlt, ?_⟩
  rw [tabIdAt, getElem?_eq_getElem hlt]
  rfl

/-! ## the normalised tree -/

section
variable {f : Panel → List String} {g : SplitPane → List String} (ids : Nat → String)

mutual
/-- **A normalised tree has what it had and what is drawn** -/
theorem normalizePaneTree_count (hc : Counted f g) (x : String) : ∀ (k : Nat) (t : PaneNode),
    (collect f g (normalizePaneTree ids k t).1).count x + (stock ids k).count x ≤
      (stock ids (normalizePaneTree ids k t).2).count x + (collect f g t).count x
  | k, .leaf p => by
    exact Nat.le_of_eq (Nat.add_comm ..)
  | k, .node s ts => by
    have hts := normalizeChildren_count hc x k ts
    have hg : ∀ sizes, g { s with sizes := sizes } = g s := fun _ => hc.split_id _ _ rfl
    rw [normalizePaneTree]
    split
    · have hfresh := hc.fresh ids (normalizeChildren ids k ts).2 x
      rw [collect_leaf, stock_count_succ, stock_count_succ, collect_node, count_append]
      omega
    split <;>
    · rw [collect_node, collect_node, hg, count_append, count_append]
      dsimp only
      omega
theorem normalizeChildren_count (hc : Counted f g) (x : String) : ∀ (k : Nat) (ts : List PaneNode),
    (collectAll f g (normalizeChildren ids k ts).1).count x + (stock ids k).count x ≤
      (stock ids (normalizeChildren ids k ts).2).count x + (collectAll f g ts).count x
  | k, [] => by
    exact Nat.le_of_eq (Nat.add_comm ..)
  | k, t :: ts => by
    have ht := normalizePaneTree_count hc x k t
    have hts := normalizeChildren_count hc x (normalizePaneTree ids k t).2 ts
    rw [normalizeChildren, collectAll_cons, collectAll_cons, count_append, count_append]
    simp only
    omega
end

mutual
theorem normalizePaneTree_splits : ∀ (k : Nat) (t : PaneNode),
    SplitsOk (normalizePaneTree ids k t).1
  | k, .leaf p => by
    exact (holds_leaf _ _ p).mpr trivial
  | k, .node s ts => by
    have hts := normalizeChildren_splits k ts
    rw [normalizePaneTree]
    split
    · exact (holds_leaf _ _ _).mpr trivial
    next hne =>
    have hpos : 0 < (normalizeChildren ids k ts).1.length := Nat.pos_of_ne_zero hne
    split
    · exact (holds_node _ _ _ _).mpr ⟨⟨hpos, evenSizes_length _⟩, hts⟩
    · next heq =>
      have hlen := normalizeSplitSizes_length (Decidable.not_not.mp heq)
      exact (holds_node _ _ _ _).mpr ⟨⟨hpos, hlen⟩, hts⟩
theorem normalizeChildren_splits : ∀ (k : Nat) (ts : List PaneNode),
    HoldsAll (fun _ => True) SplitOk (normalizeChildren ids k ts).1
  | k, [] => by
    exact holdsAll_nil _ _
  | k, t :: ts => by
    exact (holdsAll_cons _ _ _ _).mpr
      ⟨normalizePaneTree_splits k t, normalizeChildren_splits (normalizePaneTree ids k t).2 ts⟩
end

mutual
theorem normalizePaneTree_panels : ∀ (k : Nat) (t : PaneNode) (p : Panel),
    p ∈ collectPanels (normalizePaneTree ids k t).1 →
      p ∈ collectPanels t ∨ ∃ j, p = createPanel ids j none
  | k, .leaf q, p, h => by
    exact .inl h
  | k, .node s ts, p, h => by
    rw [normalizePaneTree] at h
    split at h
    · rw [collectPanels, leaves, collect_leaf, mem_singleton] at h
      exact .inr ⟨_, h⟩
    have hts : p ∈ collectAll (fun a => [a]) (fun _ => []) (normalizeChildren ids k ts).1 := by
      split at h <;> simpa only [collectPanels, leaves, collect_node, nil_append] using h
    exact normalizeChildren_panels k ts p hts
theorem normalizeChildren_panels : ∀ (k : Nat) (ts : List PaneNode) (p : Panel),
    p ∈ collectAll (fun a => [a]) (fun _ => []) (normalizeChildren ids k ts).1 →
      p ∈ collectAll (fun a => [a]) (fun _ => []) ts ∨ ∃ j, p = createPanel ids j none
  | k, [], p, h => by
    rw [normalizeChildren, collectAll_nil] at h
    cases h
  | k, t :: ts, p, h => by
    rw [normalizeChildren, collectAll_cons, mem_append] at h
    rw [collectAll_cons, mem_append]
    rcases h with h | h
    · exact (normalizePaneTree_panels k t p h).imp_left .inl
    · exact (normalizeChildren_panels (normalizePaneTree ids k t).2 ts p h).imp_left .inr
end

end

section
variable {f : Panel → List String} {g : SplitPane → List String}

theorem removeChild_count (hc : Counted f g) (target : PaneNode) (fr : Frame Panel SplitPane)
    (frs : Place) (x : String) :
    (collect f g (plug (removeChild fr) frs)).count x + (collect f g target).count x =
      (collect f g (plug target (fr :: frs))).count x := by
  have hg : ∀ sizes, g { fr.label with sizes := sizes } = g fr.label :=
    fun _ => hc.split_id _ _ rfl
  have hone : collectAll f g [target] = collect f g target := by
    rw [collectAll_cons, collectAll_nil, append_nil]
  rw [plug, collect_plug, collect_plug, collect_fill, removeChild, collect_node, collectAll_append,
    hg, hone]
  simp only [count_append]
  omega

end

theorem removeChild_panels (target : PaneNode) (fr : Frame Panel SplitPane) (frs : Place)
    (p : Panel) (h : p ∈ collectPanels (plug (removeChild fr) frs)) :
    p ∈ collectPanels (plug target (fr :: frs)) := by
  rw [collectPanels, leaves, collect_plug, removeChild, collect_node, collectAll_append] at h
  rw [collectPanels, leaves, plug, collect_plug, collect_fill, collectAll_cons]
  simp only [mem_append] at h ⊢
  rcases h with h | (h | h | h) | h
  · exact .inl h
  · cases h
  · exact .inr (.inl (.inl (.inr h)))
  · exact .inr (.inl (.inr (.inr h)))
  · exact .inr (.inr h)

theorem locatePane_spec {root n : PaneNode} {paneId : String} {place : Place}
    (h : locatePane root paneId = some (n, place)) : plug n place = root ∧ nodeId n = paneId := by
  obtain ⟨hplug, hid⟩ := plug_locate h
  exact ⟨hplug, by simpa using hid⟩

theorem mem_plug_leaf {p p' r : Panel} {place : Place}
    (hnodup : (nodeIds (plug (.leaf p) place)).Nodup)
    (h : r ∈ collectPanels (plug (.leaf p') place)) :
    r = p' ∨ (r ∈ collectPanels (plug (.leaf p) place) ∧ r.id ≠ p.id) := by
  rw [nodeIds, collect_plug, collect_leaf, singleton_append, perm_middle.nodup_iff,
    nodup_cons, mem_append] at hnodup
  refine (mem_leaves_plug.mp h).imp_right fun hr =>
    ⟨mem_leaves_plug.mpr (.inr hr), fun hid => ?_⟩
  have hmem : r.id ∈ [r.id] := mem_singleton.mpr rfl
  refine hnodup.1 (hid ▸ ?_)
  exact hr.imp (mem_before_of_leaf (f := fun p : Panel => [p.id]) hmem)
    (mem_after_of_leaf (f := fun p : Panel => [p.id]) hmem)

/-- **A panel is found by its id**, where ids are distinct -/
theorem locatePane_panel {root : PaneNode} {p : Panel} (hnodup : (nodeIds root).Nodup)
    (hp : p ∈ collectPanels root) :
    ∃ place, locatePane root p.id = some (.leaf p, place) ∧ plug (.leaf p) place = root := by
  cases hloc : locatePane root p.id with
  | none =>
    have hfalse := locate_eq_none hloc hp
    exact absurd hfalse (by simp [nodeId])
  | some l =>
    obtain ⟨n, place⟩ := l
    obtain ⟨rfl, hid⟩ := locatePane_spec hloc
    have hmem : p.id ∈ [p.id] := mem_singleton.mpr rfl
    cases n with
    | leaf q =>
      rcases mem_plug_leaf hnodup hp with rfl | ⟨-, hne⟩
      · exact ⟨place, rfl, rfl⟩
      · exact absurd hid.symm hne
    | node s ts =>
      -- the split and the panel would share the id
      exfalso
      rw [nodeIds, collect_plug, collect_node, append_assoc, singleton_append,
        perm_middle.nodup_iff, nodup_cons, mem_append, mem_append] at hnodup
      rw [collectPanels, leaves, collect_plug, collect_node, nil_append, mem_append,
        mem_append] at hp
      have hid : s.id = p.id := hid
      refine hnodup.1 (hid ▸ ?_)
      exact hp.imp (mem_before_of_leaf (f := fun p : Panel => [p.id]) hmem)
        (.imp (mem_collectAll_of_leaf (f := fun p : Panel => [p.id]) hmem)
          (mem_after_of_leaf (f := fun p : Panel => [p.id]) hmem))

theorem count_plug_leaf {f : Panel → List String} {g : SplitPane → List String} (p p' : Panel)
    (place : Place) (x : String) :
    (collect f g (plug (.leaf p') place)).count x + (f p).count x =
      (collect f g (plug (.leaf p) place)).count x + (f p').count x := by
  rw [collect_plug, collect_plug, collect_leaf, collect_leaf]
  simp only [count_append]
  omega

end CcPanes.Panes

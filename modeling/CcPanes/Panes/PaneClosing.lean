import CcPanes.Panes.PaneInvariant

/-!
# The panels left by a closed tab

`closeTabInTree` of `lib/paneTree.ts` takes the panel of a last tab out of its split and normalises
the tree.  A split with one child is kept as a shell, so the split may be empty then, and the
normaliser puts a new panel with a placeholder tab there.
-/

namespace CcPanes.Panes
open RoseTree List

abbrev panelsOf (ts : List PaneNode) : List Panel := collectAll (fun p => [p]) (fun _ => []) ts

abbrev panelsBefore (place : Place) : List Panel := before (fun p => [p]) (fun _ => []) place

abbrev panelsAfter (place : Place) : List Panel := after (fun p => [p]) (fun _ => []) place

theorem collectPanels_node (s : SplitPane) (ts : List PaneNode) :
    collectPanels (.node s ts) = panelsOf ts := by
  rw [collectPanels, leaves, collect_node, nil_append]

theorem panelsOf_cons (t : PaneNode) (ts : List PaneNode) :
    panelsOf (t :: ts) = collectPanels t ++ panelsOf ts := collectAll_cons _ _ t ts

theorem panelsOf_append (ts us : List PaneNode) :
    panelsOf (ts ++ us) = panelsOf ts ++ panelsOf us := collectAll_append _ _ ts us

theorem panelsBefore_cons (fr : Frame Panel SplitPane) (frs : Place) :
    panelsBefore (fr :: frs) = panelsBefore frs ++ panelsOf fr.left := rfl

theorem panelsAfter_cons (fr : Frame Panel SplitPane) (frs : Place) :
    panelsAfter (fr :: frs) = panelsOf fr.right ++ panelsAfter frs := rfl

theorem collectPanels_leaf (p : Panel) : collectPanels (.leaf p) = [p] := by
  rw [collectPanels, leaves, collect_leaf]

theorem collectPanels_plug (t : PaneNode) (place : Place) :
    collectPanels (plug t place) = panelsBefore place ++ (collectPanels t ++ panelsAfter place) :=
  collect_plug _ _ t place

def OnlyChild (root : PaneNode) (paneId : String) : Prop :=
  ∃ n fr frs, locatePane root paneId = some (n, fr :: frs) ∧ childCount fr = 1

section
variable (ids : Nat → String)

theorem normalizeChildren_length (k : Nat) (ts : List PaneNode) :
    (normalizeChildren ids k ts).1.length = ts.length := by
  induction ts generalizing k with
  | nil => rw [normalizeChildren]
  | cons t ts ih => rw [normalizeChildren, length_cons, length_cons, ih]

theorem normalizeChildren_append (k : Nat) (ts us : List PaneNode) :
    normalizeChildren ids k (ts ++ us) =
      ((normalizeChildren ids k ts).1 ++
          (normalizeChildren ids (normalizeChildren ids k ts).2 us).1,
        (normalizeChildren ids (normalizeChildren ids k ts).2 us).2) := by
  induction ts generalizing k with
  | nil =>
    rfl
  | cons t ts ih =>
    rw [cons_append, normalizeChildren, normalizeChildren, ih]
    rfl

theorem normalizePaneTree_node (k : Nat) (s : SplitPane) {ts : List PaneNode} (h : ts ≠ []) :
    (normalizePaneTree ids k (.node s ts)).2 = (normalizeChildren ids k ts).2 ∧
      collectPanels (normalizePaneTree ids k (.node s ts)).1 =
        panelsOf (normalizeChildren ids k ts).1 := by
  have hne : (normalizeChildren ids k ts).1.length ≠ 0 := by
    rw [normalizeChildren_length]
    exact fun hnil => h (length_eq_zero_iff.mp hnil)
  rw [normalizePaneTree, if_neg hne]
  split
  · exact ⟨rfl, collectPanels_node _ _⟩
  · exact ⟨rfl, collectPanels_node _ _⟩

mutual
theorem normalizePaneTree_same (k : Nat) : ∀ t : PaneNode, SplitsOk t →
    (normalizePaneTree ids k t).2 = k ∧ collectPanels (normalizePaneTree ids k t).1 = collectPanels t
  | .leaf p, _ => by
    exact ⟨rfl, rfl⟩
  | .node s ts, h => by
    obtain ⟨hsplit, hts⟩ := (holds_node _ _ s ts).mp h
    have hne : ts ≠ [] := fun hnil => by
      rw [hnil] at hsplit
      exact absurd hsplit.1 (Nat.lt_irrefl 0)
    obtain ⟨hdrawn, hpanels⟩ := normalizePaneTree_node ids k s hne
    obtain ⟨hsame, hkept⟩ := normalizeChildren_same k ts hts
    rw [hdrawn, hpanels, collectPanels_node]
    exact ⟨hsame, hkept⟩
theorem normalizeChildren_same (k : Nat) : ∀ ts : List PaneNode,
    HoldsAll (fun _ => True) SplitOk ts →
      (normalizeChildren ids k ts).2 = k ∧ panelsOf (normalizeChildren ids k ts).1 = panelsOf ts
  | [], _ => by
    exact ⟨rfl, rfl⟩
  | t :: ts, h => by
    obtain ⟨ht, hts⟩ := (holdsAll_cons _ _ t ts).mp h
    obtain ⟨hsame, hkept⟩ := normalizePaneTree_same k t ht
    obtain ⟨hsame', hkept'⟩ := normalizeChildren_same k ts hts
    rw [normalizeChildren, hsame]
    refine ⟨hsame', ?_⟩
    rw [panelsOf_cons, panelsOf_cons, hkept, hkept']
end

/-- **The panels around a place stay.** -/
theorem normalizePaneTree_plug {place : Place} (h : HoldsAround (fun _ => True) SplitOk place)
    (k : Nat) (t : PaneNode) : collectPanels (normalizePaneTree ids k (plug t place)).1 =
      panelsBefore place ++ (collectPanels (normalizePaneTree ids k t).1 ++ panelsAfter place) := by
  induction place generalizing t with
  | nil =>
    show _ = [] ++ (_ ++ [])
    rw [append_nil]
    rfl
  | cons fr frs ih =>
    obtain ⟨-, hleft, hright, hrest⟩ := h
    have hfill : collectPanels (normalizePaneTree ids k (fr.fill [t])).1 =
        panelsOf fr.left ++
          (collectPanels (normalizePaneTree ids k t).1 ++ panelsOf fr.right) := by
      have hne : fr.left ++ [t] ++ fr.right ≠ [] := by simp
      have hl := normalizeChildren_same ids k fr.left hleft
      have hr := normalizeChildren_same ids (normalizePaneTree ids k t).2 fr.right hright
      rw [Frame.fill, (normalizePaneTree_node ids k fr.label hne).2, append_assoc,
        normalizeChildren_append, hl.1, panelsOf_append, hl.2, singleton_append,
        normalizeChildren, panelsOf_cons, hr.2]
    rw [plug, ih hrest, hfill, panelsBefore_cons, panelsAfter_cons]
    simp only [append_assoc]

end

/-! ## closing the tab of a panel -/

section
variable (ids : Nat → String) {fr : Frame Panel SplitPane}

theorem findTab_only {p : Panel} {tab : Tab} (h : p.tabs = [tab]) :
    findTab p tab.id = some (0, tab) := by
  unfold findTab
  rw [h]
  simp

def withoutPanel : Place → PaneNode
  | [] => .leaf (createPanel ids 0 none)
  | fr :: frs => (normalizePaneTree ids 0 (plug (removeChild fr) frs)).1

theorem closeTabInTree_last {root : PaneNode} {p : Panel} {place : Place}
    (hloc : locatePane root p.id = some (.leaf p, place)) {tab : Tab} (htabs : p.tabs = [tab]) :
    closeTabInTree ids root p.id tab.id true = withoutPanel ids place := by
  unfold closeTabInTree
  rw [hloc]
  dsimp only
  rw [findTab_only htabs]
  dsimp only
  have hfree : ¬ (!true && tab.pinned) = true := Bool.false_ne_true
  rw [if_neg hfree, if_neg (by rw [htabs]; exact Nat.lt_irrefl 1)]
  cases place <;> rfl

theorem removeChild_splitsOk (hcount : childCount fr ≠ 1)
    (hsplit : SplitOk fr.label (fr.left.length + 1 + fr.right.length))
    (hleft : HoldsAll (fun _ => True) SplitOk fr.left)
    (hright : HoldsAll (fun _ => True) SplitOk fr.right) : SplitsOk (removeChild fr) := by
  have hlen : (fr.left ++ fr.right).length = fr.left.length + fr.right.length := length_append
  unfold childCount at hcount
  refine (holds_node _ _ _ _).mpr ⟨⟨?_, ?_⟩, (holdsAll_append _ _ _ _).mpr ⟨hleft, hright⟩⟩
  · omega
  rw [hlen]
  apply normalizeSplitSizes_length
  rw [length_eraseIdx, if_pos (by rw [hsplit.2]; omega), hsplit.2]
  omega

/-- **Beside other children just the panel goes.** -/
theorem closed_panels {frs : Place} (h : HoldsAround (fun _ => True) SplitOk (fr :: frs))
    (hcount : childCount fr ≠ 1) :
    collectPanels (normalizePaneTree ids 0 (plug (removeChild fr) frs)).1 =
      panelsBefore (fr :: frs) ++ panelsAfter (fr :: frs) := by
  obtain ⟨hsplit, hleft, hright, hrest⟩ := h
  have hok := removeChild_splitsOk hcount hsplit hleft hright
  rw [normalizePaneTree_plug ids hrest, (normalizePaneTree_same ids 0 _ hok).2, removeChild,
    collectPanels_node, panelsOf_append, panelsBefore_cons, panelsAfter_cons]
  simp only [append_assoc]

theorem no_siblings (hcount : childCount fr = 1) : fr.left = [] ∧ fr.right = [] := by
  unfold childCount at hcount
  exact ⟨length_eq_zero_iff.mp (by omega), length_eq_zero_iff.mp (by omega)⟩

/-- **In a shell a new panel takes its place.** -/
theorem closed_shell {frs : Place} (h : HoldsAround (fun _ => True) SplitOk (fr :: frs))
    (hcount : childCount fr = 1) :
    collectPanels (normalizePaneTree ids 0 (plug (removeChild fr) frs)).1 =
      panelsBefore (fr :: frs) ++ (createPanel ids 0 none :: panelsAfter (fr :: frs)) := by
  obtain ⟨-, -, -, hrest⟩ := h
  obtain ⟨hleft, hright⟩ := no_siblings hcount
  have hempty : (normalizePaneTree ids 0 (removeChild fr)).1 = .leaf (createPanel ids 0 none) := by
    rw [removeChild, hleft, hright, append_nil, normalizePaneTree, normalizeChildren]
    rfl
  rw [normalizePaneTree_plug ids hrest, hempty, collectPanels_leaf, panelsBefore_cons,
    panelsAfter_cons, hleft, hright]
  simp [panelsOf, collectAll_nil]

theorem panels_without {p : Panel} {place : Place} (hnodup : (nodeIds (plug (.leaf p) place)).Nodup) :
    ((collectPanels (plug (.leaf p) place)).filter fun q => q.id ≠ p.id) =
      panelsBefore place ++ panelsAfter place := by
  rw [nodeIds, collect_plug, collect_leaf, singleton_append, perm_middle.nodup_iff,
    nodup_cons, mem_append, not_or] at hnodup
  have hbefore : (panelsBefore place).filter (fun q => q.id ≠ p.id) = panelsBefore place := by
    apply filter_eq_self.mpr
    intro q hq
    apply decide_eq_true
    intro hid
    exact hnodup.1.1 (hid ▸ mem_before_of_leaf (f := fun p : Panel => [p.id]) mem_cons_self hq)
  have hafter : (panelsAfter place).filter (fun q => q.id ≠ p.id) = panelsAfter place := by
    apply filter_eq_self.mpr
    intro q hq
    apply decide_eq_true
    intro hid
    exact hnodup.1.2 (hid ▸ mem_after_of_leaf (f := fun p : Panel => [p.id]) mem_cons_self hq)
  rw [collectPanels_plug, collectPanels_leaf, filter_append, hbefore, singleton_append,
    filter_cons, if_neg (by simp), hafter]

theorem shell_of_alone {frs : Place} (h : HoldsAround (fun _ => True) SplitOk (fr :: frs))
    (hnil : panelsBefore (fr :: frs) = [] ∧ panelsAfter (fr :: frs) = []) : childCount fr = 1 := by
  obtain ⟨-, hleft, hright, -⟩ := h
  rw [panelsBefore_cons, panelsAfter_cons, append_eq_nil_iff, append_eq_nil_iff] at hnil
  have hempty : ∀ ts : List PaneNode, HoldsAll (fun _ => True) SplitOk ts → panelsOf ts = [] →
      ts = [] := by
    intro ts hts hpanels
    by_contra hne
    exact leavesAll_ne_nil (fun s hs => absurd hs.1 (Nat.lt_irrefl 0)) hne hts hpanels
  rw [childCount, hempty fr.left hleft hnil.1.2, hempty fr.right hright hnil.2.1]
  rfl

/-- the panels are those there were without the closed one, a fresh one for the last -/
structure ClosesExactly (root : PaneNode) (p : Panel) (tab : Tab) : Prop where
  others : 2 ≤ (collectPanels root).length →
    collectPanels (closeTabInTree ids root p.id tab.id true) =
      (collectPanels root).filter fun q => q.id ≠ p.id
  last : (collectPanels root).length = 1 →
    collectPanels (closeTabInTree ids root p.id tab.id true) = [createPanel ids 0 none]

/-- **Just the panel goes iff it is not the only child of its split, or is the only panel.** -/
theorem closesExactly_iff {root : PaneNode} (h : TreeOk root) {p : Panel}
    (hp : p ∈ collectPanels root) {tab : Tab} (htabs : p.tabs = [tab]) :
    ClosesExactly ids root p tab ↔ (2 ≤ (collectPanels root).length → ¬ OnlyChild root p.id) := by
  obtain ⟨place, hloc, rfl⟩ := locatePane_panel h.node_ids hp
  have hclosed := closeTabInTree_last ids hloc htabs
  have hlen : (collectPanels (plug (.leaf p) place)).length =
      (panelsBefore place).length + (panelsAfter place).length + 1 := by
    rw [collectPanels_plug, collectPanels_leaf]
    simp
    omega
  have haround := ((holds_plug _ _ _ _).mp h.splits).2
  have hwithout := panels_without h.node_ids
  cases place with
  | nil =>
    have hone : (collectPanels (plug (.leaf p) [])).length = 1 := hlen
    constructor
    · intro _ htwo
      omega
    intro _
    refine ⟨fun htwo => by omega, fun _ => ?_⟩
    rw [hclosed]
    exact collectPanels_leaf _
  | cons fr frs =>
    have honly : OnlyChild (plug (.leaf p) (fr :: frs)) p.id ↔ childCount fr = 1 := by
      constructor
      · rintro ⟨n, fr', frs', hloc', hcount⟩
        rw [hloc] at hloc'
        cases hloc'
        exact hcount
      · intro hcount
        exact ⟨_, fr, frs, hloc, hcount⟩
    rw [honly]
    rw [withoutPanel] at hclosed
    constructor
    · intro hexact htwo hcount
      have hothers := hexact.others htwo
      rw [hclosed, closed_shell ids haround hcount, hwithout] at hothers
      have hcontra := congrArg length hothers
      rw [length_append, length_append, length_cons] at hcontra
      omega
    intro hcount
    refine ⟨fun htwo => ?_, fun hone => ?_⟩
    · rw [hclosed, closed_panels ids haround (hcount htwo), hwithout]
    -- the only panel sits in a chain of shells
    have hnil : panelsBefore (fr :: frs) = [] ∧ panelsAfter (fr :: frs) = [] :=
      ⟨length_eq_zero_iff.mp (by omega), length_eq_zero_iff.mp (by omega)⟩
    have hshell : childCount fr = 1 := shell_of_alone haround hnil
    rw [hclosed, closed_shell ids haround hshell, hnil.1, hnil.2]
    rfl

end

/-! ## a shell -/

def leftPanel : Panel := createPanel (letters 'a') 0 none

def rightPanel : Panel := createPanel (letters 'b') 0 none

def rightTab : Tab := placeholderTab (letters 'b' 1)

def pairTree : PaneNode :=
  .node ⟨"s", .horizontal, [50, 50]⟩ [.leaf leftPanel, .leaf rightPanel]

def shellTree : PaneNode :=
  .node ⟨"s", .horizontal, [50, 50]⟩
    [.leaf leftPanel, .node ⟨"t", .vertical, [100]⟩ [.leaf rightPanel]]

theorem pairTree_panels : collectPanels pairTree = [leftPanel, rightPanel] := by
  simp [pairTree, collectPanels_node, panelsOf_cons, collectPanels_leaf, panelsOf, collectAll_nil]

theorem shellTree_panels : collectPanels shellTree = [leftPanel, rightPanel] := by
  simp [shellTree, collectPanels_node, panelsOf_cons, collectPanels_leaf, panelsOf, collectAll_nil]

theorem panels_shown {root : PaneNode} (h : collectPanels root = [leftPanel, rightPanel]) :
    ∀ p ∈ collectPanels root, PanelOk p := by
  intro p hp
  rw [h] at hp
  obtain rfl | hp := mem_cons.mp hp
  · exact createPanel_ok _ _ _
  · obtain rfl := mem_singleton.mp hp
    exact createPanel_ok _ _ _

theorem pairTree_ok : TreeOk pairTree where
  splits := by
    simp [pairTree, SplitsOk, holds_node, holdsAll_cons, holdsAll_nil, holds_leaf, SplitOk]
  node_ids := by
    simp [pairTree, nodeIds, collect_node, collectAll_cons, collectAll_nil, collect_leaf]
    decide
  tab_ids := by
    simp [pairTree, tabIds, collect_node, collectAll_cons, collectAll_nil, collect_leaf]
    decide
  shown := panels_shown pairTree_panels

theorem shellTree_ok : TreeOk shellTree where
  splits := by
    simp [shellTree, SplitsOk, holds_node, holdsAll_cons, holdsAll_nil, holds_leaf, SplitOk]
  node_ids := by
    simp [shellTree, nodeIds, collect_node, collectAll_cons, collectAll_nil, collect_leaf]
    decide
  tab_ids := by
    simp [shellTree, tabIds, collect_node, collectAll_cons, collectAll_nil, collect_leaf]
    decide
  shown := panels_shown shellTree_panels

theorem shellTree_place : locatePane shellTree rightPanel.id =
    some (.leaf rightPanel,
      [⟨⟨"t", .vertical, [100]⟩, [], []⟩, ⟨⟨"s", .horizontal, [50, 50]⟩, [.leaf leftPanel], []⟩]) := by
  rfl

theorem pairTree_closes : ClosesExactly (letters 'c') pairTree rightPanel rightTab := by
  apply (closesExactly_iff (letters 'c') pairTree_ok ?_ rfl).mpr
  · rintro - ⟨n, fr, frs, hloc, hcount⟩
    cases hloc
    cases hcount
  · rw [pairTree_panels]
    exact mem_cons_of_mem _ mem_cons_self

theorem shellTree_placeholder : ¬ ∀ (ids : Nat → String) (root : PaneNode) (p : Panel) (tab : Tab),
    TreeOk root → p ∈ collectPanels root → p.tabs = [tab] → ClosesExactly ids root p tab := by
  intro h
  have hmem : rightPanel ∈ collectPanels shellTree := by
    exact mem_cons_of_mem _ mem_cons_self
  have hothers := (h (letters 'c') shellTree rightPanel rightTab shellTree_ok hmem rfl).others
    (by rw [shellTree_panels]; exact Nat.le_refl 2)
  have hplug := (locatePane_spec shellTree_place).1
  have haround := ((holds_plug _ _ _ _).mp (hplug ▸ shellTree_ok.splits)).2
  have htabs : rightPanel.tabs = [rightTab] := rfl
  rw [closeTabInTree_last (letters 'c') shellTree_place htabs, withoutPanel,
    closed_shell (letters 'c') haround rfl, shellTree_panels] at hothers
  cases congrArg length hothers

end CcPanes.Panes

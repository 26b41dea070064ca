import CcPanes.Panes.TabRemoval

/-!
# The terminals of a tab

`splitTerminalPane` of `stores/panes/terminalLeafActions.ts` and `closeTerminalLeafInTab` of
`lib/paneTree.ts` change the tree of terminals in a tab, and `restoreClosedTabSplitTree` of
`stores/closedTabsUndo.ts` puts back the tree of a tab that was closed.  A closed terminal is taken
out of its split and nothing else happens to the tree, so a split with one child is left empty.
-/

namespace CcPanes.Panes
open RoseTree Run Option

variable {root : TerminalPaneNode} {t : TerminalTab}

abbrev TerminalPlace : Type := List (Frame TerminalPaneLeaf TerminalPaneSplit)

/-- the terminal pane of this id and its place; `findTerminalPane` and `findTerminalPaneParent`
search the tree in this order -/
def locateTerminalPane (root : TerminalPaneNode) (paneId : String) :
    Option (TerminalPaneNode × TerminalPlace) :=
  locate (fun n => terminalPaneId n == paneId) root

def fallbackLeaf (draw : String) (t : TerminalTab) : TerminalPaneLeaf where
  id := terminalPaneIdOf draw
  launchId := some (launchIdOf draw)
  restoreMode := some (resolveRestoreMode (inferCliTool t.identity.cliTool
      [t.identity.launchClaude, (truthy t.identity.resumeId).isSome]) t.identity.resumeId false)
  sessionId := t.sessionId
  savedSessionId := t.savedSessionId
  restoring := t.restoring
  disconnected := t.disconnected
  identity := t.identity
  restoreBlockedReason := t.restoreBlockedReason
  leaseReadOnly := t.leaseReadOnly
  launchExtras := none

def followLeaf (t : TerminalTab) (leaf : TerminalPaneLeaf) : TerminalTab :=
  { t with
    activeTerminalPaneId := some leaf.id
    sessionId := leaf.sessionId
    identity := leaf.identity
    restoreBlockedReason := leaf.restoreBlockedReason
    leaseReadOnly := leaf.leaseReadOnly }

def syncTabTerminalState (draw : String) (t : TerminalTab) : TerminalTab :=
  let t :=
    match t.terminalRootPane with
    | some _ => t
    | none =>
      { t with
        terminalRootPane := some (.leaf (fallbackLeaf draw t))
        activeTerminalPaneId := some (fallbackLeaf draw t).id }
  match collectTerminalLeaves t.terminalRootPane with
  | [] => t
  | first :: rest =>
    followLeaf t (((truthy t.activeTerminalPaneId).bind fun id =>
      (first :: rest).find? fun leaf => leaf.id == id).getD first)

/-- the split of a frame without the child in the place -/
def removeTerminalChild (fr : Frame TerminalPaneLeaf TerminalPaneSplit) : TerminalPaneNode :=
  .node { fr.label with
      sizes := normalizeSplitSizes (fr.label.sizes.eraseIdx fr.left.length)
        (fr.left.length + fr.right.length) }
    (fr.left ++ fr.right)

def closedTab (draw : String) (t : TerminalTab) (fr : Frame TerminalPaneLeaf TerminalPaneSplit)
    (frs : TerminalPlace) : TerminalTab :=
  let root := plug (removeTerminalChild fr) frs
  let nextLeaves := leaves root
  let active := nextLeaves[min fr.left.length (nextLeaves.length - 1)]?
  syncTabTerminalState draw
    { t with
      terminalRootPane := some root
      activeTerminalPaneId := active.map TerminalPaneLeaf.id }

/-- `none` is the result `false` -/
def closeTerminalLeafInTab (draw : String) (t : TerminalTab) (paneId : String) :
    Option TerminalTab :=
  match t.terminalRootPane with
  | none => none
  | some root =>
    if (leaves root).length ≤ 1 then none
    else
      match locateTerminalPane root paneId with
      | some (_, fr :: frs) => some (closedTab draw t fr frs)
      | _ => none

/-- the tree with a new terminal beside the one in the place -/
def insertTerminal (splitId : String) (direction : Direction) (target newLeaf : TerminalPaneNode) :
    TerminalPlace → TerminalPaneNode
  | [] => .node ⟨splitId, direction, [50, 50]⟩ [target, newLeaf]
  | fr :: frs =>
    let count := fr.left.length + 1 + fr.right.length
    if count = 1 then
      plug (.node { fr.label with direction := direction, sizes := [50, 50] } [target, newLeaf]) frs
    else if fr.label.direction = direction then
      plug (.node { fr.label with sizes := evenSizes (count + 1) }
        (fr.left ++ target :: newLeaf :: fr.right)) frs
    else
      plug (.node ⟨splitId, direction, [50, 50]⟩ [target, newLeaf]) (fr :: frs)

def splitTerminalPane (ids : Nat → String) (t : TerminalTab) (paneId : String)
    (direction : Direction) : TerminalTab :=
  match t.terminalRootPane with
  | none => t
  | some root =>
    match locateTerminalPane root paneId with
    | some (.leaf target, place) =>
      let newLeaf := resetTerminalLeafForRelaunch (ids 0) target
      let root := insertTerminal (terminalSplitIdOf (ids 1)) direction (.leaf target)
        (.leaf newLeaf) place
      syncTabTerminalState (ids 2)
        { t with terminalRootPane := some root, activeTerminalPaneId := some newLeaf.id }
    | _ => t

mutual
/-- the leftmost terminal; `none` if a split on the way has no child -/
def firstLeafId : TerminalPaneNode → Option String
  | .leaf l => some l.id
  | .node _ children => firstChildLeafId children
def firstChildLeafId : List TerminalPaneNode → Option String
  | [] => none
  | t :: _ => firstLeafId t
end

/-- what is written to a tab -/
structure AppliedTree where
  tabId : String
  root : TerminalPaneNode
  activeLeafId : Option String

/-- the tree is written to the last tab of the panel -/
def restoreClosedTabSplitTree (ids : Nat → String) (pane : Option Panel)
    (terminalRootPane : Option TerminalPaneNode) : Option AppliedTree :=
  match terminalRootPane with
  | some (.node s children) =>
    (pane.bind fun pane => pane.tabs.getLast?).map fun tab =>
      let restored := (resetTerminalTreeForRelaunch ids 0 (.node s children)).1
      ⟨tab.id, restored, firstLeafId restored⟩
  | _ => none

def Filled : TerminalPaneNode → Prop := Holds (fun _ => True) fun _ n => 0 < n

def outline (root : TerminalPaneNode) : RoseTree LaunchIdentity (Direction × List Rat) :=
  map TerminalPaneLeaf.identity (fun s => (s.direction, s.sizes)) root

def FreshLeaves (ids : Nat → String) (root : TerminalPaneNode) : Prop :=
  ∃ ks : List Nat, ks.Nodup ∧
    (leaves root).map TerminalPaneLeaf.id = ks.map fun k => terminalPaneIdOf (ids k)

/-- the tree of a closed tab, put back: a tree of the same shape with new terminals, the first of
them active -/
structure PutBack (ids : Nat → String) (root : TerminalPaneNode) (a : AppliedTree) : Prop where
  outline_eq : outline a.root = outline root
  fresh : FreshLeaves ids a.root
  active : ∃ leaf, (leaves a.root).head? = some leaf ∧ a.activeLeafId = some leaf.id

/-- a single terminal is not in the snapshot; any other tree is put back -/
structure Restores (root : TerminalPaneNode) : Prop where
  single : ∀ leaf ids ids' pane, root = .leaf leaf →
    restoreClosedTabSplitTree ids' pane (snapshotTerminalTree ids (some root)) = none
  split : ∀ s children ids ids' pane tab, root = .node s children → pane.tabs.getLast? = some tab →
    ∃ a, restoreClosedTabSplitTree ids' (some pane) (snapshotTerminalTree ids (some root)) = some a ∧
      a.tabId = tab.id ∧ PutBack ids' root a

/-- what the operations should keep -/
structure TerminalsOk (t : TerminalTab) (root : TerminalPaneNode) : Prop where
  root_eq : t.terminalRootPane = some root
  filled : Filled root
  active : ∃ leaf ∈ leaves root, t.activeTerminalPaneId = some leaf.id
  restores : Restores root

/-! ## the undo of a closed tab -/

section
variable (ids : Nat → String)

mutual
theorem reset_outline (k : Nat) : ∀ t : TerminalPaneNode,
    outline (resetTerminalTreeForRelaunch ids k t).1 = outline t
  | .leaf l => by
    rfl
  | .node s ts => by
    rw [resetTerminalTreeForRelaunch, outline, outline, map, map]
    exact congrArg _ (resets_outline (k + 1) ts)
theorem resets_outline (k : Nat) : ∀ ts : List TerminalPaneNode,
    mapAll TerminalPaneLeaf.identity (fun s => (s.direction, s.sizes))
        (resetTerminalTreesForRelaunch ids k ts).1 =
      mapAll TerminalPaneLeaf.identity (fun s => (s.direction, s.sizes)) ts
  | [] => by rw [resetTerminalTreesForRelaunch]
  | t :: ts => by
    rw [resetTerminalTreesForRelaunch, mapAll, mapAll]
    exact congr (congrArg _ (reset_outline k t)) (resets_outline _ ts)
end

theorem resets_length (k : Nat) (ts : List TerminalPaneNode) :
    (resetTerminalTreesForRelaunch ids k ts).1.length = ts.length := by
  induction ts generalizing k with
  | nil => rw [resetTerminalTreesForRelaunch]
  | cons t ts ih => rw [resetTerminalTreesForRelaunch, List.length_cons, List.length_cons, ih]

mutual
theorem reset_filled (k : Nat) : ∀ t : TerminalPaneNode, Filled t →
    Filled (resetTerminalTreeForRelaunch ids k t).1
  | .leaf l, _ => by
    exact (holds_leaf _ _ _).mpr trivial
  | .node s ts, h => by
    obtain ⟨hpos, hts⟩ := (holds_node _ _ _ _).mp h
    refine (holds_node _ _ _ _).mpr ⟨?_, resets_filled (k + 1) ts hts⟩
    rw [resets_length]
    exact hpos
theorem resets_filled (k : Nat) : ∀ ts : List TerminalPaneNode,
    HoldsAll (fun _ => True) (fun _ n => 0 < n) ts →
      HoldsAll (fun _ => True) (fun _ n => 0 < n) (resetTerminalTreesForRelaunch ids k ts).1
  | [], _ => by
    exact holdsAll_nil _ _
  | t :: ts, h => by
    obtain ⟨ht, hts⟩ := (holdsAll_cons _ _ _ _).mp h
    exact (holdsAll_cons _ _ _ _).mpr ⟨reset_filled k t ht, resets_filled _ ts hts⟩
end

/-- the terminals have ids drawn from `k` on and before `k'`, one after the other -/
def Drawn (k k' : Nat) (leafIds : List String) : Prop :=
  k ≤ k' ∧ ∃ ks : List Nat, ks.Pairwise (· < ·) ∧ (∀ j ∈ ks, k ≤ j ∧ j < k') ∧
    leafIds = ks.map fun j => terminalPaneIdOf (ids j)

variable {ids}

theorem Drawn.append {k k' k'' : Nat} {a b : List String} (ha : Drawn ids k k' a)
    (hb : Drawn ids k' k'' b) : Drawn ids k k'' (a ++ b) := by
  obtain ⟨hk, ks, hsorted, hrange, rfl⟩ := ha
  obtain ⟨hk', ks', hsorted', hrange', rfl⟩ := hb
  refine ⟨hk.trans hk', ks ++ ks', ?_, ?_, (List.map_append).symm⟩
  · rw [List.pairwise_append]
    refine ⟨hsorted, hsorted', ?_⟩
    intro i hi j hj
    exact Nat.lt_of_lt_of_le (hrange i hi).2 (hrange' j hj).1
  intro j hj
  obtain hj | hj := List.mem_append.mp hj
  · have := hrange j hj
    omega
  · have := hrange' j hj
    omega

theorem Drawn.later {k k' : Nat} {a : List String} (h : Drawn ids (k + 1) k' a) :
    Drawn ids k k' a := by
  obtain ⟨hk, ks, hsorted, hrange, ha⟩ := h
  refine ⟨by omega, ks, hsorted, ?_, ha⟩
  intro j hj
  have := hrange j hj
  omega

variable (ids)

mutual
theorem reset_drawn (k : Nat) : ∀ t : TerminalPaneNode,
    Drawn ids k (resetTerminalTreeForRelaunch ids k t).2
      ((leaves (resetTerminalTreeForRelaunch ids k t).1).map TerminalPaneLeaf.id)
  | .leaf l => by
    refine ⟨Nat.le_succ k, [k], List.pairwise_singleton _ k, ?_, rfl⟩
    intro j hj
    obtain rfl := List.mem_singleton.mp hj
    exact ⟨Nat.le_refl j, Nat.lt_succ_self j⟩
  | .node s ts => by
    exact (resets_drawn (k + 1) ts).later
theorem resets_drawn (k : Nat) : ∀ ts : List TerminalPaneNode,
    Drawn ids k (resetTerminalTreesForRelaunch ids k ts).2
      ((collectAll (fun l => [l]) (fun _ => []) (resetTerminalTreesForRelaunch ids k ts).1).map
        TerminalPaneLeaf.id)
  | [] => by
    exact ⟨Nat.le_refl k, [], List.Pairwise.nil, nofun, rfl⟩
  | t :: ts => by
    rw [resetTerminalTreesForRelaunch, collectAll_cons, List.map_append]
    exact (reset_drawn k t).append (resets_drawn _ ts)
end

theorem reset_fresh (k : Nat) (t : TerminalPaneNode) :
    FreshLeaves ids (resetTerminalTreeForRelaunch ids k t).1 := by
  obtain ⟨-, ks, hsorted, -, hids⟩ := reset_drawn ids k t
  exact ⟨ks, hsorted.imp Nat.ne_of_lt, hids⟩

mutual
theorem firstLeafId_eq : ∀ t : TerminalPaneNode, Filled t →
    ∃ leaf, (leaves t).head? = some leaf ∧ firstLeafId t = some leaf.id
  | .leaf l, _ => by
    exact ⟨l, rfl, rfl⟩
  | .node s ts, h => by
    obtain ⟨hpos, hts⟩ := (holds_node _ _ _ _).mp h
    exact firstChildLeafId_eq ts hpos hts
theorem firstChildLeafId_eq : ∀ ts : List TerminalPaneNode, 0 < ts.length →
    HoldsAll (fun _ => True) (fun _ n => 0 < n) ts →
      ∃ leaf, (collectAll (fun l => [l]) (fun _ => []) ts).head? = some leaf ∧
        firstChildLeafId ts = some leaf.id
  | [], h, _ => absurd h (Nat.lt_irrefl 0)
  | t :: ts, _, h => by
    obtain ⟨leaf, hhead, hfirst⟩ := firstLeafId_eq t ((holdsAll_cons _ _ _ _).mp h).1
    rw [collectAll_cons, firstChildLeafId]
    refine ⟨leaf, ?_, hfirst⟩
    rw [List.head?_append]
    exact (congrArg (Option.or · _) hhead).trans rfl
end

/-- **A tree without empty splits is put back.** -/
theorem restores_of_filled {root : TerminalPaneNode} (h : Filled root) : Restores root where
  single := by
    rintro leaf ids ids' pane rfl
    rfl
  split := by
    rintro s children ids ids' pane tab rfl htab
    have hsnapshot : snapshotTerminalTree ids (some (.node s children)) =
        some (resetTerminalTreeForRelaunch ids 0 (.node s children)).1 := rfl
    have houtline := reset_outline ids 0 (.node s children)
    have hfilled := reset_filled ids 0 _ h
    obtain ⟨s', children', hnode⟩ : ∃ s' children',
        (resetTerminalTreeForRelaunch ids 0 (.node s children)).1 = .node s' children' :=
      ⟨_, _, by rw [resetTerminalTreeForRelaunch]⟩
    rw [hnode] at hsnapshot houtline hfilled
    rw [hsnapshot]
    refine ⟨⟨tab.id, (resetTerminalTreeForRelaunch ids' 0 (.node s' children')).1,
      firstLeafId (resetTerminalTreeForRelaunch ids' 0 (.node s' children')).1⟩, ?_, rfl, ?_⟩
    · unfold restoreClosedTabSplitTree
      dsimp only
      rw [bind_some, htab]
      rfl
    · exact ⟨(reset_outline ids' 0 _).trans houtline, reset_fresh ids' 0 _,
        firstLeafId_eq _ (reset_filled ids' 0 _ hfilled)⟩

end

/-! ## the operations -/

theorem leaves_of_filled (h : Filled root) : leaves root ≠ [] :=
  leaves_ne_nil (fun _ => Nat.lt_irrefl 0) h

theorem sync_ok (draw : String) (hroot : t.terminalRootPane = some root) (h : Filled root) :
    TerminalsOk (syncTabTerminalState draw t) root := by
  obtain ⟨first, rest, hleaves⟩ := List.exists_cons_of_ne_nil (leaves_of_filled h)
  have hcollect : collectTerminalLeaves t.terminalRootPane = first :: rest := by
    rw [hroot]
    exact hleaves
  have hsync : syncTabTerminalState draw t =
      followLeaf t (((truthy t.activeTerminalPaneId).bind fun id =>
        (first :: rest).find? fun leaf => leaf.id == id).getD first) := by
    unfold syncTabTerminalState
    rw [hroot]
    dsimp only
    rw [hcollect]
  rw [hsync]
  refine ⟨hroot, h, ⟨_, ?_, rfl⟩, restores_of_filled h⟩
  rw [hleaves]
  cases hfound : (truthy t.activeTerminalPaneId).bind fun id =>
      (first :: rest).find? fun leaf => leaf.id == id with
  | none => exact List.mem_cons_self
  | some leaf =>
    obtain ⟨id, -, hfind⟩ := bind_eq_some_iff.mp hfound
    exact List.mem_of_find?_eq_some hfind

theorem sync_root (draw : String) (hroot : t.terminalRootPane = some root) :
    (syncTabTerminalState draw t).terminalRootPane = some root := by
  unfold syncTabTerminalState
  rw [hroot]
  dsimp only
  split
  · exact hroot
  · exact hroot

theorem insertTerminal_filled (splitId : String) (direction : Direction)
    {target newLeaf : TerminalPaneLeaf} {place : TerminalPlace}
    (h : Filled (plug (.leaf target) place)) :
    Filled (insertTerminal splitId direction (.leaf target) (.leaf newLeaf) place) := by
  have hpair : ∀ s : TerminalPaneSplit, Filled (.node s [.leaf target, .leaf newLeaf]) := by
    intro s
    simp [Filled, holds_node, holdsAll_cons, holdsAll_nil, holds_leaf]
  cases place with
  | nil => exact hpair _
  | cons fr frs =>
    have haround := ((holds_plug _ _ _ _).mp h).2
    obtain ⟨-, hleft, hright, hrest⟩ := haround
    unfold insertTerminal
    dsimp only
    split
    · exact (holds_plug _ _ _ _).mpr ⟨hpair _, hrest⟩
    split
    · refine (holds_plug _ _ _ _).mpr ⟨(holds_node _ _ _ _).mpr ⟨?_, ?_⟩, hrest⟩
      · rw [List.length_append, List.length_cons]
        omega
      · refine (holdsAll_append _ _ _ _).mpr ⟨hleft, ?_⟩
        exact ⟨(holds_leaf _ _ _).mpr trivial, (holds_leaf _ _ _).mpr trivial, hright⟩
    · exact (holds_plug _ _ _ _).mpr ⟨hpair _, ((holds_plug _ _ _ _).mp h).2⟩

theorem splitTerminalPane_ok (h : TerminalsOk t root) (ids : Nat → String) (paneId : String)
    (direction : Direction) :
    ∃ root', TerminalsOk (splitTerminalPane ids t paneId direction) root' := by
  unfold splitTerminalPane
  rw [h.root_eq]
  dsimp only
  split
  · next target place hloc =>
    obtain ⟨hplug, -⟩ := plug_locate hloc
    have hfilled : Filled (plug (.leaf target) place) := hplug ▸ h.filled
    exact ⟨_, sync_ok (ids 2) rfl (insertTerminal_filled _ _ hfilled)⟩
  · exact ⟨root, h⟩

/-- the close takes the only child of a split, and other terminals stay -/
def TakesOnlyChild (t : TerminalTab) (paneId : String) : Prop :=
  ∃ root n fr frs, t.terminalRootPane = some root ∧ 1 < (leaves root).length ∧
    locateTerminalPane root paneId = some (n, fr :: frs) ∧ fr.left.length + fr.right.length = 0

theorem removeTerminalChild_filled {n : TerminalPaneNode}
    {fr : Frame TerminalPaneLeaf TerminalPaneSplit} {frs : TerminalPlace}
    (h : Filled (plug n (fr :: frs))) : Filled (plug (removeTerminalChild fr) frs) ↔
      fr.left.length + fr.right.length ≠ 0 := by
  obtain ⟨-, hleft, hright, hrest⟩ := ((holds_plug _ _ _ _).mp h).2
  have hlen : (fr.left ++ fr.right).length = fr.left.length + fr.right.length := List.length_append
  constructor
  · intro hfilled
    have hpos := ((holds_node _ _ _ _).mp ((holds_plug _ _ _ _).mp hfilled).1).1
    omega
  intro hne
  refine (holds_plug _ _ _ _).mpr ⟨(holds_node _ _ _ _).mpr ⟨?_, ?_⟩, hrest⟩
  · omega
  · exact (holdsAll_append _ _ _ _).mpr ⟨hleft, hright⟩

theorem closeTerminalLeafInTab_cases (hroot : t.terminalRootPane = some root)
    (draw paneId : String) :
    (∃ n fr frs, 1 < (leaves root).length ∧ locateTerminalPane root paneId = some (n, fr :: frs) ∧
        closeTerminalLeafInTab draw t paneId = some (closedTab draw t fr frs)) ∨
      (¬ TakesOnlyChild t paneId ∧ closeTerminalLeafInTab draw t paneId = none) := by
  unfold closeTerminalLeafInTab
  rw [hroot]
  dsimp only
  by_cases hone : (leaves root).length ≤ 1
  · right
    rw [if_pos hone]
    refine ⟨?_, rfl⟩
    rintro ⟨root', n, fr, frs, hroot', hmany, -⟩
    rw [hroot] at hroot'
    cases hroot'
    omega
  rw [if_neg hone]
  have hother : ∀ loc, locateTerminalPane root paneId = loc →
      (∀ n fr frs, loc ≠ some (n, fr :: frs)) → ¬ TakesOnlyChild t paneId := by
    rintro loc hloc hne ⟨root', n, fr, frs, hroot', -, hloc', -⟩
    rw [hroot] at hroot'
    cases hroot'
    exact hne n fr frs (hloc.symm.trans hloc')
  cases hloc : locateTerminalPane root paneId with
  | none => exact .inr ⟨hother none hloc nofun, rfl⟩
  | some l =>
    obtain ⟨n, place⟩ := l
    cases place with
    | nil => exact .inr ⟨hother _ hloc nofun, rfl⟩
    | cons fr frs => exact .inl ⟨n, fr, frs, Nat.lt_of_not_le hone, rfl, rfl⟩

/-- **A close is in order iff it does not take an only child.** -/
theorem closeTerminalLeafInTab_ok (h : TerminalsOk t root) (draw paneId : String) :
    (∃ root', TerminalsOk ((closeTerminalLeafInTab draw t paneId).getD t) root') ↔
      ¬ TakesOnlyChild t paneId := by
  obtain ⟨n, fr, frs, hmany, hloc, hclose⟩ | ⟨hkeeps, hclose⟩ :=
    closeTerminalLeafInTab_cases h.root_eq draw paneId
  · obtain ⟨hplug, -⟩ := plug_locate hloc
    have hfilled := removeTerminalChild_filled (hplug ▸ h.filled)
    rw [hclose, getD_some]
    constructor
    · rintro ⟨root', hok⟩ ⟨root'', n', fr', frs', hroot, -, hloc', hcount⟩
      rw [h.root_eq] at hroot
      cases hroot
      rw [hloc] at hloc'
      cases hloc'
      have hroot' : (closedTab draw t fr frs).terminalRootPane =
          some (plug (removeTerminalChild fr) frs) := sync_root draw rfl
      rw [hok.root_eq] at hroot'
      cases hroot'
      exact hfilled.mp hok.filled hcount
    · intro hkeeps
      refine ⟨plug (removeTerminalChild fr) frs, ?_⟩
      unfold closedTab
      apply sync_ok draw rfl
      apply hfilled.mpr
      intro hcount
      exact hkeeps ⟨root, n, fr, frs, h.root_eq, hmany, hloc, hcount⟩
  · rw [hclose, getD_none]
    exact ⟨fun _ => hkeeps, fun _ => ⟨root, h⟩⟩

/-! ## runs -/

inductive TerminalAct where
  | split (ids : Nat → String) (paneId : String) (direction : Direction)
  | close (ids : Nat → String) (paneId : String)

def terminalAct (t : TerminalTab) : TerminalAct → TerminalTab
  | .split ids paneId direction => splitTerminalPane ids t paneId direction
  | .close ids paneId => (closeTerminalLeafInTab (ids 0) t paneId).getD t

def KeepsFilled (t : TerminalTab) : TerminalAct → Prop
  | .split _ _ _ => True
  | .close _ paneId => ¬ TakesOnlyChild t paneId

def TabOk (t : TerminalTab) : Prop := ∃ root, TerminalsOk t root

theorem ofLeaf_ok (leaf : TerminalPaneLeaf) : TabOk (.ofLeaf leaf) := by
  have hfilled : Filled (.leaf leaf) := (holds_leaf _ _ _).mpr trivial
  refine ⟨.leaf leaf, rfl, hfilled, ⟨leaf, ?_, rfl⟩, restores_of_filled hfilled⟩
  exact List.mem_cons_self

theorem terminalAct_iff (h : TabOk t) (a : TerminalAct) :
    TabOk (terminalAct t a) ↔ KeepsFilled t a := by
  obtain ⟨root, h⟩ := h
  cases a with
  | split ids paneId direction =>
    exact ⟨fun _ => trivial, fun _ => splitTerminalPane_ok h ids paneId direction⟩
  | close ids paneId => exact closeTerminalLeafInTab_ok h (ids 0) paneId

/-- **A run keeps the tab as it should be iff no close takes the only child of a split.** -/
theorem terminalRun_iff (leaf : TerminalPaneLeaf) (acts : List TerminalAct) :
    Along terminalAct TabOk (.ofLeaf leaf) acts ↔
      StepsOk terminalAct KeepsFilled (.ofLeaf leaf) acts :=
  along_iff_stepsOk (I := fun _ => True) (Q := TabOk) (fun _ _ _ => trivial)
    (fun _ a _ h => terminalAct_iff h a) trivial (ofLeaf_ok leaf) acts

def twoCloses : List TerminalAct :=
  [.split (letters 'b') "terminal-pane-a" .horizontal,
    .split (letters 'c') "terminal-pane-a" .vertical, .close (letters 'd') "terminal-pane-a",
    .close (letters 'e') "terminal-pane-c"]

theorem twoCloses_empty : ¬ ∀ (leaf : TerminalPaneLeaf) (acts : List TerminalAct),
    Along terminalAct TabOk (.ofLeaf leaf) acts := by
  intro h
  have hrun := h (freshLeaf "a" ⟨none, none, false⟩ .shell) twoCloses
  have hbefore := hrun.2.2.2.1
  refine (terminalAct_iff hbefore _).mp hrun.2.2.2.2 ?_
  exact ⟨_, _, _, _, rfl, by decide, rfl, rfl⟩

end CcPanes.Panes

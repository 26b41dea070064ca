import CcPanes.Panes.PanelList
import Mathlib.Data.List.Induction

/-!
# Layout presets

`stores/panes/layoutPresets.ts` and `applyLayoutPreset`: the tabs are dealt to the slots of a preset,
and the tree is recognised by its shape.
-/

namespace CcPanes.Panes
open RoseTree List

/-! ## shapes -/

def unwrapShell : PaneNode → PaneNode
  | .node _ [child] => unwrapShell child
  | current => current

/-- two of these, side by side or above one another -/
def isPairOfPanels (direction : Direction) : PaneNode → Bool
  | .leaf _ => false
  | .node s children =>
    s.direction = direction && children.length = 2 && (children.map unwrapShell).all isPanel

def matchLayoutPreset (root : PaneNode) : Option LayoutPresetId :=
  match unwrapShell root with
  | .leaf _ => some .single
  | .node s nodes =>
    let children := nodes.map unwrapShell
    let allPanels := children.all isPanel
    if s.direction = .horizontal then
      if children.length = 2 ∧ allPanels then some .twoCol
      else if children.length = 3 ∧ allPanels then some .threeCol
      else
        match children with
        | [first, second] =>
          if isPanel first ∧ isPairOfPanels .vertical second then some .mainSide else none
        | _ => none
    else if children.length = 2 ∧ allPanels then some .twoRow
    else if children.length = 2 ∧ children.all (isPairOfPanels .horizontal) then some .grid2x2
    else none

def inShells (shells : List SplitPane) (root : PaneNode) : PaneNode :=
  shells.foldr (fun s t => .node s [t]) root

theorem unwrapShell_leaf (p : Panel) : unwrapShell (.leaf p) = .leaf p := by
  rfl

theorem unwrapShell_shell (s : SplitPane) (t : PaneNode) :
    unwrapShell (.node s [t]) = unwrapShell t := by
  rw [unwrapShell]

theorem unwrapShell_split (s : SplitPane) (t u : PaneNode) (ts : List PaneNode) :
    unwrapShell (.node s (t :: u :: ts)) = .node s (t :: u :: ts) := by
  rw [unwrapShell]
  rintro s' t' h
  cases h

theorem matchLayoutPreset_shells (shells : List SplitPane) (root : PaneNode) :
    matchLayoutPreset (inShells shells root) = matchLayoutPreset root := by
  have hunwrap : unwrapShell (inShells shells root) = unwrapShell root := by
    induction shells with
    | nil => rfl
    | cons s shells ih => exact (unwrapShell_shell s _).trans ih
  unfold matchLayoutPreset
  rw [hunwrap]

/-- **The tree of a preset is recognised as that preset.** -/
theorem match_buildPresetTree (ids : Nat → String) (k : Nat) (preset : LayoutPresetId)
    (slots : Nat → Panel) (rootSplitId : Option String) :
    matchLayoutPreset (buildPresetTree ids k preset slots rootSplitId) = some preset := by
  cases preset <;> cases rootSplitId <;>
    simp [buildPresetTree, createSplit, matchLayoutPreset, unwrapShell_leaf, unwrapShell_shell,
      unwrapShell_split, isPanel, isPairOfPanels]

section
variable {n : Nat} {allTabs : List Tab}

def slotShare (n : Nat) (allTabs : List Tab) (i : Nat) : List Tab :=
  if i < n - 1 then (allTabs[i]?).toList else allTabs.drop (n - 1)

theorem slotTabs_append (n : Nat) (allTabs : List Tab) (tab : Tab) :
    slotTabs n (allTabs ++ [tab]) =
      (slotTabs n allTabs).modify (min allTabs.length (n - 1)) (· ++ [tab]) := by
  unfold slotTabs
  rw [zipIdx_append, foldl_append]
  simp

theorem slotTabs_getD (hpos : 0 < n) (allTabs : List Tab) :
    ∀ i < n, (slotTabs n allTabs).getD i [] = slotShare n allTabs i := by
  induction allTabs using reverseRec with
  | nil =>
    intro i hi
    have hnil : slotShare n [] i = [] := by
      unfold slotShare
      split
      · rfl
      · exact drop_nil
    rw [hnil, slotTabs]
    simp [getD, hi]
  | append_singleton tabs tab ih =>
    intro i hi
    have hlt : i < (slotTabs n tabs).length := by
      rw [(slotTabs_spec hpos tabs).1]
      exact hi
    have hold := ih i hi
    rw [getD, getElem?_eq_getElem hlt, Option.getD_some] at hold
    rw [slotTabs_append, getD, getElem?_modify, getElem?_eq_getElem hlt]
    simp only [Option.map_eq_map, Option.map_some, Option.getD_some, hold]
    unfold slotShare
    by_cases hlast : i < n - 1
    · rw [if_pos hlast, if_pos hlast]
      rcases Nat.lt_trichotomy i tabs.length with h | rfl | h
      · rw [if_neg (by omega), getElem?_append_left h]
      · rw [if_pos (by omega), getElem?_eq_none (Nat.le_refl _), getElem?_concat_length]
        rfl
      · rw [if_neg (by omega), getElem?_eq_none (Nat.le_of_lt h),
          getElem?_eq_none (by rw [length_append]; exact h)]
    · rw [if_neg hlast, if_neg hlast]
      by_cases h : n - 1 ≤ tabs.length
      · rw [if_pos (by omega), drop_append_of_le_length h]
      · rw [if_neg (by omega), drop_eq_nil_of_le (by omega),
          drop_eq_nil_of_le (by rw [length_append, length_singleton]; omega)]

theorem take_of_shares (allTabs : List Tab) (k : Nat) :
    (List.range k).flatMap (fun i => (allTabs[i]?).toList) = allTabs.take k := by
  induction k with
  | zero => rfl
  | succ k ih =>
    rw [range_succ, flatMap_append, ih, flatMap_singleton, take_add_one]

theorem slots_flatMap (hpos : 0 < n) (allTabs : List Tab) :
    (List.range n).flatMap (slotShare n allTabs) = allTabs := by
  obtain ⟨k, rfl⟩ : ∃ k, n = k + 1 := ⟨n - 1, by omega⟩
  have hfirst : (range k).flatMap (slotShare (k + 1) allTabs) = allTabs.take k := by
    rw [← take_of_shares]
    refine flatMap_congr fun i hi => if_pos ?_
    exact mem_range.mp hi
  have hlast : slotShare (k + 1) allTabs k = allTabs.drop k := if_neg (Nat.lt_irrefl k)
  rw [range_succ, flatMap_append, flatMap_singleton, hfirst, hlast, take_append_drop]

end

/-! ## a preset applied -/

def presetPanel (ids : Nat → String) (h : Holder) (preset : LayoutPresetId) : Nat → Panel :=
  presetSlot ids (collectPanels h.rootPane)
    (slotTabs (layoutPresetSlots preset) (collectTabs h.rootPane))

section
variable {ids : Nat → String} {h : Holder} {preset : LayoutPresetId}

theorem applyLayoutPreset_panels : collectPanels (applyLayoutPreset ids h preset).rootPane =
    (List.range (layoutPresetSlots preset)).map (presetPanel ids h preset) :=
  buildPresetTree_panels ids _ preset _ _

theorem presetPanel_tabs {i : Nat} (hi : i < layoutPresetSlots preset) :
    (presetPanel ids h preset i).tabs =
      slotShare (layoutPresetSlots preset) (collectTabs h.rootPane) i :=
  slotTabs_getD (layoutPresetSlots_pos preset) _ i hi

/-- **The tabs stay in their order.** -/
theorem applyLayoutPreset_tabs :
    collectTabs (applyLayoutPreset ids h preset).rootPane = collectTabs h.rootPane := by
  rw [collectTabs, applyLayoutPreset_panels, flatMap_map]
  refine Eq.trans (flatMap_congr fun i hi => ?_)
    (slots_flatMap (layoutPresetSlots_pos preset) (collectTabs h.rootPane))
  exact presetPanel_tabs (mem_range.mp hi)

theorem presetPanel_get {i : Nat} (hi : i < layoutPresetSlots preset) :
    (collectPanels (applyLayoutPreset ids h preset).rootPane)[i]? =
      some (presetPanel ids h preset i) := by
  rw [applyLayoutPreset_panels, getElem?_map, getElem?_range hi]
  rfl

theorem presetSlot_again (ids : Nat → String) {panels : List Panel} {slots : List (List Tab)}
    {i : Nat} {p : Panel} (hp : panels[i]? = some p) (htabs : slots.getD i [] = p.tabs)
    (hok : PanelOk p) (hnil : p.tabs = [] → p.activeTabId = "") :
    presetSlot ids panels slots i = p := by
  have hactive : (presetSlot ids panels slots i).activeTabId = p.activeTabId := by
    unfold presetSlot
    dsimp only
    rw [hp, htabs]
    by_cases hempty : p.tabs = []
    · rw [hempty, hnil hempty]
      rfl
    obtain ⟨tab, htab, hid⟩ := hok hempty
    have hfind : (p.tabs.find? fun tab => (some p).any fun pane =>
        tab.id == pane.activeTabId).isSome := by
      rw [find?_isSome]
      exact ⟨tab, htab, by simpa using hid⟩
    obtain ⟨found, hfound⟩ := Option.isSome_iff_exists.mp hfind
    rw [hfound]
    simpa using find?_some hfound
  have hid : (presetSlot ids panels slots i).id = p.id := by
    unfold presetSlot
    rw [hp]
    rfl
  calc presetSlot ids panels slots i
      = ⟨(presetSlot ids panels slots i).id, slots.getD i [],
          (presetSlot ids panels slots i).activeTabId⟩ := rfl
    _ = p := by rw [hid, htabs, hactive]

/-- **The preset applied again changes nothing.** -/
theorem applyLayoutPreset_again (ids' : Nat → String) :
    collectPanels (applyLayoutPreset ids' (applyLayoutPreset ids h preset) preset).rootPane =
      collectPanels (applyLayoutPreset ids h preset).rootPane := by
  rw [applyLayoutPreset_panels, applyLayoutPreset_panels]
  refine map_congr_left fun i hi => ?_
  have hi' := mem_range.mp hi
  refine presetSlot_again ids' (presetPanel_get hi') ?_ (presetSlot_ok _ _ _ _) fun hnil => ?_
  · rw [applyLayoutPreset_tabs]
    rfl
  have htabs : (slotTabs (layoutPresetSlots preset) (collectTabs h.rootPane)).getD i [] = [] :=
    hnil
  unfold presetPanel presetSlot
  rw [htabs]
  rfl

end

/-! ## the tab that was shown -/

/-- the tab that the active panel shows; an empty id is none -/
structure WasShown (h : Holder) (p : Panel) (tab : Tab) : Prop where
  pane : findPane h.rootPane h.activePaneId = some (.leaf p)
  mem : tab ∈ p.tabs
  id : p.activeTabId = tab.id
  ne : tab.id ≠ ""

/-- what is expected of a preset -/
structure PresetApplied (ids : Nat → String) (h : Holder) (preset : LayoutPresetId) : Prop where
  tabs : collectTabs (applyLayoutPreset ids h preset).rootPane = collectTabs h.rootPane
  wellFormed : WellFormed (applyLayoutPreset ids h preset)
  recognised : ∀ shells,
    matchLayoutPreset (inShells shells (applyLayoutPreset ids h preset).rootPane) = some preset
  shown : ∀ p tab, WasShown h p tab → ∃ q, WasShown (applyLayoutPreset ids h preset) q tab
  again : ∀ ids',
    collectPanels (applyLayoutPreset ids' (applyLayoutPreset ids h preset) preset).rootPane =
      collectPanels (applyLayoutPreset ids h preset).rootPane

def FirstShown (panels : List Panel) (tabs : List Tab) (tab : Tab) : Prop :=
  ∃ before after, tabs = before ++ tab :: after ∧
    ∀ other ∈ before, ∀ p ∈ panels, other.id ≠ p.activeTabId

/-- among `n` slots, the tab gets one of its own, or the panel of the last slot shows it, or that
panel shows none of the tabs of the slot and this one is the first of them that a panel shows -/
def StaysShown (n : Nat) (panels : List Panel) (allTabs : List Tab) (tab : Tab) : Prop :=
  tab ∈ allTabs.take (n - 1) ∨
    (∃ q, panels[n - 1]? = some q ∧ q.activeTabId = tab.id) ∨
      (∀ q, panels[n - 1]? = some q → ∀ other ∈ allTabs.drop (n - 1), other.id ≠ q.activeTabId) ∧
        FirstShown panels (allTabs.drop (n - 1)) tab

def KeepsShown (h : Holder) (preset : LayoutPresetId) : Prop :=
  ∀ p tab, WasShown h p tab →
    StaysShown (layoutPresetSlots preset) (collectPanels h.rootPane) (collectTabs h.rootPane) tab

section
variable (ids : Nat → String) {panels : List Panel} {slots : List (List Tab)} {i : Nat} {tab : Tab}

theorem presetSlot_reused {q : Panel} (hq : panels[i]? = some q) {other : Tab}
    (hother : other ∈ slots.getD i []) (hid : other.id = q.activeTabId) :
    (presetSlot ids panels slots i).activeTabId = q.activeTabId := by
  have hfind : ((slots.getD i []).find? fun tab => (some q).any fun pane =>
      tab.id == pane.activeTabId).isSome := by
    rw [find?_isSome]
    exact ⟨other, hother, by simpa using hid⟩
  obtain ⟨found, hfound⟩ := Option.isSome_iff_exists.mp hfind
  unfold presetSlot
  dsimp only
  rw [hq, hfound]
  simpa using find?_some hfound

theorem presetSlot_first
    (hnone : ∀ q, panels[i]? = some q → ∀ other ∈ slots.getD i [], other.id ≠ q.activeTabId)
    (hdistinct : ((slots.getD i []).map Tab.id).Nodup) (htab : tab ∈ slots.getD i [])
    (hshown : ∃ p ∈ panels, tab.id = p.activeTabId) :
    (presetSlot ids panels slots i).activeTabId = tab.id ↔
      FirstShown panels (slots.getD i []) tab := by
  have hpanel : ((slots.getD i []).find? fun tab => (panels[i]?).any fun pane =>
      tab.id == pane.activeTabId) = none := by
    refine find?_eq_none.mpr fun other hother hany => ?_
    cases hq : panels[i]? with
    | none =>
      rw [hq] at hany
      cases hany
    | some q =>
      rw [hq] at hany
      exact hnone q hq other hother (by simpa using hany)
  have hcontains : ∀ t : Tab, (panels.map Panel.activeTabId).contains t.id = true ↔
      ∃ p ∈ panels, t.id = p.activeTabId := by
    intro t
    rw [contains_iff_mem, mem_map]
    exact ⟨fun ⟨p, hp, hid⟩ => ⟨p, hp, hid.symm⟩, fun ⟨p, hp, hid⟩ => ⟨p, hp, hid.symm⟩⟩
  have hfirst : ((slots.getD i []).find? fun t =>
      (panels.map Panel.activeTabId).contains t.id) = some tab ↔
        FirstShown panels (slots.getD i []) tab := by
    rw [find?_eq_some_iff_append]
    constructor
    · rintro ⟨-, before, after, heq, hbefore⟩
      refine ⟨before, after, heq, fun other hother p hp hid => ?_⟩
      have hnot := hbefore other hother
      rw [(hcontains other).mpr ⟨p, hp, hid⟩] at hnot
      cases hnot
    · rintro ⟨before, after, heq, hbefore⟩
      refine ⟨(hcontains tab).mpr hshown, before, after, heq, fun other hother => ?_⟩
      rw [Bool.not_eq_true', Bool.eq_false_iff]
      intro hany
      obtain ⟨p, hp, hid⟩ := (hcontains other).mp hany
      exact hbefore other hother p hp hid
  have hsome : ((slots.getD i []).find? fun t =>
      (panels.map Panel.activeTabId).contains t.id).isSome := by
    rw [find?_isSome]
    exact ⟨tab, htab, (hcontains tab).mpr hshown⟩
  obtain ⟨found, hfound⟩ := Option.isSome_iff_exists.mp hsome
  have hactive : (presetSlot ids panels slots i).activeTabId = found.id := by
    unfold presetSlot
    dsimp only
    rw [hpanel, hfound]
    rfl
  rw [hactive, ← hfirst, hfound]
  constructor
  · intro hid
    exact congrArg some
      (inj_on_of_nodup_map hdistinct (mem_of_find?_eq_some hfound) htab hid)
  · intro heq
    rw [Option.some.inj heq]

end

section
variable {ids : Nat → String} {h : Holder} {preset : LayoutPresetId} {p : Panel} {tab : Tab}

theorem focused (preset : LayoutPresetId) (hw : WellFormed h) (hids : NewIds ids h.rootPane)
    (ht : WasShown h p tab) :
    ∃ i < layoutPresetSlots preset,
      tab ∈ slotShare (layoutPresetSlots preset) (collectTabs h.rootPane) i ∧
      findPane (applyLayoutPreset ids h preset).rootPane
        (applyLayoutPreset ids h preset).activePaneId = some (.leaf (presetPanel ids h preset i)) := by
  have hprev : prevActiveTabId h = some tab.id := by
    unfold prevActiveTabId
    rw [ht.pane]
    dsimp only
    rw [ht.id, if_neg ht.ne]
  have hin : tab ∈ collectTabs h.rootPane :=
    mem_collectTabs.mpr ⟨p, ((findPane_iff hw.tree.node_ids).mp ht.pane).1, ht.mem⟩
  have hdealt := hin
  rw [← slots_flatMap (layoutPresetSlots_pos preset) (collectTabs h.rootPane)] at hdealt
  obtain ⟨j, hj, hmem⟩ := mem_flatMap.mp hdealt
  have hsome : (((range (layoutPresetSlots preset)).map (presetPanel ids h preset)).find?
      fun pane => pane.tabs.any (·.id == tab.id)).isSome := by
    rw [find?_isSome]
    refine ⟨presetPanel ids h preset j, mem_map_of_mem hj, any_eq_true.mpr ⟨tab, ?_, ?_⟩⟩
    · rw [presetPanel_tabs (mem_range.mp hj)]
      exact hmem
    · exact beq_self_eq_true _
  obtain ⟨pane, hpane⟩ := Option.isSome_iff_exists.mp hsome
  obtain ⟨i, hi, rfl⟩ := mem_map.mp (mem_of_find?_eq_some hpane)
  have hi' := mem_range.mp hi
  have hany := find?_some (p := fun pane : Panel => pane.tabs.any (·.id == tab.id)) hpane
  obtain ⟨found, hfound, hid⟩ := any_eq_true.mp hany
  rw [presetPanel_tabs hi'] at hfound
  have hfocus : (applyLayoutPreset ids h preset).activePaneId = (presetPanel ids h preset i).id := by
    show (Option.getD ((prevActiveTabId h).bind fun tabId =>
      ((range (layoutPresetSlots preset)).map (presetPanel ids h preset)).find? fun pane =>
        pane.tabs.any (·.id == tabId)) _).id = _
    rw [hprev, Option.bind_some, hpane]
    rfl
  refine ⟨i, hi', ?_, ?_⟩
  · have hin' : found ∈ collectTabs h.rootPane := by
      rw [← slots_flatMap (layoutPresetSlots_pos preset) (collectTabs h.rootPane)]
      exact mem_flatMap.mpr ⟨i, hi, hfound⟩
    rwa [hw.tree.tab_unique hin' hin (by simpa using hid)] at hfound
  rw [hfocus]
  refine (findPane_iff (applyLayoutPreset_wellFormed hw hids preset).tree.node_ids).mpr ⟨?_, rfl⟩
  rw [applyLayoutPreset_panels]
  exact mem_map_of_mem hi

theorem presetPanel_shows_iff (ids : Nat → String) (hw : WellFormed h) (ht : WasShown h p tab)
    {i : Nat} (hi : i < layoutPresetSlots preset)
    (hmem : tab ∈ slotShare (layoutPresetSlots preset) (collectTabs h.rootPane) i) :
    (presetPanel ids h preset i).activeTabId = tab.id ↔
      StaysShown (layoutPresetSlots preset) (collectPanels h.rootPane) (collectTabs h.rootPane)
        tab := by
  have hnodup : ((collectTabs h.rootPane).map Tab.id).Nodup := by
    rw [← tabIds_eq_map]
    exact hw.tree.tab_ids
  have htabs : (presetPanel ids h preset i).tabs =
      slotShare (layoutPresetSlots preset) (collectTabs h.rootPane) i := presetPanel_tabs hi
  by_cases hlast : i < layoutPresetSlots preset - 1
  · -- alone in its slot
    rw [slotShare, if_pos hlast] at hmem htabs
    have hget : (collectTabs h.rootPane)[i]? = some tab := by simpa using hmem
    rw [hget] at htabs
    have htake : tab ∈ (collectTabs h.rootPane).take (layoutPresetSlots preset - 1) :=
      mem_of_getElem? ((getElem?_take_of_lt hlast).trans hget)
    have hok : PanelOk (presetPanel ids h preset i) := presetSlot_ok _ _ _ _
    obtain ⟨t, ht', hid⟩ := hok (by rw [htabs]; exact cons_ne_nil _ _)
    rw [htabs] at ht'
    exact iff_of_true (hid.symm.trans (congrArg Tab.id (mem_singleton.mp ht'))) (.inl htake)
  obtain rfl : i = layoutPresetSlots preset - 1 := by omega
  rw [slotShare, if_neg hlast] at hmem htabs
  have hslot : (slotTabs (layoutPresetSlots preset) (collectTabs h.rootPane)).getD
      (layoutPresetSlots preset - 1) [] =
        (collectTabs h.rootPane).drop (layoutPresetSlots preset - 1) := htabs
  have hnot : tab ∉ (collectTabs h.rootPane).take (layoutPresetSlots preset - 1) :=
    fun htake => disjoint_take_drop hnodup.of_map (Nat.le_refl _) htake hmem
  by_cases hreused : ∃ q, (collectPanels h.rootPane)[layoutPresetSlots preset - 1]? = some q ∧
      ∃ other ∈ (collectTabs h.rootPane).drop (layoutPresetSlots preset - 1),
        other.id = q.activeTabId
  · obtain ⟨q, hq, other, hother, hid⟩ := hreused
    rw [presetPanel, presetSlot_reused ids hq (hslot ▸ hother) hid]
    constructor
    · intro hshown
      exact .inr (.inl ⟨q, hq, hshown⟩)
    rintro (htake | ⟨q', hq', hshown⟩ | ⟨hnone, -⟩)
    · exact absurd htake hnot
    · cases hq.symm.trans hq'
      exact hshown
    · exact absurd hid (hnone q hq other hother)
  have hnone : ∀ q, (collectPanels h.rootPane)[layoutPresetSlots preset - 1]? = some q →
      ∀ other ∈ (collectTabs h.rootPane).drop (layoutPresetSlots preset - 1),
        other.id ≠ q.activeTabId :=
    fun q hq other hother hid => hreused ⟨q, hq, other, hother, hid⟩
  have hpanel := ((findPane_iff hw.tree.node_ids).mp ht.pane).1
  have hfirst := presetSlot_first ids (hslot ▸ hnone)
    (hslot ▸ hnodup.sublist ((drop_sublist _ _).map _)) (hslot ▸ hmem)
    ⟨p, hpanel, ht.id.symm⟩
  rw [presetPanel, hfirst, hslot]
  constructor
  · intro h
    exact .inr (.inr ⟨hnone, h⟩)
  rintro (htake | ⟨q, hq, hshown⟩ | ⟨-, h⟩)
  · exact absurd htake hnot
  · exact absurd hshown.symm (hnone q hq tab hmem)
  · exact h

/-- **A preset does what is expected iff the tab that was shown is shown in its slot.** -/
theorem presetApplied_iff (hw : WellFormed h) (hids : NewIds ids h.rootPane)
    (preset : LayoutPresetId) : PresetApplied ids h preset ↔ KeepsShown h preset := by
  constructor
  · intro happlied p tab ht
    obtain ⟨i, hi, hmem, hfocus⟩ := focused preset hw hids ht
    obtain ⟨q, hq⟩ := happlied.shown p tab ht
    cases Option.some.inj (hfocus.symm.trans hq.pane)
    exact (presetPanel_shows_iff ids hw ht hi hmem).mp hq.id
  intro hkeeps
  refine ⟨applyLayoutPreset_tabs, applyLayoutPreset_wellFormed hw hids preset, fun shells => ?_,
    fun p tab ht => ?_, applyLayoutPreset_again⟩
  · rw [matchLayoutPreset_shells]
    exact match_buildPresetTree ..
  obtain ⟨i, hi, hmem, hfocus⟩ := focused preset hw hids ht
  refine ⟨_, hfocus, ?_, (presetPanel_shows_iff ids hw ht hi hmem).mpr (hkeeps p tab ht), ht.ne⟩
  rw [presetPanel_tabs hi]
  exact hmem

end

def pairHolder : Holder := ⟨pairTree, rightPanel.id⟩

theorem pairHolder_wellFormed : WellFormed pairHolder := by
  refine ⟨pairTree_ok, rightPanel, ?_, rfl⟩
  exact mem_cons_of_mem _ mem_cons_self

theorem pairHolder_new : NewIds (letters 'c') pairHolder.rootPane where
  distinct := letters_injective 'c'
  node := by
    intro k hk
    rcases mem_cons.mp hk with hid | hk
    · exact letters_ne (by decide) k 0 hid
    · rcases mem_cons.mp hk with hid | hk
      · exact letters_ne (by decide) k 0 hid
      · exact letters_ne (by decide) k 0 (mem_singleton.mp hk)
  tab := by
    intro k hk
    rcases mem_cons.mp hk with hid | hk
    · exact letters_ne (by decide) k 1 hid
    · exact letters_ne (by decide) k 1 (mem_singleton.mp hk)

theorem pairHolder_shown : WasShown pairHolder rightPanel rightTab :=
  ⟨rfl, mem_singleton.mpr rfl, rfl, by decide⟩

theorem pairHolder_twoCol : PresetApplied (letters 'c') pairHolder .twoCol := by
  refine (presetApplied_iff pairHolder_wellFormed pairHolder_new .twoCol).mpr fun p tab ht => ?_
  cases Option.some.inj (pairHolder_shown.pane.symm.trans ht.pane)
  refine .inr (.inl ⟨rightPanel, ?_, ht.id⟩)
  rfl

theorem pairHolder_single : WellFormed pairHolder ∧ NewIds (letters 'c') pairHolder.rootPane ∧
    ¬ PresetApplied (letters 'c') pairHolder .single := by
  refine ⟨pairHolder_wellFormed, pairHolder_new, fun happlied => ?_⟩
  obtain ⟨q, hq⟩ := happlied.shown rightPanel rightTab pairHolder_shown
  have hfind : findPane (applyLayoutPreset (letters 'c') pairHolder .single).rootPane
      (applyLayoutPreset (letters 'c') pairHolder .single).activePaneId =
        some (.leaf ⟨leftPanel.id, leftPanel.tabs ++ rightPanel.tabs, leftPanel.activeTabId⟩) := by
    rfl
  cases Option.some.inj (hfind.symm.trans hq.pane)
  cases hq.id

end CcPanes.Panes

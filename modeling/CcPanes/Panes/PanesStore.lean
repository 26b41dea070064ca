import CcPanes.Panes.TreeTabs
import Mathlib.Data.Nat.Pairing

/-!
# The layouts of the store

`types/pane.ts` and `stores/paneLayoutHelpers.ts`: layouts with a tree each, one of them shown.
The tree of the one that is shown is the working copy in the state, and its entry is stale.
-/

namespace CcPanes.Panes
open RoseTree List

inductive LayoutKind
  | normal
  | starred
deriving DecidableEq

/-- its tree and active pane are those of the holder -/
structure LayoutEntry extends Holder where
  id : String
  name : String
  kind : Option LayoutKind
  workspaceName : Option String
  lastActiveAt : Option Int

def isStarredLayout (layout : LayoutEntry) : Bool := layout.kind == some .starred

def isNormalLayout (layout : LayoutEntry) : Bool := !isStarredLayout layout

/-- what a closed tab is opened again from -/
inductive ClosedTabSnapshot
  | terminal (projectPath : String) (pinned : Bool) (identity : LaunchIdentity)
      (launchExtras : Option LaunchExtras) (terminalRootPane : Option TerminalPaneNode)
  | browser (projectPath browserUrl : String)
  | editor (projectPath filePath : String) (editorCursor : Option (Nat × Nat))

/-- the holder is the working copy -/
structure PanesState extends Holder where
  layouts : List LayoutEntry
  currentLayoutId : String
  closedTabs : List ClosedTabSnapshot
  poppedOutTabs : List String

namespace PanesState

def holderOf (state : PanesState) (layout : LayoutEntry) : Holder :=
  if layout.id = state.currentLayoutId then state.toHolder else layout.toHolder

def holder (state : PanesState) (layoutId : String) : Option Holder :=
  (state.layouts.find? (·.id == layoutId)).map state.holderOf

def setHolder (state : PanesState) (layoutId : String) (h : Holder) : PanesState :=
  if layoutId = state.currentLayoutId then { state with toHolder := h }
  else
    { state with
      layouts := state.layouts.map fun l => if l.id = layoutId then { l with toHolder := h } else l }

def tabsOf (state : PanesState) (layoutId : String) : List Tab :=
  ((state.holder layoutId).map fun h => collectTabs h.rootPane).getD []

variable {state : PanesState} {layoutId : String} {h : Holder}

theorem setHolder_ids (state : PanesState) (layoutId : String) (h : Holder) :
    (state.setHolder layoutId h).layouts.map LayoutEntry.id = state.layouts.map LayoutEntry.id := by
  unfold setHolder
  split
  · rfl
  rw [map_map]
  refine map_congr_left fun l _ => ?_
  show (if l.id = layoutId then { l with toHolder := h } else l).id = l.id
  split <;> rfl

theorem holder_isSome : (state.holder layoutId).isSome ↔ ∃ l ∈ state.layouts, l.id = layoutId := by
  rw [holder, Option.isSome_map, find?_isSome]
  simp only [beq_iff_eq]

theorem isSome_holder_setHolder {layoutId' : String} :
    ((state.setHolder layoutId h).holder layoutId').isSome = (state.holder layoutId').isSome := by
  rw [Bool.eq_iff_iff, holder_isSome, holder_isSome, ← mem_map, ← mem_map, setHolder_ids]

theorem mem_of_holder (hh : state.holder layoutId = some h) :
    ∃ l ∈ state.layouts, l.id = layoutId ∧ state.holderOf l = h := by
  obtain ⟨l, hfind, rfl⟩ := Option.map_eq_some_iff.mp hh
  exact ⟨l, mem_of_find?_eq_some hfind, by simpa using find?_some hfind, rfl⟩

/-- **A tree written**: its layout holds it, -/
theorem holder_setHolder_self (hsome : (state.holder layoutId).isSome) :
    (state.setHolder layoutId h).holder layoutId = some h := by
  rw [holder, Option.isSome_map] at hsome
  obtain ⟨l, hl⟩ := Option.isSome_iff_exists.mp hsome
  have hid : l.id = layoutId := by simpa using find?_some hl
  unfold setHolder
  split
  next hcur =>
    rw [holder]
    simp only [hl, Option.map_some, holderOf]
    rw [if_pos (hid.trans hcur)]
  next hcur =>
    have hfind : (state.layouts.map fun l =>
        if l.id = layoutId then { l with toHolder := h } else l).find? (·.id == layoutId) =
          some { l with toHolder := h } := by
      rw [find?_map]
      have hcomp : ((fun l : LayoutEntry => l.id == layoutId) ∘ fun l =>
          if l.id = layoutId then { l with toHolder := h } else l) = fun l => l.id == layoutId := by
        funext l
        show ((if l.id = layoutId then { l with toHolder := h } else l).id == layoutId) = _
        split <;> rfl
      rw [hcomp, hl, Option.map_some, if_pos hid]
    rw [holder]
    simp only [hfind, Option.map_some, holderOf]
    rw [if_neg fun heq => hcur (hid.symm.trans heq)]

theorem holder_setHolder_of_ne {layoutId' : String} (hne : layoutId' ≠ layoutId) :
    (state.setHolder layoutId h).holder layoutId' = state.holder layoutId' := by
  unfold setHolder
  split
  next hcur =>
    rw [holder, holder]
    cases hfind : state.layouts.find? (·.id == layoutId') with
    | none => rfl
    | some l =>
      have hid : l.id = layoutId' := by simpa using find?_some hfind
      have hother : l.id ≠ state.currentLayoutId := fun heq => hne (hid ▸ heq.trans hcur.symm)
      simp only [Option.map_some, holderOf, if_neg hother]
  next hcur =>
    have hfind : (state.layouts.map fun l =>
        if l.id = layoutId then { l with toHolder := h } else l).find? (·.id == layoutId') =
          state.layouts.find? (·.id == layoutId') := by
      rw [find?_map]
      have hcomp : ((fun l : LayoutEntry => l.id == layoutId') ∘ fun l =>
          if l.id = layoutId then { l with toHolder := h } else l) = fun l => l.id == layoutId' := by
        funext l
        show ((if l.id = layoutId then { l with toHolder := h } else l).id == layoutId') = _
        split <;> rfl
      rw [hcomp]
      cases hl : state.layouts.find? (·.id == layoutId') with
      | none => rfl
      | some l =>
        have hid : l.id = layoutId' := by simpa using find?_some hl
        rw [Option.map_some, if_neg fun heq => hne (hid.symm.trans heq)]
    rw [holder, holder]
    simp only [hfind]
    rfl

theorem tabsOf_of_holder (hh : state.holder layoutId = some h) :
    state.tabsOf layoutId = collectTabs h.rootPane := by
  rw [tabsOf, hh]
  rfl

end PanesState

def treeIds (root : PaneNode) : List String := nodeIds root ++ tabIds root

structure StoreOk (state : PanesState) : Prop where
  layout_ids : (state.layouts.map LayoutEntry.id).Nodup
  tree : ∀ layoutId h, state.holder layoutId = some h → TreeOk h.rootPane

theorem StoreOk.setHolder {state : PanesState} (hs : StoreOk state) {layoutId : String} {h : Holder}
    (htree : TreeOk h.rootPane) : StoreOk (state.setHolder layoutId h) where
  layout_ids := by
    rw [PanesState.setHolder_ids]
    exact hs.layout_ids
  tree := by
    intro layoutId' h' hh'
    by_cases hid : layoutId' = layoutId
    · subst hid
      cases hh : state.holder layoutId' with
      | none =>
        have hnone : ¬ ((state.setHolder layoutId' h).holder layoutId').isSome := by
          rw [PanesState.isSome_holder_setHolder, hh]
          exact Bool.false_ne_true
        exact absurd (Option.isSome_of_eq_some hh') hnone
      | some old =>
        rw [PanesState.holder_setHolder_self (by rw [hh]; rfl)] at hh'
        exact Option.some.inj hh' ▸ htree
    · rw [PanesState.holder_setHolder_of_ne hid] at hh'
      exact hs.tree layoutId' h' hh'

structure NewIdsFor (ids : Nat → String) (state : PanesState) : Prop where
  distinct : Function.Injective ids
  new : ∀ layoutId h, state.holder layoutId = some h → ∀ k, ids k ∉ treeIds h.rootPane

/-- the ids that the `n`-th of several writes draws -/
def draw (ids : Nat → String) (n k : Nat) : String := ids (Nat.pair n k)

theorem draw_eq {ids : Nat → String} (h : Function.Injective ids) {n k n' k' : Nat}
    (heq : draw ids n k = draw ids n' k') : n = n' ∧ k = k' := Nat.pair_eq_pair.mp (h heq)

theorem draw_injective {ids : Nat → String} (h : Function.Injective ids) (n : Nat) :
    Function.Injective (draw ids n) := fun _ _ heq => (draw_eq h heq).2

end CcPanes.Panes

import CcPanes.View.CanvasNodes
import Mathlib.Algebra.Order.Field.Rat
import Mathlib.Data.Finset.Card
import Mathlib.Data.Rat.Floor

/-!
# The default layout of the canvas

`defaultCanvasPositions` of `canvasGeometry.ts` puts the nodes without a parent in a grid and the
nodes of each depth in a grid further to the right.  Numbers are rationals: the rounding of floating
point is left out.
-/

namespace CcPanes.Canvas
open List

/-! ## sizes -/

def clamp (value minimum maximum : ℚ) : ℚ := min maximum (max minimum value)

/-- `Math.round` -/
def round (x : ℚ) : ℚ := ⌊x + 1 / 2⌋

structure Viewport where
  width : ℚ
  height : ℚ

structure CanvasNodeSize where
  width : ℚ
  height : ℚ

def isPrimaryNode (node : Node) (rootIds : List JsString) : Bool :=
  node.role = some .leader || node.role ≠ some .worker && node.id ∈ rootIds

def canvasNodeSize (node : Node) (v : Viewport) (rootIds : List JsString) : CanvasNodeSize :=
  let width := max 1 v.width
  let height := max 1 v.height
  let shortEdge := min width height
  if node.kind = .media then
    let availableWidth := max 1 (width - 32)
    let availableHeight := max 1 (height - 32)
    let minimumWidth := min 240 availableWidth
    let minimumHeight := min 180 availableHeight
    { width := round (clamp (max (width * 0.42) (shortEdge * 0.72) * 1.08) minimumWidth
        (max minimumWidth (min 760 availableWidth)))
      height := round (clamp (max (height * 0.42) (shortEdge * 0.58) * 1.08) minimumHeight
        (max minimumHeight (min 520 availableHeight))) }
  else
    let workerWidth := clamp (max (width * 0.28) (shortEdge * 0.45) * 1.08) 360 660
    let workerHeight := clamp (max (height * 0.32) (shortEdge * 0.32) * 1.08) 250 470
    if isPrimaryNode node rootIds then
      { width := round (clamp (max (workerWidth * 1.25) (width * 0.36) * 1.08) 540 900)
        height := round (clamp (max (workerHeight * 1.30) (height * 0.50) * 1.08) 370 620) }
    else ⟨round workerWidth, round workerHeight⟩

def getById (nodes : List Node) (id : JsString) : Option Node := (byId nodes).find? (·.id = id)

def ids (nodes : List Node) : Finset JsString := ((byId nodes).map (·.id)).toFinset

theorem getById_mem {nodes : List Node} {id : JsString} {node : Node}
    (h : getById nodes id = some node) : node.id ∈ ids nodes :=
  mem_toFinset.mpr (mem_map_of_mem (mem_of_find?_eq_some h))

def nodeDepth (nodes : List Node) (node : Node) (visiting : Finset JsString) : Nat :=
  match hparent : (truthy (parentNodeId nodes node)).bind (getById nodes) with
  | none => 0
  | some parent =>
    if hvisited : node.id ∈ visiting then 0
    else nodeDepth nodes parent (insert node.id visiting) + 1
termination_by (insert node.id (ids nodes) \ visiting).card
decreasing_by
  -- one id more is visited, and the parent is among the nodes
  obtain ⟨id, -, hget⟩ := Option.bind_eq_some_iff.mp hparent
  rw [Finset.insert_eq_of_mem (getById_mem hget)]
  refine Finset.card_lt_card (Finset.ssubset_iff_of_subset ?_ |>.mpr ⟨node.id, ?_, ?_⟩)
  · intro x hx
    simp only [Finset.mem_sdiff, Finset.mem_insert, not_or] at hx ⊢
    exact ⟨.inr hx.1, hx.2.2⟩
  · simp [hvisited]
  · simp

/-! ## grids -/

structure CanvasNodePosition where
  x : ℚ
  y : ℚ
  width : ℚ
  height : ℚ

structure Grid where
  nodes : List Node
  x : ℚ
  y : ℚ
  cellWidth : ℚ
  cellHeight : ℚ
  columns : Nat

/-- `Math.max(...values)` -/
def maxOf (values : List ℚ) : ℚ := values.tail.foldl max (values.headD 0)

/-- `count` cells and the gaps between them -/
def extent (count : Nat) (cell gap : ℚ) : ℚ := count * cell + max 0 ((count : ℚ) - 1) * gap

/-- the cards of a grid, each in the middle of its cell -/
def place (sizeOf : Node → CanvasNodeSize) (gap : ℚ) (grid : Grid) :
    List (JsString × CanvasNodePosition) :=
  grid.nodes.zipIdx.map fun (node, index) =>
    let size := sizeOf node
    let column : Nat := index % grid.columns
    let row : Nat := index / grid.columns
    (node.id, {
      x := grid.x + column * (grid.cellWidth + gap) + (grid.cellWidth - size.width) / 2
      y := grid.y + row * (grid.cellHeight + gap) + (grid.cellHeight - size.height) / 2
      width := size.width
      height := size.height })

/-- `Math.ceil(Math.sqrt(n))` -/
def ceilSqrt (n : Nat) : Nat := if n.sqrt * n.sqrt = n then n.sqrt else n.sqrt + 1

def gridHeight (grid : Grid) (gap : ℚ) : ℚ :=
  extent ((grid.nodes.length + grid.columns - 1) / grid.columns) grid.cellHeight gap

/-- the grids of the levels from `cursorX` on, at the height `0` -/
def layLevels (sizeOf : Node → CanvasNodeSize) (gap : ℚ) : (cursorX : ℚ) → List (List Node) → List Grid
  | _, [] => []
  | cursorX, level :: levels =>
    let cellWidth := maxOf (level.map fun node => (sizeOf node).width)
    let cellHeight := maxOf (level.map fun node => (sizeOf node).height)
    let columns := max 1 (min level.length (ceilSqrt level.length))
    ⟨level, cursorX, 0, cellWidth, cellHeight, columns⟩ ::
      layLevels sizeOf gap (cursorX + extent columns cellWidth gap + gap) levels

/-! ## positions -/

def rootIds (nodes : List Node) : List JsString :=
  (nodes.filter fun node => truthy (parentNodeId nodes node) = none).map (·.id)

def level (nodes : List Node) (depth : Nat) : List Node :=
  nodes.filter fun node => nodeDepth nodes node ∅ = depth

def depths (nodes : List Node) : List Nat :=
  ((nodes.map (nodeDepth nodes · ∅)).dedup.filter (0 < ·)).mergeSort

/-- `sizes.get(node.id)` -/
def sizeOf (nodes : List Node) (v : Viewport) (node : Node) : CanvasNodeSize :=
  ((getById nodes node.id).map fun node =>
    canvasNodeSize node v (rootIds nodes)).getD ⟨1, 1⟩

def gapOf (v : Viewport) : ℚ :=
  clamp (min (max 1 v.width) (max 1 v.height) * 0.035) 24 48

def layoutRoots (nodes : List Node) : List Node :=
  let roots :=
    if level nodes 0 = [] then nodes.filter (·.id ∈ rootIds nodes) else level nodes 0
  if roots = [] then nodes else roots

/-- the grid of the roots and those of the levels, before they are moved to the middle -/
def grids (nodes : List Node) (v : Viewport) : List Grid :=
  let sizeOf := sizeOf nodes v
  let gap := gapOf v
  let roots := layoutRoots nodes
  let rootCellWidth := maxOf (roots.map fun node => (sizeOf node).width)
  let rootCellHeight := maxOf (roots.map fun node => (sizeOf node).height)
  let availableRootWidth := max 1 (v.width - gap * 2)
  let rootColumns :=
    (max 1 (min (roots.length : ℤ) ⌊(availableRootWidth + gap) / (rootCellWidth + gap)⌋)).toNat
  ⟨roots, 0, 0, rootCellWidth, rootCellHeight, rootColumns⟩ ::
    layLevels sizeOf gap (extent rootColumns rootCellWidth gap + gap)
      ((depths nodes).map (level nodes))

/-- the grid moved to where the content is in the middle; the padding is as wide as the gap -/
def centred (nodes : List Node) (v : Viewport) (grid : Grid) : Grid :=
  let gap := gapOf v
  let grids := grids nodes v
  let contentHeight := maxOf (grids.map (gridHeight · gap))
  let contentWidth := maxOf (grids.map fun grid => grid.x + extent grid.columns grid.cellWidth gap)
  let originX := max gap ((v.width - contentWidth) / 2)
  let originY := max gap ((v.height - contentHeight) / 2)
  { grid with
    x := originX + grid.x
    y := originY + (contentHeight - gridHeight grid gap) / 2 }

def defaultCanvasPositions (nodes : List Node) (v : Viewport) :
    JsString → Option CanvasNodePosition :=
  mapGet (if nodes = [] then [] else
    (grids nodes v).flatMap fun grid =>
      place (sizeOf nodes v) (gapOf v) (centred nodes v grid))

/-! ## cells -/

variable {nodes : List Node} {n : Node} {sizes : Node → CanvasNodeSize} {gap : ℚ} {g g' : Grid}
  {p q : CanvasNodePosition}

def CanvasNodePosition.Covers (p : CanvasNodePosition) (x y : ℚ) : Prop :=
  p.x ≤ x ∧ x ≤ p.x + p.width ∧ p.y ≤ y ∧ y ≤ p.y + p.height

def NoOverlap (p q : CanvasNodePosition) : Prop := ∀ x y, ¬ (p.Covers x y ∧ q.Covers x y)

/-- the cells are as large as the cards -/
structure Fits (sizes : Node → CanvasNodeSize) (g : Grid) : Prop where
  columns_pos : 0 < g.columns
  width : ∀ n ∈ g.nodes, (sizes n).width ≤ g.cellWidth
  height : ∀ n ∈ g.nodes, (sizes n).height ≤ g.cellHeight
  cell_nonneg : 0 ≤ g.cellWidth ∧ 0 ≤ g.cellHeight

theorem cell_apart {cell a b : ℚ} {i j : Nat} (hij : i < j) (hgap : 0 < gap) (hcell : 0 ≤ cell)
    (ha : a ≤ cell) (hb : b ≤ cell) :
    i * (cell + gap) + (cell - a) / 2 + a < j * (cell + gap) + (cell - b) / 2 := by
  have hstep : ((i : ℚ) + 1) * (cell + gap) ≤ j * (cell + gap) :=
    mul_le_mul_of_nonneg_right (by exact_mod_cast hij) (by linarith)
  linarith

theorem mem_place {id : JsString} (h : (id, p) ∈ place sizes gap g) :
    ∃ i n, g.nodes[i]? = some n ∧ n.id = id ∧
      p.x = g.x + (i % g.columns : Nat) * (g.cellWidth + gap) + (g.cellWidth - p.width) / 2 ∧
      p.y = g.y + (i / g.columns : Nat) * (g.cellHeight + gap) + (g.cellHeight - p.height) / 2 ∧
      p.width = (sizes n).width ∧ p.height = (sizes n).height := by
  obtain ⟨⟨n, i⟩, hmem, heq⟩ := mem_map.mp h
  obtain ⟨rfl, rfl⟩ := Prod.mk.inj heq
  exact ⟨i, n, mk_mem_zipIdx_iff_getElem?.mp hmem, rfl, rfl, rfl, rfl, rfl⟩

theorem place_of_mem (hn : n ∈ g.nodes) : ∃ p, (n.id, p) ∈ place sizes gap g := by
  obtain ⟨i, hi⟩ := mem_iff_getElem?.mp hn
  exact ⟨_, mem_map.mpr ⟨(n, i), mk_mem_zipIdx_iff_getElem?.mpr hi, rfl⟩⟩

/-- **Two cards of a grid** are in different columns or in different rows. -/
theorem place_apart (hfits : Fits sizes g) (hgap : 0 < gap) {id id' : JsString} (hne : id ≠ id')
    (hp : (id, p) ∈ place sizes gap g) (hq : (id', q) ∈ place sizes gap g) : NoOverlap p q := by
  obtain ⟨i, n, hn, rfl, hpx, hpy, hpw, hph⟩ := mem_place hp
  obtain ⟨j, m, hm, rfl, hqx, hqy, hqw, hqh⟩ := mem_place hq
  have hij : i ≠ j := by
    rintro rfl
    exact hne (congrArg _ (Option.some.inj (hn.symm.trans hm)))
  have hwn := hpw ▸ hfits.width n (mem_of_getElem? hn)
  have hwm := hqw ▸ hfits.width m (mem_of_getElem? hm)
  have hhn := hph ▸ hfits.height n (mem_of_getElem? hn)
  have hhm := hqh ▸ hfits.height m (mem_of_getElem? hm)
  rintro x y ⟨⟨hx1, hx2, hy1, hy2⟩, hx3, hx4, hy3, hy4⟩
  rcases Nat.lt_trichotomy (i % g.columns) (j % g.columns) with hlt | heq | hlt
  · have := cell_apart hlt hgap hfits.cell_nonneg.1 hwn hwm
    linarith
  · rcases Nat.lt_trichotomy (i / g.columns) (j / g.columns) with hlt | heq' | hlt
    · have := cell_apart hlt hgap hfits.cell_nonneg.2 hhn hhm
      linarith
    · exact hij (by rw [← Nat.div_add_mod i g.columns, ← Nat.div_add_mod j g.columns, heq, heq'])
    · have := cell_apart hlt hgap hfits.cell_nonneg.2 hhm hhn
      linarith
  · have := cell_apart hlt hgap hfits.cell_nonneg.1 hwm hwn
    linarith

/-- **A card is between the sides of its grid.** -/
theorem place_within (hfits : Fits sizes g) (hgap : 0 < gap) {id : JsString}
    (hp : (id, p) ∈ place sizes gap g) :
    g.x ≤ p.x ∧ p.x + p.width ≤ g.x + extent g.columns g.cellWidth gap := by
  obtain ⟨i, n, hn, -, hpx, -, hpw, -⟩ := mem_place hp
  have hw := hpw ▸ hfits.width n (mem_of_getElem? hn)
  have hcell := hfits.cell_nonneg.1
  have hcolumn : ((i % g.columns : Nat) : ℚ) + 1 ≤ g.columns := by
    exact_mod_cast Nat.mod_lt i hfits.columns_pos
  have hnonneg : (0 : ℚ) ≤ (i % g.columns : Nat) * (g.cellWidth + gap) := by positivity
  have hmul := mul_le_mul_of_nonneg_right hcolumn (add_nonneg hcell hgap.le)
  have hone : (1 : ℚ) ≤ g.columns := by exact_mod_cast hfits.columns_pos
  unfold extent
  rw [max_eq_right (by linarith), hpx]
  constructor <;> linarith

/-! ## the grids -/

theorem le_foldl_max (values : List ℚ) (init : ℚ) :
    init ≤ values.foldl max init ∧ ∀ a ∈ values, a ≤ values.foldl max init := by
  induction values generalizing init with
  | nil => exact ⟨le_refl _, nofun⟩
  | cons b values ih =>
    obtain ⟨hinit, hvalues⟩ := ih (max init b)
    rw [foldl_cons, forall_mem_cons]
    exact ⟨(le_max_left _ _).trans hinit, (le_max_right _ _).trans hinit, hvalues⟩

theorem le_maxOf {values : List ℚ} {a : ℚ} (h : a ∈ values) : a ≤ maxOf values := by
  cases values with
  | nil => cases h
  | cons b values =>
    obtain ⟨hb, hvalues⟩ := le_foldl_max values b
    rcases mem_cons.mp h with rfl | h
    · exact hb
    · exact hvalues a h

theorem fits_of_maxOf {g : Grid} (hcolumns : 0 < g.columns) (hne : g.nodes ≠ [])
    (hsizes : ∀ n, 0 ≤ (sizes n).width ∧ 0 ≤ (sizes n).height)
    (hw : g.cellWidth = maxOf (g.nodes.map fun node => (sizes node).width))
    (hh : g.cellHeight = maxOf (g.nodes.map fun node => (sizes node).height)) : Fits sizes g := by
  have hwidth : ∀ n ∈ g.nodes, (sizes n).width ≤ g.cellWidth := fun n hn =>
    hw ▸ le_maxOf (mem_map_of_mem hn)
  have hheight : ∀ n ∈ g.nodes, (sizes n).height ≤ g.cellHeight := fun n hn =>
    hh ▸ le_maxOf (mem_map_of_mem hn)
  obtain ⟨n, hn⟩ := exists_mem_of_ne_nil g.nodes hne
  exact ⟨hcolumns, hwidth, hheight, (hsizes n).1.trans (hwidth n hn),
    (hsizes n).2.trans (hheight n hn)⟩

def Behind (gap : ℚ) (g g' : Grid) : Prop := g.x + extent g.columns g.cellWidth gap + gap ≤ g'.x

theorem layLevels_spec (hsizes : ∀ n, 0 ≤ (sizes n).width ∧ 0 ≤ (sizes n).height) (hgap : 0 < gap)
    {levels : List (List Node)} (hne : ∀ level ∈ levels, level ≠ []) (x : ℚ) :
    (layLevels sizes gap x levels).Pairwise (Behind gap) ∧
      (layLevels sizes gap x levels).map (·.nodes) = levels ∧
      ∀ g ∈ layLevels sizes gap x levels, x ≤ g.x ∧ Fits sizes g := by
  induction levels generalizing x with
  | nil => exact ⟨.nil, rfl, nofun⟩
  | cons level levels ih =>
    rw [forall_mem_cons] at hne
    let head : Grid := ⟨level, x, 0, maxOf (level.map fun node => (sizes node).width),
      maxOf (level.map fun node => (sizes node).height),
      max 1 (min level.length (ceilSqrt level.length))⟩
    have hhead : Fits sizes head :=
      fits_of_maxOf (Nat.le_max_left 1 _) hne.1 hsizes rfl rfl
    obtain ⟨hpairs, hnodes, hgrids⟩ := ih hne.2 (x + extent head.columns head.cellWidth gap + gap)
    have hextent : 0 ≤ extent head.columns head.cellWidth gap := by
      have := hhead.cell_nonneg.1
      unfold extent
      positivity
    refine ⟨pairwise_cons.mpr ⟨fun g hg => (hgrids g hg).1, hpairs⟩, congrArg _ hnodes, ?_⟩
    refine forall_mem_cons.mpr ⟨⟨le_refl x, hhead⟩, fun g hg => ⟨?_, (hgrids g hg).2⟩⟩
    have := (hgrids g hg).1
    linarith

theorem round_nonneg {x : ℚ} (h : 0 ≤ x) : 0 ≤ round x := by
  unfold round
  exact_mod_cast Int.floor_nonneg.mpr (by linarith)

theorem clamp_nonneg {value minimum maximum : ℚ} (hmin : 0 ≤ minimum) (h : minimum ≤ maximum) :
    0 ≤ clamp value minimum maximum :=
  le_min (hmin.trans h) (hmin.trans (le_max_left _ _))

theorem canvasNodeSize_nonneg (n : Node) (v : Viewport) (roots : List JsString) :
    0 ≤ (canvasNodeSize n v roots).width ∧ 0 ≤ (canvasNodeSize n v roots).height := by
  unfold canvasNodeSize
  dsimp only
  have hmedia (a b : ℚ) (ha : 0 ≤ a) : 0 ≤ min a (max 1 b) :=
    le_min ha (zero_le_one.trans (le_max_left _ _))
  split_ifs
  · exact ⟨round_nonneg (clamp_nonneg (hmedia _ _ (by norm_num)) (le_max_left _ _)),
      round_nonneg (clamp_nonneg (hmedia _ _ (by norm_num)) (le_max_left _ _))⟩
  · exact ⟨round_nonneg (clamp_nonneg (by norm_num) (by norm_num)),
      round_nonneg (clamp_nonneg (by norm_num) (by norm_num))⟩
  · exact ⟨round_nonneg (clamp_nonneg (by norm_num) (by norm_num)),
      round_nonneg (clamp_nonneg (by norm_num) (by norm_num))⟩

section
variable {v : Viewport}

theorem gapOf_pos : 0 < gapOf v := by
  unfold gapOf clamp
  exact lt_min (by norm_num) (lt_max_of_lt_left (by norm_num))

theorem sizeOf_nonneg (n : Node) :
    0 ≤ (sizeOf nodes v n).width ∧ 0 ≤ (sizeOf nodes v n).height := by
  unfold sizeOf
  cases getById nodes n.id with
  | none => exact ⟨zero_le_one, zero_le_one⟩
  | some m => exact canvasNodeSize_nonneg m _ _

theorem sizeOf_eq (h : (nodes.map (·.id)).Nodup) (hn : n ∈ nodes) :
    sizeOf nodes v n = canvasNodeSize n v (rootIds nodes) := by
  have hget : getById nodes n.id = some n := by
    unfold getById
    rw [byId_eq h]
    cases hfind : nodes.find? (·.id = n.id) with
    | none => simpa using find?_eq_none.mp hfind n hn
    | some m =>
      have hid : m.id = n.id := by simpa using find?_some hfind
      rw [inj_on_of_nodup_map h (mem_of_find?_eq_some hfind) hn hid]
  unfold sizeOf
  rw [hget]
  rfl

theorem layoutRoots_subset : layoutRoots nodes ⊆ nodes := by
  unfold layoutRoots
  dsimp only
  split_ifs
  all_goals first | exact Subset.refl _ | exact filter_subset_self _

theorem level_ne_nil {d : Nat} (h : d ∈ depths nodes) : level nodes d ≠ [] := by
  unfold depths at h
  rw [mem_mergeSort, mem_filter, mem_dedup] at h
  obtain ⟨n, hn, rfl⟩ := mem_map.mp h.1
  exact ne_nil_of_mem (mem_filter.mpr ⟨hn, by simp⟩)

theorem layoutRoots_ne_nil (hne : nodes ≠ []) : layoutRoots nodes ≠ [] := by
  unfold layoutRoots
  dsimp only
  split_ifs
  all_goals assumption

theorem grids_spec (hne : nodes ≠ []) :
    (grids nodes v).Pairwise (Behind (gapOf v)) ∧
      (grids nodes v).map (·.nodes) = layoutRoots nodes :: (depths nodes).map (level nodes) ∧
      ∀ g ∈ grids nodes v, Fits (sizeOf nodes v) g := by
  unfold grids
  dsimp only
  generalize hcolumns : (max (1 : ℤ) _).toNat = columns
  have hpos : 0 < columns := by omega
  obtain ⟨hpairs, hnodes, hgrids⟩ := layLevels_spec sizeOf_nonneg (gapOf_pos (v := v))
    (forall_mem_map.mpr fun d hd => level_ne_nil hd) _
  refine ⟨pairwise_cons.mpr ⟨fun g hg => ?_, hpairs⟩, congrArg _ hnodes,
    forall_mem_cons.mpr ⟨?_, fun g hg => (hgrids g hg).2⟩⟩
  · have := (hgrids g hg).1
    unfold Behind
    linarith
  · exact fits_of_maxOf hpos (layoutRoots_ne_nil hne) sizeOf_nonneg rfl rfl

/-- **Every node is in a grid**: those of depth 0 among the roots, the others in their level. -/
theorem exists_grid (hn : n ∈ nodes) : ∃ g ∈ grids nodes v, n ∈ g.nodes := by
  have hlists : ∃ l ∈ layoutRoots nodes :: (depths nodes).map (level nodes), n ∈ l := by
    have hlevel : n ∈ level nodes (nodeDepth nodes n ∅) := mem_filter.mpr ⟨hn, by simp⟩
    by_cases hdepth : nodeDepth nodes n ∅ = 0
    · rw [hdepth] at hlevel
      refine ⟨_, mem_cons_self, ?_⟩
      unfold layoutRoots
      dsimp only
      rw [if_neg (ne_nil_of_mem hlevel), if_neg (ne_nil_of_mem hlevel)]
      exact hlevel
    · refine ⟨_, mem_cons_of_mem _ (mem_map_of_mem ?_), hlevel⟩
      unfold depths
      rw [mem_mergeSort, mem_filter, mem_dedup]
      exact ⟨mem_map_of_mem hn, by simpa using Nat.pos_of_ne_zero hdepth⟩
  rw [← (grids_spec (ne_nil_of_mem hn)).2.1] at hlists
  obtain ⟨l, hl, hnl⟩ := hlists
  obtain ⟨g, hg, rfl⟩ := mem_map.mp hl
  exact ⟨g, hg, hnl⟩

theorem mapGet_mem {β : Type} {entries : List (JsString × β)} {key : JsString} {b : β}
    (h : mapGet entries key = some b) : (key, b) ∈ entries := by
  obtain ⟨entry, hfind, rfl⟩ := Option.map_eq_some_iff.mp h
  have hkey : entry.1 = key := by simpa using find?_some hfind
  exact hkey ▸ mem_reverse.mp (mem_of_find?_eq_some hfind)

theorem mapGet_ne_none {β : Type} {entries : List (JsString × β)} {key : JsString} {b : β}
    (h : (key, b) ∈ entries) : mapGet entries key ≠ none := by
  unfold mapGet
  rw [Ne, Option.map_eq_none_iff, find?_eq_none]
  exact fun hnone => hnone _ (mem_reverse.mpr h) (by simp)

theorem position_mem {id : JsString} (hp : defaultCanvasPositions nodes v id = some p) :
    nodes ≠ [] ∧ ∃ g ∈ grids nodes v,
      (id, p) ∈ place (sizeOf nodes v) (gapOf v) (centred nodes v g) := by
  have hmem := mapGet_mem hp
  split_ifs at hmem with hne
  · cases hmem
  · exact ⟨hne, mem_flatMap.mp hmem⟩

theorem Fits.centred (h : Fits sizes g) : Fits sizes (centred nodes v g) :=
  ⟨h.columns_pos, h.width, h.height, h.cell_nonneg⟩

theorem grid_subset (hne : nodes ≠ []) (hg : g ∈ grids nodes v) : g.nodes ⊆ nodes := by
  have hmem := mem_map_of_mem (f := (·.nodes)) hg
  rw [(grids_spec hne).2.1, mem_cons, mem_map] at hmem
  rcases hmem with hroots | ⟨d, -, hlevel⟩
  · exact hroots ▸ layoutRoots_subset
  · exact hlevel ▸ filter_subset_self _

/-- **Cards of two grids** are on the two sides of a gap. -/
theorem behind_apart {id id' : JsString} (hbehind : Behind gap g g') (hgap : 0 < gap)
    (hg : Fits sizes g) (hg' : Fits sizes g') (hp : (id, p) ∈ place sizes gap (centred nodes v g))
    (hq : (id', q) ∈ place sizes gap (centred nodes v g')) : p.x + p.width < q.x := by
  have hright := (place_within hg.centred hgap hp).2
  have hleft := (place_within hg'.centred hgap hq).1
  unfold Behind at hbehind
  simp only [centred] at hright hleft
  linarith

/-- **The default layout has one position for every node, and no two overlap.** -/
theorem default_positions_disjoint (nodes : List Node) (v : Viewport)
    (h : (nodes.map (·.id)).Nodup) :
    (∀ n ∈ nodes, ∃ p, defaultCanvasPositions nodes v n.id = some p ∧
      p.width = (canvasNodeSize n v (rootIds nodes)).width ∧
      p.height = (canvasNodeSize n v (rootIds nodes)).height) ∧
    (∀ id, id ∉ nodes.map (·.id) → defaultCanvasPositions nodes v id = none) ∧
    ∀ n ∈ nodes, ∀ m ∈ nodes, n ≠ m → ∀ p q,
      defaultCanvasPositions nodes v n.id = some p →
      defaultCanvasPositions nodes v m.id = some q → NoOverlap p q := by
  have hgap := gapOf_pos (v := v)
  refine ⟨fun n hn => ?_, fun id hid => ?_, fun n hn m hm hnm p q hp hq => ?_⟩
  · obtain ⟨g, hg, hng⟩ := exists_grid hn
    obtain ⟨p, hp⟩ := place_of_mem (g := centred nodes v g) hng
    have hentry : defaultCanvasPositions nodes v n.id ≠ none := by
      unfold defaultCanvasPositions
      rw [if_neg (ne_nil_of_mem hn)]
      exact mapGet_ne_none (mem_flatMap.mpr ⟨g, hg, hp⟩)
    obtain ⟨p, hp⟩ := Option.ne_none_iff_exists'.mp hentry
    obtain ⟨hne, g, hg, hplace⟩ := position_mem hp
    obtain ⟨i, m, hm, hid, -, -, hw, hh⟩ := mem_place hplace
    obtain rfl := inj_on_of_nodup_map h (grid_subset hne hg (mem_of_getElem? hm)) hn hid
    rw [sizeOf_eq h hn] at hw hh
    exact ⟨p, hp, hw, hh⟩
  · by_contra hsome
    obtain ⟨p, hp⟩ := Option.ne_none_iff_exists'.mp hsome
    obtain ⟨hne, g, hg, hplace⟩ := position_mem hp
    obtain ⟨i, n, hn, rfl, -⟩ := mem_place hplace
    exact hid (mem_map_of_mem (grid_subset hne hg (mem_of_getElem? hn)))
  · obtain ⟨hne, g, hg, hplace⟩ := position_mem hp
    obtain ⟨-, g', hg', hplace'⟩ := position_mem hq
    obtain ⟨hpairs, -, hfits⟩ := grids_spec hne
    have hid : n.id ≠ m.id := fun heq => hnm (inj_on_of_nodup_map h hn hm heq)
    by_cases hsame : g = g'
    · subst hsame
      exact place_apart (hfits g hg).centred hgap hid hplace hplace'
    · have hsymm : Std.Symm fun g g' => Behind (gapOf v) g g' ∨ Behind (gapOf v) g' g :=
        ⟨fun _ _ => .symm⟩
      have hpairs : (grids nodes v).Pairwise fun g g' =>
          Behind (gapOf v) g g' ∨ Behind (gapOf v) g' g := hpairs.imp .inl
      rintro x y ⟨⟨hx1, hx2, -⟩, hx3, hx4, -⟩
      rcases hpairs.forall hg hg' hsame with hbehind | hbehind
      · have := behind_apart hbehind hgap (hfits g hg) (hfits g' hg') hplace hplace'
        linarith
      · have := behind_apart hbehind hgap (hfits g' hg') (hfits g hg) hplace' hplace
        linarith

/-- two nodes that are each other's parent, and one that is its own -/
theorem cyclic_nodes_disjoint : ∃ p q,
    defaultCanvasPositions [child [1] [2], child [2] [1], child [3] [3]] ⟨1200, 760⟩ [1] = some p ∧
    defaultCanvasPositions [child [1] [2], child [2] [1], child [3] [3]] ⟨1200, 760⟩ [3] = some q ∧
    NoOverlap p q := by
  have h := default_positions_disjoint [child [1] [2], child [2] [1], child [3] [3]] ⟨1200, 760⟩
    (by decide)
  obtain ⟨p, hp, -⟩ := h.1 (child [1] [2]) (by decide)
  obtain ⟨q, hq, -⟩ := h.1 (child [3] [3]) (by decide)
  exact ⟨p, q, hp, hq, h.2.2 _ (by decide) _ (by decide) (by decide) p q hp hq⟩

end

end CcPanes.Canvas

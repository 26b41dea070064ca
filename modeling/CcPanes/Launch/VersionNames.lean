import Mathlib.Data.Set.Basic
import Mathlib.Algebra.Group.Nat.Defs

/-!
# The order of version directories

`compare_version_dir_names` of `cc-cli-adapters`, by which the directories of nvm are sorted.  Two
segments are compared as numbers if both are numbers, as texts if not, so a text that lies between
two numbers as texts can close a cycle.
-/

namespace CcPanes.VersionNames
open List Std Option

/-! ## comparing position by position -/

section
variable {α β : Type}

/-- the first difference among `count` positions from `index` on -/
def lexFrom (cmp : α → α → Ordering) (f g : Nat → α) : (count index : Nat) → Ordering
  | 0, _ => .eq
  | count + 1, index =>
    match cmp (f index) (g index) with
    | .eq => lexFrom cmp f g count (index + 1)
    | ordering => ordering

variable {cmp : α → α → Ordering} {f g h : Nat → α} (n i : Nat)

theorem lexFrom_zero : lexFrom cmp f g 0 i = .eq := rfl

theorem lexFrom_succ :
    lexFrom cmp f g (n + 1) i = (cmp (f i) (g i)).then (lexFrom cmp f g n (i + 1)) := by
  rw [lexFrom]
  cases cmp (f i) (g i) <;> rfl

theorem lexFrom_congr {cmp' : β → β → Ordering} {f' g' : Nat → β}
    (hsame : ∀ i, cmp (f i) (g i) = cmp' (f' i) (g' i)) :
    lexFrom cmp f g n i = lexFrom cmp' f' g' n i := by
  induction n generalizing i with
  | zero => rfl
  | succ n ih => rw [lexFrom_succ, lexFrom_succ, hsame, ih]

theorem lexFrom_extend {k : Nat} (hsame : ∀ j, i + n ≤ j → cmp (f j) (g j) = .eq) :
    lexFrom cmp f g (n + k) i = lexFrom cmp f g n i := by
  induction n generalizing i with
  | zero =>
    induction k generalizing i with
    | zero => rfl
    | succ k ih =>
      rw [Nat.zero_add] at ih ⊢
      rw [lexFrom_succ, hsame i (Nat.le_refl _), ih (i + 1) fun j hj => hsame j (by omega)]
      rfl
  | succ n ih =>
    rw [Nat.add_right_comm, lexFrom_succ, lexFrom_succ, ih (i + 1) fun j hj => hsame j (by omega)]

theorem lexFrom_swap [OrientedCmp cmp] : lexFrom cmp g f n i = (lexFrom cmp f g n i).swap := by
  induction n generalizing i with
  | zero => rfl
  | succ n ih => rw [lexFrom_succ, lexFrom_succ, Ordering.swap_then, ← OrientedCmp.eq_swap, ih]

theorem lexFrom_trans [TransCmp cmp] (hfg : (lexFrom cmp f g n i).isLE)
    (hgh : (lexFrom cmp g h n i).isLE) : (lexFrom cmp f h n i).isLE := by
  induction n generalizing i with
  | zero => rfl
  | succ n ih =>
    rw [lexFrom_succ, Ordering.isLE_then_iff_or] at hfg hgh ⊢
    rcases hfg with hfg | ⟨hfg, hrest⟩
    · have hgh : (cmp (g i) (h i)).isLE := by
        rcases hgh with hgh | ⟨hgh, -⟩ <;> simp [hgh]
      exact .inl (TransCmp.lt_of_lt_of_isLE hfg hgh)
    · rcases hgh with hgh | ⟨hgh, hrest'⟩
      · exact .inl (TransCmp.lt_of_eq_of_lt hfg hgh)
      · exact .inr ⟨TransCmp.eq_trans hfg hgh, ih (i + 1) hrest hrest'⟩

end

/-! ## names and segments -/

def isDigit (c : Char) : Bool := '0' ≤ c && c ≤ '9'

/-- the number that a text of digits is, a `+` before it or not -/
def number (text : List Char) : Option Nat :=
  let digits :=
    match text with
    | '+' :: digits => digits
    | digits => digits
  if digits ≠ [] ∧ digits.all isDigit then
    some (digits.foldl (fun n c => n * 10 + (c.toNat - 0x30)) 0)
  else none

/-- `str::parse::<u64>` -/
def parseU64 (text : List Char) : Option Nat := (number text).filter (· < 2 ^ 64)

def normalize (name : List Char) : List (List Char) :=
  (name.dropWhile fun c => c = 'v' || c = 'V').splitOn '.'

/-- `get(index).unwrap_or("0")` -/
def segment (segments : List (List Char)) (index : Nat) : List Char := segments.getD index ['0']

def compareSegments (l r : List Char) : Ordering :=
  match parseU64 l, parseU64 r with
  | some ln, some rn => compare ln rn
  | _, _ => compare l r

def compareVersionDirNames (a b : List Char) : Ordering :=
  let left := normalize a
  let right := normalize b
  lexFrom compareSegments (segment left) (segment right) (max left.length right.length) 0

def compareNumbers (left right : List Nat) : Ordering :=
  lexFrom compare (left.getD · 0) (right.getD · 0) (max left.length right.length) 0

/-! ## names over a vocabulary -/

variable {V : Set (List Char)} {a b c l r v x y z : List Char}

/-- the segments of `V` and the default -/
def vocabulary (V : Set (List Char)) : Set (List Char) := {s | s = ['0'] ∨ s ∈ V ∧ '.' ∉ s}

def Over (V : Set (List Char)) (name : List Char) : Prop := ∀ s ∈ normalize name, s ∈ vocabulary V

/-- the comparison is a total preorder on the names over `V`, on numbers that of the numbers -/
structure PreorderOn (V : Set (List Char)) : Prop where
  swap : ∀ a b, Over V a → Over V b →
    compareVersionDirNames b a = (compareVersionDirNames a b).swap
  trans : ∀ a b c, Over V a → Over V b → Over V c → compareVersionDirNames a b ≠ .gt →
    compareVersionDirNames b c ≠ .gt → compareVersionDirNames a c ≠ .gt
  numbers : ∀ a b left right, Over V a → Over V b → (normalize a).map number = left.map some →
    (normalize b).map number = right.map some →
    compareVersionDirNames a b = compareNumbers left right

structure Tame (V : Set (List Char)) : Prop where
  /-- no text lies between two numbers, as texts, that are not in this order as numbers -/
  between : ∀ n ∈ vocabulary V, ∀ m ∈ vocabulary V, ∀ t ∈ vocabulary V, ∀ k j,
    parseU64 n = some k → parseU64 m = some j → k ≤ j → parseU64 t = none →
    ¬ (compare m t = .lt ∧ compare t n = .lt)
  /-- a number that is too large for 64 bits has, as a text, the place it has as a number -/
  large : ∀ l ∈ vocabulary V, ∀ r ∈ vocabulary V, ∀ ln rn, number l = some ln →
    number r = some rn → parseU64 l = none ∨ parseU64 r = none → compare l r = compare ln rn

theorem compareSegments_of_number {ln rn : Nat} (hl : parseU64 l = some ln)
    (hr : parseU64 r = some rn) : compareSegments l r = compare ln rn := by
  rw [compareSegments, hl, hr]

theorem compareSegments_of_text (h : parseU64 l = none ∨ parseU64 r = none) :
    compareSegments l r = compare l r := by
  unfold compareSegments
  rcases h with h | h
  · rw [h]
  · rw [h]
    cases parseU64 l <;> rfl

theorem compareSegments_swap (l r : List Char) :
    compareSegments l r = (compareSegments r l).swap := by
  have htext : compare l r = (compare r l).swap := OrientedCmp.eq_swap
  have hnumber (m n : Nat) : compare m n = (compare n m).swap := OrientedCmp.eq_swap
  unfold compareSegments
  cases parseU64 l <;> cases parseU64 r
  case some.some => exact hnumber _ _
  all_goals exact htext

theorem number_of_parseU64 {k : Nat} (h : parseU64 v = some k) : number v = some k :=
  (filter_eq_some_iff.mp h).1

theorem compare_lt {k : Nat} (h : parseU64 l = some k ∧ parseU64 r = none ∨
    parseU64 l = none ∧ parseU64 r = some k) (hle : (compareSegments l r).isLE) :
    compare l r = .lt := by
  rw [compareSegments_of_text (h.symm.imp And.left And.right)] at hle
  refine (Ordering.isLE_iff_eq_lt_or_eq_eq.mp hle).resolve_right fun heq => ?_
  obtain rfl := LawfulEqCmp.eq_of_compare heq
  rcases h with ⟨hl, hr⟩ | ⟨hl, hr⟩ <;> cases hl.symm.trans hr

theorem Tame.no_cycle (h : Tame V) {n m : List Char} {k j : Nat} (hn : n ∈ vocabulary V)
    (hm : m ∈ vocabulary V) (ht : x ∈ vocabulary V) (hnk : parseU64 n = some k)
    (hmj : parseU64 m = some j) (hx : parseU64 x = none) (hnm : (compareSegments n m).isLE)
    (hmx : (compareSegments m x).isLE) : ¬ (compareSegments x n).isLE := by
  intro hxn
  rw [compareSegments_of_number hnk hmj, Nat.isLE_compare] at hnm
  exact h.between n hn m hm x ht k j hnk hmj hnm hx
    ⟨compare_lt (.inl ⟨hmj, hx⟩) hmx, compare_lt (.inr ⟨hx, hnk⟩) hxn⟩

/-- **Where no text lies between two numbers, the order of the segments is transitive.** -/
theorem compareSegments_trans (h : Tame V) (hx : x ∈ vocabulary V) (hy : y ∈ vocabulary V)
    (hz : z ∈ vocabulary V) (hxy : (compareSegments x y).isLE) (hyz : (compareSegments y z).isLE) :
    (compareSegments x z).isLE := by
  by_contra hxz
  have hzx : (compareSegments z x).isLE := by
    rw [compareSegments_swap]
    cases hcmp : compareSegments x z <;> simp [hcmp] at hxz ⊢
  -- at most one number: all three are compared as texts
  have htext (hxy' : parseU64 x = none ∨ parseU64 y = none) (hyz' : parseU64 y = none ∨ parseU64 z = none)
      (hxz' : parseU64 x = none ∨ parseU64 z = none) : False := by
    rw [compareSegments_of_text hxy'] at hxy
    rw [compareSegments_of_text hyz'] at hyz
    rw [compareSegments_of_text hxz'] at hxz
    exact hxz (TransCmp.isLE_trans hxy hyz)
  cases hnx : parseU64 x with
  | none =>
    cases hny : parseU64 y with
    | none => exact htext (.inl hnx) (.inl hny) (.inl hnx)
    | some k =>
      cases hnz : parseU64 z with
      | none => exact htext (.inl hnx) (.inr hnz) (.inl hnx)
      | some j => exact h.no_cycle hy hz hx hny hnz hnx hyz hzx hxy
  | some i =>
    cases hny : parseU64 y with
    | none =>
      cases hnz : parseU64 z with
      | none => exact htext (.inr hny) (.inl hny) (.inr hnz)
      | some j => exact h.no_cycle hz hx hy hnz hnx hny hzx hxy hyz
    | some k =>
      cases hnz : parseU64 z with
      | none => exact h.no_cycle hx hy hz hnx hny hnz hxy hyz hzx
      | some j =>
        rw [compareSegments_of_number hnx hny, Nat.isLE_compare] at hxy
        rw [compareSegments_of_number hny hnz, Nat.isLE_compare] at hyz
        rw [compareSegments_of_number hnx hnz, Nat.isLE_compare] at hxz
        exact hxz (hxy.trans hyz)

theorem Tame.transCmp (h : Tame V) :
    TransCmp fun x y : vocabulary V => compareSegments x.1 y.1 where
  eq_swap := compareSegments_swap _ _
  isLE_trans {x y z} := compareSegments_trans h x.2 y.2 z.2

theorem compareSegments_number (h : Tame V) (hl : l ∈ vocabulary V) (hr : r ∈ vocabulary V)
    {ln rn : Nat} (hln : number l = some ln) (hrn : number r = some rn) :
    compareSegments l r = compare ln rn := by
  cases hpl : parseU64 l with
  | none => rw [compareSegments_of_text (.inl hpl), h.large l hl r hr ln rn hln hrn (.inl hpl)]
  | some k =>
    cases hpr : parseU64 r with
    | none => rw [compareSegments_of_text (.inr hpr), h.large l hl r hr ln rn hln hrn (.inr hpr)]
    | some j =>
      cases hln.symm.trans (number_of_parseU64 hpl)
      cases hrn.symm.trans (number_of_parseU64 hpr)
      exact compareSegments_of_number hpl hpr

/-! ## names -/

theorem segment_mem (h : Over V a) (i : Nat) : segment (normalize a) i ∈ vocabulary V := by
  unfold segment
  rw [getD_eq_getElem?_getD]
  cases hget : (normalize a)[i]? with
  | none => exact .inl rfl
  | some s => exact h s (mem_of_getElem? hget)

/-- the loop may run on: behind the last segments it compares `"0"` with `"0"` -/
theorem compareVersionDirNames_eq {n : Nat} (hn : max (normalize a).length (normalize b).length ≤ n) :
    compareVersionDirNames a b =
      lexFrom compareSegments (segment (normalize a)) (segment (normalize b)) n 0 := by
  obtain ⟨k, rfl⟩ := Nat.exists_eq_add_of_le hn
  refine (lexFrom_extend _ 0 fun j hj => ?_).symm
  unfold segment
  rw [getD_eq_getElem?_getD, getD_eq_getElem?_getD, getElem?_eq_none (by omega),
    getElem?_eq_none (by omega)]
  decide

theorem number_segment {s : List (List Char)} {ns : List Nat} (h : s.map number = ns.map some)
    (i : Nat) : number (segment s i) = some (ns.getD i 0) := by
  have hget : (s[i]?).map number = (ns[i]?).map some := by
    rw [← getElem?_map, h, getElem?_map]
  unfold segment
  rw [getD_eq_getElem?_getD, getD_eq_getElem?_getD]
  cases hs : s[i]? with
  | none =>
    rw [hs, map_none, eq_comm, map_eq_none_iff] at hget
    rw [hget]
    rfl
  | some t =>
    rw [hs, map_some, eq_comm, map_eq_some_iff] at hget
    obtain ⟨n, hn, ht⟩ := hget
    rw [hn]
    exact ht.symm

theorem preorderOn_of_tame (h : Tame V) : PreorderOn V where
  swap a b _ _ := by
    have hswap : OrientedCmp compareSegments := ⟨compareSegments_swap _ _⟩
    unfold compareVersionDirNames
    dsimp only
    rw [Nat.max_comm]
    exact lexFrom_swap _ 0
  trans a b c ha hb hc hab hbc := by
    have htrans := h.transCmp
    let n := max (max (normalize a).length (normalize b).length) (normalize c).length
    rw [compareVersionDirNames_eq (n := n) (by omega)] at hab hbc ⊢
    let at' (name : List Char) (hname : Over V name) (i : Nat) : vocabulary V :=
      ⟨segment (normalize name) i, segment_mem hname i⟩
    have hat (f g : Nat → vocabulary V) :
        lexFrom compareSegments (fun i => (f i).1) (fun i => (g i).1) n 0 =
          lexFrom (fun x y : vocabulary V => compareSegments x.1 y.1) f g n 0 :=
      lexFrom_congr n 0 fun _ => rfl
    have hab' := (hat (at' a ha) (at' b hb)).symm.trans_ne hab
    have hbc' := (hat (at' b hb) (at' c hc)).symm.trans_ne hbc
    rw [Ne, ← Ordering.isLE_iff_ne_gt] at hab' hbc'
    refine (hat (at' a ha) (at' c hc)).trans_ne ?_
    exact Ordering.isLE_iff_ne_gt.mp (lexFrom_trans n 0 hab' hbc')
  numbers a b left right ha hb hleft hright := by
    have hlen := congrArg length hleft
    have hlen' := congrArg length hright
    rw [length_map, length_map] at hlen hlen'
    unfold compareVersionDirNames compareNumbers
    dsimp only
    rw [hlen, hlen']
    refine lexFrom_congr _ 0 fun i => ?_
    exact compareSegments_number h (segment_mem ha i) (segment_mem hb i) (number_segment hleft i)
      (number_segment hright i)

def nameOf (x : List Char) : List Char := '0' :: '.' :: x

theorem normalize_nameOf (h : '.' ∉ x) : normalize (nameOf x) = [['0'], x] := by
  have hsplit := splitOn_append_cons_self (a := '.') ['0'] x
  rw [splitOn_eq_singleton h, show splitOn '.' ['0'] = [['0']] by decide] at hsplit
  exact hsplit

theorem over_nameOf (hx : x ∈ vocabulary V) : Over V (nameOf x) ∧ normalize (nameOf x) = [['0'], x] := by
  have h := normalize_nameOf (x := x) (by rcases hx with rfl | hx; exacts [by decide, hx.2])
  refine ⟨?_, h⟩
  unfold Over
  rw [h, forall_mem_cons, forall_mem_singleton]
  exact ⟨.inl rfl, hx⟩

theorem compare_nameOf (hx : x ∈ vocabulary V) (hy : y ∈ vocabulary V) :
    compareVersionDirNames (nameOf x) (nameOf y) = compareSegments x y := by
  unfold compareVersionDirNames
  rw [(over_nameOf hx).2, (over_nameOf hy).2]
  dsimp only
  rw [show max [['0'], x].length [['0'], y].length = 2 from rfl, lexFrom_succ, lexFrom_succ]
  show (compareSegments ['0'] ['0']).then ((compareSegments x y).then .eq) = _
  rw [show compareSegments ['0'] ['0'] = .eq by decide, Ordering.then_eq]
  rfl

theorem tame_of_preorderOn (h : PreorderOn V) : Tame V where
  between n hn m hm t ht k j hk hj hle hnone := by
    rintro ⟨hmt, htn⟩
    have hac := h.trans (nameOf n) (nameOf m) (nameOf t) (over_nameOf hn).1 (over_nameOf hm).1
      (over_nameOf ht).1
    rw [compare_nameOf hn hm, compare_nameOf hm ht, compare_nameOf hn ht,
      compareSegments_of_number hk hj, compareSegments_of_text (.inr hnone),
      compareSegments_of_text (.inr hnone), hmt] at hac
    exact hac (Nat.compare_ne_gt.mpr hle) nofun (OrientedCmp.gt_iff_lt.mpr htn)
  large l hl r hr ln rn hln hrn hlarge := by
    have hzero : number ['0'] = some 0 := by decide
    have heq := h.numbers (nameOf l) (nameOf r) [0, ln] [0, rn] (over_nameOf hl).1 (over_nameOf hr).1
      (by simp [(over_nameOf hl).2, hzero, hln]) (by simp [(over_nameOf hr).2, hzero, hrn])
    rw [compare_nameOf hl hr, compareSegments_of_text hlarge] at heq
    rw [heq]
    simp [compareNumbers, lexFrom_succ, lexFrom_zero]

/-- **The comparison orders the names over a vocabulary iff the vocabulary is tame**: no text of it
lies between two numbers the wrong way round. -/
theorem preorderOn_iff (V : Set (List Char)) : PreorderOn V ↔ Tame V :=
  ⟨tame_of_preorderOn, preorderOn_of_tame⟩

/-- 9 < 10 as numbers, 10 < 1a < 9 as texts -/
theorem cyclic_names : ¬ ∀ a b c : List Char, compareVersionDirNames a b ≠ .gt →
    compareVersionDirNames b c ≠ .gt → compareVersionDirNames a c ≠ .gt := by
  intro h
  exact h ['9'] ['1', '0'] ['1', 'a'] (by decide) (by decide) (by decide)

end CcPanes.VersionNames

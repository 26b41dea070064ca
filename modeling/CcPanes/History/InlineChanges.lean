import CcPanes.Foundation.EditScript
import CcPanes.Foundation.JsString

/-!
# The character differences of paired lines

`compute_inline_changes` of `history_file_repo.rs`.  The deleted lines of a run and the inserted
lines right after them are compared one by one; the characters of a line that differ from its
partner are given as ranges of characters.

The character script of the `similar` crate is a parameter.
-/

namespace CcPanes
open EditScript List Option

variable {inlines : List InlineChange}

abbrev DiffChangeType := ChangeTag

structure InlineChange where
  start : Nat
  stop : Nat
  changeType : DiffChangeType

structure DiffLine where
  changeType : DiffChangeType
  content : String
  oldLineNo : Option Nat
  newLineNo : Option Nat
  inlineChanges : Option (List InlineChange)

/-- `TextDiff::from_chars(old, new).iter_all_changes()` -/
abbrev CharDiff := String → String → List (ChangeTag × String)

def charTokens (s : String) : List String := s.toList.map String.singleton

/-- the script of two lines leads from the characters of the one to those of the other -/
def CharDiff.Delivers (charDiff : CharDiff) : Prop :=
  ∀ old new, EditScript.Delivers (charTokens old) (charTokens new) (charDiff old new)

/-- the ranges in the old and in the new line, from the positions `oldPos` and `newPos` -/
def inlineRanges : Nat → Nat → List (ChangeTag × String) → List InlineChange × List InlineChange
  | _, _, [] => ([], [])
  | oldPos, newPos, (.equal, value) :: changes =>
    inlineRanges (oldPos + value.length) (newPos + value.length) changes
  | oldPos, newPos, (.delete, value) :: changes =>
    let (oldInlines, newInlines) := inlineRanges (oldPos + value.length) newPos changes
    (⟨oldPos, oldPos + value.length, .delete⟩ :: oldInlines, newInlines)
  | oldPos, newPos, (.insert, value) :: changes =>
    let (oldInlines, newInlines) := inlineRanges oldPos (newPos + value.length) changes
    (oldInlines, ⟨newPos, newPos + value.length, .insert⟩ :: newInlines)

def DiffLine.withInlines (line : DiffLine) (inlines : List InlineChange) : DiffLine :=
  if inlines.isEmpty then line else { line with inlineChanges := some inlines }

section
variable (charDiff : CharDiff)

def pairOld : List DiffLine → List DiffLine → List DiffLine
  | [], _ => []
  | dels, [] => dels
  | d :: dels, i :: inss =>
    d.withInlines (inlineRanges 0 0 (charDiff d.content i.content)).1 :: pairOld dels inss

def pairNew : List DiffLine → List DiffLine → List DiffLine
  | _, [] => []
  | [], inss => inss
  | d :: dels, i :: inss =>
    i.withInlines (inlineRanges 0 0 (charDiff d.content i.content)).2 :: pairNew dels inss

/-- the deleted and the inserted lines of the group that the loop is in -/
def computeInlineChangesFrom (dels inss : List DiffLine) : List DiffLine → List DiffLine
  | [] => pairOld charDiff dels inss ++ pairNew charDiff dels inss
  | line :: lines =>
    match line.changeType with
    | .delete =>
      if inss.isEmpty then computeInlineChangesFrom (dels ++ [line]) [] lines
      else
        pairOld charDiff dels inss ++ pairNew charDiff dels inss ++
          computeInlineChangesFrom [line] [] lines
    | .insert => computeInlineChangesFrom dels (inss ++ [line]) lines
    | .equal =>
      pairOld charDiff dels inss ++ pairNew charDiff dels inss ++
        line :: computeInlineChangesFrom [] [] lines

def computeInlineChanges (lines : List DiffLine) : List DiffLine :=
  computeInlineChangesFrom charDiff [] [] lines

end

/-! ## what it is for -/

/-- a run of deleted lines, and the run of inserted lines right after it -/
structure ChangeGroup (lines pre dels inss post : List DiffLine) : Prop where
  split : lines = pre ++ (dels ++ inss) ++ post
  deleted : ∀ line ∈ dels, line.changeType = .delete
  inserted : ∀ line ∈ inss, line.changeType = .insert
  before : ∀ line ∈ pre.getLast?,
    line.changeType ≠ .delete ∧ (dels = [] → line.changeType = .equal)
  after : ∀ line ∈ post.head?,
    line.changeType ≠ .insert ∧ (inss = [] → line.changeType = .equal)

def Selects (inlines : List InlineChange) (units : List Bool) : Prop :=
  ∀ u : Nat, (∃ c ∈ inlines, c.start ≤ u ∧ u < c.stop) ↔ units[u]? = some true

/-- `a.content` and `b.content` are compared -/
structure PairSelects (width : String → Nat) (charDiff : CharDiff) (a b : DiffLine) : Prop where
  old : Selects (a.inlineChanges.getD [])
    (spread width (oldMarks (charDiff a.content b.content)))
  new : Selects (b.inlineChanges.getD [])
    (spread width (newMarks (charDiff a.content b.content)))

/-- The ranges of a line, as indices of units of which a character takes as many as its `width`,
select the characters that differ from the paired line; a line without a partner has none. -/
structure InlineSelects (width : String → Nat) (charDiff : CharDiff) (lines : List DiffLine) :
    Prop where
  equal : ∀ line ∈ lines, line.changeType = .equal → line.inlineChanges = none
  groups : ∀ pre dels inss post, ChangeGroup lines pre dels inss post →
    (∀ line ∈ dels.drop inss.length, line.inlineChanges = none) ∧
      (∀ line ∈ inss.drop dels.length, line.inlineChanges = none) ∧
      ∀ q ∈ dels.zip inss, PairSelects width charDiff q.1 q.2

def utf16Length (s : String) : Nat := (JsString.ofString s).length

/-- the characters of the pair up to the last changed ones are one unit long -/
structure PairNarrow (charDiff : CharDiff) (a b : DiffLine) : Prop where
  old : UpToMarks (fun v => utf16Length v = 1) (oldMarks (charDiff a.content b.content))
  new : UpToMarks (fun v => utf16Length v = 1) (newMarks (charDiff a.content b.content))

def Narrow (charDiff : CharDiff) (lines : List DiffLine) : Prop :=
  ∀ pre dels inss post, ChangeGroup lines pre dels inss post →
    ∀ q ∈ dels.zip inss, PairNarrow charDiff q.1 q.2

theorem selects_shift {pos : Nat} {units : List Bool} {b : Bool}
    (h : ∀ u : Nat, (∃ c ∈ inlines, c.start ≤ u ∧ u < c.stop) ↔
      pos + 1 ≤ u ∧ units[u - (pos + 1)]? = some true) :
    ∀ u : Nat, ((b = true ∧ u = pos) ∨ ∃ c ∈ inlines, c.start ≤ u ∧ u < c.stop) ↔
      pos ≤ u ∧ (b :: units)[u - pos]? = some true := by
  intro u
  rw [h]
  obtain hlt | rfl | hlt := Nat.lt_trichotomy u pos
  · refine ⟨fun hu => ?_, fun hu => absurd hu.1 (by omega)⟩
    obtain ⟨-, rfl⟩ | ⟨hle, -⟩ := hu
    · exact absurd hlt (Nat.lt_irrefl _)
    · omega
  · rw [Nat.sub_self, getElem?_cons_zero, some.injEq]
    refine ⟨fun hu => ?_, fun hu => .inl ⟨hu.2, rfl⟩⟩
    obtain ⟨hb, -⟩ | ⟨hle, -⟩ := hu
    · exact ⟨Nat.le_refl _, hb⟩
    · omega
  · have hsub : u - pos = u - (pos + 1) + 1 := by omega
    rw [hsub, getElem?_cons_succ]
    refine ⟨fun hu => ?_, fun hu => .inr ⟨hlt, hu.2⟩⟩
    obtain ⟨-, rfl⟩ | hu := hu
    · exact absurd hlt (Nat.lt_irrefl _)
    · exact ⟨Nat.le_of_lt hlt, hu.2⟩

theorem exists_range_cons {pos u : Nat} {tag : DiffChangeType} :
    (∃ c ∈ ⟨pos, pos + 1, tag⟩ :: inlines, c.start ≤ u ∧ u < c.stop) ↔
      (true = true ∧ u = pos) ∨ ∃ c ∈ inlines, c.start ≤ u ∧ u < c.stop := by
  rw [exists_mem_cons_iff]
  refine or_congr_left ⟨fun h => ⟨rfl, ?_⟩, fun h => ?_⟩
  · exact Nat.le_antisymm (Nat.le_of_lt_succ h.2) h.1
  · rw [h.2]
    exact ⟨Nat.le_refl _, Nat.lt_succ_self _⟩

theorem inlineRanges_spec {changes : List (ChangeTag × String)}
    (h : ∀ c ∈ changes, c.2.length = 1) (oldPos newPos : Nat) :
    (∀ u : Nat, (∃ c ∈ (inlineRanges oldPos newPos changes).1, c.start ≤ u ∧ u < c.stop) ↔
      oldPos ≤ u ∧ ((oldMarks changes).map Prod.fst)[u - oldPos]? = some true) ∧
    ∀ u : Nat, (∃ c ∈ (inlineRanges oldPos newPos changes).2, c.start ≤ u ∧ u < c.stop) ↔
      newPos ≤ u ∧ ((newMarks changes).map Prod.fst)[u - newPos]? = some true := by
  induction changes generalizing oldPos newPos with
  | nil => exact ⟨fun u => ⟨nofun, nofun⟩, fun u => ⟨nofun, nofun⟩⟩
  | cons change changes ih =>
    obtain ⟨tag, value⟩ := change
    have hvalue : value.length = 1 := h _ mem_cons_self
    have ih := ih fun c hc => h c (mem_cons_of_mem _ hc)
    cases tag with
    | equal =>
      unfold inlineRanges
      rw [hvalue]
      obtain ⟨hold, hnew⟩ := ih (oldPos + 1) (newPos + 1)
      refine ⟨fun u => ?_, fun u => ?_⟩
      · exact (or_iff_right fun h => nomatch h.1).symm.trans (selects_shift (b := false) hold u)
      · exact (or_iff_right fun h => nomatch h.1).symm.trans (selects_shift (b := false) hnew u)
    | delete =>
      unfold inlineRanges
      rw [hvalue]
      obtain ⟨hold, hnew⟩ := ih (oldPos + 1) newPos
      exact ⟨fun u => exists_range_cons.trans (selects_shift hold u), hnew⟩
    | insert =>
      unfold inlineRanges
      rw [hvalue]
      obtain ⟨hold, hnew⟩ := ih oldPos (newPos + 1)
      exact ⟨hold, fun u => exists_range_cons.trans (selects_shift hnew u)⟩

/-! ## the loop -/

def DiffLine.bare (line : DiffLine) : DiffLine := { line with inlineChanges := none }

theorem DiffLine.bare_withInlines (line : DiffLine) (inlines : List InlineChange) :
    (line.withInlines inlines).bare = line.bare := by
  unfold withInlines
  split <;> rfl

@[simp] theorem DiffLine.content_withInlines (line : DiffLine) (inlines : List InlineChange) :
    (line.withInlines inlines).content = line.content := by
  unfold withInlines
  split <;> rfl

theorem DiffLine.ranges_withInlines {line : DiffLine} (h : line.inlineChanges = none)
    (inlines : List InlineChange) : (line.withInlines inlines).inlineChanges.getD [] = inlines := by
  unfold withInlines
  split
  next hnil => rw [h, isEmpty_iff.mp hnil]; rfl
  next => rfl

section
variable (charDiff : CharDiff)

theorem pairOld_bare (dels inss : List DiffLine) :
    (pairOld charDiff dels inss).map DiffLine.bare = dels.map DiffLine.bare := by
  induction dels generalizing inss with
  | nil => rfl
  | cons d dels ih =>
    cases inss with
    | nil => rfl
    | cons =>
      unfold pairOld
      rw [map_cons, DiffLine.bare_withInlines, ih]
      rfl

theorem pairNew_bare (dels inss : List DiffLine) :
    (pairNew charDiff dels inss).map DiffLine.bare = inss.map DiffLine.bare := by
  induction inss generalizing dels with
  | nil => cases dels <;> rfl
  | cons i inss ih =>
    cases dels with
    | nil => rfl
    | cons =>
      unfold pairNew
      rw [map_cons, DiffLine.bare_withInlines, ih]
      rfl

theorem computeInlineChangesFrom_bare (dels inss lines : List DiffLine) :
    (computeInlineChangesFrom charDiff dels inss lines).map DiffLine.bare =
      (dels ++ inss ++ lines).map DiffLine.bare := by
  induction lines generalizing dels inss with
  | nil =>
    unfold computeInlineChangesFrom
    rw [map_append, pairOld_bare, pairNew_bare, append_nil, map_append]
  | cons line lines ih =>
    unfold computeInlineChangesFrom
    split
    · split
      next hnil =>
        rw [ih, isEmpty_iff.mp hnil]
        simp only [append_assoc, append_nil, cons_append, nil_append]
      next =>
        rw [map_append, map_append, pairOld_bare, pairNew_bare, ih]
        simp only [map_append, append_assoc, append_nil, cons_append, nil_append]
    · rw [ih]
      simp only [append_assoc, cons_append, nil_append]
    · rw [map_append, map_append, pairOld_bare, pairNew_bare, map_cons, ih]
      simp only [map_append, map_cons, append_assoc, nil_append]

theorem computeInlineChanges_bare (lines : List DiffLine) :
    (computeInlineChanges charDiff lines).map DiffLine.bare = lines.map DiffLine.bare :=
  computeInlineChangesFrom_bare charDiff [] [] lines

theorem computeInlineChanges_length (lines : List DiffLine) :
    (computeInlineChanges charDiff lines).length = lines.length := by
  have h := congrArg length (computeInlineChanges_bare charDiff lines)
  rwa [length_map, length_map] at h

theorem computeInlineChangesFrom_dels {dels' : List DiffLine}
    (h : ∀ line ∈ dels', line.changeType = .delete) (dels rest : List DiffLine) :
    computeInlineChangesFrom charDiff dels [] (dels' ++ rest) =
      computeInlineChangesFrom charDiff (dels ++ dels') [] rest := by
  induction dels' generalizing dels with
  | nil => rw [append_nil, nil_append]
  | cons d dels' ih =>
    rw [cons_append, computeInlineChangesFrom, h d mem_cons_self]
    rw [isEmpty_nil, if_pos rfl, ih fun line hline => h line (mem_cons_of_mem _ hline),
      append_assoc, singleton_append]

theorem computeInlineChangesFrom_inss {inss' : List DiffLine}
    (h : ∀ line ∈ inss', line.changeType = .insert) (dels inss rest : List DiffLine) :
    computeInlineChangesFrom charDiff dels inss (inss' ++ rest) =
      computeInlineChangesFrom charDiff dels (inss ++ inss') rest := by
  induction inss' generalizing inss with
  | nil => rw [append_nil, nil_append]
  | cons i inss' ih =>
    rw [cons_append, computeInlineChangesFrom, h i mem_cons_self]
    dsimp only
    rw [ih fun line hline => h line (mem_cons_of_mem _ hline), append_assoc, singleton_append]

theorem computeInlineChangesFrom_end {dels inss post : List DiffLine}
    (h : ∀ line ∈ post.head?, line.changeType ≠ .insert ∧ (inss = [] → line.changeType = .equal)) :
    computeInlineChangesFrom charDiff dels inss post =
      pairOld charDiff dels inss ++ pairNew charDiff dels inss ++
        computeInlineChanges charDiff post := by
  unfold computeInlineChanges
  cases post with
  | nil => exact (append_nil _).symm
  | cons line =>
    obtain ⟨hins, hequal⟩ := h line rfl
    rw [computeInlineChangesFrom, computeInlineChangesFrom]
    cases htag : line.changeType with
    | equal => rfl
    | insert => exact absurd htag hins
    | delete =>
      have hinss : inss ≠ [] := fun hnil => nomatch htag.symm.trans (hequal hnil)
      rw [if_neg (mt List.isEmpty_iff.mp hinss), List.isEmpty_nil, if_pos rfl]
      rfl

theorem computeInlineChangesFrom_append {dels inss pre rest : List DiffLine}
    (hdels : ∀ line ∈ dels, line.changeType = .delete)
    (hinss : ∀ line ∈ inss, line.changeType = .insert)
    (h : ∀ line ∈ (dels ++ inss ++ pre).getLast?, ∀ next ∈ rest.head?,
      (next.changeType = .delete → line.changeType ≠ .delete) ∧
        (next.changeType = .insert → line.changeType = .equal)) :
    computeInlineChangesFrom charDiff dels inss (pre ++ rest) =
      computeInlineChangesFrom charDiff dels inss pre ++ computeInlineChanges charDiff rest := by
  induction pre generalizing dels inss with
  | nil =>
    rw [append_nil] at h
    by_cases hnil : dels ++ inss = []
    · obtain ⟨rfl, rfl⟩ := append_eq_nil_iff.mp hnil
      rfl
    refine computeInlineChangesFrom_end charDiff fun next hnext => ?_
    have hlast := getLast?_eq_some_getLast hnil
    have hlast' := h _ hlast next hnext
    obtain hmem | hmem := mem_append.mp (getLast_mem hnil)
    · have hd := hdels _ hmem
      refine ⟨fun hi => absurd (hd.symm.trans (hlast'.2 hi)) nofun, fun _ => ?_⟩
      cases hnextTag : next.changeType with
      | equal => rfl
      | delete => exact absurd hd (hlast'.1 hnextTag)
      | insert => exact nomatch hd.symm.trans (hlast'.2 hnextTag)
    · have hi := hinss _ hmem
      refine ⟨fun hi' => absurd (hi.symm.trans (hlast'.2 hi')) nofun, fun hinil => ?_⟩
      exact absurd hinil (ne_nil_of_mem hmem)
  | cons line pre ih =>
    rw [cons_append, computeInlineChangesFrom, computeInlineChangesFrom]
    cases htag : line.changeType with
    | delete =>
      by_cases hnil : inss = []
      · subst hnil
        refine ih (fun d hd => ?_) (nofun) ?_
        · obtain hd | hd := mem_append.mp hd
          · exact hdels d hd
          · rwa [mem_singleton.mp hd]
        · simpa only [append_nil, append_assoc, singleton_append] using h
      rw [if_neg (mt List.isEmpty_iff.mp hnil), if_neg (mt List.isEmpty_iff.mp hnil),
        append_assoc (_ ++ _)]
      refine congrArg _ (ih (fun d hd => ?_) (fun i hi => absurd hi not_mem_nil) ?_)
      · rwa [mem_singleton.mp hd]
      intro last hlast
      refine h last ?_
      rw [getLast?_append_of_ne_nil _ (cons_ne_nil line pre)]
      exact hlast
    | insert =>
      refine ih hdels (fun i hi => ?_) ?_
      · obtain hi | hi := mem_append.mp hi
        · exact hinss i hi
        · rwa [mem_singleton.mp hi]
      · simpa only [append_assoc, singleton_append] using h
    | equal =>
      rw [append_assoc (_ ++ _), cons_append]
      refine congrArg (_ ++ line :: ·) (ih (fun d hd => absurd hd not_mem_nil)
        (fun i hi => absurd hi not_mem_nil) ?_)
      intro last hlast
      refine h last ?_
      cases pre with
      | nil => cases hlast
      | cons =>
        rw [getLast?_append_of_ne_nil _ (cons_ne_nil line _), getLast?_cons_cons]
        exact hlast

variable {charDiff} {lines pre dels inss post : List DiffLine}

theorem computeInlineChanges_group (h : ChangeGroup lines pre dels inss post) :
    computeInlineChanges charDiff lines = computeInlineChanges charDiff pre ++
      (pairOld charDiff dels inss ++ pairNew charDiff dels inss) ++
      computeInlineChanges charDiff post := by
  have hgroup : computeInlineChanges charDiff (dels ++ inss ++ post) =
      pairOld charDiff dels inss ++ pairNew charDiff dels inss ++
        computeInlineChanges charDiff post := by
    unfold computeInlineChanges
    rw [append_assoc, computeInlineChangesFrom_dels charDiff h.deleted,
      computeInlineChangesFrom_inss charDiff h.inserted, nil_append, nil_append]
    exact computeInlineChangesFrom_end charDiff h.after
  rw [h.split, append_assoc pre, append_assoc (computeInlineChanges charDiff pre), ← hgroup]
  refine computeInlineChangesFrom_append charDiff (nofun)
    (nofun) fun line hline next hnext => ?_
  obtain ⟨hdel, hequal⟩ := h.before line hline
  refine ⟨fun _ => hdel, fun hins => ?_⟩
  cases dels with
  | nil => exact hequal rfl
  | cons d =>
    obtain rfl := some.inj hnext
    exact nomatch hins.symm.trans (h.deleted d mem_cons_self)

theorem changeType_of_bare {a b : DiffLine} (h : a.bare = b.bare) :
    a.changeType = b.changeType := by
  show a.bare.changeType = b.bare.changeType
  rw [h]

theorem forall_of_bare {a b : List DiffLine} (h : a.map DiffLine.bare = b.map DiffLine.bare)
    (P : DiffChangeType → Prop) (hb : ∀ line ∈ b, P line.changeType) :
    ∀ line ∈ a, P line.changeType := by
  intro line hline
  have hmem : line.bare ∈ b.map DiffLine.bare := h ▸ mem_map_of_mem hline
  obtain ⟨line', hline', heq⟩ := mem_map.mp hmem
  exact changeType_of_bare heq ▸ hb line' hline'

theorem ChangeGroup.of_computed {dels' inss' pre' post' : List DiffLine}
    (h : ChangeGroup (computeInlineChanges charDiff lines) pre' dels' inss' post') :
    ∃ pre dels inss post, ChangeGroup lines pre dels inss post ∧
      dels' = pairOld charDiff dels inss ∧ inss' = pairNew charDiff dels inss := by
  have hbare := computeInlineChanges_bare charDiff lines
  rw [h.split, map_append, map_append, map_append] at hbare
  obtain ⟨front, post, rfl, hfront, hpost⟩ := map_eq_append_iff.mp hbare.symm
  obtain ⟨pre, group, rfl, hpre, hgroup⟩ := map_eq_append_iff.mp hfront
  obtain ⟨dels, inss, rfl, hdels, hinss⟩ := map_eq_append_iff.mp hgroup
  have hlast : ∀ line ∈ pre.getLast?, ∃ line' ∈ pre'.getLast?, line.bare = line'.bare := by
    intro line hline
    have hmap := congrArg getLast? hpre
    rw [getLast?_map, getLast?_map, hline, map_some] at hmap
    obtain ⟨line', hline', heq⟩ := map_eq_some_iff.mp hmap.symm
    exact ⟨line', hline', heq.symm⟩
  have hhead : ∀ line ∈ post.head?, ∃ line' ∈ post'.head?, line.bare = line'.bare := by
    intro line hline
    have hmap := congrArg head? hpost
    rw [head?_map, head?_map, hline, map_some] at hmap
    obtain ⟨line', hline', heq⟩ := map_eq_some_iff.mp hmap.symm
    exact ⟨line', hline', heq.symm⟩
  have hnil : ∀ {a b : List DiffLine}, a.map DiffLine.bare = b.map DiffLine.bare →
      a = [] → b = [] := by
    intro a b hab ha
    rw [ha] at hab
    exact map_eq_nil_iff.mp hab.symm
  have hg : ChangeGroup (pre ++ (dels ++ inss) ++ post) pre dels inss post := by
    refine ⟨rfl, forall_of_bare hdels (· = .delete) h.deleted,
      forall_of_bare hinss (· = .insert) h.inserted, ?_, ?_⟩
    · intro line hline
      obtain ⟨line', hline', heq⟩ := hlast line hline
      rw [changeType_of_bare heq]
      exact (h.before line' hline').imp_right fun hb hd => hb (hnil hdels hd)
    intro line hline
    obtain ⟨line', hline', heq⟩ := hhead line hline
    rw [changeType_of_bare heq]
    exact (h.after line' hline').imp_right fun hb hi => hb (hnil hinss hi)
  have hlen : ∀ {a b : List DiffLine}, a.map DiffLine.bare = b.map DiffLine.bare →
      a.length = b.length := by
    intro a b hab
    have := congrArg length hab
    rwa [length_map, length_map] at this
  have heq := h.split.symm.trans (computeInlineChanges_group hg)
  obtain ⟨hfrontEq, -⟩ := append_inj heq (by
    simp only [length_append, computeInlineChanges_length, hlen (pairOld_bare charDiff dels _),
      hlen (pairNew_bare charDiff _ inss), hlen hpre, hlen hdels, hlen hinss])
  obtain ⟨-, hgroupEq⟩ := append_inj hfrontEq (by
    rw [computeInlineChanges_length, hlen hpre])
  obtain ⟨hdelsEq, hinssEq⟩ := append_inj hgroupEq (by
    rw [hlen (pairOld_bare charDiff dels inss), hlen hdels])
  exact ⟨pre, dels, inss, post, hg, hdelsEq, hinssEq⟩

theorem mem_zip_pair {q : DiffLine × DiffLine}
    (h : q ∈ (pairOld charDiff dels inss).zip (pairNew charDiff dels inss)) :
    ∃ d ∈ dels, ∃ i ∈ inss,
      q.1 = d.withInlines (inlineRanges 0 0 (charDiff d.content i.content)).1 ∧
        q.2 = i.withInlines (inlineRanges 0 0 (charDiff d.content i.content)).2 := by
  induction dels generalizing inss with
  | nil => cases h
  | cons d dels ih =>
    cases inss with
    | nil => cases h
    | cons i =>
      obtain rfl | h := mem_cons.mp h
      · exact ⟨d, mem_cons_self, i, mem_cons_self, rfl, rfl⟩
      · obtain ⟨d', hd', i', hi', h⟩ := ih h
        exact ⟨d', mem_cons_of_mem _ hd', i', mem_cons_of_mem _ hi', h⟩

theorem drop_pairOld (dels inss : List DiffLine) :
    (pairOld charDiff dels inss).drop (pairNew charDiff dels inss).length =
      dels.drop inss.length := by
  induction dels generalizing inss with
  | nil => exact drop_nil.trans drop_nil.symm
  | cons d dels ih =>
    cases inss with
    | nil => rfl
    | cons i inss => exact ih inss

theorem drop_pairNew (dels inss : List DiffLine) :
    (pairNew charDiff dels inss).drop (pairOld charDiff dels inss).length =
      inss.drop dels.length := by
  induction dels generalizing inss with
  | nil => cases inss <;> rfl
  | cons d dels ih =>
    cases inss with
    | nil => rfl
    | cons i inss => exact ih inss

theorem mem_computed_equal {line : DiffLine} (hdels : ∀ line ∈ dels, line.changeType = .delete)
    (hinss : ∀ line ∈ inss, line.changeType = .insert)
    (h : line ∈ computeInlineChangesFrom charDiff dels inss lines)
    (htag : line.changeType = .equal) : line ∈ lines := by
  have hpair : ∀ {dels inss : List DiffLine}, (∀ line ∈ dels, line.changeType = .delete) →
      (∀ line ∈ inss, line.changeType = .insert) →
      line ∉ pairOld charDiff dels inss ++ pairNew charDiff dels inss := by
    intro dels inss hdels hinss hmem
    obtain hmem | hmem := mem_append.mp hmem
    · have := forall_of_bare (pairOld_bare charDiff dels inss) (· = .delete) hdels line hmem
      exact nomatch this.symm.trans htag
    · have := forall_of_bare (pairNew_bare charDiff dels inss) (· = .insert) hinss line hmem
      exact nomatch this.symm.trans htag
  have hnone : ∀ tag, ∀ line ∈ ([] : List DiffLine), line.changeType = tag :=
    nofun
  induction lines generalizing dels inss with
  | nil => exact absurd h (hpair hdels hinss)
  | cons next lines ih =>
    rw [computeInlineChangesFrom] at h
    cases hnext : next.changeType with
    | delete =>
      rw [hnext] at h
      have hsnoc : ∀ line ∈ [next], line.changeType = .delete :=
        fun line hline => mem_singleton.mp hline ▸ hnext
      dsimp only at h
      split at h
      next hnil =>
        refine mem_cons_of_mem _ (ih (fun d hd => ?_) (hnone _) h)
        exact (mem_append.mp hd).elim (hdels d) (hsnoc d)
      next =>
        have h := (mem_append.mp h).resolve_left (hpair hdels hinss)
        exact mem_cons_of_mem _ (ih hsnoc (hnone _) h)
    | insert =>
      rw [hnext] at h
      refine mem_cons_of_mem _ (ih hdels (fun i hi => ?_) h)
      exact (mem_append.mp hi).elim (hinss i) fun hi => mem_singleton.mp hi ▸ hnext
    | equal =>
      rw [hnext] at h
      have h := (mem_append.mp h).resolve_left (hpair hdels hinss)
      obtain rfl | h := mem_cons.mp h
      · exact mem_cons_self
      · exact mem_cons_of_mem _ (ih (hnone _) (hnone _) h)

end

/-! ## what the ranges select -/

theorem length_of_mem_charTokens {s v : String} (h : v ∈ charTokens s) : v.length = 1 := by
  obtain ⟨c, -, rfl⟩ := mem_map.mp h
  exact String.length_singleton

theorem utf16Length_pos_of_mem_charTokens {s v : String} (h : v ∈ charTokens s) :
    0 < utf16Length v := by
  obtain ⟨c, -, rfl⟩ := mem_map.mp h
  unfold utf16Length JsString.ofString
  rw [String.toList_singleton, flatMap_singleton]
  unfold JsString.ofChar
  split <;> exact Nat.succ_pos _

section
variable {charDiff : CharDiff} (hdelivers : charDiff.Delivers) {a b : String}

include hdelivers

theorem CharDiff.Delivers.oldMarks_mem {m : Bool × String} (h : m ∈ oldMarks (charDiff a b)) :
    m.2 ∈ charTokens a := by
  rw [← (hdelivers a b).old, ← oldMarks_snd]
  exact mem_map_of_mem h

theorem CharDiff.Delivers.newMarks_mem {m : Bool × String} (h : m ∈ newMarks (charDiff a b)) :
    m.2 ∈ charTokens b := by
  rw [← (hdelivers a b).new, ← newMarks_snd]
  exact mem_map_of_mem h

theorem CharDiff.Delivers.value_length {c : ChangeTag × String} (h : c ∈ charDiff a b) :
    c.2.length = 1 := by
  obtain ⟨tag, v⟩ := c
  have hold : ∀ u, old? (tag, v) = some u → u.length = 1 := by
    intro u hu
    refine length_of_mem_charTokens (s := a) ?_
    rw [← (hdelivers a b).old]
    exact mem_filterMap.mpr ⟨_, h, hu⟩
  have hnew : ∀ u, new? (tag, v) = some u → u.length = 1 := by
    intro u hu
    refine length_of_mem_charTokens (s := b) ?_
    rw [← (hdelivers a b).new]
    exact mem_filterMap.mpr ⟨_, h, hu⟩
  cases tag with
  | equal => exact hold v rfl
  | delete => exact hold v rfl
  | insert => exact hnew v rfl

end

theorem selects_iff {marks units : List Bool} (h : Selects inlines marks) :
    Selects inlines units ↔ ∀ u : Nat, units[u]? = some true ↔ marks[u]? = some true :=
  forall_congr' fun u => by rw [h u]; exact iff_comm

theorem pairSelects_iff {width : String → Nat} {charDiff : CharDiff}
    (hdelivers : charDiff.Delivers) {d i : DiffLine} (hd : d.inlineChanges = none)
    (hi : i.inlineChanges = none) :
    PairSelects width charDiff
      (d.withInlines (inlineRanges 0 0 (charDiff d.content i.content)).1)
      (i.withInlines (inlineRanges 0 0 (charDiff d.content i.content)).2) ↔
    (∀ u : Nat, (spread width (oldMarks (charDiff d.content i.content)))[u]? = some true ↔
      ((oldMarks (charDiff d.content i.content)).map Prod.fst)[u]? = some true) ∧
    ∀ u : Nat, (spread width (newMarks (charDiff d.content i.content)))[u]? = some true ↔
      ((newMarks (charDiff d.content i.content)).map Prod.fst)[u]? = some true := by
  obtain ⟨hold, hnew⟩ := inlineRanges_spec
    (fun c hc => hdelivers.value_length (a := d.content) (b := i.content) hc) 0 0
  have hold : Selects (inlineRanges 0 0 (charDiff d.content i.content)).1 _ := fun u =>
    (hold u).trans (and_iff_right (Nat.zero_le u))
  have hnew : Selects (inlineRanges 0 0 (charDiff d.content i.content)).2 _ := fun u =>
    (hnew u).trans (and_iff_right (Nat.zero_le u))
  rw [← selects_iff hold, ← selects_iff hnew]
  refine ⟨fun h => ⟨?_, ?_⟩, fun h => ⟨?_, ?_⟩⟩
  · simpa only [DiffLine.content_withInlines, DiffLine.ranges_withInlines hd] using h.old
  · simpa only [DiffLine.content_withInlines, DiffLine.ranges_withInlines hi] using h.new
  · simpa only [DiffLine.content_withInlines, DiffLine.ranges_withInlines hd] using h.1
  · simpa only [DiffLine.content_withInlines, DiffLine.ranges_withInlines hi] using h.2

theorem inlineSelects_iff {width : String → Nat} {charDiff : CharDiff} {lines : List DiffLine}
    (hlines : ∀ line ∈ lines, line.inlineChanges = none) :
    InlineSelects width charDiff (computeInlineChanges charDiff lines) ↔
      ∀ pre dels inss post,
        ChangeGroup (computeInlineChanges charDiff lines) pre dels inss post →
          ∀ q ∈ dels.zip inss, PairSelects width charDiff q.1 q.2 := by
  refine ⟨fun h pre dels inss post hg => (h.groups pre dels inss post hg).2.2, fun h => ⟨?_, ?_⟩⟩
  · intro line hline htag
    have hnone : ∀ tag, ∀ line ∈ ([] : List DiffLine), line.changeType = tag :=
      nofun
    exact hlines line (mem_computed_equal (hnone _) (hnone _) hline htag)
  intro pre' dels' inss' post' hg
  refine ⟨?_, ?_, h pre' dels' inss' post' hg⟩
  · obtain ⟨pre, dels, inss, post, hraw, rfl, rfl⟩ := hg.of_computed
    intro line hline
    rw [drop_pairOld] at hline
    refine hlines line ?_
    rw [hraw.split]
    exact mem_append_left _ (mem_append_right _ (mem_append_left _ (mem_of_mem_drop hline)))
  · obtain ⟨pre, dels, inss, post, hraw, rfl, rfl⟩ := hg.of_computed
    intro line hline
    rw [drop_pairNew] at hline
    refine hlines line ?_
    rw [hraw.split]
    exact mem_append_left _ (mem_append_right _ (mem_append_right _ (mem_of_mem_drop hline)))

section
variable {charDiff : CharDiff} {lines : List DiffLine}

theorem ChangeGroup.pair (hlines : ∀ line ∈ lines, line.inlineChanges = none)
    {pre dels inss post : List DiffLine} {q : DiffLine × DiffLine}
    (h : ChangeGroup (computeInlineChanges charDiff lines) pre dels inss post)
    (hq : q ∈ dels.zip inss) :
    ∃ d i : DiffLine, d.inlineChanges = none ∧ i.inlineChanges = none ∧
      q.1 = d.withInlines (inlineRanges 0 0 (charDiff d.content i.content)).1 ∧
        q.2 = i.withInlines (inlineRanges 0 0 (charDiff d.content i.content)).2 := by
  obtain ⟨pre', dels', inss', post', hraw, rfl, rfl⟩ := h.of_computed
  obtain ⟨d, hd, i, hi, hq⟩ := mem_zip_pair hq
  refine ⟨d, i, hlines d ?_, hlines i ?_, hq⟩
  · rw [hraw.split]
    exact mem_append_left _ (mem_append_right _ (mem_append_left _ hd))
  · rw [hraw.split]
    exact mem_append_left _ (mem_append_right _ (mem_append_right _ hi))

theorem inlineSelects_chars (hdelivers : charDiff.Delivers)
    (hlines : ∀ line ∈ lines, line.inlineChanges = none) :
    InlineSelects String.length charDiff (computeInlineChanges charDiff lines) := by
  rw [inlineSelects_iff hlines]
  intro pre dels inss post hg q hq
  obtain ⟨d, i, hd, hi, hq₁, hq₂⟩ := hg.pair hlines hq
  rw [hq₁, hq₂, pairSelects_iff hdelivers hd hi,
    spread_one fun m hm => length_of_mem_charTokens (hdelivers.oldMarks_mem hm),
    spread_one fun m hm => length_of_mem_charTokens (hdelivers.newMarks_mem hm)]
  exact ⟨fun _ => Iff.rfl, fun _ => Iff.rfl⟩

theorem inlineSelects_utf16_iff (hdelivers : charDiff.Delivers)
    (hlines : ∀ line ∈ lines, line.inlineChanges = none) :
    InlineSelects utf16Length charDiff (computeInlineChanges charDiff lines) ↔
      Narrow charDiff (computeInlineChanges charDiff lines) := by
  rw [inlineSelects_iff hlines]
  refine forall_congr' fun pre => forall_congr' fun dels => forall_congr' fun inss =>
    forall_congr' fun post => forall_congr' fun hg => forall_congr' fun q =>
    forall_congr' fun hq => ?_
  obtain ⟨d, i, hd, hi, hq₁, hq₂⟩ := hg.pair hlines hq
  rw [hq₁, hq₂, pairSelects_iff hdelivers hd hi,
    spread_agrees_iff fun m hm => utf16Length_pos_of_mem_charTokens (hdelivers.oldMarks_mem hm),
    spread_agrees_iff fun m hm => utf16Length_pos_of_mem_charTokens (hdelivers.newMarks_mem hm)]
  refine ⟨fun h => ⟨?_, ?_⟩, fun h => ⟨?_, ?_⟩⟩
  · simpa only [DiffLine.content_withInlines] using h.1
  · simpa only [DiffLine.content_withInlines] using h.2
  · simpa only [DiffLine.content_withInlines] using h.old
  · simpa only [DiffLine.content_withInlines] using h.new

end

end CcPanes

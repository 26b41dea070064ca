import CcPanes.Foundation.CoveringRanges
import CcPanes.Foundation.Utf8
import CcPanes.History.HistoryLabels
import CcPanes.History.InlineChanges
import CcPanes.Spec.SpecText
import Mathlib.Data.List.DropRight

/-!
# The hunks of a diff

`compute_diff` of `history_file_repo.rs`.  The line script of the `similar` crate is numbered, its
changes are cut out with three lines of context, and what is closer than that becomes one hunk.
-/

namespace CcPanes
open List (append_assoc cons_append countP countP_congr countP_map drop_left' length_append
  length_map length_zipIdx map_append map_congr_left map_map mem_cons_self mem_map sum)
open EditScript CoveringRanges

def maxDiffLines : Nat := 10000

def contextLines : Nat := 3

inductive DiffTruncationReason where
  | fileSize
  | lineCount

structure DiffStats where
  additions : Nat
  deletions : Nat
  changes : Nat

structure DiffHunk where
  oldStart : Nat
  oldCount : Nat
  newStart : Nat
  newCount : Nat
  lines : List DiffLine

structure DiffResult where
  hunks : List DiffHunk
  stats : DiffStats
  isBinary : Bool
  truncated : Bool
  truncationReason : Option DiffTruncationReason
  oldSize : Nat
  newSize : Nat

/-- a change with its line numbers, which are 0 where it has none -/
structure NumberedChange where
  tag : ChangeTag
  oldNo : Nat
  newNo : Nat
  value : String

/-- `TextDiff::from_lines(old, new).iter_all_changes()` -/
abbrev LineDiff := String → String → List (ChangeTag × String)

namespace HistoryFileRepository

/-! ## the source -/

def allChanges : Nat → Nat → List (ChangeTag × String) → List NumberedChange
  | _, _, [] => []
  | oldNo, newNo, (.equal, value) :: changes =>
    ⟨.equal, oldNo + 1, newNo + 1, value⟩ :: allChanges (oldNo + 1) (newNo + 1) changes
  | oldNo, newNo, (.delete, value) :: changes =>
    ⟨.delete, oldNo + 1, 0, value⟩ :: allChanges (oldNo + 1) newNo changes
  | oldNo, newNo, (.insert, value) :: changes =>
    ⟨.insert, 0, newNo + 1, value⟩ :: allChanges oldNo (newNo + 1) changes

/-- `trim_end_matches('\n')` -/
def lineContent (value : String) : String := String.ofList (value.toList.rdropWhile (· == '\n'))

def diffLine (c : NumberedChange) : DiffLine :=
  match c.tag with
  | .equal => ⟨.equal, lineContent c.value, some c.oldNo, some c.newNo, none⟩
  | .delete => ⟨.delete, lineContent c.value, some c.oldNo, none, none⟩
  | .insert => ⟨.insert, lineContent c.value, none, some c.newNo, none⟩

def startNo (no : Nat) : Nat := if no > 0 then no else 1

def diffHunk (charDiff : CharDiff) (changes : List NumberedChange) : DiffHunk where
  oldStart := match changes.head? with
    | none => 0
    | some c => startNo c.oldNo
  oldCount := changes.countP (·.tag != .insert)
  newStart := match changes.head? with
    | none => 0
    | some c => startNo c.newNo
  newCount := changes.countP (·.tag != .delete)
  lines := computeInlineChanges charDiff (changes.map diffLine)

def mergedRanges (all : List NumberedChange) : List (Nat × Nat) :=
  merge (2 * contextLines) (runs (fun c : NumberedChange => c.tag != .equal) all)

def hunkChanges (all : List NumberedChange) : List (List NumberedChange) :=
  (mergedRanges all).map fun r => slice all (widen contextLines all.length r)

def computeDiff (lineDiff : LineDiff) (charDiff : CharDiff) (oldText newText : String) :
    DiffResult :=
  let oldBytes := Utf8.encode oldText.toList
  let newBytes := Utf8.encode newText.toList
  if HistoryService.isBinary oldBytes || HistoryService.isBinary newBytes then
    ⟨[], ⟨0, 0, 0⟩, true, false, none, oldBytes.length, newBytes.length⟩
  else if (Spec.lines oldText).length > maxDiffLines ||
      (Spec.lines newText).length > maxDiffLines then
    ⟨[], ⟨0, 0, 0⟩, false, true, some .lineCount, oldBytes.length, newBytes.length⟩
  else
    let changes := hunkChanges (allChanges 0 0 (lineDiff oldText newText))
    let deletions := (changes.map (countP (·.tag == .delete))).sum
    let additions := (changes.map (countP (·.tag == .insert))).sum
    ⟨changes.map (diffHunk charDiff), ⟨additions, deletions, min additions deletions⟩, false, false,
      none, oldBytes.length, newBytes.length⟩

end HistoryFileRepository

namespace DiffHunk

def oldSide (hunk : DiffHunk) : List (Option Nat × String) :=
  (hunk.lines.filter (·.changeType != .insert)).map fun line => (line.oldLineNo, line.content)

def newSide (hunk : DiffHunk) : List (Option Nat × String) :=
  (hunk.lines.filter (·.changeType != .delete)).map fun line => (line.newLineNo, line.content)

def changedLines (hunk : DiffHunk) : List DiffLine :=
  (hunk.lines.filter (·.changeType != .equal)).map DiffLine.bare

/-- `rest` are the old lines from the number `no` on: the old range of each hunk is replaced by its
kept and inserted lines -/
def patch : Nat → List String → List DiffHunk → List String
  | _, rest, [] => rest
  | no, rest, hunk :: hunks =>
    rest.take (hunk.oldStart - no) ++ (hunk.newSide.map Prod.snd ++
      patch (hunk.oldStart + hunk.oldCount) (rest.drop (hunk.oldStart - no + hunk.oldCount)) hunks)

end DiffHunk

def numberedLines (lines : List String) : List (Option Nat × String) :=
  (lines.zipIdx 1).map fun e => (some e.2, e.1)

structure DiffDescribes (oldLines newLines : List String) (script : List (ChangeTag × String))
    (result : DiffResult) : Prop where
  ordered : result.hunks.Pairwise fun hunk hunk' =>
    hunk.oldStart + hunk.oldCount ≤ hunk'.oldStart ∧
      hunk.newStart + hunk.newCount ≤ hunk'.newStart
  old : ∀ hunk ∈ result.hunks, 0 < hunk.oldStart ∧ hunk.oldSide.length = hunk.oldCount ∧
    hunk.oldSide = ((numberedLines oldLines).drop (hunk.oldStart - 1)).take hunk.oldCount
  new : ∀ hunk ∈ result.hunks, 0 < hunk.newStart ∧ hunk.newSide.length = hunk.newCount ∧
    hunk.newSide = ((numberedLines newLines).drop (hunk.newStart - 1)).take hunk.newCount
  /-- every deleted and inserted line of the script is in the hunks, once -/
  changes : result.hunks.flatMap DiffHunk.changedLines =
    ((HistoryFileRepository.allChanges 0 0 script).map HistoryFileRepository.diffLine).filter
      (·.changeType != .equal)
  deletions : result.stats.deletions = script.countP (·.1 == .delete)
  additions : result.stats.additions = script.countP (·.1 == .insert)
  patched : DiffHunk.patch 1 oldLines result.hunks = newLines

namespace HistoryFileRepository

theorem allChanges_length (o n : Nat) (script : List (ChangeTag × String)) :
    (allChanges o n script).length = script.length := by
  induction script generalizing o n with
  | nil => rfl
  | cons c script ih =>
    obtain ⟨tag, value⟩ := c
    cases tag <;> exact congrArg (· + 1) (ih _ _)

theorem allChanges_append (o n : Nat) (a b : List (ChangeTag × String)) :
    allChanges o n (a ++ b) =
      allChanges o n a ++ allChanges (o + (oldSide a).length) (n + (newSide a).length) b := by
  induction a generalizing o n with
  | nil => rfl
  | cons c a ih =>
    obtain ⟨tag, value⟩ := c
    cases tag with
    | equal =>
      have hold : (oldSide ((.equal, value) :: a)).length = (oldSide a).length + 1 := rfl
      have hnew : (newSide ((.equal, value) :: a)).length = (newSide a).length + 1 := rfl
      rw [cons_append, allChanges, allChanges, ih, hold, hnew, Nat.add_right_comm o,
        Nat.add_right_comm n]
      rfl
    | delete =>
      have hold : (oldSide ((.delete, value) :: a)).length = (oldSide a).length + 1 := rfl
      have hnew : (newSide ((.delete, value) :: a)).length = (newSide a).length := rfl
      rw [cons_append, allChanges, allChanges, ih, hold, hnew, Nat.add_right_comm o]
      rfl
    | insert =>
      have hold : (oldSide ((.insert, value) :: a)).length = (oldSide a).length := rfl
      have hnew : (newSide ((.insert, value) :: a)).length = (newSide a).length + 1 := rfl
      rw [cons_append, allChanges, allChanges, ih, hold, hnew, Nat.add_right_comm n]
      rfl

theorem allChanges_tag (o n : Nat) (script : List (ChangeTag × String)) :
    (allChanges o n script).map NumberedChange.tag = script.map Prod.fst := by
  induction script generalizing o n with
  | nil => rfl
  | cons c script ih =>
    obtain ⟨tag, value⟩ := c
    cases tag <;> exact congrArg (_ :: ·) (ih _ _)

theorem countP_allChanges (p : ChangeTag → Bool) (o n : Nat)
    (script : List (ChangeTag × String)) :
    (allChanges o n script).countP (p ·.tag) = script.countP (p ·.1) := by
  have h := congrArg (countP p) (allChanges_tag o n script)
  rwa [countP_map, countP_map] at h

theorem oldSide_length (script : List (ChangeTag × String)) :
    (oldSide script).length = script.countP (·.1 != .insert) := by
  unfold oldSide
  rw [List.length_filterMap_eq_countP]
  refine countP_congr fun c _ => ?_
  obtain ⟨tag, value⟩ := c
  cases tag <;> exact Iff.rfl

theorem newSide_length (script : List (ChangeTag × String)) :
    (newSide script).length = script.countP (·.1 != .delete) := by
  unfold newSide
  rw [List.length_filterMap_eq_countP]
  refine countP_congr fun c _ => ?_
  obtain ⟨tag, value⟩ := c
  cases tag <;> exact Iff.rfl

/-- the hunk has the changes `win`, with `o` old and `n` new lines before it -/
structure HunkOf (o n : Nat) (win : List (ChangeTag × String)) (hunk : DiffHunk) : Prop where
  oldStart : hunk.oldStart = o + 1
  oldCount : hunk.oldCount = (oldSide win).length
  newStart : hunk.newStart = n + 1
  newCount : hunk.newCount = (newSide win).length
  lines : hunk.lines.map DiffLine.bare = (allChanges o n win).map diffLine

/-- The script, with `o` old and `n` new lines before it, is cut along the hunks, and nothing
changes between them. -/
def Laid : Nat → Nat → List (ChangeTag × String) → List DiffHunk → Prop
  | _, _, script, [] => ∀ c ∈ script, isChange c = false
  | o, n, script, hunk :: hunks => ∃ kept win rest, script = kept ++ (win ++ rest) ∧
      (∀ c ∈ kept, isChange c = false) ∧
      HunkOf (o + (oldSide kept).length) (n + (newSide kept).length) win hunk ∧
      Laid (o + (oldSide kept).length + (oldSide win).length)
        (n + (newSide kept).length + (newSide win).length) rest hunks

theorem bare_diffLine (c : NumberedChange) : (diffLine c).bare = diffLine c := by
  unfold diffLine
  split <;> rfl

theorem hunkOf_diffHunk (charDiff : CharDiff) {pre win : List (ChangeTag × String)}
    (hframed : Framed isChange pre.length win) :
    HunkOf (oldSide pre).length (newSide pre).length win
      (diffHunk charDiff (allChanges (oldSide pre).length (newSide pre).length win)) := by
  have hlines : (computeInlineChanges charDiff ((allChanges (oldSide pre).length
      (newSide pre).length win).map diffLine)).map DiffLine.bare =
      (allChanges (oldSide pre).length (newSide pre).length win).map diffLine := by
    rw [computeInlineChanges_bare, map_map]
    exact map_congr_left fun c _ => bare_diffLine c
  have hold := (countP_allChanges (· != .insert) (oldSide pre).length (newSide pre).length
    win).trans (oldSide_length win).symm
  have hnew := (countP_allChanges (· != .delete) (oldSide pre).length (newSide pre).length
    win).trans (newSide_length win).symm
  obtain ⟨⟨tag, value⟩, win, rfl, hstart⟩ := hframed
  have hzero : tag ≠ .equal → (oldSide pre).length = 0 ∧ (newSide pre).length = 0 := by
    intro htag
    obtain hlen | hchange := hstart
    · rw [List.length_eq_zero_iff.mp hlen]
      exact ⟨rfl, rfl⟩
    cases tag with
    | equal => exact absurd rfl htag
    | delete => cases hchange
    | insert => cases hchange
  refine ⟨?_, hold, ?_, hnew, hlines⟩
  · cases tag with
    | equal => rfl
    | delete => rfl
    | insert => rw [(hzero nofun).1]; rfl
  cases tag with
  | equal => rfl
  | delete => rw [(hzero nofun).2]; rfl
  | insert => rfl

theorem runs_allChanges (o n : Nat) (script : List (ChangeTag × String)) :
    runs (fun c : NumberedChange => c.tag != .equal) (allChanges o n script) =
      runs isChange script := by
  have h := runs_map (p := (· != .equal)) NumberedChange.tag (allChanges o n script)
  rw [allChanges_tag, ← runs_map] at h
  exact h

theorem laid_of_covers (charDiff : CharDiff) {rs : List (Nat × Nat)}
    (pre : List (ChangeTag × String)) {script : List (ChangeTag × String)}
    (all : List NumberedChange)
    (hall : all = allChanges 0 0 (pre ++ script))
    (h : Covers isChange (Framed isChange) pre.length script rs) :
    Laid (oldSide pre).length (newSide pre).length script
      (rs.map fun r => diffHunk charDiff (slice all r)) := by
  induction rs generalizing pre script with
  | nil => exact h
  | cons r rs ih =>
    obtain ⟨s, e⟩ := r
    obtain ⟨kept, win, rest, rfl, rfl, rfl, hkept, hframed, hrest⟩ := h
    have hold : (oldSide (pre ++ kept)).length = (oldSide pre).length + (oldSide kept).length := by
      rw [oldSide_append, length_append]
    have hnew : (newSide (pre ++ kept)).length = (newSide pre).length + (newSide kept).length := by
      rw [newSide_append, length_append]
    have hslice : slice all (pre.length + kept.length, pre.length + kept.length + win.length) =
        allChanges (oldSide (pre ++ kept)).length (newSide (pre ++ kept)).length win := by
      have hcut := slice_append (allChanges 0 0 (pre ++ kept))
        (allChanges (oldSide (pre ++ kept)).length (newSide (pre ++ kept)).length win)
        (allChanges ((oldSide (pre ++ kept)).length + (oldSide win).length)
          ((newSide (pre ++ kept)).length + (newSide win).length) rest)
      rw [allChanges_length, allChanges_length, length_append, ← allChanges_append] at hcut
      rw [hall, ← append_assoc, allChanges_append 0 0 (pre ++ kept), Nat.zero_add, Nat.zero_add]
      exact hcut
    rw [List.map_cons, hslice]
    refine ⟨kept, win, rest, rfl, hkept, ?_, ?_⟩
    · rw [← hold, ← hnew]
      refine hunkOf_diffHunk charDiff ?_
      rw [length_append]
      exact hframed
    have hpre : pre ++ (kept ++ (win ++ rest)) = (pre ++ kept ++ win) ++ rest := by
      simp only [append_assoc]
    have hlaid := ih (pre ++ kept ++ win) (hall.trans (by rw [hpre])) (by
      rw [length_append, length_append]
      exact hrest)
    rw [oldSide_append, newSide_append, length_append, length_append, hold, hnew] at hlaid
    exact hlaid

/-! ## what the hunks describe -/

theorem oldSide_diffLines (o n : Nat) (script : List (ChangeTag × String)) :
    (((allChanges o n script).map diffLine).filter (·.changeType != .insert)).map
        (fun line => (line.oldLineNo, line.content)) =
      (((oldSide script).map lineContent).zipIdx (o + 1)).map fun e => (some e.2, e.1) := by
  induction script generalizing o n with
  | nil => rfl
  | cons c script ih =>
    obtain ⟨tag, value⟩ := c
    cases tag with
    | equal => exact congrArg (_ :: ·) (ih (o + 1) (n + 1))
    | delete => exact congrArg (_ :: ·) (ih (o + 1) n)
    | insert => exact ih o (n + 1)

theorem newSide_diffLines (o n : Nat) (script : List (ChangeTag × String)) :
    (((allChanges o n script).map diffLine).filter (·.changeType != .delete)).map
        (fun line => (line.newLineNo, line.content)) =
      (((newSide script).map lineContent).zipIdx (n + 1)).map fun e => (some e.2, e.1) := by
  induction script generalizing o n with
  | nil => rfl
  | cons c script ih =>
    obtain ⟨tag, value⟩ := c
    cases tag with
    | equal => exact congrArg (_ :: ·) (ih (o + 1) (n + 1))
    | delete => exact ih (o + 1) n
    | insert => exact congrArg (_ :: ·) (ih o (n + 1))

theorem filter_map_bare {β : Type} (p : DiffChangeType → Bool) (f : DiffLine → β)
    (hf : ∀ line : DiffLine, f line.bare = f line) (lines : List DiffLine) :
    (lines.filter (p ·.changeType)).map f =
      ((lines.map DiffLine.bare).filter (p ·.changeType)).map f := by
  rw [List.filter_map, map_map]
  exact map_congr_left fun line _ => (hf line).symm

section
variable {o n : Nat} {script win : List (ChangeTag × String)} {hunk : DiffHunk}
  {hunks : List DiffHunk}

theorem HunkOf.oldSide_eq (h : HunkOf o n win hunk) : hunk.oldSide =
    (((oldSide win).map lineContent).zipIdx (o + 1)).map fun e => (some e.2, e.1) := by
  unfold DiffHunk.oldSide
  rw [filter_map_bare (· != .insert) _ (fun _ => rfl), h.lines, oldSide_diffLines]

theorem HunkOf.newSide_eq (h : HunkOf o n win hunk) : hunk.newSide =
    (((newSide win).map lineContent).zipIdx (n + 1)).map fun e => (some e.2, e.1) := by
  unfold DiffHunk.newSide
  rw [filter_map_bare (· != .delete) _ (fun _ => rfl), h.lines, newSide_diffLines]

theorem HunkOf.changedLines_eq (h : HunkOf o n win hunk) : hunk.changedLines =
    ((allChanges o n win).map diffLine).filter (·.changeType != .equal) := by
  unfold DiffHunk.changedLines
  rw [filter_map_bare (· != .equal) _ (fun _ => rfl), h.lines]
  refine (map_congr_left fun line hline => ?_).trans (List.map_id _)
  obtain ⟨c, -, rfl⟩ := mem_map.mp (List.mem_of_mem_filter hline)
  exact bare_diffLine c

theorem Laid.of_mem (h : Laid o n script hunks) (hmem : hunk ∈ hunks) :
    ∃ pre win rest, script = pre ++ (win ++ rest) ∧
      HunkOf (o + (oldSide pre).length) (n + (newSide pre).length) win hunk := by
  induction hunks generalizing o n script with
  | nil => cases hmem
  | cons hunk' hunks ih =>
    obtain ⟨kept, win, rest, rfl, -, hhunk, hrest⟩ := h
    obtain rfl | hmem := List.mem_cons.mp hmem
    · exact ⟨kept, win, rest, rfl, hhunk⟩
    obtain ⟨pre, win', rest', rfl, hhunk'⟩ := ih hrest hmem
    refine ⟨kept ++ win ++ pre, win', rest', ?_, ?_⟩
    · simp only [append_assoc]
    · rw [oldSide_append, oldSide_append, newSide_append, newSide_append]
      simp only [length_append, ← Nat.add_assoc]
      exact hhunk'

theorem Laid.ordered (h : Laid o n script hunks) : hunks.Pairwise fun hunk hunk' =>
    hunk.oldStart + hunk.oldCount ≤ hunk'.oldStart ∧
      hunk.newStart + hunk.newCount ≤ hunk'.newStart := by
  induction hunks generalizing o n script with
  | nil => exact .nil
  | cons hunk hunks ih =>
    obtain ⟨kept, win, rest, -, -, hhunk, hrest⟩ := h
    refine .cons (fun hunk' hmem => ?_) (ih hrest)
    obtain ⟨pre, win', rest', -, hhunk'⟩ := hrest.of_mem hmem
    rw [hhunk.oldStart, hhunk.oldCount, hhunk.newStart, hhunk.newCount, hhunk'.oldStart,
      hhunk'.newStart]
    omega

theorem numberedLines_slice (a b c : List String) :
    ((numberedLines (a ++ (b ++ c))).drop a.length).take b.length =
      (b.zipIdx (a.length + 1)).map fun e => (some e.2, e.1) := by
  unfold numberedLines
  rw [List.zipIdx_append, map_append, drop_left' (by
    rw [length_map, length_zipIdx]), List.zipIdx_append, map_append,
    List.take_left' (by rw [length_map, length_zipIdx]), Nat.add_comm 1]

theorem Laid.old (h : Laid 0 0 script hunks) (hmem : hunk ∈ hunks) :
    0 < hunk.oldStart ∧ hunk.oldSide.length = hunk.oldCount ∧
      hunk.oldSide = ((numberedLines ((oldSide script).map lineContent)).drop
        (hunk.oldStart - 1)).take hunk.oldCount := by
  obtain ⟨pre, win, rest, rfl, hhunk⟩ := h.of_mem hmem
  have hslice := numberedLines_slice ((oldSide pre).map lineContent)
    ((oldSide win).map lineContent) ((oldSide rest).map lineContent)
  rw [length_map, length_map] at hslice
  rw [hhunk.oldStart, hhunk.oldCount, hhunk.oldSide_eq, oldSide_append, oldSide_append,
    map_append, map_append, Nat.add_sub_cancel, Nat.zero_add, hslice]
  refine ⟨Nat.succ_pos _, ?_, rfl⟩
  rw [length_map, length_zipIdx, length_map]

theorem Laid.new (h : Laid 0 0 script hunks) (hmem : hunk ∈ hunks) :
    0 < hunk.newStart ∧ hunk.newSide.length = hunk.newCount ∧
      hunk.newSide = ((numberedLines ((newSide script).map lineContent)).drop
        (hunk.newStart - 1)).take hunk.newCount := by
  obtain ⟨pre, win, rest, rfl, hhunk⟩ := h.of_mem hmem
  have hslice := numberedLines_slice ((newSide pre).map lineContent)
    ((newSide win).map lineContent) ((newSide rest).map lineContent)
  rw [length_map, length_map] at hslice
  rw [hhunk.newStart, hhunk.newCount, hhunk.newSide_eq, newSide_append, newSide_append,
    map_append, map_append, Nat.add_sub_cancel, Nat.zero_add, hslice]
  refine ⟨Nat.succ_pos _, ?_, rfl⟩
  rw [length_map, length_zipIdx, length_map]

theorem filter_kept (h : ∀ c ∈ script, isChange c = false) :
    ((allChanges o n script).map diffLine).filter (·.changeType != .equal) = [] := by
  induction script generalizing o n with
  | nil => rfl
  | cons c script ih =>
    have hc := h c mem_cons_self
    obtain ⟨tag, value⟩ := c
    cases tag with
    | equal => exact ih fun c hc => h c (List.mem_cons_of_mem _ hc)
    | delete => cases hc
    | insert => cases hc

theorem Laid.changes (h : Laid o n script hunks) : hunks.flatMap DiffHunk.changedLines =
    ((allChanges o n script).map diffLine).filter (·.changeType != .equal) := by
  induction hunks generalizing o n script with
  | nil => exact (filter_kept h).symm
  | cons hunk hunks ih =>
    obtain ⟨kept, win, rest, rfl, hkept, hhunk, hrest⟩ := h
    rw [List.flatMap_cons, ih hrest, hhunk.changedLines_eq, allChanges_append, allChanges_append,
      map_append, map_append, List.filter_append, List.filter_append, filter_kept hkept,
      List.nil_append]

theorem Laid.patched (h : Laid o n script hunks) :
    DiffHunk.patch (o + 1) ((oldSide script).map lineContent) hunks =
      (newSide script).map lineContent := by
  induction hunks generalizing o n script with
  | nil =>
    show (oldSide script).map lineContent = _
    rw [oldSide_eq_newSide h]
  | cons hunk hunks ih =>
    obtain ⟨kept, win, rest, rfl, hkept, hhunk, hrest⟩ := h
    have hno : o + (oldSide kept).length + 1 - (o + 1) = (oldSide kept).length := by omega
    have hnext : o + (oldSide kept).length + 1 + (oldSide win).length =
        o + (oldSide kept).length + (oldSide win).length + 1 := by omega
    have hside : hunk.newSide.map Prod.snd = (newSide win).map lineContent := by
      rw [hhunk.newSide_eq, map_map]
      exact List.zipIdx_map_fst _ _
    unfold DiffHunk.patch
    rw [hhunk.oldStart, hhunk.oldCount, hno, hnext, hside, oldSide_append, oldSide_append,
      map_append, map_append, List.take_left' (length_map _), ← List.drop_drop,
      drop_left' (length_map _), drop_left' (length_map _), ih hrest,
      oldSide_eq_newSide hkept, newSide_append, newSide_append, map_append, map_append]

end

section
variable (lineDiff : LineDiff) (charDiff : CharDiff) (oldText newText : String)

theorem laid_hunks (script : List (ChangeTag × String)) :
    Laid 0 0 script ((hunkChanges (allChanges 0 0 script)).map (diffHunk charDiff)) := by
  have hcovers := covers_widen (c := contextLines) (Nat.succ_pos _)
    (covers_merge (2 * contextLines) (covers_runs (p := isChange) script))
    (apart_merge (2 * contextLines) (runs isChange script))
  have hlaid := laid_of_covers charDiff [] (allChanges 0 0 script) rfl hcovers
  unfold hunkChanges mergedRanges
  rw [runs_allChanges, allChanges_length, map_map]
  rw [map_map] at hlaid
  exact hlaid

theorem countP_changedLines {tag : ChangeTag} (htag : tag ≠ .equal) (lines : List DiffLine) :
    (lines.filter (·.changeType != .equal)).countP (·.changeType == tag) =
      lines.countP (·.changeType == tag) := by
  rw [List.countP_filter]
  refine countP_congr fun line _ => ?_
  rw [Bool.and_eq_true, and_iff_left_of_imp]
  intro h
  rw [beq_iff_eq.mp h]
  exact bne_iff_ne.mpr htag

theorem sum_hunkChanges (tag : ChangeTag) (htag : tag ≠ .equal)
    (script : List (ChangeTag × String)) :
    ((hunkChanges (allChanges 0 0 script)).map (countP (·.tag == tag))).sum =
      script.countP (·.1 == tag) := by
  have htags : ∀ changes : List NumberedChange,
      (changes.map diffLine).countP (·.changeType == tag) = changes.countP (·.tag == tag) := by
    intro changes
    rw [countP_map]
    refine countP_congr fun c _ => ?_
    obtain ⟨tag', oldNo, newNo, value⟩ := c
    cases tag' <;> exact Iff.rfl
  -- the ranges do not count
  let charDiff : CharDiff := fun _ _ => []
  have hhunk : ∀ changes : List NumberedChange,
      (diffHunk charDiff changes).changedLines.countP (·.changeType == tag) =
        changes.countP (·.tag == tag) := by
    intro changes
    have hlines : (diffHunk charDiff changes).lines.map DiffLine.bare = changes.map diffLine := by
      unfold diffHunk
      rw [computeInlineChanges_bare, map_map]
      exact map_congr_left fun c _ => bare_diffLine c
    have hpred : ((fun line : DiffLine => line.changeType == tag) ∘ DiffLine.bare) =
        fun line => line.changeType == tag := rfl
    unfold DiffHunk.changedLines
    rw [countP_map, hpred, countP_changedLines htag, ← htags, ← hlines, countP_map, hpred]
  have hall := congrArg (countP (·.changeType == tag)) (laid_hunks charDiff script).changes
  rw [List.countP_flatMap, countP_changedLines htag, htags, countP_allChanges (· == tag),
    map_map] at hall
  rw [← hall]
  exact congrArg sum (map_congr_left fun changes _ => (hhunk changes).symm)

/-- no text is binary, and none has more lines than are compared -/
structure Comparable : Prop where
  oldIsText : HistoryService.isBinary (Utf8.encode oldText.toList) = false
  newIsText : HistoryService.isBinary (Utf8.encode newText.toList) = false
  oldLines : (Spec.lines oldText).length ≤ maxDiffLines
  newLines : (Spec.lines newText).length ≤ maxDiffLines

variable {oldText newText}

theorem computeDiff_hunks (h : Comparable oldText newText) :
    (computeDiff lineDiff charDiff oldText newText).hunks =
      (hunkChanges (allChanges 0 0 (lineDiff oldText newText))).map (diffHunk charDiff) ∧
    (computeDiff lineDiff charDiff oldText newText).stats.deletions =
      ((hunkChanges (allChanges 0 0 (lineDiff oldText newText))).map
        (countP (·.tag == .delete))).sum ∧
    (computeDiff lineDiff charDiff oldText newText).stats.additions =
      ((hunkChanges (allChanges 0 0 (lineDiff oldText newText))).map
        (countP (·.tag == .insert))).sum := by
  unfold computeDiff
  dsimp only
  rw [h.oldIsText, h.newIsText, decide_eq_false (Nat.not_lt.mpr h.oldLines),
    decide_eq_false (Nat.not_lt.mpr h.newLines)]
  exact ⟨rfl, rfl, rfl⟩

theorem raw_of_mem {hunk : DiffHunk} (h : Comparable oldText newText)
    (hmem : hunk ∈ (computeDiff lineDiff charDiff oldText newText).hunks) :
    ∃ lines : List DiffLine, hunk.lines = computeInlineChanges charDiff lines ∧
      ∀ line ∈ lines, line.inlineChanges = none := by
  rw [(computeDiff_hunks lineDiff charDiff h).1] at hmem
  obtain ⟨changes, -, rfl⟩ := mem_map.mp hmem
  refine ⟨changes.map diffLine, rfl, fun line hline => ?_⟩
  obtain ⟨c, -, rfl⟩ := mem_map.mp hline
  rw [← bare_diffLine c]
  rfl

/-- For a line script and a character script that lead from the one side to the other, the hunks
describe the edit, and the ranges of the lines, counted in characters, select what differs.  Counted
in UTF-16 units they do if and only if no character up to the last changed one takes two units. -/
theorem compute_diff_describes {lineTokens : String → List String}
    (hlines : EditScript.Delivers (lineTokens oldText) (lineTokens newText)
      (lineDiff oldText newText))
    (hchars : charDiff.Delivers) (h : Comparable oldText newText) :
    DiffDescribes ((lineTokens oldText).map lineContent) ((lineTokens newText).map lineContent)
        (lineDiff oldText newText) (computeDiff lineDiff charDiff oldText newText) ∧
      (∀ hunk ∈ (computeDiff lineDiff charDiff oldText newText).hunks,
        InlineSelects String.length charDiff hunk.lines) ∧
      ((∀ hunk ∈ (computeDiff lineDiff charDiff oldText newText).hunks,
          InlineSelects utf16Length charDiff hunk.lines) ↔
        ∀ hunk ∈ (computeDiff lineDiff charDiff oldText newText).hunks,
          Narrow charDiff hunk.lines) := by
  obtain ⟨hhunks, hdeletions, hadditions⟩ := computeDiff_hunks lineDiff charDiff h
  have hlaid := laid_hunks charDiff (lineDiff oldText newText)
  rw [← hhunks] at hlaid
  refine ⟨?_, fun hunk hmem => ?_, ?_⟩
  · rw [← hlines.old, ← hlines.new]
    exact
      { ordered := hlaid.ordered
        old hunk hmem := hlaid.old hmem
        new hunk hmem := hlaid.new hmem
        changes := hlaid.changes
        deletions := hdeletions.trans (sum_hunkChanges .delete nofun _)
        additions := hadditions.trans (sum_hunkChanges .insert nofun _)
        patched := hlaid.patched }
  · obtain ⟨lines, heq, hnone⟩ := raw_of_mem lineDiff charDiff h hmem
    rw [heq]
    exact inlineSelects_chars hchars hnone
  · refine forall_congr' fun hunk => forall_congr' fun hmem => ?_
    obtain ⟨lines, heq, hnone⟩ := raw_of_mem lineDiff charDiff h hmem
    rw [heq]
    exact inlineSelects_utf16_iff hchars hnone

end

/-! ## a diff with a character of two units -/

/-- the tokens up to the first difference are kept, the others replaced -/
def prefixDiff : List String → List String → List (ChangeTag × String)
  | [], new => new.map (.insert, ·)
  | old, [] => old.map (.delete, ·)
  | a :: old, b :: new =>
    if a = b then (.equal, a) :: prefixDiff old new
    else (a :: old).map (.delete, ·) ++ (b :: new).map (.insert, ·)

theorem prefixDiff_delivers (old new : List String) :
    EditScript.Delivers old new (prefixDiff old new) := by
  have hdel : ∀ l : List String, EditScript.Delivers l [] (l.map (ChangeTag.delete, ·)) := by
    intro l
    induction l with
    | nil => exact ⟨rfl, rfl⟩
    | cons a l ih => exact ⟨congrArg (a :: ·) ih.old, ih.new⟩
  have hins : ∀ l : List String, EditScript.Delivers [] l (l.map (ChangeTag.insert, ·)) := by
    intro l
    induction l with
    | nil => exact ⟨rfl, rfl⟩
    | cons a l ih => exact ⟨ih.old, congrArg (a :: ·) ih.new⟩
  induction old generalizing new with
  | nil => exact hins new
  | cons a old ih =>
    cases new with
    | nil => exact hdel (a :: old)
    | cons b new =>
      unfold prefixDiff
      split
      next hab =>
        subst hab
        exact ⟨congrArg (a :: ·) (ih new).old, congrArg (a :: ·) (ih new).new⟩
      next =>
        refine ⟨?_, ?_⟩
        · rw [oldSide_append, (hdel _).old, (hins _).old, List.append_nil]
        · rw [newSide_append, (hdel _).new, (hins _).new, List.nil_append]

def feedTokens : List Char → List (List Char)
  | [] => []
  | c :: cs =>
    if c = '\n' then [c] :: feedTokens cs
    else
      match feedTokens cs with
      | [] => [[c]]
      | line :: lines => (c :: line) :: lines

def sampleTokens (text : String) : List String := (feedTokens text.toList).map String.ofList

def sampleLineDiff : LineDiff := fun old new => prefixDiff (sampleTokens old) (sampleTokens new)

def sampleCharDiff : CharDiff := fun old new => prefixDiff (charTokens old) (charTokens new)

def grinOld : String := "one\n😀a\n"

def grinNew : String := "one\n😀b\n"

theorem grin_comparable : Comparable grinOld grinNew :=
  ⟨by decide +kernel, by decide +kernel, by decide +kernel, by decide +kernel⟩

theorem grin_described :
    DiffDescribes ["one", "😀a"] ["one", "😀b"] (sampleLineDiff grinOld grinNew)
      (computeDiff sampleLineDiff sampleCharDiff grinOld grinNew) ∧
    ∀ hunk ∈ (computeDiff sampleLineDiff sampleCharDiff grinOld grinNew).hunks,
      InlineSelects String.length sampleCharDiff hunk.lines := by
  have hold : (sampleTokens grinOld).map lineContent = ["one", "😀a"] := by decide +kernel
  have hnew : (sampleTokens grinNew).map lineContent = ["one", "😀b"] := by decide +kernel
  have h := compute_diff_describes sampleLineDiff sampleCharDiff
    (prefixDiff_delivers (sampleTokens grinOld) (sampleTokens grinNew))
    (fun old new => prefixDiff_delivers (charTokens old) (charTokens new)) grin_comparable
  exact ⟨h.1, h.2.1⟩

/-- the character that differs is the third unit of its line, the range has the second -/
theorem grin_not_utf16 :
    EditScript.Delivers (sampleTokens grinOld) (sampleTokens grinNew)
        (sampleLineDiff grinOld grinNew) ∧
      sampleCharDiff.Delivers ∧ Comparable grinOld grinNew ∧
      ¬ ∀ hunk ∈ (computeDiff sampleLineDiff sampleCharDiff grinOld grinNew).hunks,
        InlineSelects utf16Length sampleCharDiff hunk.lines := by
  refine ⟨prefixDiff_delivers _ _, fun old new => prefixDiff_delivers _ _, grin_comparable,
    fun h => ?_⟩
  have hgroups := (h _ mem_cons_self).groups
    [⟨.equal, "one", some 1, some 1, none⟩]
    [⟨.delete, "😀a", some 2, none, some [⟨1, 2, .delete⟩]⟩]
    [⟨.insert, "😀b", none, some 2, some [⟨1, 2, .insert⟩]⟩] []
    ⟨rfl, by simp, by simp, by simp, by simp⟩
  have hpair := hgroups.2.2 _ mem_cons_self
  have hsecond := (hpair.old 1).mp ⟨⟨1, 2, .delete⟩, mem_cons_self, by decide, by decide⟩
  revert hsecond
  decide +kernel

end HistoryFileRepository

end CcPanes

import CcPanes.Spec.SpecText

/-!
# Lines, joined and read again

`str::lines` takes the line ending off each line, with a `\r` before it, and gives no empty line for
the end of the text.
-/

namespace CcPanes.Spec
open List

variable {ls : List String} {line : String}

/-- a line without the `\r` at its end -/
def stripCr (line : String) : String :=
  match line.toList.reverse with
  | '\r' :: rest => String.ofList rest.reverse
  | _ => line

/-- the lines of a text that has been joined from lines -/
def readBack : List String → List String
  | [] => []
  | [line] => if line = "" then [] else [line]
  | line :: ls => stripCr line :: readBack ls

def EndsInCr (line : String) : Prop := line.toList.getLast? = some '\r'

/-! ## one line -/

theorem linesFrom_newline (front cs : List Char) :
    linesFrom front ('\n' :: cs) = stripCr (String.ofList front.reverse) :: linesFrom [] cs := by
  have hlist : (String.ofList front.reverse).toList.reverse = front := by
    rw [String.toList_ofList, reverse_reverse]
  unfold stripCr
  rw [hlist, linesFrom.eq_def]
  dsimp only
  rw [if_pos rfl]
  split
  · rfl
  · next hne =>
    first
    | rfl
    | split
      · next rest => exact absurd rfl (hne rest)
      · rfl

theorem linesFrom_cons {c : Char} (hc : c ≠ '\n') (front cs : List Char) :
    linesFrom front (c :: cs) = linesFrom (c :: front) cs := by
  rw [linesFrom.eq_def]
  exact if_neg hc

theorem linesFrom_line {line : List Char} (h : '\n' ∉ line) (front cs : List Char) :
    linesFrom front (line ++ '\n' :: cs) =
      stripCr (String.ofList (front.reverse ++ line)) :: linesFrom [] cs := by
  induction line generalizing front with
  | nil => rw [append_nil, nil_append, linesFrom_newline]
  | cons c line ih =>
    rw [mem_cons, not_or] at h
    rw [cons_append, linesFrom_cons (Ne.symm h.1), ih h.2, reverse_cons, append_assoc]
    rfl

theorem linesFrom_last {line : List Char} (h : '\n' ∉ line) (front : List Char) :
    linesFrom front line = if front.reverse ++ line = [] then []
      else [String.ofList (front.reverse ++ line)] := by
  induction line generalizing front with
  | nil =>
    rw [append_nil, linesFrom]
    cases front with
    | nil => rfl
    | cons =>
      rw [if_neg (by simp), if_neg (by simp)]
  | cons c line ih =>
    rw [mem_cons, not_or] at h
    rw [linesFrom_cons (Ne.symm h.1), ih h.2, reverse_cons, append_assoc]
    rfl

theorem lines_line (h : '\n' ∉ line.toList) (text : String) :
    lines (line ++ "\n" ++ text) = stripCr line :: lines text := by
  have htext : (line ++ "\n" ++ text).toList = line.toList ++ '\n' :: text.toList := by
    rw [String.toList_append, String.toList_append, append_assoc]
    rfl
  rw [lines, htext, linesFrom_line h, reverse_nil, nil_append, String.ofList_toList]
  rfl

theorem lines_last (h : '\n' ∉ line.toList) : lines line = if line = "" then [] else [line] := by
  rw [lines, linesFrom_last h, reverse_nil, nil_append, String.ofList_toList]
  by_cases hempty : line = ""
  · rw [if_pos hempty, hempty]
    rfl
  · rw [if_neg hempty, if_neg]
    intro hnil
    exact hempty (String.toList_inj.mp (hnil.trans String.toList_empty.symm))

theorem mem_stripCr {c : Char} (h : c ∈ (stripCr line).toList) : c ∈ line.toList := by
  unfold stripCr at h
  split at h
  · next rest hrev =>
    rw [String.toList_ofList, mem_reverse] at h
    rw [← mem_reverse, hrev]
    exact mem_cons_of_mem _ h
  · exact h

theorem mem_linesFrom {front text : List Char} (h : '\n' ∉ front)
    (hline : line ∈ linesFrom front text) : '\n' ∉ line.toList := by
  have hfront : '\n' ∉ (String.ofList front.reverse).toList := by
    rw [String.toList_ofList, mem_reverse]
    exact h
  induction text generalizing front with
  | nil =>
    rw [linesFrom] at hline
    split at hline
    · cases hline
    · rw [mem_singleton.mp hline]
      exact hfront
  | cons c cs ih =>
    by_cases hc : c = '\n'
    · rw [hc, linesFrom_newline, mem_cons] at hline
      obtain rfl | hline := hline
      · exact fun hmem => hfront (mem_stripCr hmem)
      · exact ih not_mem_nil hline not_mem_nil
    rw [linesFrom_cons hc] at hline
    have hnext : '\n' ∉ c :: front := by
      rw [mem_cons, not_or]
      exact ⟨Ne.symm hc, h⟩
    refine ih hnext hline ?_
    rw [String.toList_ofList, mem_reverse]
    exact hnext

theorem mem_lines {text line : String} (h : line ∈ lines text) : '\n' ∉ line.toList :=
  mem_linesFrom not_mem_nil h

theorem stripCr_eq_self_iff (line : String) : stripCr line = line ↔ ¬EndsInCr line := by
  unfold stripCr EndsInCr
  rw [getLast?_eq_head?_reverse]
  split
  · next rest h =>
    rw [h]
    refine iff_of_false (fun heq => ?_) (fun hno => hno rfl)
    have hlen := congrArg (fun s : String => s.toList.length) heq
    have hrev := congrArg length h
    simp only [String.toList_ofList, length_reverse, length_cons] at hlen hrev
    omega
  · next hne =>
    refine iff_of_true rfl fun hhead => ?_
    obtain ⟨rest, hrest⟩ := head?_eq_some_iff.mp hhead
    exact hne rest hrest

theorem startsWith_stripCr {start : String} (h : '\r' ∉ start.toList) (line : String) :
    startsWith (stripCr line) start = startsWith line start := by
  unfold stripCr
  split
  · next rest hrev =>
    have hline : line.toList = rest.reverse ++ ['\r'] := by
      rw [← reverse_reverse line.toList, hrev, reverse_cons]
    unfold startsWith
    rw [hline, String.toList_ofList, Bool.eq_iff_iff, isPrefixOf_iff_prefix,
      isPrefixOf_iff_prefix, prefix_concat_iff]
    refine ⟨.inr, ?_⟩
    rintro (heq | hpre)
    · rw [heq] at h
      exact absurd (mem_append_right _ (mem_singleton_self _)) h
    · exact hpre
  · rfl

/-! ## joined lines -/

theorem joinLines_cons (line : String) (h : ls ≠ []) :
    joinLines (line :: ls) = line ++ "\n" ++ joinLines ls :=
  String.intercalate_cons_of_ne_nil h

theorem lines_joinLines (h : ∀ line ∈ ls, '\n' ∉ line.toList) :
    lines (joinLines ls) = readBack ls := by
  induction ls with
  | nil => rfl
  | cons line ls ih =>
    rw [forall_mem_cons] at h
    cases ls with
    | nil =>
      rw [joinLines, String.intercalate_singleton]
      exact lines_last h.1
    | cons =>
      rw [joinLines_cons line (cons_ne_nil _ _), lines_line h.1, ih h.2]
      rfl

theorem readBack_cons (line : String) (h : ls ≠ []) :
    readBack (line :: ls) = stripCr line :: readBack ls := by
  cases ls with
  | nil => exact absurd rfl h
  | cons => rfl

theorem readBack_append (ls : List String) {ls' : List String} (h : ls' ≠ []) :
    readBack (ls ++ ls') = ls.map stripCr ++ readBack ls' := by
  induction ls with
  | nil => rfl
  | cons line ls ih =>
    have hne : ls ++ ls' ≠ [] := fun hnil => h (append_eq_nil_iff.mp hnil).2
    rw [cons_append, readBack_cons line hne, ih]
    rfl

theorem readBack_eq_self_iff (ls : List String) :
    readBack ls = ls ↔ (∀ line ∈ ls.dropLast, ¬EndsInCr line) ∧ ls.getLast? ≠ some "" := by
  induction ls with
  | nil => exact iff_of_true rfl ⟨nofun, nofun⟩
  | cons line ls ih =>
    cases ls with
    | nil =>
      by_cases hempty : line = ""
      · rw [hempty]
        exact iff_of_false nofun fun h => h.2 rfl
      · refine iff_of_true (if_neg hempty) ⟨nofun, ?_⟩
        exact fun h => hempty (Option.some.inj h)
    | cons =>
      rw [readBack_cons line (cons_ne_nil _ _), cons.injEq, ih, stripCr_eq_self_iff,
        dropLast_cons_of_ne_nil (cons_ne_nil _ _), forall_mem_cons, getLast?_cons_cons, and_assoc]

theorem mem_readBack (h : ∀ line ∈ ls, '\n' ∉ line.toList) :
    ∀ line ∈ readBack ls, '\n' ∉ line.toList := by
  rw [← lines_joinLines h]
  exact fun line hline => mem_lines hline

theorem joinLines_nested (front : List String) (h : ls ≠ []) (back : List String) :
    joinLines (front ++ joinLines ls :: back) = joinLines (front ++ ls ++ back) := by
  induction front with
  | nil =>
    cases back with
    | nil =>
      rw [append_nil]
      exact String.intercalate_singleton
    | cons =>
      rw [nil_append, joinLines_cons _ (cons_ne_nil _ _)]
      exact (String.intercalate_append_of_ne_nil h (cons_ne_nil _ _)).symm
  | cons line front ih =>
    have hne : front ++ ls ++ back ≠ [] := fun hnil =>
      h (append_eq_nil_iff.mp (append_eq_nil_iff.mp hnil).1).2
    rw [cons_append, joinLines_cons _ (by simp), ih, cons_append, cons_append,
      joinLines_cons _ hne]

theorem joinLines_around (front back : List String) :
    ∃ before behind, ∀ line, joinLines (front ++ line :: back) = before ++ line ++ behind := by
  induction front with
  | nil =>
    cases back with
    | nil =>
      refine ⟨"", "", fun line => ?_⟩
      rw [String.empty_append, String.append_empty]
      exact String.intercalate_singleton
    | cons next back =>
      refine ⟨"", "\n" ++ joinLines (next :: back), fun line => ?_⟩
      rw [nil_append, joinLines_cons _ (cons_ne_nil _ _), String.empty_append, String.append_assoc]
  | cons first front ih =>
    obtain ⟨before, behind, h⟩ := ih
    refine ⟨first ++ "\n" ++ before, behind, fun line => ?_⟩
    rw [cons_append, joinLines_cons _ (by simp), h, String.append_assoc, String.append_assoc,
      String.append_assoc, String.append_assoc, String.append_assoc]

end CcPanes.Spec

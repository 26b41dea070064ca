import CcPanes.Spec.TaskSync
import Mathlib.Data.List.TakeWhile

/-!
# A spec file after a sync

The file is the lines up to the heading of the tasks, the section as it is written, and the lines from
the next heading on.
-/

namespace CcPanes.Spec
open List

variable {content : String} {line : String} {tasks : List TodoSubtask} {head tail : List String}

/-! ## the line of a subtask -/

def taskLine (r : TodoSubtask) : String :=
  "- [" ++ (if r.completed then "x" else " ") ++ "] " ++ r.title

structure IsTitle (title : String) : Prop where
  trimmed : trim title = title
  nonempty : title ≠ ""
  oneLine : '\n' ∉ title.toList

theorem getLast_of_trimmed {title : String} (h : trim title = title) {c : Char}
    (hc : title.toList.getLast? = some c) : isWhitespace c = false := by
  have hlist := congrArg String.toList h
  rw [trim, String.toList_ofList] at hlist
  rw [← hlist, getLast?_reverse] at hc
  have hhead := head?_dropWhile_not isWhitespace
    (title.toList.dropWhile isWhitespace).reverse
  rw [hc] at hhead
  exact hhead

section
variable (r : TodoSubtask)

theorem taskLine_toList : (taskLine r).toList =
    '-' :: ' ' :: '[' :: (if r.completed then 'x' else ' ') :: ']' :: ' ' :: r.title.toList := by
  unfold taskLine
  rw [String.toList_append, String.toList_append, String.toList_append]
  cases r.completed <;> rfl

theorem taskLine_oneLine (h : IsTitle r.title) : '\n' ∉ (taskLine r).toList := by
  rw [taskLine_toList]
  simp only [mem_cons, not_or]
  refine ⟨by decide, by decide, by decide, ?_, by decide, by decide, h.oneLine⟩
  split <;> decide

theorem taskLine_not_cr (h : IsTitle r.title) : ¬EndsInCr (taskLine r) := by
  unfold EndsInCr
  rw [taskLine_toList]
  intro hlast
  have hne : r.title.toList ≠ [] :=
    fun hnil => h.nonempty (String.toList_inj.mp (hnil.trans String.toList_empty.symm))
  obtain ⟨c, cs, hcs⟩ := exists_cons_of_ne_nil hne
  rw [hcs] at hlast
  simp only [getLast?_cons_cons] at hlast
  rw [← hcs] at hlast
  cases getLast_of_trimmed h.trimmed hlast

theorem taskLine_not_heading (start : String) (hstart : start.toList.head? = some '#') :
    startsWith (taskLine r) start = false := by
  unfold startsWith
  rw [taskLine_toList]
  obtain ⟨rest, hrest⟩ := head?_eq_some_iff.mp hstart
  rw [hrest]
  rfl

theorem trimStart_taskLine : trimStart (taskLine r) = taskLine r := by
  unfold trimStart
  rw [taskLine_toList, dropWhile_cons_of_neg (by decide), ← taskLine_toList,
    String.ofList_toList]

theorem taskLine_not_fence : startsWith (trimStart (taskLine r)) "```" = false := by
  rw [trimStart_taskLine]
  unfold startsWith
  rw [taskLine_toList]
  rfl

theorem parseBox_taskLine : parseBox (taskLine r) = some (r.completed, r.title) := by
  have hstart : ∀ start : String, startsWith (taskLine r) start =
      start.toList.isPrefixOf (taskLine r).toList := fun _ => rfl
  unfold parseBox stripPrefix
  rw [trimStart_taskLine]
  simp only [hstart]
  rw [taskLine_toList]
  cases r.completed with
  | true =>
    have hx : "- [x] ".toList.isPrefixOf ('-' :: ' ' :: '[' :: 'x' :: ']' :: ' ' ::
        r.title.toList) = true := by simp [isPrefixOf]
    simp only
    exact congrArg (fun title => some (true, title)) (String.ofList_toList)
  | false =>
    have hx : "- [x] ".toList.isPrefixOf ('-' :: ' ' :: '[' :: ' ' :: ']' :: ' ' ::
        r.title.toList) = false := by simp [isPrefixOf]
    have hX : "- [X] ".toList.isPrefixOf ('-' :: ' ' :: '[' :: ' ' :: ']' :: ' ' ::
        r.title.toList) = false := by simp [isPrefixOf]
    have hopen : "- [ ] ".toList.isPrefixOf ('-' :: ' ' :: '[' :: ' ' :: ']' :: ' ' ::
        r.title.toList) = true := by simp [isPrefixOf]
    simp only [Bool.false_eq_true, if_false, hx, hX, hopen]
    exact congrArg (fun title => some (false, title)) (String.ofList_toList)

end

/-! ## the file -/

/-- what is around the section: its heading is the last line before, a heading the first behind -/
structure Around (head tail : List String) : Prop where
  heading : ∃ front line, head = front ++ [line] ∧
    (∀ l ∈ front, startsWith l "## Tasks" = false) ∧ startsWith line "## Tasks" = true
  next : tail = [] ∨ ∃ line rest, tail = line :: rest ∧ startsWith line "## " = true
  headLines : ∀ l ∈ head, '\n' ∉ l.toList
  tailLines : ∀ l ∈ tail, '\n' ∉ l.toList

def fileText (head tasks tail : List String) : String :=
  joinLines (head ++ [tasksComment] ++ tasks ++ [""] ++ tail)

theorem findIdx_heading {p : String → Bool} {front : List String}
    (hfront : ∀ l ∈ front, p l = false) (hline : p line = true) (rest : List String) :
    (front ++ line :: rest).findIdx p = front.length := by
  induction front with
  | nil => rw [nil_append, findIdx_cons, hline]; rfl
  | cons l front ih =>
    rw [forall_mem_cons] at hfront
    rw [cons_append, findIdx_cons, hfront.1, ih hfront.2]
    rfl

theorem exists_around (h : (lines content).any (startsWith · "## Tasks") = true) :
    ∃ head section_ tail, Around head tail ∧ (∀ l ∈ section_, startsWith l "## " = false) ∧
      lines content = head ++ section_ ++ tail ∧ outsideLines content = (head, tail) := by
  obtain ⟨line, hline, hheading⟩ := any_eq_true.mp h
  have hlt : (lines content).findIdx (startsWith · "## Tasks") < (lines content).length :=
    findIdx_lt_length_of_exists ⟨line, hline, hheading⟩
  obtain ⟨rest, hrest⟩ : ∃ rest, rest = (lines content).drop
    ((lines content).findIdx (startsWith · "## Tasks") + 1) := ⟨_, rfl⟩
  have hsplit : lines content = (lines content).take
      ((lines content).findIdx (startsWith · "## Tasks") + 1) ++
        rest.takeWhile (fun line => !startsWith line "## ") ++
          rest.dropWhile fun line => !startsWith line "## " := by
    rw [append_assoc, takeWhile_append_dropWhile, hrest, take_append_drop]
  refine ⟨_, _, _, ⟨?_, ?_, ?_, ?_⟩, ?_, hsplit, ?_⟩
  · refine ⟨(lines content).take ((lines content).findIdx (startsWith · "## Tasks")),
      (lines content)[(lines content).findIdx (startsWith · "## Tasks")],
      take_succ_eq_append_getElem hlt, fun l hl => ?_, findIdx_getElem (w := hlt)⟩
    obtain ⟨i, hi, rfl⟩ := mem_iff_getElem.mp hl
    rw [length_take] at hi
    rw [getElem_take]
    exact not_of_lt_findIdx (Nat.lt_of_lt_of_le hi (Nat.min_le_left _ _))
  · cases htail : rest.dropWhile fun line => !startsWith line "## " with
    | nil => exact .inl rfl
    | cons line tail =>
      have hhead := head?_dropWhile_not (fun line => !startsWith line "## ") rest
      rw [htail] at hhead
      exact .inr ⟨line, tail, rfl, by simpa using hhead⟩
  · exact fun l hl => mem_lines (mem_of_mem_take hl)
  · intro l hl
    have hin := (dropWhile_suffix _).subset hl
    rw [hrest] at hin
    exact mem_lines (mem_of_mem_drop hin)
  · intro l hl
    have hno := mem_takeWhile_imp hl
    simpa using hno
  · rw [hrest]
    rfl

theorem renderTasksSection_eq (tasks : List TodoSubtask) :
    renderTasksSection tasks = joinLines (tasks.map taskLine) := rfl

theorem isEmpty_joinLines (h : line ≠ "") (ls : List String) :
    (joinLines (line :: ls)).isEmpty = false := by
  rw [String.isEmpty_eq_false_iff]
  intro hempty
  cases ls with
  | nil => exact h (String.intercalate_singleton.symm.trans hempty)
  | cons =>
    rw [joinLines_cons line (cons_ne_nil _ _)] at hempty
    have hlist := congrArg String.toList hempty
    rw [String.toList_append, String.toList_append] at hlist
    simp at hlist

theorem replaceTasksSection_eq (h : (lines content).any (startsWith · "## Tasks") = true)
    (tasks : List TodoSubtask) :
    replaceTasksSection content (renderTasksSection tasks) =
      fileText (outsideLines content).1 (tasks.map taskLine) (outsideLines content).2 := by
  have hsome : (lines content).findIdx? (startsWith · "## Tasks") =
      some ((lines content).findIdx (startsWith · "## Tasks")) :=
    findIdx?_eq_some_of_exists (any_eq_true.mp h)
  unfold replaceTasksSection fileText outsideLines
  simp only [hsome]
  cases tasks with
  | nil => rfl
  | cons r tasks =>
    have hline : taskLine r ≠ "" := by
      intro hempty
      have hlist := congrArg String.toList hempty
      rw [taskLine_toList] at hlist
      cases hlist
    have hfull : (renderTasksSection (r :: tasks)).isEmpty = false := isEmpty_joinLines hline _
    rw [hfull, if_neg Bool.false_ne_true, renderTasksSection_eq, append_assoc,
      append_assoc, append_assoc (_ ++ _)]
    exact (joinLines_nested _ (cons_ne_nil _ _) _).trans (by simp)

section

theorem tasksComment_chars : tasksComment.toList.head? = some '<' ∧
    '\n' ∉ tasksComment.toList ∧ tasksComment.toList.getLast? = some '>' := by decide

theorem tasksComment_oneLine : '\n' ∉ tasksComment.toList := tasksComment_chars.2.1

theorem exists_tasksComment : ∃ rest, tasksComment.toList = '<' :: rest :=
  head?_eq_some_iff.mp tasksComment_chars.1

theorem readBack_empty_cons (tail : List String) :
    readBack ("" :: tail) = if tail = [] then [] else "" :: readBack tail := by
  cases tail with
  | nil => rfl
  | cons => rfl

theorem map_stripCr_tasks (h : ∀ r ∈ tasks, IsTitle r.title) :
    (tasks.map taskLine).map stripCr = tasks.map taskLine := by
  rw [map_map]
  refine map_congr_left fun r hr => ?_
  exact (stripCr_eq_self_iff _).mpr (taskLine_not_cr r (h r hr))

def sectionLines (tasks : List TodoSubtask) (tail : List String) : List String :=
  tasksComment :: tasks.map taskLine ++ if tail = [] then [] else [""]

theorem stripCr_tasksComment : stripCr tasksComment = tasksComment := by
  rw [stripCr_eq_self_iff]
  unfold EndsInCr
  rw [tasksComment_chars.2.2]
  decide

theorem lines_fileText (haround : Around head tail) (h : ∀ r ∈ tasks, IsTitle r.title) :
    lines (fileText head (tasks.map taskLine) tail) =
      head.map stripCr ++ sectionLines tasks tail ++ readBack tail := by
  unfold fileText sectionLines
  rw [lines_joinLines, append_assoc _ [""] tail, readBack_append _ (by simp), map_append,
    map_append, map_stripCr_tasks h, singleton_append, readBack_empty_cons, map_cons,
    stripCr_tasksComment]
  · by_cases htail : tail = []
    · simp [htail, readBack]
    · simp [htail]
  intro line hline
  simp only [mem_append, mem_singleton, mem_map, or_assoc] at hline
  obtain hline | rfl | ⟨r, hr, rfl⟩ | rfl | hline := hline
  · exact haround.headLines line hline
  · exact tasksComment_oneLine
  · exact taskLine_oneLine r (h r hr)
  · exact not_mem_nil
  · exact haround.tailLines line hline

theorem sectionLines_not_heading (tail : List String) :
    ∀ line ∈ sectionLines tasks tail, startsWith line "## " = false := by
  intro line hline
  unfold sectionLines at hline
  obtain hline | hline := mem_append.mp hline
  · obtain rfl | hline := mem_cons.mp hline
    · obtain ⟨rest, hrest⟩ := exists_tasksComment
      unfold startsWith
      rw [hrest]
      rfl
    · obtain ⟨r, -, rfl⟩ := mem_map.mp hline
      exact taskLine_not_heading r "## " rfl
  · split at hline
    · cases hline
    · rw [mem_singleton.mp hline]
      decide

theorem read_section {content : String} {section_ : List String} (haround : Around head tail)
    (hsection : ∀ line ∈ section_, startsWith line "## " = false)
    (hlines : lines content = head ++ section_ ++ tail) :
    outsideLines content = (head, tail) ∧
      extractTasksSection content = some (joinLines section_) := by
  obtain ⟨front, line, rfl, hfront, hline⟩ := haround.heading
  have hsplit : lines content = front ++ line :: (section_ ++ tail) := by
    rw [hlines]
    simp
  have hidx : (lines content).findIdx (startsWith · "## Tasks") = front.length := by
    rw [hsplit]
    exact findIdx_heading hfront hline _
  have hsome : (lines content).findIdx? (startsWith · "## Tasks") = some front.length := by
    rw [← hidx]
    refine findIdx?_eq_some_of_exists ⟨line, ?_, hline⟩
    rw [hsplit]
    exact mem_append_right _ mem_cons_self
  have htake : (lines content).take (front.length + 1) = front ++ [line] := by
    rw [hsplit, take_length_add_append]
    rfl
  have hdrop : (lines content).drop (front.length + 1) = section_ ++ tail := by
    rw [hsplit, drop_length_add_append]
    rfl
  have hnot : ∀ l ∈ section_, (!startsWith l "## ") = true := by
    intro l hl
    rw [hsection l hl]
    rfl
  have hnext : tail.dropWhile (fun line => !startsWith line "## ") = tail ∧
      tail.takeWhile (fun line => !startsWith line "## ") = [] := by
    obtain rfl | ⟨l, rest, rfl, hl⟩ := haround.next
    · exact ⟨rfl, rfl⟩
    · rw [dropWhile_cons_of_neg (by rw [hl]; decide),
        takeWhile_cons_of_neg (by rw [hl]; decide)]
      exact ⟨rfl, rfl⟩
  constructor
  · unfold outsideLines
    simp only [hidx, htake, hdrop, dropWhile_append_of_pos hnot, hnext.1]
  · unfold extractTasksSection
    simp only [hsome, Option.map_some, hdrop, takeWhile_append_of_pos hnot, hnext.2, append_nil]

theorem Around.read (h : Around head tail) : Around (head.map stripCr) (readBack tail) := by
  have hstrip : ∀ l : String, '\n' ∉ l.toList → '\n' ∉ (stripCr l).toList :=
    fun l hl hmem => hl (mem_stripCr hmem)
  constructor
  · obtain ⟨front, line, rfl, hfront, hline⟩ := h.heading
    refine ⟨front.map stripCr, stripCr line, map_append, ?_, ?_⟩
    · intro l hl
      obtain ⟨l', hl', rfl⟩ := mem_map.mp hl
      rw [startsWith_stripCr (by decide)]
      exact hfront l' hl'
    · rw [startsWith_stripCr (by decide)]
      exact hline
  · obtain rfl | ⟨line, rest, rfl, hline⟩ := h.next
    · exact .inl rfl
    cases rest with
    | nil =>
      have hne : line ≠ "" := by
        rintro rfl
        cases hline
      exact .inr ⟨line, [], if_neg hne, hline⟩
    | cons next rest =>
      refine .inr ⟨stripCr line, readBack (next :: rest), rfl, ?_⟩
      rw [startsWith_stripCr (by decide)]
      exact hline
  · intro l hl
    obtain ⟨l', hl', rfl⟩ := mem_map.mp hl
    exact hstrip l' (h.headLines l' hl')
  · exact mem_readBack h.tailLines

theorem outsideLines_fileText (haround : Around head tail) (h : ∀ r ∈ tasks, IsTitle r.title) :
    outsideLines (fileText head (tasks.map taskLine) tail) = (head.map stripCr, readBack tail) :=
  (read_section haround.read (sectionLines_not_heading tail) (lines_fileText haround h)).1

theorem lines_stripFencesFrom {ls : List String}
    (hfence : ∀ line ∈ ls, startsWith (trimStart line) "```" = false)
    (hline : ∀ line ∈ ls, '\n' ∉ line.toList) :
    lines (stripFencesFrom false ls) = ls.map stripCr := by
  induction ls with
  | nil => rfl
  | cons line ls ih =>
    rw [forall_mem_cons] at hfence hline
    rw [stripFencesFrom, hfence.1, if_neg Bool.false_ne_true, if_neg Bool.false_ne_true,
      lines_line hline.1, ih hfence.2 hline.2]
    rfl

theorem lines_sectionLines (h : ∀ r ∈ tasks, IsTitle r.title) (tail : List String) :
    lines (joinLines (sectionLines tasks tail)) = tasksComment :: tasks.map taskLine := by
  have hcr : ∀ line ∈ tasksComment :: tasks.map taskLine, stripCr line = line := by
    rw [forall_mem_cons, forall_mem_map]
    exact ⟨stripCr_tasksComment, fun r hr => (stripCr_eq_self_iff _).mpr (taskLine_not_cr r (h r hr))⟩
  rw [lines_joinLines]
  · unfold sectionLines
    split
    · rw [append_nil, readBack_eq_self_iff]
      refine ⟨fun line hline => ?_, fun hlast => ?_⟩
      · exact (stripCr_eq_self_iff line).mp (hcr line (mem_of_mem_dropLast hline))
      obtain hmem | hmem := mem_cons.mp (mem_of_getLast? hlast)
      · obtain ⟨rest, hrest⟩ := exists_tasksComment
        rw [← hmem] at hrest
        cases hrest
      obtain ⟨r, -, heq⟩ := mem_map.mp hmem
      have hlist := congrArg String.toList heq
      rw [taskLine_toList] at hlist
      cases hlist
    · rw [readBack_append _ (cons_ne_nil _ _), map_congr_left (g := id) hcr, map_id]
      exact append_nil _
  intro line hline
  unfold sectionLines at hline
  obtain hline | hline := mem_append.mp hline
  · obtain rfl | hline := mem_cons.mp hline
    · exact tasksComment_oneLine
    · obtain ⟨r, hr, rfl⟩ := mem_map.mp hline
      exact taskLine_oneLine r (h r hr)
  split at hline
  · cases hline
  · rw [mem_singleton.mp hline]
    exact not_mem_nil

theorem trimStart_tasksComment : trimStart tasksComment = tasksComment := by
  obtain ⟨rest, hrest⟩ := exists_tasksComment
  unfold trimStart
  rw [hrest, dropWhile_cons_of_neg (by decide), ← hrest, String.ofList_toList]

theorem tasksComment_not_fence : startsWith (trimStart tasksComment) "```" = false := by
  obtain ⟨rest, hrest⟩ := exists_tasksComment
  rw [trimStart_tasksComment]
  unfold startsWith
  rw [hrest]
  rfl

theorem parseBox_tasksComment : parseBox tasksComment = none := by
  obtain ⟨rest, hrest⟩ := exists_tasksComment
  have hstart : ∀ cs : List Char, ('-' :: cs).isPrefixOf tasksComment.toList = false := by
    intro cs
    rw [hrest]
    rfl
  unfold parseBox stripPrefix startsWith
  rw [trimStart_tasksComment]
  have hx : "- [x] ".toList.isPrefixOf tasksComment.toList = false := hstart _
  have hX : "- [X] ".toList.isPrefixOf tasksComment.toList = false := hstart _
  have hopen : "- [ ] ".toList.isPrefixOf tasksComment.toList = false := hstart _
  simp only [hx, hX, hopen, Bool.false_eq_true, if_false, Option.map_none]

theorem parseBox_taskLines (tasks : List TodoSubtask) :
    (tasks.map taskLine).filterMap parseBox = tasks.map fun r => (r.completed, r.title) := by
  have hbox : ∀ r ∈ tasks, (parseBox ∘ taskLine) r = some (r.completed, r.title) := by
    intro r _
    rw [Function.comp_apply, parseBox_taskLine]
  rw [filterMap_map, filterMap_congr hbox, filterMap_eq_map']

theorem parse_fileText (haround : Around head tail) (h : ∀ r ∈ tasks, IsTitle r.title) :
    parseTasksSection (fileText head (tasks.map taskLine) tail) =
      tasks.map fun r => (r.completed, r.title) := by
  have hextract := (read_section haround.read (sectionLines_not_heading tail)
    (lines_fileText haround h)).2
  have hfence : ∀ line ∈ tasksComment :: tasks.map taskLine,
      startsWith (trimStart line) "```" = false := by
    rw [forall_mem_cons, forall_mem_map]
    exact ⟨tasksComment_not_fence, fun r _ => taskLine_not_fence r⟩
  have hline : ∀ line ∈ tasksComment :: tasks.map taskLine, '\n' ∉ line.toList := by
    rw [forall_mem_cons, forall_mem_map]
    exact ⟨tasksComment_oneLine, fun r hr => taskLine_oneLine r (h r hr)⟩
  rw [parseTasksSection, hextract]
  dsimp only
  rw [stripCodeFences, lines_sectionLines h, lines_stripFencesFrom hfence hline, map_cons,
    map_stripCr_tasks h, stripCr_tasksComment, filterMap_cons_none parseBox_tasksComment,
    parseBox_taskLines]

end

theorem mem_stripPrefix {start line rest : String} (h : stripPrefix start line = some rest) {c : Char}
    (hc : c ∈ rest.toList) : c ∈ line.toList := by
  unfold stripPrefix at h
  split at h
  · rw [← Option.some.inj h, String.toList_ofList] at hc
    exact mem_of_mem_drop hc
  · cases h

theorem mem_parseBox {box : Bool × String} (h : parseBox line = some box) {c : Char}
    (hc : c ∈ box.2.toList) : c ∈ line.toList := by
  have htrim : ∀ start rest, stripPrefix start (trimStart line) = some rest → c ∈ rest.toList →
      c ∈ line.toList := by
    intro start rest hrest hmem
    have hin := mem_stripPrefix hrest hmem
    rw [trimStart, String.toList_ofList] at hin
    exact (dropWhile_suffix _).subset hin
  unfold parseBox at h
  dsimp only at h
  split at h
  · next rest hrest =>
    rw [← Option.some.inj h] at hc
    exact htrim _ _ hrest hc
  split at h
  · next rest hrest =>
    rw [← Option.some.inj h] at hc
    exact htrim _ _ hrest hc
  · obtain ⟨rest, hrest, rfl⟩ := Option.map_eq_some_iff.mp h
    exact htrim _ _ hrest hc

theorem oneLine_of_mem_parse {box : Bool × String} (h : box ∈ parseTasksSection content) :
    '\n' ∉ box.2.toList := by
  unfold parseTasksSection at h
  split at h
  · cases h
  · obtain ⟨line, hline, hbox⟩ := mem_filterMap.mp h
    exact fun hc => mem_lines hline (mem_parseBox hbox hc)

theorem any_heading_fileText (haround : Around head tail) (h : ∀ r ∈ tasks, IsTitle r.title) :
    (lines (fileText head (tasks.map taskLine) tail)).any (startsWith · "## Tasks") = true := by
  obtain ⟨front, line, hhead, -, hline⟩ := haround.read.heading
  rw [lines_fileText haround h, hhead, any_eq_true]
  refine ⟨line, ?_, hline⟩
  simp

theorem ticked_fileText (haround : Around head tail) (h : ∀ r ∈ tasks, IsTitle r.title) {i : Nat}
    {title : String} (hi : tasks[i]? = some ⟨title, false⟩) :
    Ticked (fileText head (tasks.map taskLine) tail)
      (fileText head ((tasks.set i ⟨title, true⟩).map taskLine) tail) i := by
  obtain ⟨hlen, hget⟩ := List.getElem?_eq_some_iff.mp hi
  have htitle : IsTitle title := h ⟨title, false⟩ (mem_of_getElem? hi)
  have hset : ∀ r ∈ tasks.set i ⟨title, true⟩, IsTitle r.title := by
    intro r hr
    obtain hr | rfl := mem_or_eq_of_mem_set hr
    · exact h r hr
    · exact htitle
  constructor
  · obtain ⟨before, behind, hline⟩ := joinLines_around
      (head ++ [tasksComment] ++ (tasks.take i).map taskLine)
      ((tasks.drop (i + 1)).map taskLine ++ [""] ++ tail)
    have hsplit : tasks = tasks.take i ++ ⟨title, false⟩ :: tasks.drop (i + 1) := by
      rw [← hget, cons_getElem_drop_succ, take_append_drop]
    have hold : fileText head (tasks.map taskLine) tail =
        before ++ taskLine ⟨title, false⟩ ++ behind := by
      rw [← hline, fileText]
      conv_lhs => rw [hsplit]
      simp
    have hnew : fileText head ((tasks.set i ⟨title, true⟩).map taskLine) tail =
        before ++ taskLine ⟨title, true⟩ ++ behind := by
      rw [← hline, fileText, set_eq_take_append_cons_drop, if_pos hlen]
      simp
    have hunticked : taskLine ⟨title, false⟩ = "- [ ] " ++ title := rfl
    have hticked : taskLine ⟨title, true⟩ = "- [x] " ++ title := rfl
    refine ⟨before, title ++ behind, ?_, ?_⟩
    · rw [hold, hunticked, String.append_assoc, String.append_assoc, String.append_assoc]
    · rw [hnew, hticked, String.append_assoc, String.append_assoc, String.append_assoc]
  · refine ⟨title, ?_, ?_⟩
    · rw [parse_fileText haround h, getElem?_map, hi]
      rfl
    · rw [parse_fileText haround h, parse_fileText haround hset, map_set]

end CcPanes.Spec

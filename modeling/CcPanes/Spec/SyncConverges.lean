import CcPanes.Spec.TaskFile

/-!
# Sync after sync

A tick in the file is never taken back: what is completed once is completed by every sync that follows.
-/

namespace CcPanes.Spec
open List Bool

namespace SpecTasks
variable (s : SpecTasks)

theorem around : Around (outsideLines s.content).1 (outsideLines s.content).2 := by
  obtain ⟨head, section_, tail, haround, -, -, hout⟩ := exists_around s.heading
  rw [hout]
  exact haround

theorem synced_subtasks : (syncTasks s.toTaskState).subtasks =
    s.subtasks.map fun r => r.tick (parseTasksSection s.content) := syncTasks_subtasks s.ids

theorem synced_content : (syncTasks s.toTaskState).content =
    fileText (outsideLines s.content).1
      (((syncTasks s.toTaskState).subtasks.map SubtaskRow.toTodoSubtask).map taskLine)
      (outsideLines s.content).2 := replaceTasksSection_eq s.heading _

theorem synced_ids : ((syncTasks s.toTaskState).subtasks.map SubtaskRow.id).Nodup := by
  have hsame : (syncTasks s.toTaskState).subtasks.map SubtaskRow.id =
      s.subtasks.map SubtaskRow.id := by
    rw [synced_subtasks, map_map]
    exact map_congr_left fun r _ => tick_id r _
  rw [hsame]
  exact s.ids

section
variable (h : ∀ r ∈ s.subtasks, '\n' ∉ r.title.toList)
include h

theorem synced_titles :
    ∀ r ∈ (syncTasks s.toTaskState).subtasks.map SubtaskRow.toTodoSubtask, IsTitle r.title := by
  rw [synced_subtasks, map_map, forall_mem_map]
  intro r hr
  have htitle : ((SubtaskRow.toTodoSubtask ∘ fun r : SubtaskRow =>
      r.tick (parseTasksSection s.content)) r).title = r.title := tick_title r _
  rw [htitle]
  exact ⟨(s.titles r hr).1, (s.titles r hr).2, h r hr⟩

theorem parse_synced :
    parseTasksSection (syncTasks s.toTaskState).content =
      (syncTasks s.toTaskState).subtasks.map SubtaskRow.box := by
  rw [synced_content, parse_fileText s.around (s.synced_titles h), map_map]
  rfl

theorem outside_synced :
    outsideLines (syncTasks s.toTaskState).content =
      ((outsideLines s.content).1.map stripCr, readBack (outsideLines s.content).2) := by
  rw [synced_content, outsideLines_fileText s.around (s.synced_titles h)]

theorem outside_synced_iff :
    outsideLines (syncTasks s.toTaskState).content = outsideLines s.content ↔
      (∀ line ∈ (outsideLines s.content).1, ¬EndsInCr line) ∧
        (∀ line ∈ (outsideLines s.content).2.dropLast, ¬EndsInCr line) ∧
          (outsideLines s.content).2.getLast? ≠ some "" := by
  have hmap : ∀ ls : List String, ls.map stripCr = ls ↔ ∀ line ∈ ls, ¬EndsInCr line := by
    intro ls
    have hid : ls.map stripCr = ls.map id ↔ ∀ line ∈ ls, stripCr line = id line := map_inj_left
    rw [map_id] at hid
    exact hid.trans (forall₂_congr fun line _ => stripCr_eq_self_iff line)
  rw [outside_synced s h, Prod.ext_iff]
  exact and_congr (hmap _) (readBack_eq_self_iff _)

end

theorem synced_of_pending (h : Plain s.toTaskState) :
    (syncTasks s.toTaskState).subtasks = s.subtasks := by
  rw [synced_subtasks]
  refine (map_congr_left fun r hr => ?_).trans (map_id s.subtasks)
  have hno : ticks (parseTasksSection s.content) r.title = false := by
    refine any_eq_false.mpr fun box hbox htick => ?_
    rw [and_eq_true, decide_eq_true_iff] at htick
    exact (h.pending r hr).2 box hbox htick.1 htick.2
  unfold SubtaskRow.tick
  rw [hno]
  rfl

end SpecTasks

theorem ticks_unchecked {boxes : List (Bool × String)} (h : ∀ box ∈ boxes, box.1 = false)
    (title : String) : ticks boxes title = false := by
  refine any_eq_false.mpr fun box hbox htick => ?_
  rw [h box hbox] at htick
  cases htick

theorem ticks_set {boxes : List (Bool × String)} (h : ∀ box ∈ boxes, box.1 = false) {i : Nat}
    (hi : i < boxes.length) (ticked title : String) :
    ticks (boxes.set i (true, ticked)) title =
      decide (stripPrioritySuffix title = stripPrioritySuffix ticked) := by
  rw [Bool.eq_iff_iff, decide_eq_true_iff, ticks, any_eq_true]
  constructor
  · rintro ⟨box, hbox, htick⟩
    rw [and_eq_true, decide_eq_true_iff] at htick
    obtain hold | rfl := mem_or_eq_of_mem_set hbox
    · rw [h box hold] at htick
      cases htick.1
    · exact htick.2
  · intro heq
    refine ⟨(true, ticked), mem_set hi _, ?_⟩
    rw [Bool.true_and, decide_eq_true_iff]
    exact heq

theorem tick_of_ticks {r : SubtaskRow} {boxes : List (Bool × String)}
    (h : ticks boxes r.title = false) : r.tick boxes = r := by
  unfold SubtaskRow.tick
  rw [h]
  rfl

theorem syncTasks_content {s : TaskState}
    (h : (lines s.content).any (startsWith · "## Tasks") = true) :
    (syncTasks s).content = fileText (outsideLines s.content).1
      (((syncTasks s).subtasks.map SubtaskRow.toTodoSubtask).map taskLine)
      (outsideLines s.content).2 := replaceTasksSection_eq h _

theorem syncTasks_self {s : TaskState} (hids : (s.subtasks.map SubtaskRow.id).Nodup)
    (hopen : ∀ box ∈ parseTasksSection s.content, box.1 = false)
    (hheading : (lines s.content).any (startsWith · "## Tasks") = true)
    (hcontent : s.content = fileText (outsideLines s.content).1
      ((s.subtasks.map SubtaskRow.toTodoSubtask).map taskLine) (outsideLines s.content).2) :
    syncTasks s = s := by
  have hsubtasks : (syncTasks s).subtasks = s.subtasks := by
    rw [syncTasks_subtasks hids]
    refine (map_congr_left fun r _ => ?_).trans (map_id s.subtasks)
    exact tick_of_ticks (ticks_unchecked hopen r.title)
  refine TaskState.ext ?_ hsubtasks
  rw [syncTasks_content hheading, hsubtasks, ← hcontent]

theorem Plain.converges {s : SpecTasks} (h : Plain s.toTaskState) : Converges s.toTaskState := by
  have hsubtasks := s.synced_of_pending h
  have hparse := s.parse_synced h.oneLine
  have houtside := (s.outside_synced_iff h.oneLine).mpr ⟨h.before, h.behind, h.last⟩
  have hopen : ∀ box ∈ s.subtasks.map SubtaskRow.box, box.1 = false := by
    rw [forall_mem_map]
    exact fun r hr => (h.pending r hr).1
  have hcontent := s.synced_content
  rw [hsubtasks] at hparse hcontent
  have htitles := s.synced_titles h.oneLine
  rw [hsubtasks] at htitles
  refine ⟨by rw [hsubtasks, hparse], houtside, ?_, fun i content' hticked => ?_,
    fun r hr hcompleted => ?_⟩
  · apply syncTasks_self s.synced_ids
    · rw [hparse]
      exact hopen
    · rw [hcontent]
      exact any_heading_fileText s.around htitles
    · rw [houtside, hsubtasks]
      exact hcontent
  · obtain ⟨title, htitle, hset⟩ := hticked.box
    rw [hparse] at htitle hset
    rw [getElem?_map, Option.map_eq_some_iff] at htitle
    obtain ⟨r, hr, hbox⟩ := htitle
    obtain ⟨hi, hget⟩ := List.getElem?_eq_some_iff.mp hr
    obtain ⟨-, rfl⟩ := Prod.mk.inj hbox
    have hnext : (syncTasks ⟨content', s.subtasks⟩).subtasks =
        s.subtasks.map fun r' => r'.tick (parseTasksSection content') :=
      recoverTicks_eq s.ids _
    rw [hsubtasks, hnext, hset]
    refine ext_getElem? fun j => ?_
    rw [getElem?_map, getElem?_modify]
    cases hj : s.subtasks[j]? with
    | none => rfl
    | some r' =>
      obtain ⟨hjlen, hget'⟩ := List.getElem?_eq_some_iff.mp hj
      have htick := ticks_set hopen (by rw [length_map]; exact hi) r.title r'.title
      by_cases hij : i = j
      · subst hij
        cases hj.symm.trans hr
        rw [decide_eq_true rfl] at htick
        simp [SubtaskRow.tick, htick]
      have hne : stripPrioritySuffix r'.title ≠ stripPrioritySuffix r.title := by
        intro heq
        have hsame := inj_on_of_nodup_map h.distinct (mem_of_getElem? hj)
          (mem_of_getElem? hr) heq
        rw [hsame] at hj
        exact hij ((getElem?_inj hi (List.Nodup.of_map _ s.ids)).mp (hr.trans hj.symm))
      rw [decide_eq_false hne] at htick
      simp [tick_of_ticks htick, hij]
  · rw [hsubtasks] at hr
    rw [(h.pending r hr).1] at hcompleted
    cases hcompleted

namespace Converges
variable {s : SpecTasks}

section
variable (h : Converges s.toTaskState)
include h

theorem oneLine : ∀ r ∈ s.subtasks, '\n' ∉ r.title.toList := by
  intro r hr
  have hbox : (r.tick (parseTasksSection s.content)).box ∈
      parseTasksSection (syncTasks s.toTaskState).content := by
    rw [h.parsed, s.synced_subtasks, map_map]
    exact mem_map_of_mem hr
  have htitle := oneLine_of_mem_parse hbox
  unfold SubtaskRow.box at htitle
  rw [tick_title] at htitle
  exact htitle

theorem all_open :
    ∀ r ∈ (syncTasks s.toTaskState).subtasks, r.completed = false := by
  intro r hr
  by_contra hcompleted
  have htrue : r.completed = true := eq_true_of_ne_false hcompleted
  have hids : ((updateSubtask (syncTasks s.toTaskState).subtasks r.id false).map
      SubtaskRow.id).Nodup := by
    have hsame : (updateSubtask (syncTasks s.toTaskState).subtasks r.id false).map SubtaskRow.id =
        (syncTasks s.toTaskState).subtasks.map SubtaskRow.id := by
      rw [updateSubtask, map_map]
      refine map_congr_left fun r' _ => ?_
      rw [Function.comp_apply]
      split <;> rfl
    rw [hsame]
    exact s.synced_ids
  have hopened : ({ r with completed := false } : SubtaskRow) ∈
      updateSubtask (syncTasks s.toTaskState).subtasks r.id false :=
    mem_map.mpr ⟨r, hr, if_pos rfl⟩
  have hagain : ({ r with completed := false } : SubtaskRow).tick
      (parseTasksSection (syncTasks s.toTaskState).content) ∈
        (syncTasks ⟨(syncTasks s.toTaskState).content,
          updateSubtask (syncTasks s.toTaskState).subtasks r.id false⟩).subtasks := by
    have hnext : (syncTasks ⟨(syncTasks s.toTaskState).content,
        updateSubtask (syncTasks s.toTaskState).subtasks r.id false⟩).subtasks =
          (updateSubtask (syncTasks s.toTaskState).subtasks r.id false).map fun r =>
            r.tick (parseTasksSection (syncTasks s.toTaskState).content) := recoverTicks_eq hids _
    rw [hnext]
    exact mem_map_of_mem hopened
  have hstill := h.reopened r hr htrue _ hagain (tick_id _ _)
  have hticks : ticks (parseTasksSection (syncTasks s.toTaskState).content) r.title = true := by
    rw [h.parsed]
    refine any_eq_true.mpr ⟨r.box, mem_map_of_mem hr, ?_⟩
    rw [and_eq_true, decide_eq_true_iff]
    exact ⟨htrue, rfl⟩
  rw [tick_completed] at hstill
  have hclash : ticks (parseTasksSection (syncTasks s.toTaskState).content) r.title = false :=
    (or_eq_false_iff.mp hstill).2
  rw [hticks] at hclash
  cases hclash

theorem pending :
    ∀ r ∈ s.subtasks, r.completed = false ∧ ∀ box ∈ parseTasksSection s.content,
      box.1 = true → stripPrioritySuffix r.title ≠ stripPrioritySuffix box.2 := by
  intro r hr
  have hopen := h.all_open (r.tick (parseTasksSection s.content))
    (by rw [s.synced_subtasks]; exact mem_map_of_mem hr)
  rw [tick_completed, or_eq_false_iff] at hopen
  refine ⟨hopen.1, fun box hbox hchecked heq => ?_⟩
  refine any_eq_false.mp hopen.2 box hbox ?_
  rw [hchecked, Bool.true_and, decide_eq_true_iff]
  exact heq

theorem synced : (syncTasks s.toTaskState).subtasks = s.subtasks := by
  rw [s.synced_subtasks]
  refine (map_congr_left fun r hr => tick_of_ticks ?_).trans (map_id s.subtasks)
  refine any_eq_false.mpr fun box hbox htick => ?_
  rw [and_eq_true, decide_eq_true_iff] at htick
  exact (h.pending r hr).2 box hbox htick.1 htick.2

theorem distinct :
    (s.subtasks.map fun r => stripPrioritySuffix r.title).Nodup := by
  rw [nodup_iff_getElem?_ne_getElem?]
  intro i j hij hj heq
  rw [length_map] at hj
  obtain ⟨r, hr⟩ : ∃ r, s.subtasks[i]? = some r :=
    ⟨_, getElem?_eq_getElem (Nat.lt_trans hij hj)⟩
  obtain ⟨r', hr'⟩ : ∃ r', s.subtasks[j]? = some r' := ⟨_, getElem?_eq_getElem hj⟩
  rw [getElem?_map, getElem?_map, hr, hr'] at heq
  have hclean : stripPrioritySuffix r.title = stripPrioritySuffix r'.title := Option.some.inj heq
  have hopen : r.completed = false := (h.pending r (mem_of_getElem? hr)).1
  have hopen' : r'.completed = false := (h.pending r' (mem_of_getElem? hr')).1
  have htitles := s.synced_titles h.oneLine
  have hcontent := s.synced_content
  rw [h.synced] at htitles hcontent
  have hat : (s.subtasks.map SubtaskRow.toTodoSubtask)[i]? = some ⟨r.title, false⟩ := by
    rw [getElem?_map, hr, Option.map_some, ← hopen]
  have hticked := ticked_fileText s.around htitles hat
  have hbox := hticked.box
  rw [← hcontent] at hticked hbox
  have hresult := h.ticked i _ hticked
  have hnext : ∀ content, (syncTasks ⟨content, s.subtasks⟩).subtasks =
      s.subtasks.map fun r => r.tick (parseTasksSection content) :=
    fun content => recoverTicks_eq s.ids _
  rw [h.synced, hnext] at hresult
  have hrow := congrArg (fun rows => rows[j]?) hresult
  simp only [getElem?_map, getElem?_modify, hr', Option.map_some, Option.map_eq_map] at hrow
  rw [if_neg (Nat.ne_of_lt hij)] at hrow
  have hdone := congrArg (fun r : SubtaskRow => r.completed) (Option.some.inj hrow)
  rw [tick_completed, hopen', Bool.false_or] at hdone
  obtain ⟨title, hold, hnew⟩ := hbox
  have hunchecked : ∀ box ∈ parseTasksSection (syncTasks s.toTaskState).content, box.1 = false := by
    rw [h.parsed, h.synced, forall_mem_map]
    exact fun r hr => (h.pending r hr).1
  have htitle : title = r.title := by
    rw [h.parsed, h.synced, getElem?_map, hr] at hold
    exact (Prod.mk.inj (Option.some.inj hold)).2.symm
  have hlen : i < (parseTasksSection (syncTasks s.toTaskState).content).length :=
    (List.getElem?_eq_some_iff.mp hold).1
  rw [hnew, ticks_set hunchecked hlen, htitle, decide_eq_true hclean.symm] at hdone
  cases hdone

theorem plain : Plain s.toTaskState := by
  obtain ⟨hbefore, hbehind, hlast⟩ := (s.outside_synced_iff h.oneLine).mp h.outside
  exact ⟨h.oneLine, hbefore, hbehind, hlast, h.pending, h.distinct⟩

end

end Converges

/-- The sync converges without undoing edits if and only if titles are on one line and differ up to
the priority, nothing is completed or ticked, no line outside the section ends in a `\r` of its own,
and the last one behind is not empty. -/
theorem sync_converges_iff (s : SpecTasks) : Converges s.toTaskState ↔ Plain s.toTaskState :=
  ⟨Converges.plain, Plain.converges⟩

def doneTask : SpecTasks where
  content := "## Tasks\n- [x] toggle"
  subtasks := [{ title := "toggle", completed := true, id := "1" }]
  heading := by decide +kernel
  ids := List.nodup_singleton _
  titles := by decide

/-- opened again in the todo, it would be completed by the next sync -/
theorem doneTask_undone : ¬Converges doneTask.toTaskState := by
  intro h
  exact absurd (h.pending _ (mem_singleton_self _)).1 (by decide)

end CcPanes.Spec

import CcPanes.Foundation.Run
import CcPanes.Spec.SpecText
import Mathlib.Logic.Function.Basic

/-!
# Spec entries and their files

`spec_service.rs` on one project: the rows of the table `specs`, and the files below
`.ccpanes/specs`.  The name of a file is a slug of the title, its directory depends on the status,
and only archiving moves a file.
-/

namespace CcPanes.Spec
open Option Function

inductive SpecStatus where
  | draft | active | archived
deriving DecidableEq

structure SpecEntry where
  title : String
  fileName : String
  status : SpecStatus
  todoId : Option String
  createdAt : String
  archivedAt : Option String

/-- a file of the spec directory, or of `archived` below it -/
structure SpecPath where
  archived : Bool
  fileName : String
deriving DecidableEq

/-- `written` is history: what the last write for a spec has left in its file -/
structure SpecWorld where
  entries : String → Option SpecEntry := fun _ => none
  files : SpecPath → Option String := fun _ => none
  written : String → Option String := fun _ => none

/-- a write that fails may leave a part of the text -/
inductive WriteFault where
  | none
  | failed (left : Option String)
deriving DecidableEq

/-- the accesses of `create_spec` that fail -/
structure CreateFaults where
  insert : Bool := false
  createDir : Bool := false
  write : WriteFault := .none
  createTodo : Bool := false
  removeFile : Bool := false
  deleteRow : Bool := false
  updateTodoId : Bool := false
  syncWrite : WriteFault := .none

/-- the accesses of `update_spec` that fail -/
structure UpdateFaults where
  deactivate : Bool := false
  createDir : Bool := false
  rename : Bool := false
  renameRow : Bool := false
  updateRow : Bool := false

inductive SpecAction where
  /-- `subtasks`: what the todo service answers to the sync at the end -/
  | create (id title createdAt todoId : String) (subtasks : Option (List TodoSubtask))
      (faults : CreateFaults)
  | save (id content : String)
  | update (id : String) (title : Option String) (status : Option SpecStatus)
      (datePrefix now : String) (faults : UpdateFaults)
  | sync (id : String) (subtasks : Option (List TodoSubtask))
  | log (id date logEntry : String)
  | delete (id : String)

def resolveSpecPath (entry : SpecEntry) : SpecPath := ⟨entry.status = .archived, entry.fileName⟩

namespace SpecWorld

def setEntry (w : SpecWorld) (id : String) (entry : Option SpecEntry) : SpecWorld :=
  { w with entries := Function.update w.entries id entry }

def setFile (w : SpecWorld) (path : SpecPath) (content : Option String) : SpecWorld :=
  { w with files := Function.update w.files path content }

/-- `std::fs::write` of the file of a spec -/
def writeFile (w : SpecWorld) (id : String) (path : SpecPath) (content : String) : SpecWorld :=
  { w.setFile path (some content) with written := Function.update w.written id (some content) }

def tryWrite (w : SpecWorld) (id : String) (path : SpecPath) (content : String) :
    WriteFault → SpecWorld
  | .none => w.writeFile id path content
  | .failed none => w
  | .failed (some left) => w.writeFile id path left

def deleteRow (w : SpecWorld) (id : String) (fault : Bool) : SpecWorld :=
  if fault then w else w.setEntry id none

/-- what `sync_tasks_inner` writes, if it gets that far -/
def syncedContent (w : SpecWorld) (entry : SpecEntry) (subtasks : Option (List TodoSubtask)) :
    Option String :=
  match w.files (resolveSpecPath entry), entry.todoId, subtasks with
  | some content, some _, some subtasks =>
    some (replaceTasksSection content (renderTasksSection subtasks))
  | _, _, _ => none

def syncTasksInner (w : SpecWorld) (id : String) (subtasks : Option (List TodoSubtask))
    (fault : WriteFault) : SpecWorld :=
  match w.entries id with
  | none => w
  | some entry =>
    match w.syncedContent entry subtasks with
    | none => w
    | some content => w.tryWrite id (resolveSpecPath entry) content fault

def createSpec (tables : UnicodeTables) (w : SpecWorld) (id title createdAt todoId : String)
    (subtasks : Option (List TodoSubtask)) (faults : CreateFaults) : SpecWorld :=
  let title := trim title
  let entry : SpecEntry :=
    { title, fileName := titleToFilename tables title, status := .draft, todoId := none, createdAt,
      archivedAt := none }
  if title = "" then w
  else if faults.insert || (w.entries id).isSome then w
  else
    let path := resolveSpecPath entry
    let inserted := w.setEntry id (some entry)
    if faults.createDir then inserted.deleteRow id faults.deleteRow
    else
      let wrote := inserted.tryWrite id path (renderTemplate title createdAt) faults.write
      if faults.write ≠ .none then wrote.deleteRow id faults.deleteRow
      else if faults.createTodo then
        (if faults.removeFile then wrote else wrote.setFile path none).deleteRow id faults.deleteRow
      else
        let linked := if faults.updateTodoId then wrote
          else wrote.setEntry id (some { entry with todoId := some todoId })
        linked.syncTasksInner id subtasks faults.syncWrite

def saveSpecContent (w : SpecWorld) (id content : String) : SpecWorld :=
  match w.entries id with
  | none => w
  | some entry => w.writeFile id (resolveSpecPath entry) content

def deactivateAll (w : SpecWorld) : SpecWorld :=
  { w with
    entries id := (w.entries id).map fun entry =>
      if entry.status = .active then { entry with status := .draft } else entry }

/-- `archive_spec_file`; `none` is an error before the file has moved -/
def archiveSpecFile (w : SpecWorld) (id : String) (entry : SpecEntry) (datePrefix : String)
    (faults : UpdateFaults) : Option SpecWorld :=
  if faults.createDir then none
  else
    let src : SpecPath := ⟨false, entry.fileName⟩
    match w.files src with
    | none => some w
    | some content =>
      if faults.rename then none
      else
        let archivedName := datePrefix ++ "_" ++ entry.fileName
        let moved := (w.setFile src none).setFile ⟨true, archivedName⟩ (some content)
        some (if faults.renameRow then moved
          else moved.setEntry id (some { entry with fileName := archivedName }))

/-- `spec_repo.update` with a title, a status and the time of archiving -/
def updateRow (w : SpecWorld) (id : String) (title : Option String) (status : Option SpecStatus)
    (archivedAt : Option String) : SpecWorld :=
  w.setEntry id ((w.entries id).map fun entry =>
    { entry with
      title := title.getD entry.title
      status := status.getD entry.status
      archivedAt := archivedAt.or entry.archivedAt })

def updateSpec (w : SpecWorld) (id : String) (title : Option String) (status : Option SpecStatus)
    (datePrefix now : String) (faults : UpdateFaults) : SpecWorld :=
  match w.entries id with
  | none => w
  | some entry =>
    let prepared := match status with
      | some .active => if faults.deactivate then none else some w.deactivateAll
      | some .archived => w.archiveSpecFile id entry datePrefix faults
      | _ => some w
    match prepared with
    | none => w
    | some w =>
      if faults.updateRow then w
      else w.updateRow id title status (if status = some .archived then some now else none)

def deleteSpec (w : SpecWorld) (id : String) : SpecWorld :=
  match w.entries id with
  | none => w.setEntry id none
  | some entry => (w.setFile (resolveSpecPath entry) none).setEntry id none

def appendLog (w : SpecWorld) (id date logEntry : String) : SpecWorld :=
  if trim logEntry = "" then w
  else
    match w.entries id with
    | none => w
    | some entry =>
      match w.files (resolveSpecPath entry) with
      | none => w
      | some content =>
        w.writeFile id (resolveSpecPath entry) (appendToLogSection content date logEntry)

def step (tables : UnicodeTables) (w : SpecWorld) : SpecAction → SpecWorld
  | .create id title createdAt todoId subtasks faults =>
    w.createSpec tables id title createdAt todoId subtasks faults
  | .save id content => w.saveSpecContent id content
  | .update id title status datePrefix now faults =>
    w.updateSpec id title status datePrefix now faults
  | .sync id subtasks => w.syncTasksInner id subtasks .none
  | .log id date logEntry => w.appendLog id date logEntry
  | .delete id => w.deleteSpec id

def getSpecContent (w : SpecWorld) (id : String) : Option String :=
  (w.entries id).bind fun entry => w.files (resolveSpecPath entry)

structure InStep (w : SpecWorld) : Prop where
  oneActive : ∀ id id' entry entry', w.entries id = some entry → w.entries id' = some entry' →
    entry.status = .active → entry'.status = .active → id = id'
  apart : ∀ id id' entry entry', w.entries id = some entry → w.entries id' = some entry' →
    resolveSpecPath entry = resolveSpecPath entry' → id = id'
  content : ∀ id entry, w.entries id = some entry →
    ∃ content, w.written id = some content ∧ w.getSpecContent id = some content

def Unclaimed (w : SpecWorld) (id : String) (path : SpecPath) : Prop :=
  ∀ id' entry, w.entries id' = some entry → id' ≠ id → resolveSpecPath entry ≠ path

/-- The condition.  A new spec does not get the file name of another, and its row is deleted if a
later step fails.  A spec is archived under a name that no archived spec has, and then both
updates of its row succeed; an archived spec has no file of its name to archive again, and is not
revived. -/
def KeepsApart (tables : UnicodeTables) (w : SpecWorld) : SpecAction → Prop
  | .create id title _ _ _ faults =>
    trim title ≠ "" → faults.insert = false → w.entries id = none →
      (faults.createDir = false → w.Unclaimed id ⟨false, titleToFilename tables (trim title)⟩) ∧
      ((faults.createDir || faults.write ≠ .none || faults.createTodo) = true →
        faults.deleteRow = false)
  | .update id _ status datePrefix _ faults => ∀ entry, w.entries id = some entry →
    match status with
    | none => True
    | some .archived =>
      if entry.status = .archived then w.files ⟨false, entry.fileName⟩ = none
      else faults.createDir = false → faults.rename = false →
        w.Unclaimed id ⟨true, datePrefix ++ "_" ++ entry.fileName⟩ ∧
          faults.renameRow = false ∧ faults.updateRow = false
    | some _ => faults.updateRow = false → entry.status ≠ .archived
  | _ => True

/-! ## changes that keep the specs in step -/

section
variable {w : SpecWorld} {id : String} {entry entry' : SpecEntry} {path : SpecPath}
  {content : String}

theorem setEntry_self (w : SpecWorld) (id : String) (e : Option SpecEntry) :
    (w.setEntry id e).entries id = e := update_self _ _ _

theorem setEntry_other {id' : String} (h : id' ≠ id) (e : Option SpecEntry) :
    (w.setEntry id e).entries id' = w.entries id' := update_of_ne h _ _

theorem setFile_other {path' : SpecPath} (h : path' ≠ path) (c : Option String) :
    (w.setFile path c).files path' = w.files path' := update_of_ne h _ _

theorem setEntry_setEntry (w : SpecWorld) (id : String) (e e' : Option SpecEntry) :
    (w.setEntry id e).setEntry id e' = w.setEntry id e' := by
  simp [setEntry]

theorem setEntry_none (h : w.entries id = none) : w.setEntry id none = w := by
  have e : update w.entries id none = w.entries := by
    funext id'
    by_cases hid : id' = id
    · rw [hid, update_self, h]
    · rw [update_of_ne hid]
  unfold setEntry
  rw [e]

theorem getSpecContent_eq (h : w.entries id = some entry) :
    w.getSpecContent id = w.files (resolveSpecPath entry) := by
  unfold getSpecContent
  rw [h]
  rfl

theorem entries_without {id' : String} (h : (w.setEntry id none).entries id' = some entry) :
    w.entries id' = some entry ∧ id' ≠ id := by
  by_cases hid : id' = id
  · subst hid
    rw [setEntry_self] at h
    cases h
  · rw [setEntry_other hid] at h
    exact ⟨h, hid⟩

theorem InStep.without (h : InStep w) (id : String) : InStep (w.setEntry id none) := by
  have hkeep : ∀ id' entry, (w.setEntry id none).entries id' = some entry →
      w.entries id' = some entry := fun _ _ he => (entries_without he).1
  refine ⟨?_, ?_, ?_⟩
  · intro id' id'' entry entry' he he'
    exact h.oneActive id' id'' entry entry' (hkeep id' entry he) (hkeep id'' entry' he')
  · intro id' id'' entry entry' he he'
    exact h.apart id' id'' entry entry' (hkeep id' entry he) (hkeep id'' entry' he')
  intro id' entry he
  obtain ⟨content, hwritten, hcontent⟩ := h.content id' entry (hkeep id' entry he)
  refine ⟨content, hwritten, ?_⟩
  rw [getSpecContent_eq he]
  rw [getSpecContent_eq (hkeep id' entry he)] at hcontent
  exact hcontent

theorem InStep.setFile (h : InStep w)
    (hfree : ∀ id' entry, w.entries id' = some entry → resolveSpecPath entry ≠ path)
    (c : Option String) : InStep (w.setFile path c) := by
  refine ⟨h.oneActive, h.apart, ?_⟩
  intro id' entry he
  obtain ⟨content, hwritten, hcontent⟩ := h.content id' entry he
  refine ⟨content, hwritten, ?_⟩
  have he' : w.entries id' = some entry := he
  rw [getSpecContent_eq he, setFile_other (hfree id' entry he)]
  rw [getSpecContent_eq he'] at hcontent
  exact hcontent

theorem InStep.tryWrite (h : InStep w) (hnone : w.entries id = none)
    (hfree : ∀ id' entry, w.entries id' = some entry → resolveSpecPath entry ≠ path)
    (content : String) (fault : WriteFault) : InStep (w.tryWrite id path content fault) := by
  have hwrite : ∀ c, InStep (w.writeFile id path c) := by
    intro c
    have hfile := h.setFile hfree (some c)
    refine ⟨hfile.oneActive, hfile.apart, ?_⟩
    intro id' entry he
    obtain ⟨content, hwritten, hcontent⟩ := hfile.content id' entry he
    refine ⟨content, ?_, hcontent⟩
    have hid : id' ≠ id := by
      rintro rfl
      cases hnone.symm.trans he
    show update w.written id (some c) id' = _
    rw [update_of_ne hid]
    exact hwritten
  match fault with
  | .none => exact hwrite content
  | .failed none => exact h
  | .failed (some left) => exact hwrite left

theorem InStep.place (h : InStep (w.setEntry id none)) (hentry : w.entries id = some entry)
    (hactive : entry.status = .active → ∀ id' entry', w.entries id' = some entry' →
      entry'.status = .active → id' = id)
    (hfree : w.Unclaimed id (resolveSpecPath entry)) (hwritten : w.written id = some content)
    (hcontent : w.files (resolveSpecPath entry) = some content) : InStep w := by
  have hother : ∀ id' e, id' ≠ id → w.entries id' = some e →
      (w.setEntry id none).entries id' = some e := by
    intro id' e hid he
    rw [setEntry_other hid]
    exact he
  refine ⟨?_, ?_, ?_⟩
  · intro i j e e' he he' ha ha'
    by_cases hi : i = id
    · subst hi
      cases hentry.symm.trans he
      exact (hactive ha j e' he' ha').symm
    by_cases hj : j = id
    · subst hj
      cases hentry.symm.trans he'
      exact hactive ha' i e he ha
    · exact h.oneActive i j e e' (hother i e hi he) (hother j e' hj he') ha ha'
  · intro i j e e' he he' hpath
    by_cases hi : i = id
    · subst hi
      cases hentry.symm.trans he
      by_contra hj
      exact hfree j e' he' (Ne.symm hj) hpath.symm
    by_cases hj : j = id
    · subst hj
      cases hentry.symm.trans he'
      exact absurd hpath (hfree i e he hi)
    · exact h.apart i j e e' (hother i e hi he) (hother j e' hj he') hpath
  intro i e he
  by_cases hi : i = id
  · subst hi
    cases hentry.symm.trans he
    rw [getSpecContent_eq he]
    exact ⟨content, hwritten, hcontent⟩
  obtain ⟨c, hw, hc⟩ := h.content i e (hother i e hi he)
  refine ⟨c, hw, ?_⟩
  rw [getSpecContent_eq (hother i e hi he)] at hc
  rw [getSpecContent_eq he]
  exact hc

theorem InStep.unclaimed (h : InStep w) (hentry : w.entries id = some entry) :
    w.Unclaimed id (resolveSpecPath entry) := by
  intro id' entry' he hid hpath
  exact hid (h.apart id' id entry' entry he hentry hpath)

theorem InStep.sameRow (h : InStep w) (hentry : w.entries id = some entry)
    (hpath : resolveSpecPath entry' = resolveSpecPath entry)
    (hactive : entry'.status = .active → ∀ id' e, id' ≠ id → w.entries id' = some e →
      e.status ≠ .active) : InStep (w.setEntry id (some entry')) := by
  obtain ⟨content, hwritten, hcontent⟩ := h.content id entry hentry
  rw [getSpecContent_eq hentry] at hcontent
  have hothers : InStep ((w.setEntry id (some entry')).setEntry id none) := by
    rw [setEntry_setEntry]
    exact h.without id
  refine hothers.place (setEntry_self w id (some entry')) ?_ ?_ hwritten ?_
  · intro ha id' e he ha'
    by_contra hid
    rw [setEntry_other hid] at he
    exact hactive ha id' e hid he ha'
  · intro id' e he hid
    rw [setEntry_other hid] at he
    rw [hpath]
    exact h.unclaimed hentry id' e he hid
  · rw [hpath]
    exact hcontent

theorem InStep.writeFile (h : InStep w) (hentry : w.entries id = some entry) (content : String) :
    InStep (w.writeFile id (resolveSpecPath entry) content) := by
  have hfree : ∀ id' e, (w.setEntry id none).entries id' = some e →
      resolveSpecPath e ≠ resolveSpecPath entry := by
    intro id' e he
    obtain ⟨he, hid⟩ := entries_without he
    exact h.unclaimed hentry id' e he hid
  have hothers := (h.without id).tryWrite (setEntry_self w id none) hfree content .none
  refine InStep.place (w := w.writeFile id (resolveSpecPath entry) content) hothers hentry ?_
    (h.unclaimed hentry) (update_self _ _ _) (update_self _ _ _)
  intro ha id' e he ha'
  exact h.oneActive id' id e entry he hentry ha' ha

theorem InStep.sync (h : InStep w) (id : String) (subtasks : Option (List TodoSubtask))
    (fault : WriteFault) : InStep (w.syncTasksInner id subtasks fault) := by
  unfold syncTasksInner
  cases hentry : w.entries id with
  | none => exact h
  | some entry =>
    dsimp only
    cases w.syncedContent entry subtasks with
    | none => exact h
    | some content =>
      match fault with
      | .none => exact h.writeFile hentry content
      | .failed none => exact h
      | .failed (some left) => exact h.writeFile hentry left

/-! ## the operations -/

theorem create_inStep (tables : UnicodeTables) (h : InStep w) {title createdAt todoId : String}
    {subtasks : Option (List TodoSubtask)} {faults : CreateFaults}
    (hok : KeepsApart tables w (.create id title createdAt todoId subtasks faults)) :
    InStep (w.createSpec tables id title createdAt todoId subtasks faults) := by
  unfold createSpec
  by_cases htitle : trim title = ""
  · simp only [if_pos htitle]
    exact h
  simp only [if_neg htitle]
  by_cases hinsert : (faults.insert || (w.entries id).isSome) = true
  · rw [if_pos hinsert]
    exact h
  rw [if_neg hinsert]
  rw [Bool.or_eq_true, not_or, Bool.not_eq_true, Bool.not_eq_true, isSome_eq_false_iff,
    isNone_iff_eq_none] at hinsert
  obtain ⟨hins, hnone⟩ := hinsert
  obtain ⟨hfree, hdelete⟩ := hok htitle hins hnone
  generalize hentry : SpecEntry.mk (trim title) (titleToFilename tables (trim title)) .draft none
    createdAt none = entry
  have hdraft : entry.status = .draft := by rw [← hentry]
  have hpath : resolveSpecPath entry = ⟨false, titleToFilename tables (trim title)⟩ := by
    rw [← hentry]
    rfl
  rw [← hpath] at hfree
  by_cases hdir : faults.createDir = true
  · rw [if_pos hdir, hdelete (by simp [hdir])]
    show InStep ((w.setEntry id (some entry)).setEntry id none)
    rw [setEntry_setEntry, setEntry_none hnone]
    exact h
  rw [if_neg hdir]
  have hunclaimed := hfree (by simpa using hdir)
  have hfreeAll : ∀ id' e, w.entries id' = some e → resolveSpecPath e ≠ resolveSpecPath entry := by
    intro id' e he
    refine hunclaimed id' e he ?_
    rintro rfl
    cases hnone.symm.trans he
  -- what is left when the row is deleted again
  have hothers : ∀ content fault, InStep (((w.setEntry id (some entry)).tryWrite id
      (resolveSpecPath entry) content fault).setEntry id none) := by
    intro content fault
    have hwrote := h.tryWrite hnone hfreeAll content fault
    have e : ((w.setEntry id (some entry)).tryWrite id (resolveSpecPath entry) content
        fault).setEntry id none =
        (w.tryWrite id (resolveSpecPath entry) content fault).setEntry id none := by
      match fault with
      | .none | .failed none | .failed (some _) =>
        simp [SpecWorld.tryWrite, SpecWorld.writeFile, SpecWorld.setFile, setEntry]
    rw [e]
    exact hwrote.without id
  by_cases hwrite : faults.write ≠ .none
  · rw [if_pos hwrite, hdelete (by simp [hwrite])]
    exact hothers _ _
  rw [not_not] at hwrite
  rw [hwrite]
  by_cases htodo : faults.createTodo = true
  · rw [if_pos htodo, hdelete (by simp [htodo])]
    have hwrote := hothers (renderTemplate (trim title) createdAt) .none
    by_cases hremove : faults.removeFile = true
    · rw [if_pos hremove]
      exact hwrote
    rw [if_neg hremove]
    refine hwrote.setFile ?_ none
    intro id' e he
    obtain ⟨he, hid⟩ := entries_without he
    have he' : (w.setEntry id (some entry)).entries id' = some e := he
    rw [setEntry_other hid] at he'
    exact hfreeAll id' e he'
  rw [if_neg htodo]
  -- the new spec is in step
  have hplaced : ∀ e : SpecEntry, resolveSpecPath e = resolveSpecPath entry → e.status = .draft →
      InStep (((w.setEntry id (some entry)).tryWrite id (resolveSpecPath entry)
        (renderTemplate (trim title) createdAt) .none).setEntry id (some e)) := by
    intro e hsame hstatus
    have hwrote := hothers (renderTemplate (trim title) createdAt) .none
    have hself := setEntry_self ((w.setEntry id (some entry)).tryWrite id (resolveSpecPath entry)
      (renderTemplate (trim title) createdAt) .none) id (some e)
    refine InStep.place ?_ hself ?_ ?_ (update_self _ _ _) ?_
    · rw [setEntry_setEntry]
      exact hwrote
    · intro ha
      rw [hstatus] at ha
      cases ha
    · intro id' e' he hid
      rw [setEntry_other hid] at he
      have he' : (w.setEntry id (some entry)).entries id' = some e' := he
      rw [setEntry_other hid] at he'
      rw [hsame]
      exact hfreeAll id' e' he'
    · rw [hsame]
      exact update_self _ _ _
  by_cases hlink : faults.updateTodoId = true
  · rw [if_pos hlink]
    have hsame := hplaced entry rfl hdraft
    have e : ((w.setEntry id (some entry)).tryWrite id (resolveSpecPath entry)
        (renderTemplate (trim title) createdAt) .none).setEntry id (some entry) =
        (w.setEntry id (some entry)).tryWrite id (resolveSpecPath entry)
          (renderTemplate (trim title) createdAt) .none := by
      simp [SpecWorld.tryWrite, SpecWorld.writeFile, SpecWorld.setFile, setEntry]
    rw [e] at hsame
    exact hsame.sync id subtasks faults.syncWrite
  · rw [if_neg hlink]
    have hlinked := hplaced ⟨trim title, titleToFilename tables (trim title), .draft, some todoId,
      createdAt, none⟩ (by rw [hpath]; rfl) rfl
    exact hlinked.sync id subtasks faults.syncWrite

theorem deactivate_inStep (h : InStep w) : InStep w.deactivateAll ∧
    ∀ id e, w.deactivateAll.entries id = some e → e.status ≠ .active := by
  have hrow : ∀ id e, w.deactivateAll.entries id = some e → ∃ e', w.entries id = some e' ∧
      resolveSpecPath e = resolveSpecPath e' ∧ e.status ≠ .active := by
    intro id e he
    obtain ⟨e', he', rfl⟩ := map_eq_some_iff.mp he
    refine ⟨e', he', ?_⟩
    by_cases ha : e'.status = .active
    · rw [if_pos ha]
      exact ⟨by simp [resolveSpecPath, ha], nofun⟩
    · rw [if_neg ha]
      exact ⟨rfl, ha⟩
  refine ⟨⟨?_, ?_, ?_⟩, ?_⟩
  · intro i j e e' he he' ha
    obtain ⟨-, -, -, hnot⟩ := hrow i e he
    exact absurd ha hnot
  · intro i j e e' he he' hpath
    obtain ⟨f, hf, hef, -⟩ := hrow i e he
    obtain ⟨f', hf', hef', -⟩ := hrow j e' he'
    exact h.apart i j f f' hf hf' (by rw [← hef, ← hef', hpath])
  · intro i e he
    obtain ⟨f, hf, hef, -⟩ := hrow i e he
    obtain ⟨content, hwritten, hcontent⟩ := h.content i f hf
    refine ⟨content, hwritten, ?_⟩
    rw [getSpecContent_eq he, hef]
    rw [getSpecContent_eq hf] at hcontent
    exact hcontent
  · intro id e he
    obtain ⟨-, -, -, hnot⟩ := hrow id e he
    exact hnot

theorem updateRow_eq (hentry : w.entries id = some entry) (title : Option String)
    (status : Option SpecStatus) (archivedAt : Option String) :
    w.updateRow id title status archivedAt = w.setEntry id (some { entry with
      title := title.getD entry.title, status := status.getD entry.status,
      archivedAt := archivedAt.or entry.archivedAt }) := by
  unfold updateRow
  rw [hentry]
  rfl

theorem resolve_status {status : SpecStatus} (title : String) (archivedAt : Option String)
    (h : entry.status = .archived ↔ status = .archived) :
    resolveSpecPath { entry with title := title, status := status, archivedAt := archivedAt } =
      resolveSpecPath entry := by
  simp [resolveSpecPath, h]

theorem archive_inStep (h : InStep w) (hentry : w.entries id = some entry)
    (hlive : entry.status ≠ .archived) {title : Option String} {datePrefix now : String}
    (hfree : w.Unclaimed id ⟨true, datePrefix ++ "_" ++ entry.fileName⟩) {content : String}
    (hfile : w.files ⟨false, entry.fileName⟩ = some content) :
    InStep ((((w.setFile ⟨false, entry.fileName⟩ none).setFile
      ⟨true, datePrefix ++ "_" ++ entry.fileName⟩ (some content)).setEntry id
        (some { entry with fileName := datePrefix ++ "_" ++ entry.fileName })).updateRow id title
          (some .archived) (some now)) := by
  have hpath : resolveSpecPath entry = ⟨false, entry.fileName⟩ := by
    simp [resolveSpecPath, hlive]
  obtain ⟨content', hwritten, hcontent⟩ := h.content id entry hentry
  rw [getSpecContent_eq hentry, hpath, hfile] at hcontent
  cases hcontent
  have hmoved : InStep (((w.setEntry id none).setFile ⟨false, entry.fileName⟩ none).setFile
      ⟨true, datePrefix ++ "_" ++ entry.fileName⟩ (some content)) := by
    refine InStep.setFile (InStep.setFile (h.without id) ?_ none) ?_ (some content)
    · intro id' e he
      obtain ⟨he, hid⟩ := entries_without he
      rw [← hpath]
      exact h.unclaimed hentry id' e he hid
    · intro id' e he
      obtain ⟨he, hid⟩ := entries_without he
      exact hfree id' e he hid
  rw [updateRow_eq (setEntry_self _ id _), setEntry_setEntry]
  refine InStep.place ?_ (setEntry_self _ id _) ?_ ?_ hwritten (update_self _ _ _)
  · rw [setEntry_setEntry]
    exact hmoved
  · intro ha
    cases ha
  · intro id' e he hid
    rw [setEntry_other hid] at he
    exact hfree id' e he hid

theorem update_inStep (tables : UnicodeTables) (h : InStep w) {title : Option String}
    {status : Option SpecStatus} {datePrefix now : String} {faults : UpdateFaults}
    (hok : KeepsApart tables w (.update id title status datePrefix now faults)) :
    InStep (w.updateSpec id title status datePrefix now faults) := by
  unfold updateSpec
  cases hentry : w.entries id with
  | none => exact h
  | some entry =>
    have hcond := hok entry hentry
    cases status with
    | none =>
      dsimp only
      by_cases hrow : faults.updateRow = true
      · rw [if_pos hrow]
        exact h
      rw [if_neg hrow, updateRow_eq hentry]
      refine h.sameRow hentry rfl ?_
      intro ha id' e hid he ha'
      exact hid (h.oneActive id' id e entry he hentry ha' ha)
    | some status =>
      cases status with
      | draft =>
        dsimp only at hcond ⊢
        by_cases hrow : faults.updateRow = true
        · rw [if_pos hrow]
          exact h
        rw [if_neg hrow, updateRow_eq hentry]
        have hlive := hcond (by simpa using hrow)
        refine h.sameRow hentry (resolve_status _ _ ?_) (nofun)
        exact ⟨fun ha => absurd ha hlive, nofun⟩
      | active =>
        by_cases hdeactivate : faults.deactivate = true
        · rw [if_pos hdeactivate]
          exact h
        rw [if_neg hdeactivate]
        dsimp only
        obtain ⟨hstep, hnone⟩ := deactivate_inStep h
        by_cases hrow : faults.updateRow = true
        · rw [if_pos hrow]
          exact hstep
        rw [if_neg hrow]
        have hlive := hcond (by simpa using hrow)
        have hentry' : w.deactivateAll.entries id = some
            (if entry.status = .active then { entry with status := .draft } else entry) := by
          show (w.entries id).map _ = _
          rw [hentry]
          rfl
        have hlive' : (if entry.status = .active then { entry with status := .draft }
            else entry).status ≠ .archived := by
          by_cases ha : entry.status = .active
          · rw [if_pos ha]
            exact nofun
          · rw [if_neg ha]
            exact hlive
        rw [updateRow_eq hentry']
        refine hstep.sameRow hentry' (resolve_status _ _ ?_) ?_
        · exact ⟨fun ha => absurd ha hlive', nofun⟩
        · intro _ id' e _ he
          exact hnone id' e he
      | archived =>
        dsimp only at hcond ⊢
        unfold archiveSpecFile
        by_cases hdir : faults.createDir = true
        · rw [if_pos hdir]
          exact h
        rw [if_neg hdir]
        by_cases harchived : entry.status = .archived
        · rw [if_pos harchived] at hcond
          dsimp only
          rw [hcond]
          dsimp only
          by_cases hrow : faults.updateRow = true
          · rw [if_pos hrow]
            exact h
          · rw [if_neg hrow, updateRow_eq hentry]
            refine h.sameRow hentry (resolve_status _ _ ?_) (nofun)
            exact ⟨fun _ => rfl, fun _ => harchived⟩
        rw [if_neg harchived] at hcond
        obtain ⟨content, -, hcontent⟩ := h.content id entry hentry
        have hfile : w.files ⟨false, entry.fileName⟩ = some content := by
          rw [getSpecContent_eq hentry] at hcontent
          simpa [resolveSpecPath, harchived] using hcontent
        dsimp only
        rw [hfile]
        dsimp only
        by_cases hrename : faults.rename = true
        · rw [if_pos hrename]
          exact h
        rw [if_neg hrename]
        obtain ⟨hfree, hrenameRow, hrow⟩ := hcond (by simpa using hdir) (by simpa using hrename)
        simp only [hrenameRow, hrow]
        exact archive_inStep h hentry harchived hfree hfile

theorem delete_inStep (h : InStep w) (id : String) : InStep (w.deleteSpec id) := by
  unfold deleteSpec
  cases hentry : w.entries id with
  | none => exact h.without id
  | some =>
    refine (h.without id).setFile ?_ none
    intro id' e he
    obtain ⟨he, hid⟩ := entries_without he
    exact h.unclaimed hentry id' e he hid

theorem log_inStep (h : InStep w) (id date logEntry : String) :
    InStep (w.appendLog id date logEntry) := by
  unfold appendLog
  by_cases hblank : trim logEntry = ""
  · rw [if_pos hblank]
    exact h
  rw [if_neg hblank]
  cases hentry : w.entries id with
  | none => exact h
  | some entry =>
    dsimp only
    cases w.files (resolveSpecPath entry) with
    | none => exact h
    | some => exact h.writeFile hentry _

theorem step_inStep (tables : UnicodeTables) {a : SpecAction} (h : InStep w)
    (hok : KeepsApart tables w a) : InStep (w.step tables a) := by
  cases a with
  | create => exact create_inStep tables h hok
  | save id content =>
    show InStep (w.saveSpecContent id content)
    unfold saveSpecContent
    cases hentry : w.entries id with
    | none => exact h
    | some => exact h.writeFile hentry content
  | update => exact update_inStep tables h hok
  | sync id subtasks => exact h.sync id subtasks .none
  | log id date logEntry => exact log_inStep h id date logEntry
  | delete id => exact delete_inStep h id

theorem specs_inStep (tables : UnicodeTables) (files : SpecPath → Option String)
    (as : List SpecAction) (hok : Run.StepsOk (step tables) (KeepsApart tables) { files } as) :
    Run.Along (step tables) InStep { files } as := by
  have hfresh : InStep { files } := ⟨by simp, by simp, by simp⟩
  exact Run.along_of_inv (fun _ _ => step_inStep tables) hfresh hok

def asciiTables : UnicodeTables where
  toLowercase title := String.ofList (title.toList.map Char.toLower)
  isAlphanumeric := Char.isAlphanum

def archivedRun : List SpecAction :=
  [.create "s" "Add Dark Mode" "2026-03-15T00:00:00Z" "t" none {},
   .update "s" none (some .archived) "20260316" "2026-03-16T00:00:00Z" {}]

theorem archivedRun_inStep :
    Run.StepsOk (step asciiTables) (KeepsApart asciiTables) {} archivedRun ∧
      Run.Along (step asciiTables) InStep {} archivedRun ∧
      ((Run.run (step asciiTables) {} archivedRun).entries "s").map resolveSpecPath =
        some ⟨true, "20260316_add-dark-mode.spec.md"⟩ := by
  have hok : Run.StepsOk (step asciiTables) (KeepsApart asciiTables) {} archivedRun := by
    refine ⟨?_, ?_, trivial⟩
    · intro _ _ _
      exact ⟨nofun, nofun⟩
    intro entry hentry
    cases hentry
    refine fun _ _ => ⟨?_, rfl, rfl⟩
    intro id' e he hid
    have he' : update (update (fun _ => none) "s" _) "s" _ id' = some e := he
    rw [update_of_ne hid, update_of_ne hid] at he'
    cases he'
  exact ⟨hok, specs_inStep asciiTables _ archivedRun hok, by decide⟩

def sameSlugRun : List SpecAction :=
  [.create "s" "Fix Bug" "2026-03-15T00:00:00Z" "t" none {},
   .create "u" "fix: bug!" "2026-03-15T00:00:00Z" "v" none {}]

theorem sameSlugRun_shared : ¬Run.Along (step asciiTables) InStep {} sameSlugRun := by
  intro h
  have hboth : ∃ entry entry',
      (Run.run (step asciiTables) {} sameSlugRun).entries "s" = some entry ∧
      (Run.run (step asciiTables) {} sameSlugRun).entries "u" = some entry' ∧
      resolveSpecPath entry = resolveSpecPath entry' := ⟨_, _, rfl, rfl, by decide⟩
  obtain ⟨entry, entry', hentry, hentry', hpath⟩ := hboth
  exact absurd (h.last.apart "s" "u" entry entry' hentry hentry' hpath) (by decide)

end

end SpecWorld

end CcPanes.Spec

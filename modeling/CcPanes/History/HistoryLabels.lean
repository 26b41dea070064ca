import CcPanes.History.VersionContent

/-!
# What is recorded of a project, and the labels

The part of `HistoryService` (`history_service.rs`) between the watcher and the repository:
`process_file_changed` and `process_file_removed` with their filters, `create_auto_label`, and
`restore_to_label`; of the repository `get_all_latest_snapshots`, `put_label` and `list_labels`.
A file of the project is named by its relative path with slashes, which is what the history calls it
and, with backslashes, where `restore_to_label` writes it.
-/

namespace CcPanes
open HistoryFileRepository List

structure HistoryConfig where
  enabled : Bool
  ignorePatterns : List String
  maxFileSize : Nat
  minSaveIntervalSecs : Nat

structure LabelFileSnapshot where
  filePath : String
  versionId : String

structure HistoryLabel where
  id : String
  name : String
  labelType : String
  source : String
  timestamp : String
  fileSnapshots : List LabelFileSnapshot
  branch : String

namespace HistoryService

/-! ## the filters -/

def builtinIgnorePatterns : List String :=
  [".git/**", "node_modules/**", "target/**", "dist/**", "build/**", ".venv/**", ".next/**",
    ".turbo/**", ".dart_tool/**", "coverage/**", "__pycache__/**", ".ccpanes/**"]

/-- `replace('\\', "/")` -/
def slashed (path : String) : String :=
  String.ofList (path.toList.map fun c => if c = '\\' then '/' else c)

def hasComponent (path component : List Char) : Bool := (path.splitOn '/').contains component

def isAtOrBelow (path dir : List Char) : Bool := path == dir || (dir ++ ['/']).isPrefixOf path

def matchesPattern (path pattern : String) : Bool :=
  if "/**".toList.isSuffixOf pattern.toList then
    let dir := pattern.toList.dropLast.dropLast.dropLast
    if !dir.contains '/' then hasComponent path.toList dir else isAtOrBelow path.toList dir
  else if "*.".toList.isPrefixOf pattern.toList then
    ('.' :: pattern.toList.drop 2).isSuffixOf path.toList
  else if !pattern.toList.contains '/' then hasComponent path.toList pattern.toList
  else isAtOrBelow path.toList pattern.toList

def shouldIgnore (path : String) (patterns : List String) : Bool :=
  builtinIgnorePatterns.any (matchesPattern path) || patterns.any (matchesPattern path)

/-- without a byte order mark, a NUL among the first 8 KiB -/
def isBinary (content : FileContent) : Bool :=
  if [0xEF, 0xBB, 0xBF].isPrefixOf content then false
  else if [0xFF, 0xFE].isPrefixOf content then false
  else if [0xFE, 0xFF].isPrefixOf content then false
  else if [0xFF, 0xFE, 0x00, 0x00].isPrefixOf content then false
  else if [0x00, 0x00, 0xFE, 0xFF].isPrefixOf content then false
  else (content.take 8192).contains 0

/-- what `process_file_changed` finds at the path of the event -/
structure ObservedFile where
  isDir : Bool
  /-- `relative_to_project` -/
  relative : Option String
  /-- its canonical path lies outside the canonical project -/
  escapes : Bool
  /-- `fs::metadata` -/
  size : Option Nat
  /-- `fs::read` -/
  content : Option FileContent

/-- the readings of the clock and of the counter in one save -/
structure SaveClock where
  checkedAt : Int
  now : Int
  counter : Nat

variable (host : HistoryHost)

def saveArgs (filePath : String) (content : FileContent) (isDeleted : Bool) (branch : String)
    (minIntervalSecs : Nat) (clock : SaveClock) : SaveVersion where
  filePath := filePath
  content := content
  isDeleted := isDeleted
  branch := branch
  minIntervalSecs := minIntervalSecs
  checkedAt := clock.checkedAt
  now := clock.now
  counter := clock.counter

def processFileChanged (config : HistoryConfig) (branch : String) (l : HistoryLedger)
    (file : ObservedFile) (clock : SaveClock) : HistoryLedger :=
  if file.isDir then l
  else
    match file.relative with
    | none => l
    | some relative =>
      if !config.enabled then l
      else if shouldIgnore (slashed relative) config.ignorePatterns then l
      else if file.escapes then l
      else if file.size.any fun len => len > config.maxFileSize then l
      else
        match file.content with
        | none => l
        | some content =>
          if isBinary content then l
          else l.save host
            (saveArgs (slashed relative) content false branch config.minSaveIntervalSecs clock)

/-- the tombstone carries the content of the last version -/
def processFileRemoved (config : HistoryConfig) (branch : String) (l : HistoryLedger)
    (relative : Option String) (clock : SaveClock) : HistoryLedger :=
  match relative with
  | none => l
  | some relative =>
    if !config.enabled then l
    else if shouldIgnore (slashed relative) config.ignorePatterns then l
    else
      match (l.repo.listVersions (slashed relative)).getLast? with
      | none => l
      | some lastVer =>
        match l.repo.getVersionContent host (slashed relative) lastVer.id with
        | .error _ => l
        | .ok content => l.save host (saveArgs (slashed relative) content true branch 0 clock)

/-! ## the labels -/

/-- the version with the greatest id of every file, of any branch, tombstones included -/
def getAllLatestSnapshots (repo : HistoryFileRepository) : List LabelFileSnapshot :=
  (repo.fileVersions.filter fun v =>
    repo.fileVersions.all fun v' => v'.filePath ≠ v.filePath || v'.id ≤ v.id).map
      fun v => ⟨v.filePath, v.id⟩

/-- `INSERT OR REPLACE`, with the snapshots of the label -/
def putLabel (labels : List HistoryLabel) (label : HistoryLabel) : List HistoryLabel :=
  labels.filter (fun l => l.id ≠ label.id) ++ [label]

/-- `ORDER BY timestamp DESC, id` -/
def listLabels (labels : List HistoryLabel) : List HistoryLabel :=
  labels.insertionSort fun a b =>
    b.timestamp < a.timestamp ∨ b.timestamp = a.timestamp ∧ a.id ≤ b.id

structure LabelStamp where
  id : String
  timestamp : String

def autoLabel (name source branch : String) (stamp : LabelStamp)
    (snapshots : List LabelFileSnapshot) : HistoryLabel where
  id := stamp.id
  name := name
  labelType := "auto"
  source := source
  timestamp := stamp.timestamp
  fileSnapshots := snapshots
  branch := branch

def createAutoLabel (repo : HistoryFileRepository) (labels : List HistoryLabel)
    (name source branch : String) (stamp : LabelStamp) : List HistoryLabel :=
  putLabel labels (autoLabel name source branch stamp (getAllLatestSnapshots repo))

/-- the label that `restore_to_label` creates first -/
def beforeRollback (repo : HistoryFileRepository) (labels : List HistoryLabel) (branch : String)
    (stamp : LabelStamp) : List HistoryLabel :=
  if (getAllLatestSnapshots repo).isEmpty then labels
  else createAutoLabel repo labels "Before Rollback" "restore" branch stamp

/-- a snapshot that can be read is written; `writable` is what the file system answers -/
def writeSnapshot (repo : HistoryFileRepository) (writable : String → Bool)
    (files : String → Option FileContent) (snap : LabelFileSnapshot) :
    String → Option FileContent :=
  match repo.getVersionContent host snap.filePath snap.versionId with
  | .error _ => files
  | .ok content =>
    if writable snap.filePath then Function.update files snap.filePath (some content) else files

/-- the labels and the files of the project afterwards -/
def restoreToLabel (repo : HistoryFileRepository) (labels : List HistoryLabel) (branch : String)
    (stamp : LabelStamp) (writable : String → Bool) (files : String → Option FileContent)
    (labelId : String) : List HistoryLabel × Except String (String → Option FileContent) :=
  let labels := beforeRollback repo labels branch stamp
  match (listLabels labels).find? fun l => l.id = labelId with
  | none => (labels, .error "Label not found")
  | some target =>
    (labels, .ok (target.fileSnapshots.foldl (writeSnapshot host repo writable) files))

/-! ## what the operations on labels do -/

theorem listLabels_find? {labels : List HistoryLabel} {label : HistoryLabel} (hmem : label ∈ labels)
    (hone : ∀ l ∈ labels, l.id = label.id → l = label) :
    (listLabels labels).find? (fun l => l.id = label.id) = some label := by
  cases hf : (listLabels labels).find? fun l => l.id = label.id with
  | none =>
    have hno := find?_eq_none.mp hf label ((mem_insertionSort _).mpr hmem)
    exact absurd (decide_eq_true rfl) hno
  | some l =>
    have hl : l ∈ labels := (mem_insertionSort _).mp (mem_of_find?_eq_some hf)
    have hid := find?_some hf
    rw [decide_eq_true_eq] at hid
    rw [hone l hl hid]

theorem mem_putLabel {labels : List HistoryLabel} {label l : HistoryLabel} :
    l ∈ putLabel labels label ↔ l ∈ labels ∧ l.id ≠ label.id ∨ l = label := by
  unfold putLabel
  rw [mem_append, mem_filter, mem_singleton, decide_eq_true_eq]

def Labelled (labels : List HistoryLabel) (label : HistoryLabel) : Prop :=
  label ∈ labels ∧ ∀ l ∈ labels, l.id = label.id → l = label

theorem putLabel_labelled (labels : List HistoryLabel) (label : HistoryLabel) :
    Labelled (putLabel labels label) label := by
  refine ⟨mem_putLabel.mpr (.inr rfl), ?_⟩
  intro l hl hid
  obtain ⟨-, hne⟩ | rfl := mem_putLabel.mp hl
  · exact absurd hid hne
  · rfl

theorem Labelled.putLabel {labels : List HistoryLabel} {label label' : HistoryLabel}
    (h : Labelled labels label) (hne : label'.id ≠ label.id) :
    Labelled (putLabel labels label') label := by
  refine ⟨mem_putLabel.mpr (.inl ⟨h.1, Ne.symm hne⟩), ?_⟩
  intro l hl hid
  obtain ⟨hl, -⟩ | rfl := mem_putLabel.mp hl
  · exact h.2 l hl hid
  · exact absurd hid hne

theorem mem_getAllLatestSnapshots {repo : HistoryFileRepository} {snap : LabelFileSnapshot} :
    snap ∈ getAllLatestSnapshots repo ↔
      ∃ v ∈ repo.fileVersions, (∀ v' ∈ repo.fileVersions, v'.filePath = v.filePath → v'.id ≤ v.id) ∧
        snap = ⟨v.filePath, v.id⟩ := by
  unfold getAllLatestSnapshots
  rw [mem_map]
  constructor
  · rintro ⟨v, hv, rfl⟩
    obtain ⟨hmem, hmax⟩ := mem_filter.mp hv
    rw [all_eq_true] at hmax
    refine ⟨v, hmem, fun v' hv' hpath => ?_, rfl⟩
    have h := hmax v' hv'
    rw [Bool.or_eq_true, decide_eq_true_eq, decide_eq_true_eq] at h
    exact h.resolve_left fun hne => hne hpath
  rintro ⟨v, hmem, hmax, rfl⟩
  refine ⟨v, mem_filter.mpr ⟨hmem, ?_⟩, rfl⟩
  rw [all_eq_true]
  intro v' hv'
  rw [Bool.or_eq_true, decide_eq_true_eq, decide_eq_true_eq]
  by_cases hpath : v'.filePath = v.filePath
  · exact .inr (hmax v' hv' hpath)
  · exact .inl hpath

theorem writeSnapshot_apply {repo : HistoryFileRepository} (writable : String → Bool)
    (files : String → Option FileContent) (snap : LabelFileSnapshot) (p : String) :
    writeSnapshot host repo writable files snap p =
      if snap.filePath = p ∧ writable p = true then
        ((repo.getVersionContent host snap.filePath snap.versionId).toOption).or (files p)
      else files p := by
  unfold writeSnapshot
  cases hc : repo.getVersionContent host snap.filePath snap.versionId with
  | error e => exact (ite_self _).symm
  | ok content =>
    dsimp only
    by_cases hp : snap.filePath = p
    · subst hp
      by_cases hw : writable snap.filePath = true
      · rw [if_pos hw, if_pos ⟨rfl, hw⟩, Function.update_self]
        rfl
      · rw [if_neg hw, if_neg fun h => hw h.2]
    · rw [show (if writable snap.filePath = true then
          Function.update files snap.filePath (some content) else files) p = files p by
        split
        · exact Function.update_of_ne (Ne.symm hp) ..
        · rfl]
      exact (if_neg fun h => hp h.1).symm

theorem foldl_writeSnapshot {repo : HistoryFileRepository} (writable : String → Bool)
    (held : String → Option FileContent) (snaps : List LabelFileSnapshot)
    (hread : ∀ snap ∈ snaps,
      (repo.getVersionContent host snap.filePath snap.versionId).toOption = held snap.filePath)
    (files : String → Option FileContent) (p : String) :
    snaps.foldl (writeSnapshot host repo writable) files p =
      if (∃ snap ∈ snaps, snap.filePath = p) ∧ writable p = true then (held p).or (files p)
      else files p := by
  induction snaps generalizing files with
  | nil => rw [foldl_nil, if_neg (by rintro ⟨⟨snap, hsnap, -⟩, -⟩; cases hsnap)]
  | cons snap snaps ih =>
    have htail := ih fun snap' h' => hread snap' (mem_cons_of_mem _ h')
    rw [foldl_cons, htail, writeSnapshot_apply, hread snap (mem_cons_self ..)]
    by_cases hw : writable p = true
    · by_cases hp : snap.filePath = p
      · have hex : ∃ snap' ∈ snap :: snaps, snap'.filePath = p := ⟨snap, mem_cons_self .., hp⟩
        simp only [hp, hw, hex, and_self, and_true, if_true]
        cases held p <;> simp
      have hiff : (∃ snap' ∈ snap :: snaps, snap'.filePath = p) ↔
          ∃ snap' ∈ snaps, snap'.filePath = p := by
        rw [exists_mem_cons_iff]
        exact ⟨fun h => h.resolve_left hp, .inr⟩
      simp only [hp, hiff, false_and, if_false]
    · simp only [hw, and_false, Bool.false_eq_true, if_false]

end HistoryService

end CcPanes

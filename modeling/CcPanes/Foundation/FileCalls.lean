import CcPanes.Foundation.PathLookup

/-!
# The calls of a file system

What a program does with a tree of files, by path.  A call succeeds with a tree, or fails.
-/

namespace FileTree

/-- the tree afterwards, and whether the call succeeded -/
abbrev Outcome := Tree × Except Errno Unit

def Path.parent (path : Path) : Option Path :=
  if path.components = [] then none else some ⟨path.absolute, path.components.dropLast, .plain⟩

namespace Tree

section
variable (t : Tree) (cwd : Loc)

def outcome : Except Errno Tree → Outcome
  | .ok t' => (t', .ok ())
  | .error e => (t, .error e)

def pathExists (path : Path) : Bool :=
  match t.resolve cwd path with
  | .found _ => true
  | _ => false

def isDir (path : Path) : Bool :=
  match t.resolve cwd path with
  | .found loc => t.entry loc = some .dir
  | _ => false

def symlinkMetadata (path : Path) : Except Errno Entry :=
  match t.resolveParent cwd path with
  | .error e => .error e
  | .ok (dir, name) =>
    match t.entry (dir ++ [name]) with
    | none => .error .notFound
    | some e => .ok e

def createDir (path : Path) : Except Errno Tree :=
  match t.resolveParent cwd path with
  | .error e => .error e
  | .ok (dir, name) =>
    if hdir : t.entry dir = some .dir then
      if hnone : t.entry (dir ++ [name]) = none then .ok (t.create dir name .dir hdir hnone)
      else .error .alreadyExists
    else .error .notADirectory

def createDirOr (path : Path) (e : Errno) : Outcome :=
  if t.isDir cwd path then (t, .ok ()) else (t, .error e)

/-- the file is created, or its content is replaced -/
def write (path : Path) (content : String) : Except Errno Tree :=
  match t.resolve cwd path with
  | .found loc =>
    match hfile : t.entry loc with
    | some (.file old) => .ok (t.setFile loc content ⟨old, hfile⟩)
    | _ => .error .isADirectory
  | .missing dir name =>
    if hdir : t.entry dir = some .dir then
      if hnone : t.entry (dir ++ [name]) = none then
        .ok (t.create dir name (.file content) hdir hnone)
      else .error .alreadyExists
    else .error .notADirectory
  | .failed e => .error e

def copy (source dest : Path) : Except Errno Tree :=
  match t.resolve cwd source with
  | .found loc =>
    match t.entry loc with
    | some (.file content) => t.write cwd dest content
    | _ => .error .invalidInput
  | .missing _ _ => .error .notFound
  | .failed e => .error e

def removeFile (path : Path) : Except Errno Tree :=
  match t.resolveParent cwd path with
  | .error e => .error e
  | .ok (dir, name) =>
    if path.ending ≠ .plain then .error .notADirectory
    else
      match t.entry (dir ++ [name]) with
      | none => .error .notFound
      | some .dir => .error .isADirectory
      | some _ => .ok (t.removeAt dir name)

/-- a directory with what is below it, or a link -/
def removeDirAll (path : Path) : Except Errno Tree :=
  match t.resolveParent cwd path with
  | .error e => .error e
  | .ok (dir, name) =>
    match t.entry (dir ++ [name]) with
    | none => .error .notFound
    | some (.file _) => .error .notADirectory
    | some _ => .ok (t.removeAt dir name)

/-- why `e` does not take the place of what is at `dest` -/
def keepsPlace (e : Entry) (dest : Loc) : Option Errno :=
  match e, t.entry dest with
  | _, none => none
  | .dir, some .dir => if t.readDir dest = [] then none else some .notEmpty
  | .dir, some _ => some .notADirectory
  | _, some .dir => some .isADirectory
  | _, some _ => none

/-- `refuses` stands for what keeps the system from it, such as another device -/
def rename (refuses : Loc → Loc → Bool) (source dest : Path) : Except Errno Tree :=
  match t.resolveParent cwd source, t.resolveParent cwd dest with
  | .error e, _ => .error e
  | _, .error e => .error e
  | .ok (sourceDir, sourceName), .ok (dir, name) =>
    match t.entry (sourceDir ++ [sourceName]) with
    | none => .error .notFound
    | some e =>
      if refuses (sourceDir ++ [sourceName]) (dir ++ [name]) then .error .crossDevice
      else if sourceDir ++ [sourceName] = dir ++ [name] then .ok t
      else if e ≠ .dir ∧ dest.ending ≠ .plain then .error .notADirectory
      else
        match t.keepsPlace e (dir ++ [name]) with
        | some errno => .error errno
        | none =>
          if hdir : t.entry dir = some .dir then
            if hinto : sourceDir ++ [sourceName] <+: dir then .error .invalidInput
            else .ok (t.relocate (sourceDir ++ [sourceName]) dir name (by simp) hdir hinto)
          else .error .notADirectory

end

/-- `std::fs::create_dir_all`; `depth` is the number of the components and one -/
def createDirAllWith (cwd : Loc) : (depth : Nat) → Tree → Path → Outcome
  | 0, t, _ => (t, .error .nameTooLong)
  | depth + 1, t, path =>
    if path.isEmpty then (t, .ok ())
    else
      match t.createDir cwd path with
      | .ok t' => (t', .ok ())
      | .error e =>
        if e ≠ .notFound then t.createDirOr cwd path e
        else
          match path.parent with
          | none => (t, .error .invalidInput)
          | some parent =>
            match createDirAllWith cwd depth t parent with
            | (t', .error e) => (t', .error e)
            | (t', .ok ()) =>
              match t'.createDir cwd path with
              | .ok t'' => (t'', .ok ())
              | .error e => t'.createDirOr cwd path e

def createDirAll (t : Tree) (cwd : Loc) (path : Path) : Outcome :=
  createDirAllWith cwd (path.components.length + 1) t path

/-! ## what a call has changed -/

section
variable {t t' : Tree} {cwd : Loc} {path : Path}

theorem createDir_eq (h : t.createDir cwd path = .ok t') :
    ∃ dir name, t.resolveParent cwd path = .ok (dir, name) ∧ t.entry dir = some .dir ∧
      t.entry (dir ++ [name]) = none ∧
      ∀ q, t'.entry q = if q = dir ++ [name] then some .dir else t.entry q := by
  unfold createDir at h
  split at h
  · cases h
  next dir name hparent =>
  by_cases hdir : t.entry dir = some .dir
  · rw [dif_pos hdir] at h
    by_cases hnone : t.entry (dir ++ [name]) = none
    · rw [dif_pos hnone] at h
      cases h
      exact ⟨dir, name, hparent, hdir, hnone, fun _ => rfl⟩
    · rw [dif_neg hnone] at h
      cases h
  · rw [dif_neg hdir] at h
    cases h

theorem write_eq {content : String} (h : t.write cwd path content = .ok t') :
    (∃ loc old, t.resolve cwd path = .found loc ∧ t.entry loc = some (.file old) ∧
        ∀ q, t'.entry q = if q = loc then some (.file content) else t.entry q) ∨
      ∃ dir name, t.resolve cwd path = .missing dir name ∧ t.entry dir = some .dir ∧
        t.entry (dir ++ [name]) = none ∧
        ∀ q, t'.entry q = if q = dir ++ [name] then some (.file content) else t.entry q := by
  unfold write at h
  split at h
  · next loc hfound =>
    split at h
    · next old hfile =>
      cases h
      exact .inl ⟨loc, old, hfound, hfile, fun _ => rfl⟩
    · cases h
  · next dir name hmissing =>
    by_cases hdir : t.entry dir = some .dir
    · rw [dif_pos hdir] at h
      by_cases hnone : t.entry (dir ++ [name]) = none
      · rw [dif_pos hnone] at h
        cases h
        exact .inr ⟨dir, name, hmissing, hdir, hnone, fun _ => rfl⟩
      · rw [dif_neg hnone] at h
        cases h
    · rw [dif_neg hdir] at h
      cases h
  · cases h

theorem copy_eq {dest : Path} (h : t.copy cwd path dest = .ok t') :
    ∃ content, t.write cwd dest content = .ok t' := by
  unfold copy at h
  split at h
  · split at h
    · exact ⟨_, h⟩
    · cases h
  · cases h
  · cases h

theorem removeFile_eq (h : t.removeFile cwd path = .ok t') :
    ∃ dir name, t.resolveParent cwd path = .ok (dir, name) ∧
      ∀ q, t'.entry q = if dir ++ [name] <+: q then none else t.entry q := by
  unfold removeFile at h
  split at h
  · cases h
  next dir name hparent =>
  split at h
  · cases h
  split at h
  · cases h
  · cases h
  · cases h
    exact ⟨dir, name, hparent, fun _ => rfl⟩

theorem removeDirAll_eq (h : t.removeDirAll cwd path = .ok t') :
    ∃ dir name, t.resolveParent cwd path = .ok (dir, name) ∧
      ∀ q, t'.entry q = if dir ++ [name] <+: q then none else t.entry q := by
  unfold removeDirAll at h
  split at h
  · cases h
  next dir name hparent =>
  split at h
  · cases h
  · cases h
  · cases h
    exact ⟨dir, name, hparent, fun _ => rfl⟩

theorem rename_eq {refuses : Loc → Loc → Bool} {dest : Path}
    (h : t.rename cwd refuses path dest = .ok t') :
    ∃ sourceDir sourceName dir name,
      t.resolveParent cwd path = .ok (sourceDir, sourceName) ∧
      t.resolveParent cwd dest = .ok (dir, name) ∧
      t.entry (sourceDir ++ [sourceName]) ≠ none ∧
      (sourceDir ++ [sourceName] = dir ++ [name] ∧ t' = t ∨
        ¬ sourceDir ++ [sourceName] <+: dir ++ [name] ∧ ∀ q, t'.entry q =
          if dir ++ [name] <+: q then
            t.entry (sourceDir ++ [sourceName] ++ q.drop (dir.length + 1))
          else if sourceDir ++ [sourceName] <+: q then none else t.entry q) := by
  unfold rename at h
  split at h
  · cases h
  · cases h
  next sourceDir sourceName dir name hsource hdest =>
  split at h
  · cases h
  next e hentry =>
  refine ⟨sourceDir, sourceName, dir, name, hsource, hdest, by rw [hentry]; exact nofun, ?_⟩
  split at h
  · cases h
  split at h
  · next hsame =>
    exact .inl ⟨hsame, (Except.ok.inj h).symm⟩
  next hdiffer =>
  split at h
  · cases h
  split at h
  · cases h
  split at h
  · split at h
    · cases h
    next hinto =>
    cases h
    refine .inr ⟨fun hpre => ?_, fun _ => rfl⟩
    rcases List.prefix_concat_iff.mp hpre with heq | hpre
    · exact hdiffer heq
    · exact hinto hpre
  · cases h

/-- **Where the directory above is there**, one directory is created at most, and what is there stays
as it is. -/
theorem createDirAll_ofLoc {dir : Loc} {name : String} (hdir : t.entry dir = some .dir) :
    (t.entry (dir ++ [name]) = none ∧ (t.createDirAll cwd (.ofLoc (dir ++ [name]))).2 = .ok () ∧
        ∀ q, (t.createDirAll cwd (.ofLoc (dir ++ [name]))).1.entry q =
          if q = dir ++ [name] then some .dir else t.entry q) ∨
      t.entry (dir ++ [name]) ≠ none ∧
        t.createDirAll cwd (.ofLoc (dir ++ [name])) =
          t.createDirOr cwd (.ofLoc (dir ++ [name])) .alreadyExists := by
  unfold createDirAll createDirAllWith
  unfold createDir
  rw [resolveParent_ofLoc (.dir hdir), if_pos hdir]
  dsimp only
  rw [dif_pos hdir]
  by_cases hnone : t.entry (dir ++ [name]) = none
  · rw [dif_pos hnone]
    exact .inl ⟨hnone, rfl, fun _ => rfl⟩
  · rw [dif_neg hnone]
    exact .inr ⟨hnone, rfl⟩

end

end Tree

end FileTree

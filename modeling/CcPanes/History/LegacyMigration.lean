import CcPanes.Foundation.FiniteMap
import CcPanes.History.VersionContent

/-!
# The migration of the legacy history

`migrate_from_json` of `history_file_repo.rs`.  A legacy directory is named by the encoded path of a
file and has a `versions.json` and one file `v_<id>` for each version.  The content of a version is
moved to its blob, its row is inserted, then comes the next version; when all are done the
`versions.json` is removed.  A directory with a row for its path counts as migrated.
-/

namespace CcPanes
open HistoryFileRepository List Function

structure LegacyDir where
  /-- `versions.json`; `some none`: it is no JSON of versions -/
  versionsJson : Option (Option (List FileVersion))
  /-- the files `v_<id>` -/
  contents : FiniteMap String FileContent

structure LegacyHistory where
  dirs : FiniteMap String LegacyDir
  repo : HistoryFileRepository

/-- what `migrate_from_json` still has to do -/
inductive MigrationOp where
  | enter (dirName : String)
  | moveContent (dirName : String) (version : FileVersion)
  | insertVersion (version : FileVersion)
  | removeVersionsJson (dirName : String)
  | removeDir (dirName : String)

structure MigrationRun where
  history : LegacyHistory
  todo : List MigrationOp

namespace LegacyHistory

/-- the row of a version: the branch is the default of the column -/
def legacyRow (version : FileVersion) : FileVersion :=
  { version with isDeleted := false, branch := "" }

def moveContent (h : LegacyHistory) (dirName : String) (version : FileVersion) : LegacyHistory :=
  match h.dirs.lookup dirName with
  | none => h
  | some dir =>
    match dir.contents.lookup version.id with
    | none => h
    | some content =>
      -- renamed to the blob, or removed where the blob exists
      { dirs := h.dirs.insert dirName { dir with contents := dir.contents.erase version.id }
        repo := { h.repo with
          blobs := BlobStore.writeIfAbsent h.repo.blobs version.hash content } }

/-- `INSERT OR IGNORE` -/
def insertVersion (h : LegacyHistory) (version : FileVersion) : LegacyHistory :=
  { h with repo := (h.repo.insertVersion (legacyRow version)).2 }

def removeVersionsJson (h : LegacyHistory) (dirName : String) : LegacyHistory :=
  match h.dirs.lookup dirName with
  | none => h
  | some dir => { h with dirs := h.dirs.insert dirName { dir with versionsJson := none } }

def removeDir (h : LegacyHistory) (dirName : String) : LegacyHistory :=
  match h.dirs.lookup dirName with
  | none => h
  | some dir =>
    if dir.versionsJson.isNone && dir.contents.entries.isEmpty then
      { h with dirs := h.dirs.erase dirName }
    else h

def versionOps (dirName : String) (versions : List FileVersion) : List MigrationOp :=
  versions.flatMap fun v => [.moveContent dirName v, .insertVersion v]

/-- `decode` is `urlencoding::decode` -/
def dirOps (decode : String → Option String) (h : LegacyHistory) (dirName : String) :
    List MigrationOp :=
  match (h.dirs.lookup dirName).bind LegacyDir.versionsJson, decode dirName with
  | some json, some filePath =>
    -- migrated already
    if h.repo.fileVersions.any fun v => v.filePath = filePath then [.removeVersionsJson dirName]
    else
      match json with
      | none => []
      | some versions =>
        versionOps dirName versions ++ [.removeVersionsJson dirName, .removeDir dirName]
  | _, _ => []

end LegacyHistory

namespace MigrationRun

def start (h : LegacyHistory) (entries : List String) : MigrationRun := ⟨h, entries.map .enter⟩

def step (decode : String → Option String) (r : MigrationRun) : MigrationRun :=
  match r.todo with
  | [] => r
  | .enter dirName :: todo => { r with todo := r.history.dirOps decode dirName ++ todo }
  | .moveContent dirName version :: todo => ⟨r.history.moveContent dirName version, todo⟩
  | .insertVersion version :: todo => ⟨r.history.insertVersion version, todo⟩
  | .removeVersionsJson dirName :: todo => ⟨r.history.removeVersionsJson dirName, todo⟩
  | .removeDir dirName :: todo => ⟨r.history.removeDir dirName, todo⟩

end MigrationRun

/-- the directory is that of a file, with its versions and their contents -/
structure LegacyFile (decode : String → Option String) (host : HistoryHost) (h : LegacyHistory)
    (dirName filePath : String) (versions : List FileVersion)
    (contents : FiniteMap String FileContent) : Prop where
  dir : h.dirs.lookup dirName = some ⟨some (some versions), contents⟩
  decoded : decode dirName = some filePath
  ids : (versions.map FileVersion.id).Nodup
  path : ∀ v ∈ versions, v.filePath = filePath
  content : ∀ v ∈ versions, ∃ content, contents.lookup v.id = some content ∧
    v.hash = host.calculateHash content

/-- a legacy tree, of which nothing is migrated -/
structure LegacyTree (decode : String → Option String) (host : HistoryHost) (h : LegacyHistory) :
    Prop where
  file : ∀ dirName dir, h.dirs.lookup dirName = some dir →
    ∃ filePath versions contents, LegacyFile decode host h dirName filePath versions contents
  distinct : ∀ dirName dirName' filePath, (h.dirs.lookup dirName).isSome = true →
    (h.dirs.lookup dirName').isSome = true →
    decode dirName = some filePath → decode dirName' = some filePath → dirName = dirName'
  fresh : ∀ dirName filePath, (h.dirs.lookup dirName).isSome = true →
    decode dirName = some filePath → ∀ v ∈ h.repo.fileVersions, v.filePath ≠ filePath
  blobs : BlobStore.Every (fun hash raw => hash = host.calculateHash raw) h.repo.blobs

/-- the version is listed, its blob is there, and its content is given back -/
structure Survives (host : HistoryHost) (repo : HistoryFileRepository) (filePath : String)
    (version : FileVersion) (content : FileContent) : Prop where
  listed : LegacyHistory.legacyRow version ∈ repo.listVersions filePath
  blob : BlobStore.read repo.blobs version.hash = some content
  given : repo.getVersionContent host filePath version.id = decodeBlob host content

/-- every version of the tree is in the repository -/
def Preserves (decode : String → Option String) (host : HistoryHost) (tree : LegacyHistory)
    (repo : HistoryFileRepository) : Prop :=
  ∀ dirName filePath versions contents,
    LegacyFile decode host tree dirName filePath versions contents →
    ∀ v ∈ versions, ∀ content, contents.lookup v.id = some content →
      Survives host repo filePath v content

def AllOrNone (decode : String → Option String) (host : HistoryHost) (tree : LegacyHistory)
    (repo : HistoryFileRepository) : Prop :=
  ∀ dirName filePath versions contents,
    LegacyFile decode host tree dirName filePath versions contents →
    (∀ v ∈ versions, LegacyHistory.legacyRow v ∈ repo.fileVersions) ∨
      ∀ v ∈ versions, LegacyHistory.legacyRow v ∉ repo.fileVersions

def Lists (entries : List String) (h : LegacyHistory) : Prop :=
  entries.Nodup ∧ ∀ dirName, (h.dirs.lookup dirName).isSome = true → dirName ∈ entries

/-! ## the state between two operations -/

section
variable {decode : String → Option String} {host : HistoryHost} {tree h : LegacyHistory}
  {dirName filePath : String} {versions : List FileVersion}
  {contents : FiniteMap String FileContent}

/-- `h` can come of the tree: the first `done dirName` versions of a file have their rows -/
structure Migrates (decode : String → Option String) (host : HistoryHost) (tree : LegacyHistory)
    (done : String → Nat) (h : LegacyHistory) : Prop where
  dirs : ∀ dirName, (h.dirs.lookup dirName).isSome = true →
    (tree.dirs.lookup dirName).isSome = true
  rows : ∀ dirName filePath versions contents,
    LegacyFile decode host tree dirName filePath versions contents →
    done dirName ≤ versions.length ∧ h.repo.fileVersions.filter (·.filePath = filePath) =
      (versions.take (done dirName)).map LegacyHistory.legacyRow
  json : ∀ dirName filePath versions contents,
    LegacyFile decode host tree dirName filePath versions contents →
    (h.dirs.lookup dirName).bind LegacyDir.versionsJson = some (some versions) ∨
      (h.dirs.lookup dirName).bind LegacyDir.versionsJson = none ∧
        (0 < done dirName ∨ versions = [])
  /-- the content of a version is in its blob, or, while it has no row, in its directory -/
  kept : ∀ dirName filePath versions contents,
    LegacyFile decode host tree dirName filePath versions contents →
    ∀ i v, versions[i]? = some v → ∀ content, contents.lookup v.id = some content →
      BlobStore.read h.repo.blobs v.hash = some content ∨ done dirName ≤ i ∧
        ((h.dirs.lookup dirName).bind fun dir => dir.contents.lookup v.id) = some content
  blobs : BlobStore.Every (fun hash raw => hash = host.calculateHash raw) h.repo.blobs

theorem LegacyFile.unique {filePath' : String} {versions' : List FileVersion}
    {contents' : FiniteMap String FileContent}
    (f : LegacyFile decode host tree dirName filePath versions contents)
    (f' : LegacyFile decode host tree dirName filePath' versions' contents') :
    filePath' = filePath ∧ versions' = versions ∧ contents' = contents := by
  have hdir := f'.dir.symm.trans f.dir
  have hdecoded := f'.decoded.symm.trans f.decoded
  cases hdir
  cases hdecoded
  exact ⟨rfl, rfl, rfl⟩

theorem LegacyFile.isSome (f : LegacyFile decode host tree dirName filePath versions contents) :
    (tree.dirs.lookup dirName).isSome = true := by
  rw [f.dir]
  rfl

theorem LegacyTree.migrates (htree : LegacyTree decode host tree) :
    Migrates decode host tree (fun _ => 0) tree where
  dirs _ hd := hd
  rows dirName filePath versions contents f := by
    refine ⟨Nat.zero_le _, ?_⟩
    rw [take_zero, map_nil, filter_eq_nil_iff]
    intro v hv
    rw [decide_eq_true_eq]
    exact htree.fresh dirName filePath f.isSome f.decoded v hv
  json dirName filePath versions contents f := by
    rw [f.dir]
    exact .inl rfl
  kept dirName filePath versions contents f i v hv content hcontent := by
    rw [f.dir]
    exact .inr ⟨Nat.zero_le i, hcontent⟩
  blobs := htree.blobs

namespace Migrates
variable {done : String → Nat}

theorem nodup_id {i j : Nat} {v v' : FileVersion} (hids : (versions.map FileVersion.id).Nodup)
    (hi : versions[i]? = some v) (hj : versions[j]? = some v') (hid : v.id = v'.id) : i = j := by
  have hi' : (versions.map FileVersion.id)[i]? = some v.id := by
    rw [getElem?_map, hi]
    rfl
  have hj' : (versions.map FileVersion.id)[j]? = some v.id := by
    rw [getElem?_map, hj, hid]
    rfl
  obtain ⟨hlt, hget⟩ := List.getElem?_eq_some_iff.mp hi'
  obtain ⟨hlt', hget'⟩ := List.getElem?_eq_some_iff.mp hj'
  exact (List.Nodup.getElem_inj_iff hids).mp (hget.trans hget'.symm)

theorem blobs_moved (hm : Migrates decode host tree done h)
    (hinj : Function.Injective host.calculateHash) {hash : String} {content content' : FileContent}
    (hhash : hash = host.calculateHash content)
    (hkept : BlobStore.read h.repo.blobs hash = some content ∨ content' = content) :
    BlobStore.read (BlobStore.writeIfAbsent h.repo.blobs hash content') hash = some content ∧
      BlobStore.Every (fun hash raw => hash = host.calculateHash raw)
        (BlobStore.writeIfAbsent h.repo.blobs hash content') := by
  cases hread : BlobStore.read h.repo.blobs hash with
  | some raw =>
    have hraw : raw = content := hinj ((hm.blobs hash raw hread).symm.trans hhash)
    have hsame : BlobStore.writeIfAbsent h.repo.blobs hash content' = h.repo.blobs := by
      unfold BlobStore.writeIfAbsent
      rw [hread]
      rfl
    rw [hsame, hread, hraw]
    exact ⟨rfl, hm.blobs⟩
  | none =>
    rw [hread] at hkept
    obtain rfl := hkept.resolve_left nofun
    refine ⟨?_, hm.blobs.writeIfAbsent hhash⟩
    rw [BlobStore.read_writeIfAbsent_self, hread]
    rfl

theorem moveContent (hm : Migrates decode host tree done h)
    (hinj : Function.Injective host.calculateHash)
    (f : LegacyFile decode host tree dirName filePath versions contents) {i : Nat} {v : FileVersion}
    (hi : versions[i]? = some v) {content : FileContent}
    (hcontent : contents.lookup v.id = some content) :
    Migrates decode host tree done (h.moveContent dirName v) ∧
      BlobStore.read (h.moveContent dirName v).repo.blobs v.hash = some content := by
  have hhash : v.hash = host.calculateHash content := by
    obtain ⟨content', hc', hhash⟩ := f.content v (mem_of_getElem? hi)
    rw [hcontent] at hc'
    cases hc'
    exact hhash
  have hkept := hm.kept dirName filePath versions contents f i v hi content hcontent
  unfold LegacyHistory.moveContent
  cases hdir : h.dirs.lookup dirName with
  | none =>
    rw [hdir] at hkept
    exact ⟨hm, hkept.resolve_right fun hk => by cases hk.2⟩
  | some dir =>
    rw [hdir, Option.bind_some] at hkept
    cases hfile : dir.contents.lookup v.id with
    | none =>
      rw [hfile] at hkept
      simp only [hfile]
      exact ⟨hm, hkept.resolve_right fun hk => by cases hk.2⟩
    | some =>
      rw [hfile] at hkept
      simp only [hfile]
      obtain ⟨hread, hblobs⟩ := hm.blobs_moved hinj hhash
        (hkept.imp_right fun hk => Option.some.inj hk.2)
      refine ⟨⟨?_, hm.rows, ?_, ?_, hblobs⟩, hread⟩
      · intro dirName' hd
        by_cases hname : dirName' = dirName
        · rw [hname]
          exact f.isSome
        · rw [AList.lookup_insert_ne hname] at hd
          exact hm.dirs dirName' hd
      · intro dirName' filePath' versions' contents' f'
        have hjson := hm.json dirName' filePath' versions' contents' f'
        by_cases hname : dirName' = dirName
        · rw [hname, hdir] at hjson
          rw [hname, AList.lookup_insert]
          exact hjson
        · rw [AList.lookup_insert_ne hname]
          exact hjson
      intro dirName' filePath' versions' contents' f' i' v' hi' c hc
      obtain hblob | ⟨hdone, hkept'⟩ :=
        hm.kept dirName' filePath' versions' contents' f' i' v' hi' c hc
      · exact .inl (BlobStore.read_writeIfAbsent_of_some hblob _ _)
      by_cases hname : dirName' = dirName
      · subst hname
        obtain ⟨-, rfl, rfl⟩ := f.unique f'
        by_cases hid : v'.id = v.id
        · obtain rfl := nodup_id f.ids hi' hi hid
          cases hi'.symm.trans hi
          cases hc.symm.trans hcontent
          exact .inl hread
        rw [hdir] at hkept'
        rw [AList.lookup_insert]
        refine .inr ⟨hdone, ?_⟩
        show (dir.contents.erase v.id).lookup v'.id = some c
        rw [AList.lookup_erase_ne hid]
        exact hkept'
      · rw [AList.lookup_insert_ne hname]
        exact .inr ⟨hdone, hkept'⟩

theorem insertVersion (htree : LegacyTree decode host tree) (hm : Migrates decode host tree done h)
    (f : LegacyFile decode host tree dirName filePath versions contents) {v : FileVersion}
    (hv : versions[done dirName]? = some v)
    (hblob : ∀ content, contents.lookup v.id = some content →
      BlobStore.read h.repo.blobs v.hash = some content) :
    Migrates decode host tree (Function.update done dirName (done dirName + 1))
      (h.insertVersion v) := by
  have hpath : v.filePath = filePath := f.path v (mem_of_getElem? hv)
  obtain ⟨hlt, hget⟩ := List.getElem?_eq_some_iff.mp hv
  have hrows := (hm.rows dirName filePath versions contents f).2
  have hnew : (h.repo.insertVersion (LegacyHistory.legacyRow v)).2 =
      { h.repo with fileVersions := h.repo.fileVersions ++ [LegacyHistory.legacyRow v] } := by
    unfold HistoryFileRepository.insertVersion
    rw [if_neg]
    rw [any_eq_true]
    rintro ⟨row, hrow, hkey⟩
    rw [Bool.and_eq_true, decide_eq_true_eq, decide_eq_true_eq] at hkey
    have hmem : row ∈ h.repo.fileVersions.filter (·.filePath = filePath) :=
      mem_filter.mpr ⟨hrow, decide_eq_true (hkey.1.trans hpath)⟩
    rw [hrows, mem_map] at hmem
    obtain ⟨v', hv', rfl⟩ := hmem
    obtain ⟨j, hj⟩ := mem_iff_getElem?.mp hv'
    rw [getElem?_take] at hj
    split at hj
    next hjlt =>
      have hjd := nodup_id f.ids hj hv hkey.2
      omega
    next => cases hj
  unfold LegacyHistory.insertVersion
  rw [hnew]
  refine ⟨hm.dirs, ?_, ?_, ?_, hm.blobs⟩
  · intro dirName' filePath' versions' contents' f'
    have hrows' := hm.rows dirName' filePath' versions' contents' f'
    rw [filter_append]
    by_cases hname : dirName' = dirName
    · subst hname
      obtain ⟨rfl, rfl, rfl⟩ := f.unique f'
      rw [update_self]
      refine ⟨hlt, ?_⟩
      have hone : [LegacyHistory.legacyRow v].filter (·.filePath = filePath') =
          [LegacyHistory.legacyRow v] :=
        filter_cons_of_pos (decide_eq_true hpath)
      rw [hone, hrows'.2, take_add_one, hv, map_append]
      rfl
    rw [update_of_ne hname]
    refine ⟨hrows'.1, ?_⟩
    have hne : filePath ≠ filePath' := by
      rintro rfl
      exact hname (htree.distinct dirName' dirName filePath f'.isSome f.isSome f'.decoded f.decoded)
    have hnone : [LegacyHistory.legacyRow v].filter (·.filePath = filePath') = [] :=
      filter_cons_of_neg fun heq => hne (hpath.symm.trans (of_decide_eq_true heq))
    rw [hnone, append_nil, hrows'.2]
  · intro dirName' filePath' versions' contents' f'
    refine (hm.json dirName' filePath' versions' contents' f').imp_right fun hj => ⟨hj.1, ?_⟩
    refine hj.2.imp_left fun hpos => ?_
    by_cases hname : dirName' = dirName
    · rw [hname, update_self]
      exact Nat.succ_pos _
    · rwa [update_of_ne hname]
  intro dirName' filePath' versions' contents' f' i' v' hi' c hc
  have hkept' := hm.kept dirName' filePath' versions' contents' f' i' v' hi' c hc
  by_cases hname : dirName' = dirName
  · subst hname
    obtain ⟨-, rfl, rfl⟩ := f.unique f'
    by_cases hi : i' = done dirName'
    · subst hi
      cases hi'.symm.trans hv
      exact .inl (hblob c hc)
    · rw [update_self]
      exact hkept'.imp_right fun hk => ⟨by omega, hk.2⟩
  · rw [update_of_ne hname]
    exact hkept'

theorem removeVersionsJson (hm : Migrates decode host tree done h)
    (hdone : ∀ filePath versions contents,
      LegacyFile decode host tree dirName filePath versions contents →
      0 < done dirName ∨ versions = []) :
    Migrates decode host tree done (h.removeVersionsJson dirName) := by
  unfold LegacyHistory.removeVersionsJson
  cases hdir : h.dirs.lookup dirName with
  | none => exact hm
  | some =>
    refine ⟨?_, hm.rows, ?_, ?_, hm.blobs⟩
    · intro dirName' hd
      by_cases hname : dirName' = dirName
      · rw [hname]
        exact hm.dirs dirName (by rw [hdir]; rfl)
      · dsimp only at hd
        rw [AList.lookup_insert_ne hname] at hd
        exact hm.dirs dirName' hd
    · intro dirName' filePath' versions' contents' f'
      by_cases hname : dirName' = dirName
      · subst hname
        rw [AList.lookup_insert]
        exact .inr ⟨rfl, hdone filePath' versions' contents' f'⟩
      · dsimp only
        rw [AList.lookup_insert_ne hname]
        exact hm.json dirName' filePath' versions' contents' f'
    intro dirName' filePath' versions' contents' f' i' v' hi' c hc
    have hkept' := hm.kept dirName' filePath' versions' contents' f' i' v' hi' c hc
    by_cases hname : dirName' = dirName
    · subst hname
      rw [AList.lookup_insert]
      rw [hdir] at hkept'
      exact hkept'
    · dsimp only
      rw [AList.lookup_insert_ne hname]
      exact hkept'

theorem removeDir (hm : Migrates decode host tree done h) :
    Migrates decode host tree done (h.removeDir dirName) := by
  unfold LegacyHistory.removeDir
  cases hdir : h.dirs.lookup dirName with
  | none => exact hm
  | some =>
    dsimp only
    split
    next hempty =>
      rw [Bool.and_eq_true, Option.isNone_iff_eq_none, List.isEmpty_iff] at hempty
      refine ⟨?_, hm.rows, ?_, ?_, hm.blobs⟩
      · intro dirName' hd
        by_cases hname : dirName' = dirName
        · rw [hname]
          exact hm.dirs dirName (by rw [hdir]; rfl)
        · dsimp only at hd
          rw [AList.lookup_erase_ne hname] at hd
          exact hm.dirs dirName' hd
      · intro dirName' filePath' versions' contents' f'
        have hjson := hm.json dirName' filePath' versions' contents' f'
        by_cases hname : dirName' = dirName
        · subst hname
          rw [AList.lookup_erase]
          rw [hdir, Option.bind_some, hempty.1] at hjson
          exact .inr ⟨rfl, (hjson.resolve_left nofun).2⟩
        · dsimp only
          rw [AList.lookup_erase_ne hname]
          exact hjson
      intro dirName' filePath' versions' contents' f' i' v' hi' c hc
      have hkept' := hm.kept dirName' filePath' versions' contents' f' i' v' hi' c hc
      by_cases hname : dirName' = dirName
      · subst hname
        rw [hdir, Option.bind_some] at hkept'
        refine .inl (hkept'.resolve_right fun hk => ?_)
        have hmem := FiniteMap.lookup_eq_some_iff.mp hk.2
        rw [hempty.2] at hmem
        cases hmem
      · dsimp only
        rw [AList.lookup_erase_ne hname]
        exact hkept'
    next => exact hm

end Migrates

/-! ## runs -/

/-- what is still to do for the directory at hand; the last argument is the directory whose versions
are not all done -/
inductive MigrationStage (decode : String → Option String) (host : HistoryHost) (tree : LegacyHistory)
    (done : String → Nat) (h : LegacyHistory) : List MigrationOp → Option String → Prop where
  | idle : MigrationStage decode host tree done h [] none
  | next {dirName filePath : String} {versions : List FileVersion}
      {contents : FiniteMap String FileContent}
      (f : LegacyFile decode host tree dirName filePath versions contents) :
      MigrationStage decode host tree done h
        (LegacyHistory.versionOps dirName (versions.drop (done dirName)) ++
          [.removeVersionsJson dirName, .removeDir dirName]) (some dirName)
  | moved {dirName filePath : String} {versions : List FileVersion}
      {contents : FiniteMap String FileContent}
      (f : LegacyFile decode host tree dirName filePath versions contents) {v : FileVersion}
      (hv : versions[done dirName]? = some v)
      (hblob : ∀ content, contents.lookup v.id = some content →
        BlobStore.read h.repo.blobs v.hash = some content) :
      MigrationStage decode host tree done h
        (.insertVersion v :: (LegacyHistory.versionOps dirName (versions.drop (done dirName + 1)) ++
          [.removeVersionsJson dirName, .removeDir dirName])) (some dirName)
  | closing (dirName : String) : MigrationStage decode host tree done h [.removeDir dirName] none
  | migrated {dirName : String} (hpos : 0 < done dirName) :
      MigrationStage decode host tree done h [.removeVersionsJson dirName] none

/-- A run that began with `start dirName` rows of each file: the directories `names` are not
entered yet, of the directory at hand there was no row, and the others have all rows, or as many as
before. -/
structure Underway (decode : String → Option String) (host : HistoryHost) (tree : LegacyHistory)
    (start done : String → Nat) (cur : List MigrationOp) (current : Option String)
    (names : List String) (r : MigrationRun) : Prop where
  todo : r.todo = cur ++ names.map .enter
  migrates : Migrates decode host tree done r.history
  stage : MigrationStage decode host tree done r.history cur current
  nodup : names.Nodup
  apart : ∀ dirName, current = some dirName → dirName ∉ names
  progress : ∀ dirName filePath versions contents,
    LegacyFile decode host tree dirName filePath versions contents →
    (dirName ∈ names → done dirName = start dirName) ∧
      (current = some dirName → start dirName = 0) ∧
      (dirName ∉ names → current ≠ some dirName →
        (start dirName = 0 → done dirName = versions.length) ∧
          (0 < start dirName → done dirName = start dirName))

def IsUnderway (decode : String → Option String) (host : HistoryHost) (tree : LegacyHistory)
    (start : String → Nat) (r : MigrationRun) : Prop :=
  ∃ done cur current names, Underway decode host tree start done cur current names r

section
variable {start done : String → Nat}

theorem any_row_iff (hm : Migrates decode host tree done h)
    (f : LegacyFile decode host tree dirName filePath versions contents) :
    (h.repo.fileVersions.any fun v => v.filePath = filePath) = true ↔ 0 < done dirName := by
  obtain ⟨hle, hrows⟩ := hm.rows dirName filePath versions contents f
  rw [any_eq_true]
  constructor
  · rintro ⟨v, hv, hpath⟩
    have hmem : v ∈ h.repo.fileVersions.filter (·.filePath = filePath) :=
      mem_filter.mpr ⟨hv, hpath⟩
    rw [hrows] at hmem
    refine Nat.pos_of_ne_zero fun hzero => ?_
    rw [hzero] at hmem
    cases hmem
  intro hpos
  cases versions with
  | nil => exact absurd hle (Nat.not_le.mpr hpos)
  | cons v =>
    obtain ⟨k, hk⟩ := Nat.exists_eq_succ_of_ne_zero (Nat.ne_of_gt hpos)
    have hmem : LegacyHistory.legacyRow v ∈
        h.repo.fileVersions.filter (·.filePath = filePath) := by
      rw [hrows, hk]
      exact mem_cons_self
    exact ⟨_, (mem_filter.mp hmem).1, (mem_filter.mp hmem).2⟩

theorem dirOps_cases (hm : Migrates decode host tree done h)
    (f : LegacyFile decode host tree dirName filePath versions contents) :
    h.dirOps decode dirName = [] ∧ (0 < done dirName ∨ versions = []) ∨
      h.dirOps decode dirName = [.removeVersionsJson dirName] ∧ 0 < done dirName ∨
      h.dirOps decode dirName = LegacyHistory.versionOps dirName versions ++
        [.removeVersionsJson dirName, .removeDir dirName] ∧ done dirName = 0 := by
  unfold LegacyHistory.dirOps
  rw [f.decoded]
  obtain hjson | ⟨hjson, hdone⟩ := hm.json dirName filePath versions contents f
  · rw [hjson]
    dsimp only
    split
    next hany => exact .inr (.inl ⟨rfl, (any_row_iff hm f).mp hany⟩)
    next hany =>
      exact .inr (.inr ⟨rfl, Nat.eq_zero_of_not_pos fun hpos => hany ((any_row_iff hm f).mpr hpos)⟩)
  · rw [hjson]
    exact .inl ⟨rfl, hdone⟩

theorem dirOps_ne_enter (decode : String → Option String) (h : LegacyHistory) (dirName : String) :
    ∀ op ∈ h.dirOps decode dirName, ∀ dirName', op ≠ .enter dirName' := by
  intro op hop dirName' heq
  subst heq
  unfold LegacyHistory.dirOps at hop
  split at hop
  · split at hop
    · simp at hop
    · split at hop
      · cases hop
      · simp [LegacyHistory.versionOps] at hop
  · cases hop

theorem dirOps_of_not_file (hm : Migrates decode host tree done h)
    (hnone : tree.dirs.lookup dirName = none) : h.dirOps decode dirName = [] := by
  have hdir : h.dirs.lookup dirName = none := by
    refine Option.not_isSome_iff_eq_none.mp fun hsome => ?_
    have := hm.dirs dirName hsome
    rw [hnone] at this
    cases this
  unfold LegacyHistory.dirOps
  rw [hdir]
  rfl

theorem underway_start (hm : Migrates decode host tree start h) {entries : List String}
    (hlists : Lists entries h) :
    IsUnderway decode host tree start (MigrationRun.start h entries) := by
  refine ⟨start, [], none, entries, rfl, hm, .idle, hlists.1, nofun, ?_⟩
  intro dirName filePath versions contents f
  refine ⟨fun _ => rfl, nofun, fun hnot _ => ⟨fun hzero => ?_, fun _ => rfl⟩⟩
  have hdir : h.dirs.lookup dirName = none :=
    Option.not_isSome_iff_eq_none.mp fun hsome => hnot (hlists.2 dirName hsome)
  have hjson := hm.json dirName filePath versions contents f
  rw [hdir] at hjson
  obtain hpos | rfl := (hjson.resolve_left nofun).2
  · omega
  · exact hzero

theorem underway_enter (htree : LegacyTree decode host tree) {names : List String}
    (hu : Underway decode host tree start done [] none (dirName :: names)
      ⟨h, (dirName :: names).map .enter⟩) :
    IsUnderway decode host tree start ⟨h, h.dirOps decode dirName ++ names.map .enter⟩ := by
  have hm := hu.migrates
  obtain ⟨hnotMem, hnodup⟩ := nodup_cons.mp hu.nodup
  -- the other directories are as before
  have hothers : ∀ dirName', dirName' ≠ dirName → ∀ filePath versions contents,
      LegacyFile decode host tree dirName' filePath versions contents →
      (dirName' ∈ names → done dirName' = start dirName') ∧
        (dirName' ∉ names → (start dirName' = 0 → done dirName' = versions.length) ∧
          (0 < start dirName' → done dirName' = start dirName')) := by
    intro dirName' hne filePath versions contents f
    obtain ⟨hin, -, hout⟩ := hu.progress dirName' filePath versions contents f
    refine ⟨fun hmem => hin (mem_cons_of_mem _ hmem), fun hmem => hout ?_ nofun⟩
    exact fun hcons => (mem_cons.mp hcons).elim hne hmem
  cases hfile : tree.dirs.lookup dirName with
  | none =>
    rw [dirOps_of_not_file hm hfile]
    refine ⟨done, [], none, names, rfl, hm, .idle, hnodup, nofun, ?_⟩
    intro dirName' filePath versions contents f
    have hne : dirName' ≠ dirName := by
      rintro rfl
      cases f.dir.symm.trans hfile
    obtain ⟨hin, hout⟩ := hothers dirName' hne filePath versions contents f
    exact ⟨hin, nofun, fun hmem _ => hout hmem⟩
  | some dir =>
    obtain ⟨filePath, versions, contents, f⟩ := htree.file dirName dir hfile
    have hstart := (hu.progress dirName filePath versions contents f).1 mem_cons_self
    obtain ⟨hops, hdone⟩ | ⟨hops, hdone⟩ | ⟨hops, hdone⟩ := dirOps_cases hm f
    · rw [hops]
      refine ⟨done, [], none, names, rfl, hm, .idle, hnodup, nofun, ?_⟩
      intro dirName' filePath' versions' contents' f'
      by_cases hne : dirName' = dirName
      · subst hne
        obtain ⟨-, rfl, -⟩ := f.unique f'
        refine ⟨fun hmem => absurd hmem hnotMem, nofun,
          fun _ _ => ⟨fun hzero => ?_, fun _ => hstart⟩⟩
        obtain hpos | rfl := hdone
        · omega
        · exact hstart.trans hzero
      · obtain ⟨hin, hout⟩ := hothers dirName' hne filePath' versions' contents' f'
        exact ⟨hin, nofun, fun hmem _ => hout hmem⟩
    · rw [hops]
      refine ⟨done, _, none, names, rfl, hm, .migrated hdone, hnodup, nofun, ?_⟩
      intro dirName' filePath' versions' contents' f'
      by_cases hne : dirName' = dirName
      · subst hne
        refine ⟨fun hmem => absurd hmem hnotMem, nofun,
          fun _ _ => ⟨fun hzero => ?_, fun _ => hstart⟩⟩
        omega
      · obtain ⟨hin, hout⟩ := hothers dirName' hne filePath' versions' contents' f'
        exact ⟨hin, nofun, fun hmem _ => hout hmem⟩
    have hnext : MigrationStage decode host tree done h _ (some dirName) := .next f
    rw [hdone, drop_zero, ← hops] at hnext
    refine ⟨done, _, some dirName, names, rfl, hm, hnext, hnodup, ?_, ?_⟩
    · intro dirName' hname
      cases hname
      exact hnotMem
    intro dirName' filePath' versions' contents' f'
    by_cases hne : dirName' = dirName
    · subst hne
      exact ⟨fun hmem => absurd hmem hnotMem, fun _ => hstart.symm.trans hdone,
        fun _ hcur => absurd rfl hcur⟩
    · obtain ⟨hin, hout⟩ := hothers dirName' hne filePath' versions' contents' f'
      exact ⟨hin, fun hname => absurd (Option.some.inj hname).symm hne, fun hmem _ => hout hmem⟩

theorem IsUnderway.step (htree : LegacyTree decode host tree)
    (hinj : Function.Injective host.calculateHash) {r : MigrationRun}
    (hu : IsUnderway decode host tree start r) :
    IsUnderway decode host tree start (r.step decode) := by
  obtain ⟨done, cur, current, names, hu⟩ := hu
  obtain ⟨h, todo⟩ := r
  have htodo : todo = _ := hu.todo
  subst htodo
  have hm : Migrates decode host tree done h := hu.migrates
  have hstage : MigrationStage decode host tree done h cur current := hu.stage
  cases hstage with
  | idle =>
    cases names with
    | nil => exact ⟨done, [], none, [], hu⟩
    | cons => exact underway_enter htree hu
  | @next dirName filePath versions contents f =>
    cases hdrop : versions.drop (done dirName) with
    | nil =>
      have hlen : done dirName = versions.length :=
        Nat.le_antisymm (hm.rows dirName filePath versions contents f).1
          (drop_eq_nil_iff.mp hdrop)
      have hpos : ∀ filePath' versions' contents',
          LegacyFile decode host tree dirName filePath' versions' contents' →
          0 < done dirName ∨ versions' = [] := by
        intro filePath' versions' contents' f'
        obtain ⟨-, rfl, -⟩ := f.unique f'
        rw [hlen, ← length_eq_zero_iff]
        omega
      refine ⟨done, _, none, names, rfl, hm.removeVersionsJson hpos, .closing dirName, hu.nodup,
        nofun, ?_⟩
      intro dirName' filePath' versions' contents' f'
      obtain ⟨hin, hcur, hout⟩ := hu.progress dirName' filePath' versions' contents' f'
      refine ⟨hin, nofun, fun hmem _ => ?_⟩
      by_cases hname : dirName' = dirName
      · subst hname
        obtain ⟨-, rfl, -⟩ := f.unique f'
        exact ⟨fun _ => hlen, fun hpos => absurd (hcur rfl) (Nat.ne_of_gt hpos)⟩
      · exact hout hmem fun heq => hname (Option.some.inj heq).symm
    | cons v left =>
      have hv : versions[done dirName]? = some v := by
        rw [← Nat.add_zero (done dirName), ← getElem?_drop, hdrop]
        rfl
      have hleft : versions.drop (done dirName + 1) = left := by
        rw [← tail_drop, hdrop]
        rfl
      obtain ⟨content, hcontent, -⟩ := f.content v (mem_of_getElem? hv)
      obtain ⟨hm', hread⟩ := hm.moveContent hinj f hv hcontent
      have hmoved := MigrationStage.moved (h := h.moveContent dirName v) f hv fun content' hcontent' => by
        rw [hread, ← hcontent, hcontent']
      rw [hleft] at hmoved
      exact ⟨done, _, some dirName, names, rfl, hm', hmoved, hu.nodup, hu.apart, hu.progress⟩
  | @moved dirName filePath versions contents f v hv hblob =>
    have hm' := hm.insertVersion htree f hv hblob
    have hnext : MigrationStage decode host tree (update done dirName (done dirName + 1))
        (h.insertVersion v) _ (some dirName) := .next f
    rw [update_self] at hnext
    refine ⟨_, _, some dirName, names, rfl, hm', hnext, hu.nodup, hu.apart, ?_⟩
    intro dirName' filePath' versions' contents' f'
    obtain ⟨hin, hcur, hout⟩ := hu.progress dirName' filePath' versions' contents' f'
    by_cases hname : dirName' = dirName
    · subst hname
      exact ⟨fun hmem => absurd hmem (hu.apart dirName' rfl), hcur, fun _ hne => absurd rfl hne⟩
    · rw [update_of_ne hname]
      exact ⟨hin, hcur, hout⟩
  | closing =>
    exact ⟨done, [], none, names, rfl, hm.removeDir, .idle, hu.nodup, nofun, hu.progress⟩
  | @migrated dirName hpos =>
    exact ⟨done, [], none, names, rfl, hm.removeVersionsJson fun _ _ _ _ => .inl hpos, .idle,
      hu.nodup, nofun, hu.progress⟩

theorem underway_steps (htree : LegacyTree decode host tree)
    (hinj : Function.Injective host.calculateHash) {r : MigrationRun}
    (hu : IsUnderway decode host tree start r) (n : Nat) :
    IsUnderway decode host tree start ((MigrationRun.step decode)^[n] r) := by
  induction n with
  | zero => exact hu
  | succ n ih =>
    rw [iterate_succ_apply']
    exact ih.step htree hinj

theorem IsUnderway.finished {r : MigrationRun} (hu : IsUnderway decode host tree start r)
    (htodo : r.todo = []) :
    ∃ done, Migrates decode host tree done r.history ∧
      ∀ dirName filePath versions contents,
        LegacyFile decode host tree dirName filePath versions contents →
        (start dirName = 0 → done dirName = versions.length) ∧
          (0 < start dirName → done dirName = start dirName) := by
  obtain ⟨done, cur, current, names, hu⟩ := hu
  obtain ⟨hcur, hnames⟩ := append_eq_nil_iff.mp (hu.todo.symm.trans htodo)
  obtain rfl := map_eq_nil_iff.mp hnames
  refine ⟨done, hu.migrates, fun dirName filePath versions contents f => ?_⟩
  refine (hu.progress dirName filePath versions contents f).2.2 not_mem_nil ?_
  have hstage := hu.stage
  rw [hcur] at hstage
  generalize hops : ([] : List MigrationOp) = ops at hstage
  cases hstage with
  | idle => exact nofun
  | next => exact absurd (append_eq_nil_iff.mp hops.symm).2 (cons_ne_nil _ _)
  | moved => cases hops
  | closing => cases hops
  | migrated => cases hops

/-! ## the end of a run -/

theorem step_todo {decode : String → Option String} {r : MigrationRun} {op : MigrationOp}
    {todo : List MigrationOp} (htodo : r.todo = op :: todo) (hop : ∀ dirName, op ≠ .enter dirName) :
    (r.step decode).todo = todo := by
  unfold MigrationRun.step
  rw [htodo]
  cases op with
  | enter dirName => exact absurd rfl (hop dirName)
  | _ => rfl

theorem exists_finished (decode : String → Option String) (r : MigrationRun)
    (cur : List MigrationOp) (names : List String) (htodo : r.todo = cur ++ names.map .enter)
    (hcur : ∀ op ∈ cur, ∀ dirName, op ≠ .enter dirName) :
    ∃ n, ((MigrationRun.step decode)^[n] r).todo = [] := by
  induction names generalizing r cur with
  | nil =>
    induction cur generalizing r with
    | nil => exact ⟨0, htodo⟩
    | cons op cur ih =>
      obtain ⟨n, hn⟩ := ih (r.step decode) (step_todo htodo (hcur _ mem_cons_self)) fun op hop =>
        hcur op (mem_cons_of_mem _ hop)
      exact ⟨n + 1, hn⟩
  | cons dirName names ihNames =>
    induction cur generalizing r with
    | nil =>
      have hstep : (r.step decode).todo = r.history.dirOps decode dirName ++ names.map .enter := by
        unfold MigrationRun.step
        rw [htodo]
        rfl
      obtain ⟨n, hn⟩ := ihNames (r.step decode) _ hstep (dirOps_ne_enter decode r.history dirName)
      exact ⟨n + 1, hn⟩
    | cons op cur ih =>
      obtain ⟨n, hn⟩ := ih (r.step decode) (step_todo htodo (hcur _ mem_cons_self)) fun op hop =>
        hcur op (mem_cons_of_mem _ hop)
      exact ⟨n + 1, hn⟩

section
variable (hm : Migrates decode host tree done h)
include hm

theorem legacyRow_mem_iff (f : LegacyFile decode host tree dirName filePath versions contents)
    {i : Nat} {v : FileVersion} (hi : versions[i]? = some v) :
    LegacyHistory.legacyRow v ∈ h.repo.fileVersions ↔ i < done dirName := by
  have hpath : v.filePath = filePath := f.path v (mem_of_getElem? hi)
  have hrows := (hm.rows dirName filePath versions contents f).2
  have hmem : LegacyHistory.legacyRow v ∈ h.repo.fileVersions ↔
      LegacyHistory.legacyRow v ∈ h.repo.fileVersions.filter (·.filePath = filePath) := by
    rw [mem_filter]
    exact ⟨fun hv => ⟨hv, decide_eq_true hpath⟩, fun hv => hv.1⟩
  rw [hmem, hrows, mem_map]
  constructor
  · rintro ⟨v', hv', heq⟩
    obtain ⟨j, hj⟩ := mem_iff_getElem?.mp hv'
    rw [getElem?_take] at hj
    split at hj
    next hjlt =>
      have hid : v'.id = v.id := by
        show (LegacyHistory.legacyRow v').id = (LegacyHistory.legacyRow v).id
        rw [heq]
      rwa [Migrates.nodup_id f.ids hi hj hid.symm]
    next => cases hj
  · intro hlt
    refine ⟨v, mem_of_getElem? (i := i) ?_, rfl⟩
    rw [getElem?_take, if_pos hlt, hi]

theorem find_row (f : LegacyFile decode host tree dirName filePath versions contents) {i : Nat}
    {v : FileVersion} (hi : versions[i]? = some v)
    (hrow : LegacyHistory.legacyRow v ∈ h.repo.fileVersions) :
    h.repo.fileVersions.find? (fun v' => v'.filePath = filePath && v'.id = v.id) =
      some (LegacyHistory.legacyRow v) := by
  have hpath : v.filePath = filePath := f.path v (mem_of_getElem? hi)
  cases hfind : h.repo.fileVersions.find? fun v' => v'.filePath = filePath && v'.id = v.id with
  | none =>
    refine absurd (find?_eq_none.mp hfind _ hrow) (not_not_intro ?_)
    rw [Bool.and_eq_true, decide_eq_true_eq, decide_eq_true_eq]
    exact ⟨hpath, rfl⟩
  | some row =>
    have hkey := find?_some hfind
    rw [Bool.and_eq_true, decide_eq_true_eq, decide_eq_true_eq] at hkey
    have hmem : row ∈ h.repo.fileVersions.filter (·.filePath = filePath) :=
      mem_filter.mpr ⟨mem_of_find?_eq_some hfind, decide_eq_true hkey.1⟩
    rw [(hm.rows dirName filePath versions contents f).2, mem_map] at hmem
    obtain ⟨v', hv', rfl⟩ := hmem
    obtain ⟨j, hj⟩ := mem_iff_getElem?.mp (mem_of_mem_take hv')
    obtain rfl := Migrates.nodup_id f.ids hj hi hkey.2
    cases hj.symm.trans hi
    rfl

theorem preserves_iff :
    Preserves decode host tree h.repo ↔ ∀ dirName filePath versions contents,
      LegacyFile decode host tree dirName filePath versions contents →
      done dirName = versions.length := by
  constructor
  · intro hp dirName filePath versions contents f
    refine Nat.le_antisymm (hm.rows dirName filePath versions contents f).1
      (Nat.le_of_not_lt fun hlt => ?_)
    have hv : versions[done dirName]? = some versions[done dirName] := getElem?_eq_getElem hlt
    obtain ⟨content, hcontent, -⟩ := f.content _ (mem_of_getElem? hv)
    have hlisted := (hp dirName filePath versions contents f _ (mem_of_getElem? hv) content
      hcontent).listed
    exact absurd ((legacyRow_mem_iff hm f hv).mp (mem_listVersions.mp hlisted).1)
      (Nat.lt_irrefl _)
  intro hdone dirName filePath versions contents f v hv content hcontent
  obtain ⟨i, hi⟩ := mem_iff_getElem?.mp hv
  have hilt : i < done dirName := by
    rw [hdone dirName filePath versions contents f]
    exact (List.getElem?_eq_some_iff.mp hi).1
  have hrow := (legacyRow_mem_iff hm f hi).mpr hilt
  have hkept := hm.kept dirName filePath versions contents f i v hi content hcontent
  have hblob := hkept.resolve_right fun hk => Nat.not_le.mpr hilt hk.1
  refine ⟨mem_listVersions.mpr ⟨hrow, f.path v hv⟩, hblob, ?_⟩
  unfold getVersionContent
  rw [find_row hm f hi hrow]
  dsimp only
  have hblob' : BlobStore.read h.repo.blobs (LegacyHistory.legacyRow v).hash = some content :=
    hblob
  rw [hblob']

theorem allOrNone_iff :
    AllOrNone decode host tree h.repo ↔ ∀ dirName filePath versions contents,
      LegacyFile decode host tree dirName filePath versions contents →
      done dirName = 0 ∨ done dirName = versions.length := by
  refine forall_congr' fun dirName => forall_congr' fun filePath => forall_congr' fun versions =>
    forall_congr' fun contents => forall_congr' fun f => ?_
  have hle := (hm.rows dirName filePath versions contents f).1
  constructor
  · intro hall
    by_cases hzero : done dirName = 0
    · exact .inl hzero
    refine .inr (Nat.le_antisymm hle (Nat.le_of_not_lt fun hlt => ?_))
    have hfirst : versions[0]? = some versions[0] := getElem?_eq_getElem (by omega)
    have hnext : versions[done dirName]? = some versions[done dirName] :=
      getElem?_eq_getElem hlt
    obtain hall | hnone := hall
    · have := (legacyRow_mem_iff hm f hnext).mp (hall _ (mem_of_getElem? hnext))
      omega
    · exact hnone _ (mem_of_getElem? hfirst)
        ((legacyRow_mem_iff hm f hfirst).mpr (Nat.pos_of_ne_zero hzero))
  · rintro (hzero | hlen)
    · refine .inr fun v hv hrow => ?_
      obtain ⟨i, hi⟩ := mem_iff_getElem?.mp hv
      have := (legacyRow_mem_iff hm f hi).mp hrow
      omega
    refine .inl fun v hv => ?_
    obtain ⟨i, hi⟩ := mem_iff_getElem?.mp hv
    rw [legacyRow_mem_iff hm f hi, hlen]
    exact (List.getElem?_eq_some_iff.mp hi).1

end

end

/-- A run is interrupted after any number of operations, and the next one goes to its end: then
every version of every file has its row and its content if and only if the first run had left no file with
some but not all of its rows. -/
theorem legacy_migration_survives_iff (htree : LegacyTree decode host tree)
    (hinj : Function.Injective host.calculateHash) (n : Nat) {entries entries' : List String}
    (hentries : Lists entries tree) :
    let crashed := ((MigrationRun.step decode)^[n] (MigrationRun.start tree entries)).history
    Lists entries' crashed →
      ∃ m final,
        (MigrationRun.step decode)^[m] (MigrationRun.start crashed entries') = ⟨final, []⟩ ∧
        (Preserves decode host tree final.repo ↔ AllOrNone decode host tree crashed.repo) := by
  intro crashed hentries'
  obtain ⟨done, cur, current, names, hcrash⟩ :=
    underway_steps htree hinj (underway_start htree.migrates hentries) n
  have hm : Migrates decode host tree done crashed := hcrash.migrates
  obtain ⟨m, hm'⟩ := exists_finished decode (MigrationRun.start crashed entries') [] entries' rfl
    nofun
  refine ⟨m, ((MigrationRun.step decode)^[m] (MigrationRun.start crashed entries')).history, ?_, ?_⟩
  · rw [← hm']
  obtain ⟨done', hfinal, hdone'⟩ :=
    (underway_steps htree hinj (underway_start hm hentries') m).finished hm'
  rw [preserves_iff hfinal, allOrNone_iff hm]
  refine forall_congr' fun dirName => forall_congr' fun filePath => forall_congr' fun versions =>
    forall_congr' fun contents => forall_congr' fun f => ?_
  obtain ⟨hzero, hpos⟩ := hdone' dirName filePath versions contents f
  obtain h0 | h0 := Nat.eq_zero_or_pos (done dirName)
  · exact ⟨fun _ => .inl h0, fun _ => hzero h0⟩
  · rw [hpos h0]
    exact ⟨.inr, fun hor => hor.resolve_left (Nat.ne_of_gt h0)⟩

end

/-! ## a file with two versions of one content -/

open HistoryLedger (sampleHost sampleHost_lawful plainContent)

def noteVersion (id : String) : FileVersion where
  id := id
  filePath := "a/note.md"
  hash := sampleHost.calculateHash plainContent
  size := plainContent.length
  createdAt := "2025-01-01T00:00:00Z"
  isDeleted := false
  branch := ""

def noteVersions : List FileVersion := [noteVersion "1", noteVersion "2"]

def noteContents : FiniteMap String FileContent :=
  AList.insert "1" plainContent (AList.insert "2" plainContent ∅)

def noteDir : LegacyDir := ⟨some (some noteVersions), noteContents⟩

def noteTree : LegacyHistory where
  dirs := AList.insert "a%2Fnote.md" noteDir ∅
  repo := HistoryFileRepository.empty

def noteDecode (dirName : String) : Option String :=
  if dirName = "a%2Fnote.md" then some "a/note.md" else some dirName

theorem noteTree_file : LegacyFile noteDecode sampleHost noteTree "a%2Fnote.md" "a/note.md"
    noteVersions noteContents where
  dir := AList.lookup_insert _
  decoded := if_pos rfl
  ids := by decide
  path := by decide
  content := by
    intro v hv
    obtain rfl | rfl : v = noteVersion "1" ∨ v = noteVersion "2" := by
      simpa only [noteVersions, mem_cons, not_mem_nil, or_false] using hv
    · exact ⟨plainContent, rfl, rfl⟩
    · exact ⟨plainContent, rfl, rfl⟩

theorem noteTree_name {dirName : String} (h : (noteTree.dirs.lookup dirName).isSome = true) :
    dirName = "a%2Fnote.md" := by
  by_contra hne
  unfold noteTree at h
  rw [AList.lookup_insert_ne hne] at h
  cases h

theorem noteTree_tree : LegacyTree noteDecode sampleHost noteTree where
  file dirName dir hdir := by
    obtain rfl := noteTree_name (by rw [hdir]; rfl)
    exact ⟨_, _, _, noteTree_file⟩
  distinct dirName dirName' filePath h h' _ _ := by rw [noteTree_name h, noteTree_name h']
  fresh _ _ _ _ v hv := nomatch hv
  blobs := .nil

theorem lists_of_dirs {h : LegacyHistory} (hdirs : h.dirs.keys = ["a%2Fnote.md"]) :
    Lists ["a%2Fnote.md"] h := by
  refine ⟨by decide, fun dirName hsome => ?_⟩
  rw [← hdirs]
  exact AList.lookup_isSome.mp hsome

/-- the history when the migration has done `n` operations -/
def noteCrash (n : Nat) : LegacyHistory :=
  ((MigrationRun.step noteDecode)^[n] (MigrationRun.start noteTree ["a%2Fnote.md"])).history

theorem noteTree_survives : ∃ m final,
    (MigrationRun.step noteDecode)^[m] (MigrationRun.start (noteCrash 2) ["a%2Fnote.md"]) =
        ⟨final, []⟩ ∧
      Preserves noteDecode sampleHost noteTree final.repo := by
  obtain ⟨m, final, hrun, hiff⟩ := legacy_migration_survives_iff noteTree_tree
    sampleHost_lawful.hash_injective 2 (lists_of_dirs rfl) (lists_of_dirs (by decide +kernel))
  refine ⟨m, final, hrun, hiff.mpr ?_⟩
  intro dirName filePath versions contents f
  refine .inr fun v _ hv => ?_
  cases hv

/-- interrupted between the two rows: the next run drops the second version -/
theorem noteTree_lost :
    LegacyTree noteDecode sampleHost noteTree ∧ Lists ["a%2Fnote.md"] (noteCrash 3) ∧
      ((MigrationRun.step noteDecode)^[2] (MigrationRun.start (noteCrash 3) ["a%2Fnote.md"])).todo =
        [] ∧
      ¬Preserves noteDecode sampleHost noteTree ((MigrationRun.step noteDecode)^[2]
        (MigrationRun.start (noteCrash 3) ["a%2Fnote.md"])).history.repo := by
  refine ⟨noteTree_tree, lists_of_dirs (by decide +kernel), by decide +kernel, fun hp => ?_⟩
  have hlisted := (hp _ _ _ _ noteTree_file (noteVersion "2") (by decide) plainContent rfl).listed
  revert hlisted
  decide +kernel

end CcPanes

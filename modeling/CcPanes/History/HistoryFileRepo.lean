import CcPanes.Foundation.BlobStore
import Mathlib.Data.List.Sort

/-!
# The local history of a project

`HistoryFileRepository` of `history_file_repo.rs`: the rows of `file_versions` and the files of
`blobs/`, one for each digest.  `save_version`, `get_version_content`, `list_versions`,
`compress_blobs`, `cleanup_old_versions` and `cleanup_by_total_size`, each as one atomic step whose
file operations succeed.  Instants are nanoseconds; a clock reading is an argument, and so is
`VERSION_COUNTER`, which all repositories of the process share.
-/

namespace CcPanes
open List

abbrev FileContent := List UInt8

structure FileVersion where
  id : String
  filePath : String
  hash : String
  size : Nat
  createdAt : String
  isDeleted : Bool
  branch : String
deriving DecidableEq

/-- what the repository uses of `sha2`, `flate2` and `chrono` -/
structure HistoryHost where
  calculateHash : FileContent → String
  gzip : FileContent → FileContent
  gunzip : FileContent → Option FileContent
  toRfc3339 : Int → String
  parseFromRfc3339 : String → Option Int

structure HistoryFileRepository where
  fileVersions : List FileVersion
  blobs : List (String × FileContent)

structure SaveVersion where
  filePath : String
  content : FileContent
  isDeleted : Bool
  branch : String
  minIntervalSecs : Nat
  /-- the clock at the check of the interval -/
  checkedAt : Int
  /-- the clock at the insertion -/
  now : Int
  counter : Nat
deriving DecidableEq

namespace HistoryFileRepository

variable (host : HistoryHost) {repo : HistoryFileRepository} {v : FileVersion}

def empty : HistoryFileRepository := ⟨[], []⟩

/-- `n as i64` of a `u64` -/
def asI64 (n : Nat) : Int := Int.bmod n (2 ^ 64)

def isGzip (raw : FileContent) : Bool :=
  raw.length ≥ 2 && raw[0]? == some 0x1f && raw[1]? == some 0x8b

/-- `history.db` and its companions are not blobs -/
def isDbFile (name : String) : Bool :=
  name.endsWith ".db" || name.endsWith ".db-wal" || name.endsWith ".db-shm"

/-- `{}{:04}` of the milliseconds and the counter -/
def versionId (now : Int) (counter : Nat) : String :=
  let digits := toString (counter % 10000)
  toString (now / 1000000) ++ "".pushn '0' (4 - digits.length) ++ digits

/-- `ORDER BY id DESC LIMIT 1` -/
def latest (repo : HistoryFileRepository) (filePath branch : String) : Option FileVersion :=
  ((repo.fileVersions.filter fun v => v.filePath = filePath && v.branch = branch).insertionSort
    fun a b => b.id ≤ a.id).head?

/-- same content as the latest version of the branch, or too soon after it -/
def skipsSave (repo : HistoryFileRepository) (a : SaveVersion) : Bool :=
  match repo.latest a.filePath a.branch with
  | none => false
  | some v =>
    v.hash == host.calculateHash a.content ||
      (a.minIntervalSecs > 0 &&
        match host.parseFromRfc3339 v.createdAt with
        | none => false
        | some last => (a.checkedAt - last).tdiv 1000000000 < asI64 a.minIntervalSecs)

def newVersion (a : SaveVersion) : FileVersion where
  id := versionId a.now a.counter
  filePath := a.filePath
  hash := host.calculateHash a.content
  size := a.content.length
  createdAt := host.toRfc3339 a.now
  isDeleted := a.isDeleted
  branch := a.branch

/-- the primary key is `(file_path, id)` -/
def insertVersion (repo : HistoryFileRepository) (version : FileVersion) :
    Except String (Option FileVersion) × HistoryFileRepository :=
  if repo.fileVersions.any fun v => v.filePath = version.filePath && v.id = version.id then
    (.error "Failed to insert version", repo)
  else (.ok (some version), { repo with fileVersions := repo.fileVersions ++ [version] })

def saveVersion (repo : HistoryFileRepository) (a : SaveVersion) :
    Except String (Option FileVersion) × HistoryFileRepository :=
  if !a.isDeleted && repo.skipsSave host a then (.ok none, repo)
  else
    -- the blob stays when the row is refused
    let repo := { repo with
      blobs := BlobStore.writeIfAbsent repo.blobs (host.calculateHash a.content) a.content }
    repo.insertVersion (newVersion host a)

/-- `ORDER BY id ASC` -/
def listVersions (repo : HistoryFileRepository) (filePath : String) : List FileVersion :=
  (repo.fileVersions.filter fun v => v.filePath = filePath).insertionSort fun a b => a.id ≤ b.id

def isDeletedFile (repo : HistoryFileRepository) (v : FileVersion) : Bool :=
  v.isDeleted &&
    repo.fileVersions.all fun v' => v'.filePath ≠ v.filePath || v'.id ≤ v.id

/-- `id = MAX(id)` of the file, and `ORDER BY created_at DESC` -/
def listDeletedFiles (repo : HistoryFileRepository) : List FileVersion :=
  (repo.fileVersions.filter repo.isDeletedFile).insertionSort fun a b => b.createdAt ≤ a.createdAt

def decodeBlob (raw : FileContent) : Except String FileContent :=
  if isGzip raw then
    match host.gunzip raw with
    | none => .error "Failed to decompress blob"
    | some decompressed => .ok decompressed
  else .ok raw

def getVersionContent (repo : HistoryFileRepository) (filePath versionId : String) :
    Except String FileContent :=
  match repo.fileVersions.find? fun v => v.filePath = filePath && v.id = versionId with
  | none => .error "Version not found"
  | some v =>
    match BlobStore.read repo.blobs v.hash with
    | none => .error "Failed to read blob file"
    | some raw => decodeBlob host raw

/-! ## maintenance -/

def compressible (name : String) (raw : FileContent) : Bool :=
  !isDbFile name && !isGzip raw && raw.length ≥ 512 && (host.gzip raw).length < raw.length

def compressBlob (name : String) (raw : FileContent) : FileContent :=
  if compressible host name raw then host.gzip raw else raw

/-- the number of blobs it replaced by a smaller one -/
def compressBlobs (repo : HistoryFileRepository) : Nat × HistoryFileRepository :=
  ((repo.blobs.filter fun b => compressible host b.1 b.2).length,
    { repo with blobs := BlobStore.transcode (compressBlob host) repo.blobs })

def isReferenced (repo : HistoryFileRepository) (name : String) : Bool :=
  isDbFile name || repo.fileVersions.any fun v => v.hash = name

def cleanupOrphanBlobs (repo : HistoryFileRepository) : HistoryFileRepository :=
  { repo with blobs := BlobStore.retain repo.isReferenced repo.blobs }

def deleteVersions (repo : HistoryFileRepository) (p : FileVersion → Bool) :
    HistoryFileRepository :=
  { repo with fileVersions := repo.fileVersions.filter fun v => !p v }

/-- one file of `cleanup_old_versions`: the expired versions, then the oldest in excess -/
def cleanupFile (cutoff : String) (maxVersionsPerFile : Nat) (repo : HistoryFileRepository)
    (fp : String) : HistoryFileRepository :=
  let repo := repo.deleteVersions fun v => v.filePath = fp && v.createdAt < cutoff
  let count : Int := ((repo.fileVersions.filter fun v => v.filePath = fp).length : Nat)
  if count > asI64 maxVersionsPerFile then
    let excess := count - asI64 maxVersionsPerFile
    let oldest := ((repo.listVersions fp).take excess.toNat).map FileVersion.id
    repo.deleteVersions fun v => v.filePath = fp && oldest.contains v.id
  else repo

def cleanupOldVersions (maxAgeDays maxVersionsPerFile : Nat) (now : Int)
    (repo : HistoryFileRepository) : HistoryFileRepository :=
  let cutoff := host.toRfc3339 (now - maxAgeDays * 86400 * 1000000000)
  let filePaths := (repo.fileVersions.map FileVersion.filePath).dedup
  (filePaths.foldl (cleanupFile cutoff maxVersionsPerFile) repo).cleanupOrphanBlobs

/-- deletes from the oldest version on, until the blobs without a version make up `needToFree` -/
def freeOldest (needToFree : Nat) : List FileVersion → Nat → HistoryFileRepository →
    HistoryFileRepository
  | [], _, repo => repo
  | row :: rows, freed, repo =>
    if freed ≥ needToFree then repo
    else
      let repo := repo.deleteVersions fun v => v.filePath = row.filePath && v.id = row.id
      let blobSize :=
        if repo.fileVersions.any fun v => v.hash = row.hash then 0
        else ((BlobStore.read repo.blobs row.hash).map List.length).getD 0
      freeOldest needToFree rows (freed + blobSize) repo

def cleanupByTotalSize (maxTotalSize : Nat) (repo : HistoryFileRepository) :
    HistoryFileRepository :=
  let totalSize := (repo.blobs.map fun b => b.2.length).sum
  if totalSize ≤ maxTotalSize then repo
  else
    let rows := repo.fileVersions.insertionSort fun a b => a.id ≤ b.id
    (freeOldest (totalSize - maxTotalSize) rows 0 repo).cleanupOrphanBlobs

/-! ## what each operation does to the rows and to the blobs -/

def Prunes (repo repo' : HistoryFileRepository) : Prop :=
  (∀ v ∈ repo'.fileVersions, v ∈ repo.fileVersions) ∧ repo'.blobs = repo.blobs

theorem Prunes.refl (repo : HistoryFileRepository) : repo.Prunes repo := ⟨fun _ h => h, rfl⟩

theorem Prunes.trans {r₁ r₂ r₃ : HistoryFileRepository} (h₁ : r₁.Prunes r₂) (h₂ : r₂.Prunes r₃) :
    r₁.Prunes r₃ :=
  ⟨fun v hv => h₁.1 v (h₂.1 v hv), h₂.2.trans h₁.2⟩

theorem deleteVersions_prunes (repo : HistoryFileRepository) (p : FileVersion → Bool) :
    repo.Prunes (repo.deleteVersions p) :=
  ⟨fun _ hv => (mem_filter.mp hv).1, rfl⟩

theorem cleanupFile_prunes (cutoff : String) (maxVersionsPerFile : Nat)
    (repo : HistoryFileRepository) (fp : String) :
    repo.Prunes (cleanupFile cutoff maxVersionsPerFile repo fp) := by
  unfold cleanupFile
  dsimp only
  split
  · exact (repo.deleteVersions_prunes _).trans (deleteVersions_prunes _ _)
  · exact repo.deleteVersions_prunes _

theorem foldl_cleanupFile_prunes (cutoff : String) (maxVersionsPerFile : Nat) (fps : List String) :
    ∀ repo : HistoryFileRepository,
      repo.Prunes (fps.foldl (cleanupFile cutoff maxVersionsPerFile) repo) := by
  induction fps with
  | nil => exact Prunes.refl
  | cons fp fps ih =>
    intro repo
    rw [foldl_cons]
    exact (cleanupFile_prunes cutoff maxVersionsPerFile repo fp).trans (ih _)

theorem freeOldest_prunes (needToFree : Nat) (rows : List FileVersion) :
    ∀ (freed : Nat) (repo : HistoryFileRepository),
      repo.Prunes (freeOldest needToFree rows freed repo) := by
  induction rows with
  | nil =>
    intro freed repo
    exact Prunes.refl repo
  | cons row rows ih =>
    intro freed repo
    unfold freeOldest
    split
    · exact Prunes.refl repo
    · dsimp only
      exact (repo.deleteVersions_prunes _).trans (ih _ _)

theorem isReferenced_hash (hv : v ∈ repo.fileVersions) : repo.isReferenced v.hash = true := by
  unfold isReferenced
  rw [Bool.or_eq_true, any_eq_true]
  exact .inr ⟨v, hv, decide_eq_true rfl⟩

theorem mem_listVersions {filePath : String} :
    v ∈ repo.listVersions filePath ↔ v ∈ repo.fileVersions ∧ v.filePath = filePath := by
  unfold listVersions
  rw [mem_insertionSort, mem_filter, decide_eq_true_eq]

theorem mem_listDeletedFiles :
    v ∈ repo.listDeletedFiles ↔ v ∈ repo.fileVersions ∧ v.isDeleted = true ∧
      ∀ v' ∈ repo.fileVersions, v'.filePath = v.filePath → v'.id ≤ v.id := by
  unfold listDeletedFiles isDeletedFile
  rw [mem_insertionSort, mem_filter, Bool.and_eq_true, all_eq_true]
  refine and_congr_right fun _ => and_congr_right fun _ => ?_
  refine forall_congr' fun v' => imp_congr_right fun _ => ?_
  rw [Bool.or_eq_true, decide_eq_true_eq, decide_eq_true_eq, ne_eq, ← imp_iff_not_or]

theorem saveVersion_cases (repo : HistoryFileRepository) (a : SaveVersion) :
    (∀ v, (repo.saveVersion host a).1 ≠ .ok (some v)) ∧
        (repo.saveVersion host a).2.fileVersions = repo.fileVersions ∨
      (repo.saveVersion host a).1 = .ok (some (newVersion host a)) ∧
        (repo.saveVersion host a).2.fileVersions = repo.fileVersions ++ [newVersion host a] ∧
        (repo.saveVersion host a).2.blobs =
          BlobStore.writeIfAbsent repo.blobs (host.calculateHash a.content) a.content ∧
        ∀ v ∈ repo.fileVersions, v.filePath = a.filePath →
          v.id ≠ (newVersion host a).id := by
  unfold saveVersion
  split
  · exact .inl ⟨nofun, rfl⟩
  dsimp only
  unfold insertVersion
  split
  · exact .inl ⟨nofun, rfl⟩
  next hfree =>
    refine .inr ⟨rfl, rfl, rfl, ?_⟩
    intro v hv hpath hid
    apply hfree
    rw [any_eq_true]
    refine ⟨v, hv, ?_⟩
    rw [Bool.and_eq_true, decide_eq_true_eq, decide_eq_true_eq]
    exact ⟨hpath, hid⟩

theorem saveVersion_inserts {host : HistoryHost} {a : SaveVersion}
    (hskip : (!a.isDeleted && repo.skipsSave host a) = false)
    (hfree : ∀ v ∈ repo.fileVersions, v.filePath = a.filePath → v.id ≠ (newVersion host a).id) :
    ∃ repo', repo.saveVersion host a = (.ok (some (newVersion host a)), repo') ∧
      repo'.fileVersions = repo.fileVersions ++ [newVersion host a] := by
  have hany : (repo.fileVersions.any fun v =>
      v.filePath = (newVersion host a).filePath && v.id = (newVersion host a).id) = false := by
    rw [any_eq_false]
    intro v hv hcond
    rw [Bool.and_eq_true, decide_eq_true_eq, decide_eq_true_eq] at hcond
    exact hfree v hv hcond.1 hcond.2
  unfold saveVersion insertVersion
  rw [hskip]
  simp only [Bool.false_eq_true, if_false, hany]
  exact ⟨_, rfl, rfl⟩

theorem saveVersion_blobs (repo : HistoryFileRepository) (a : SaveVersion) :
    (repo.saveVersion host a).2.blobs = repo.blobs ∨
      (repo.saveVersion host a).2.blobs =
        BlobStore.writeIfAbsent repo.blobs (host.calculateHash a.content) a.content := by
  unfold saveVersion
  split
  · exact .inl rfl
  dsimp only
  unfold insertVersion
  split
  · exact .inr rfl
  · exact .inr rfl

end HistoryFileRepository

end CcPanes

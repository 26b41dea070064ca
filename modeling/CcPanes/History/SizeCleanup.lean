import CcPanes.History.HistoryFileRepo
import Mathlib.Data.List.Perm.Basic

/-!
# The cleanup by size

`cleanup_by_total_size` goes through the versions from the oldest id on, and counts what it frees: a
blob counts when the last version that refers to it goes.  So it stops where the blobs that are still
referred to fit, and not later.
-/

namespace CcPanes
open List
namespace HistoryFileRepository

def byId (repo : HistoryFileRepository) : List FileVersion :=
  repo.fileVersions.insertionSort fun a b => a.id ≤ b.id

def refersTo (versions : List FileVersion) (name : String) : Bool :=
  versions.any fun v => v.hash = name

def referencedSize (blobs : List (String × FileContent)) (versions : List FileVersion) : Nat :=
  BlobStore.total List.length (BlobStore.retain (refersTo versions) blobs)

/-- every version has its blob, every blob a version, and the names are those of digests -/
structure Intact (repo : HistoryFileRepository) : Prop where
  key : repo.fileVersions.Pairwise fun v v' => ¬ (v.filePath = v'.filePath ∧ v.id = v'.id)
  names : (repo.blobs.map Prod.fst).Nodup
  digests : ∀ v ∈ repo.fileVersions, ∀ c ∈ v.hash.toList, c ∈ "0123456789abcdef".toList
  stored : ∀ v ∈ repo.fileVersions, v.hash ∈ repo.blobs.map Prod.fst
  noOrphans : ∀ b ∈ repo.blobs, ∃ v ∈ repo.fileVersions, v.hash = b.1

/-! ## the size of the blobs that are referred to -/

section
variable {blobs : List (String × FileContent)} {versions : List FileVersion}

theorem refersTo_cons (v : FileVersion) (name : String) :
    refersTo (v :: versions) name = (decide (v.hash = name) || refersTo versions name) := rfl

theorem referencedSize_cons_shared {v : FileVersion} (h : refersTo versions v.hash = true) :
    referencedSize blobs (v :: versions) = referencedSize blobs versions := by
  have hsame : refersTo (v :: versions) = refersTo versions := by
    funext name
    rw [refersTo_cons]
    by_cases hname : v.hash = name
    · rw [← hname, h, Bool.or_true]
    · rw [decide_eq_false hname, Bool.false_or]
  rw [referencedSize, hsame]
  rfl

theorem referencedSize_cons_last (hnames : (blobs.map Prod.fst).Nodup) {v : FileVersion}
    (h : refersTo versions v.hash = false) :
    referencedSize blobs (v :: versions) =
      ((BlobStore.read blobs v.hash).map List.length).getD 0 + referencedSize blobs versions := by
  have hsplit : refersTo (v :: versions) =
      fun name => decide (name = v.hash) || refersTo versions name := by
    funext name
    rw [refersTo_cons, Bool.eq_iff_iff]
    simp only [Bool.or_eq_true, decide_eq_true_eq]
    exact or_congr_left eq_comm
  rw [referencedSize, hsplit, BlobStore.total_retain_or, BlobStore.total_retain_eq _ hnames]
  · rfl
  · intro name hname
    rw [of_decide_eq_true hname]
    exact h

theorem referencedSize_nil : referencedSize blobs [] = 0 := by
  have hnone : BlobStore.retain (refersTo []) blobs = [] :=
    filter_eq_nil_iff.mpr fun _ _ => Bool.false_ne_true
  rw [referencedSize, hnone]
  rfl

theorem refersTo_perm {versions' : List FileVersion} (h : versions.Perm versions') :
    refersTo versions = refersTo versions' := by
  funext name
  rw [Bool.eq_iff_iff, refersTo, refersTo, any_eq_true, any_eq_true]
  exact exists_congr fun v => and_congr_left fun _ => h.mem_iff

end

section
variable {repo : HistoryFileRepository}

theorem deleteVersions_head {row : FileVersion} {rows : List FileVersion}
    (hrows : repo.fileVersions.Perm (row :: rows))
    (hkey : (row :: rows).Pairwise fun v v' => ¬ (v.filePath = v'.filePath ∧ v.id = v'.id)) :
    (repo.deleteVersions fun v => v.filePath = row.filePath && v.id = row.id).fileVersions.Perm
      rows := by
  refine (hrows.filter _).trans ?_
  rw [filter_cons_of_neg (by simp), filter_eq_self.mpr]
  intro v hv
  have hne := (pairwise_cons.mp hkey).1 v hv
  rw [Bool.not_eq_true', Bool.and_eq_false_iff, decide_eq_false_iff_not, decide_eq_false_iff_not]
  by_contra hboth
  rw [not_or, not_not, not_not] at hboth
  exact hne ⟨hboth.1.symm, hboth.2.symm⟩

/-- **The loop stops as soon as the rest fits**: `freed` and the size of the blobs that are still
referred to make up the size at the beginning. -/
theorem freeOldest_spec {total max : Nat} (hmax : max ≤ total) (rows : List FileVersion) :
    ∀ (freed : Nat) (repo : HistoryFileRepository), repo.fileVersions.Perm rows →
      rows.Pairwise (fun v v' => ¬ (v.filePath = v'.filePath ∧ v.id = v'.id)) →
      (repo.blobs.map Prod.fst).Nodup → freed + referencedSize repo.blobs rows = total →
      ∃ n, (freeOldest (total - max) rows freed repo).fileVersions.Perm (rows.drop n) ∧
        referencedSize repo.blobs (rows.drop n) ≤ max ∧
        ∀ k < n, max < referencedSize repo.blobs (rows.drop k) := by
  induction rows with
  | nil =>
    intro freed repo hrows _ _ _
    refine ⟨0, hrows, ?_, fun k hk => absurd hk (Nat.not_lt_zero k)⟩
    rw [drop_nil, referencedSize_nil]
    exact Nat.zero_le max
  | cons row rows ih =>
    intro freed repo hrows hkey hnames htotal
    unfold freeOldest
    by_cases hfits : freed ≥ total - max
    · rw [if_pos hfits]
      refine ⟨0, hrows, ?_, fun k hk => absurd hk (Nat.not_lt_zero k)⟩
      show referencedSize repo.blobs (row :: rows) ≤ max
      omega
    rw [if_neg hfits]
    dsimp only
    have hdeleted := deleteVersions_head hrows hkey
    generalize hrepo : (repo.deleteVersions fun v => v.filePath = row.filePath && v.id = row.id) =
      repo' at hdeleted
    have hblobs : repo'.blobs = repo.blobs := by rw [← hrepo]; rfl
    have hrefers : (repo'.fileVersions.any fun v => v.hash = row.hash) = refersTo rows row.hash :=
      congrFun (refersTo_perm hdeleted) row.hash
    rw [hrefers, hblobs]
    have hsize : referencedSize repo.blobs (row :: rows) =
        (if refersTo rows row.hash then 0
          else ((BlobStore.read repo.blobs row.hash).map length).getD 0) +
          referencedSize repo.blobs rows := by
      cases hshared : refersTo rows row.hash with
      | true => rw [referencedSize_cons_shared hshared, if_pos rfl, Nat.zero_add]
      | false => rw [referencedSize_cons_last hnames hshared, if_neg Bool.false_ne_true]
    obtain ⟨n, hperm, hfit, hbefore⟩ := ih _ repo' hdeleted (pairwise_cons.mp hkey).2
      (hblobs ▸ hnames) (by rw [hblobs, Nat.add_assoc, ← hsize]; exact htotal)
    rw [hblobs] at hfit hbefore
    refine ⟨n + 1, hperm, hfit, ?_⟩
    intro k hk
    cases k with
    | zero =>
      show max < referencedSize repo.blobs (row :: rows)
      omega
    | succ k => exact hbefore k (Nat.lt_of_succ_lt_succ hk)

/-! ## what stays -/

theorem byId_perm : repo.byId.Perm repo.fileVersions := perm_insertionSort _ _

theorem Intact.retain_all (h : repo.Intact) :
    BlobStore.retain (refersTo repo.byId) repo.blobs = repo.blobs := by
  refine filter_eq_self.mpr fun b hb => ?_
  obtain ⟨v, hv, hname⟩ := h.noOrphans b hb
  exact any_eq_true.mpr ⟨v, byId_perm.mem_iff.mpr hv, decide_eq_true hname⟩

theorem isDbFile_digest {name : String} (h : ∀ c ∈ name.toList, c ∈ "0123456789abcdef".toList) :
    isDbFile name = false := by
  have hdot : '.' ∉ name.toList := fun hmem => nomatch (h '.' hmem)
  have hends : ∀ suffix : String, '.' ∈ suffix.toList → name.endsWith suffix = false := by
    intro suffix hsuffix
    rw [← Bool.not_eq_true]
    intro hend
    have htail : suffix.toList <:+ name.toSlice.copy.toList :=
      String.Slice.endsWith_string_iff.mp hend
    rw [String.copy_toSlice] at htail
    exact hdot (htail.subset hsuffix)
  rw [isDbFile, hends ".db" (by decide), hends ".db-wal" (by decide), hends ".db-shm" (by decide)]
  rfl

theorem Intact.isReferenced (h : repo.Intact) {pruned : HistoryFileRepository}
    {versions : List FileVersion} (hversions : pruned.fileVersions.Perm versions)
    {b : String × FileContent} (hb : b ∈ repo.blobs) :
    pruned.isReferenced b.1 = refersTo versions b.1 := by
  obtain ⟨v, hv, hname⟩ := h.noOrphans b hb
  have hdigest : isDbFile b.1 = false := isDbFile_digest (hname ▸ h.digests v hv)
  rw [HistoryFileRepository.isReferenced, hdigest, Bool.false_or]
  exact congrFun (refersTo_perm hversions) b.1

/-- **The cleanup deletes as few of the oldest versions as it must**, and leaves the blobs of the
others. -/
theorem size_cleanup (h : repo.Intact) (maxTotalSize : Nat) :
    ∃ n, (repo.cleanupByTotalSize maxTotalSize).fileVersions.Perm (repo.byId.drop n) ∧
      (repo.cleanupByTotalSize maxTotalSize).blobs =
        BlobStore.retain (refersTo (repo.byId.drop n)) repo.blobs ∧
      referencedSize repo.blobs (repo.byId.drop n) ≤ maxTotalSize ∧
      ∀ k < n, maxTotalSize < referencedSize repo.blobs (repo.byId.drop k) := by
  have hall : referencedSize repo.blobs repo.byId = BlobStore.total length repo.blobs := by
    rw [referencedSize, h.retain_all]
  unfold cleanupByTotalSize
  dsimp only
  split
  next hfits =>
    refine ⟨0, byId_perm.symm, h.retain_all.symm, ?_, fun k hk => absurd hk (Nat.not_lt_zero k)⟩
    exact hall.trans_le hfits
  next hlarge =>
    have hkey : repo.byId.Pairwise fun v v' => ¬ (v.filePath = v'.filePath ∧ v.id = v'.id) := by
      have hsymm : ∀ {v v' : FileVersion}, ¬ (v.filePath = v'.filePath ∧ v.id = v'.id) →
          ¬ (v'.filePath = v.filePath ∧ v'.id = v.id) :=
        fun hne heq => hne ⟨heq.1.symm, heq.2.symm⟩
      exact (byId_perm.pairwise_iff hsymm).mpr h.key
    obtain ⟨n, hversions, hfit, hbefore⟩ := freeOldest_spec (Nat.le_of_not_le hlarge) repo.byId 0 repo
      byId_perm.symm hkey h.names ((Nat.zero_add _).trans hall)
    refine ⟨n, hversions, ?_, hfit, hbefore⟩
    have hblobs := (freeOldest_prunes (BlobStore.total length repo.blobs - maxTotalSize)
      repo.byId 0 repo).2
    refine (congrArg (BlobStore.retain _) hblobs).trans ?_
    exact filter_congr fun b hb => h.isReferenced hversions hb

end

def versionOf (id filePath hash : String) : FileVersion where
  id := id
  filePath := filePath
  hash := hash
  size := 0
  createdAt := ""
  isDeleted := false
  branch := "main"

/-- the oldest and the newest version have one content -/
def revertedFile : HistoryFileRepository where
  fileVersions := [versionOf "10000" "a.txt" "0a", versionOf "20000" "a.txt" "1b",
    versionOf "30000" "b.txt" "0a"]
  blobs := [("0a", [1, 2, 3]), ("1b", [4, 5])]

theorem revertedFile_intact : revertedFile.Intact where
  key := by decide
  names := by decide
  digests := by simp [revertedFile, versionOf]
  stored := by decide
  noOrphans := by decide

theorem size_cleanup_reverted :
    ∃ n, (revertedFile.cleanupByTotalSize 3).fileVersions.Perm (revertedFile.byId.drop n) ∧
      (revertedFile.cleanupByTotalSize 3).blobs =
        BlobStore.retain (refersTo (revertedFile.byId.drop n)) revertedFile.blobs ∧
      referencedSize revertedFile.blobs (revertedFile.byId.drop n) ≤ 3 ∧
      ∀ k < n, 3 < referencedSize revertedFile.blobs (revertedFile.byId.drop k) :=
  size_cleanup revertedFile_intact 3

end HistoryFileRepository

end CcPanes

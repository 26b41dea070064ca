import CcPanes.Foundation.Run
import CcPanes.History.HistoryFileRepo

/-!
# What a version of the local history gives back

A run of the repository from the empty history, beside the content every version was created with
(`HistoryLedger.saved`).  A blob is the content of its digest, or gzip of it if the content does
not look like gzip itself (`Encodes`); the sniffing of `get_version_content` undoes this except on
a raw content that begins with the magic number.
-/

namespace CcPanes

open HistoryFileRepository List

/-- the documented behaviour of SHA-256 (no two contents with one digest) and of gzip -/
structure HistoryHost.Lawful (host : HistoryHost) : Prop where
  hash_injective : Function.Injective host.calculateHash
  gunzip_gzip : ∀ content, host.gunzip (host.gzip content) = some content
  isGzip_gzip : ∀ content, isGzip (host.gzip content) = true

inductive HistoryCall where
  | saveVersion (a : SaveVersion)
  | compressBlobs
  | cleanupOldVersions (maxAgeDays maxVersionsPerFile : Nat) (now : Int)
  | cleanupByTotalSize (maxTotalSize : Nat)

/-- the repository, and the content that was passed when each version was created -/
structure HistoryLedger where
  repo : HistoryFileRepository
  saved : List (FileVersion × FileContent)

namespace HistoryLedger

variable (host : HistoryHost) {l : HistoryLedger}

def empty : HistoryLedger := ⟨HistoryFileRepository.empty, []⟩

def save (l : HistoryLedger) (a : SaveVersion) : HistoryLedger where
  repo := (l.repo.saveVersion host a).2
  saved :=
    match (l.repo.saveVersion host a).1 with
    | .ok (some v) => (v, a.content) :: l.saved
    | _ => l.saved

def step (l : HistoryLedger) : HistoryCall → HistoryLedger
  | .saveVersion a => l.save host a
  | .compressBlobs => { l with repo := (l.repo.compressBlobs host).2 }
  | .cleanupOldVersions maxAgeDays maxVersionsPerFile now =>
    { l with repo := cleanupOldVersions host maxAgeDays maxVersionsPerFile now l.repo }
  | .cleanupByTotalSize maxTotalSize => { l with repo := l.repo.cleanupByTotalSize maxTotalSize }

/-- how a content lies on the disk: as it is, or compressed if it does not look compressed -/
def Encodes (content raw : FileContent) : Prop :=
  raw = content ∨ isGzip content = false ∧ raw = host.gzip content

/-- the contents that the sniffing of `get_version_content` does not mistake for gzip -/
def Recoverable (content : FileContent) : Prop :=
  isGzip content = true → host.gunzip content = some content

structure Inv (l : HistoryLedger) : Prop where
  created : ∀ v ∈ l.repo.fileVersions, ∃ content, (v, content) ∈ l.saved
  digest : ∀ v content, (v, content) ∈ l.saved → v.hash = host.calculateHash content
  key : ∀ v ∈ l.repo.fileVersions, ∀ v' ∈ l.repo.fileVersions,
    v.filePath = v'.filePath → v.id = v'.id → v = v'
  stored : ∀ v ∈ l.repo.fileVersions, (BlobStore.read l.repo.blobs v.hash).isSome = true
  blobs : BlobStore.Every (BlobStore.Represents host.calculateHash (Encodes host)) l.repo.blobs

variable {host}

theorem decodeBlob_eq_iff (hlaw : host.Lawful) {content raw : FileContent}
    (h : Encodes host content raw) :
    decodeBlob host raw = .ok content ↔ Recoverable host content := by
  obtain rfl | ⟨hraw, rfl⟩ := h
  · unfold decodeBlob Recoverable
    cases hg : isGzip raw with
    | false => exact ⟨fun _ => nofun, fun _ => rfl⟩
    | true =>
      cases hz : host.gunzip raw with
      | none => exact ⟨nofun, fun h => nomatch h rfl⟩
      | some =>
        constructor
        · intro h _
          cases h
          rfl
        · intro h
          cases h rfl
          rfl
  · have hdec : decodeBlob host (host.gzip content) = .ok content := by
      unfold decodeBlob
      rw [hlaw.isGzip_gzip content, if_pos rfl, hlaw.gunzip_gzip content]
    have hrec : Recoverable host content := by
      intro hg
      rw [hraw] at hg
      cases hg
    exact ⟨fun _ => hrec, fun _ => hdec⟩

/-! ## the calls keep the invariant -/

theorem Inv.empty : (empty : HistoryLedger).Inv host where
  created := nofun
  digest := nofun
  key := nofun
  stored := nofun
  blobs := BlobStore.Every.nil

theorem Inv.prune (h : l.Inv host) {repo' : HistoryFileRepository} (hp : l.repo.Prunes repo') :
    Inv host { l with repo := repo' } where
  created v hv := h.created v (hp.1 v hv)
  digest := h.digest
  key v hv v' hv' := h.key v (hp.1 v hv) v' (hp.1 v' hv')
  stored v hv := by
    rw [hp.2]
    exact h.stored v (hp.1 v hv)
  blobs := by
    rw [hp.2]
    exact h.blobs

theorem Inv.cleanupOrphanBlobs (h : l.Inv host) :
    Inv host { l with repo := l.repo.cleanupOrphanBlobs } := { h with
  stored v hv := by
    have href : l.repo.isReferenced v.hash = true := isReferenced_hash hv
    show (BlobStore.read (BlobStore.retain l.repo.isReferenced l.repo.blobs) v.hash).isSome = true
    rw [BlobStore.read_retain, if_pos href]
    exact h.stored v hv
  blobs := h.blobs.retain l.repo.isReferenced }

theorem Inv.compressBlobs (h : l.Inv host) (hlaw : host.Lawful) :
    Inv host { l with repo := (l.repo.compressBlobs host).2 } := { h with
  stored v hv := by
    show (BlobStore.read (BlobStore.transcode (compressBlob host) l.repo.blobs) v.hash).isSome =
      true
    rw [BlobStore.read_transcode, Option.isSome_map]
    exact h.stored v hv
  blobs := by
    refine h.blobs.transcode (g := compressBlob host) ?_
    rintro name raw ⟨content, hname, henc⟩
    refine ⟨content, hname, ?_⟩
    unfold compressBlob
    split
    next hc =>
      unfold compressible at hc
      rw [Bool.and_eq_true, Bool.and_eq_true, Bool.and_eq_true, Bool.not_eq_true'] at hc
      have hraw : isGzip raw = false := by
        rw [← Bool.not_eq_true']
        exact hc.1.1.2
      -- a raw that is not gzip is the content itself
      obtain rfl | ⟨-, rfl⟩ := henc
      · exact .inr ⟨hraw, rfl⟩
      · rw [hlaw.isGzip_gzip] at hraw
        cases hraw
    next => exact henc }

theorem blobs_save (h : l.Inv host) (a : SaveVersion) :
    BlobStore.Every (BlobStore.Represents host.calculateHash (Encodes host))
      (l.save host a).repo.blobs := by
  have hw : BlobStore.Every (BlobStore.Represents host.calculateHash (Encodes host))
      (BlobStore.writeIfAbsent l.repo.blobs (host.calculateHash a.content) a.content) :=
    h.blobs.writeIfAbsent ⟨a.content, rfl, .inl rfl⟩
  show BlobStore.Every _ (l.repo.saveVersion host a).2.blobs
  obtain hb | hb := saveVersion_blobs host l.repo a
  · rw [hb]
    exact h.blobs
  · rw [hb]
    exact hw

theorem isSome_writeIfAbsent {s : List (String × FileContent)} {k k' : String} {r : FileContent}
    (h : (BlobStore.read s k).isSome = true ∨ k' = k) :
    (BlobStore.read (BlobStore.writeIfAbsent s k' r) k).isSome = true := by
  by_cases hk : k' = k
  · subst hk
    rw [BlobStore.read_writeIfAbsent_self]
    rfl
  · rw [BlobStore.read_writeIfAbsent_ne s r hk]
    exact h.resolve_right hk

theorem Inv.save (h : l.Inv host) (a : SaveVersion) : (l.save host a).Inv host := by
  obtain ⟨hnone, hrows⟩ | ⟨hsome, hrows, hblobs, hfree⟩ := saveVersion_cases host l.repo a
  · have hsaved : (l.save host a).saved = l.saved := by
      unfold HistoryLedger.save
      split
      next v hv => exact absurd hv (hnone v)
      next => rfl
    refine ⟨?_, ?_, ?_, ?_, blobs_save h a⟩
    · rw [hsaved]
      show ∀ v ∈ (l.repo.saveVersion host a).2.fileVersions, _
      rw [hrows]
      exact h.created
    · rw [hsaved]
      exact h.digest
    · show ∀ v ∈ (l.repo.saveVersion host a).2.fileVersions,
        ∀ v' ∈ (l.repo.saveVersion host a).2.fileVersions, _
      rw [hrows]
      exact h.key
    · show ∀ v ∈ (l.repo.saveVersion host a).2.fileVersions, _
      rw [hrows]
      intro v hv
      show (BlobStore.read (l.repo.saveVersion host a).2.blobs v.hash).isSome = true
      obtain hb | hb := saveVersion_blobs host l.repo a
      · rw [hb]
        exact h.stored v hv
      · rw [hb]
        exact isSome_writeIfAbsent (.inl (h.stored v hv))
  have hsaved : (l.save host a).saved = (newVersion host a, a.content) :: l.saved := by
    unfold HistoryLedger.save
    rw [hsome]
  have hmem : ∀ v, v ∈ (l.save host a).repo.fileVersions →
      v ∈ l.repo.fileVersions ∨ v = newVersion host a := by
    intro v hv
    have hv' : v ∈ (l.repo.saveVersion host a).2.fileVersions := hv
    rw [hrows, mem_append, mem_singleton] at hv'
    exact hv'
  refine ⟨?_, ?_, ?_, ?_, blobs_save h a⟩
  · rw [hsaved]
    intro v hv
    obtain hv | rfl := hmem v hv
    · obtain ⟨content, hc⟩ := h.created v hv
      exact ⟨content, .tail _ hc⟩
    · exact ⟨a.content, .head _⟩
  · rw [hsaved]
    intro v content hv
    obtain hv | hv := mem_cons.mp hv
    · cases hv
      rfl
    · exact h.digest v content hv
  · intro v hv v' hv' hpath hid
    obtain hv | rfl := hmem v hv
    · obtain hv' | rfl := hmem v' hv'
      · exact h.key v hv v' hv' hpath hid
      · exact absurd hid (hfree v hv hpath)
    · obtain hv' | rfl := hmem v' hv'
      · exact absurd hid.symm (hfree v' hv' hpath.symm)
      · rfl
  · intro v hv
    show (BlobStore.read (l.repo.saveVersion host a).2.blobs v.hash).isSome = true
    rw [hblobs]
    obtain hv | rfl := hmem v hv
    · exact isSome_writeIfAbsent (.inl (h.stored v hv))
    · exact isSome_writeIfAbsent (.inr rfl)

theorem step_inv (hlaw : host.Lawful) (h : l.Inv host) (call : HistoryCall) :
    (l.step host call).Inv host := by
  cases call with
  | saveVersion a => exact h.save a
  | compressBlobs => exact h.compressBlobs hlaw
  | cleanupOldVersions =>
    exact (h.prune (foldl_cleanupFile_prunes _ _ _ _)).cleanupOrphanBlobs
  | cleanupByTotalSize maxTotalSize =>
    show Inv host { l with repo := l.repo.cleanupByTotalSize maxTotalSize }
    unfold HistoryFileRepository.cleanupByTotalSize
    dsimp only
    split
    · exact h
    · exact (h.prune (freeOldest_prunes _ _ _ _)).cleanupOrphanBlobs

theorem run_inv (hlaw : host.Lawful) (calls : List HistoryCall) :
    (Run.run (step host) empty calls).Inv host :=
  Run.run_inv (I := Inv host) (fun _ call h => step_inv hlaw h call) Inv.empty calls

theorem getVersionContent_eq (h : l.Inv host) {filePath : String} {v : FileVersion}
    (hv : v ∈ l.repo.listVersions filePath) {raw : FileContent}
    (hread : BlobStore.read l.repo.blobs v.hash = some raw) :
    l.repo.getVersionContent host filePath v.id = decodeBlob host raw := by
  obtain ⟨hrow, hpath⟩ := mem_listVersions.mp hv
  unfold getVersionContent
  have hfind : l.repo.fileVersions.find? (fun v' => v'.filePath = filePath && v'.id = v.id) =
      some v := by
    cases hf : l.repo.fileVersions.find? fun v' => v'.filePath = filePath && v'.id = v.id with
    | none =>
      have hno := find?_eq_none.mp hf v hrow
      simp [hpath] at hno
    | some v' =>
      have hp := find?_some hf
      rw [Bool.and_eq_true, decide_eq_true_eq, decide_eq_true_eq] at hp
      rw [h.key v' (mem_of_find?_eq_some hf) v hrow (hp.1.trans hpath.symm) hp.2]
  rw [hfind]
  dsimp only
  rw [hread]

/-- A version that is still listed after any calls was created with one content, and
`get_version_content` returns it exactly if it is not mistaken for gzip. -/
theorem content_returned_iff (hlaw : host.Lawful) (calls : List HistoryCall) (filePath : String)
    (v : FileVersion)
    (hv : v ∈ (Run.run (step host) empty calls).repo.listVersions filePath) :
    ∃ content, (∀ c, (v, c) ∈ (Run.run (step host) empty calls).saved ↔ c = content) ∧
      ((Run.run (step host) empty calls).repo.getVersionContent host filePath v.id = .ok content ↔
        Recoverable host content) := by
  have h := run_inv hlaw calls
  have hrow := (mem_listVersions.mp hv).1
  obtain ⟨content, hc⟩ := h.created v hrow
  have hdigest := h.digest v content hc
  obtain ⟨raw, hread⟩ := Option.isSome_iff_exists.mp (h.stored v hrow)
  refine ⟨content, ?_, ?_⟩
  · intro c
    constructor
    · intro hc'
      exact hlaw.hash_injective ((h.digest v c hc').symm.trans hdigest)
    · rintro rfl
      exact hc
  · rw [getVersionContent_eq h hv hread]
    rw [hdigest] at hread
    exact decodeBlob_eq_iff hlaw (h.blobs.represents hlaw.hash_injective hread)

/-! ## a content that begins with the magic number -/

/-- the text `hi` -/
def plainContent : FileContent := [0x68, 0x69]

def magicContent : FileContent := [0x1f, 0x8b]

def sampleDigest (content : FileContent) : List Char :=
  if content = plainContent then
    "8f434346648f6b96df89dda901c5176b10a6d83961dd3c1ac88b59b2dc327aa4".toList
  else if content = magicContent then
    "ee98dc6af27a9f1c8cc4aaa2fd05b5f6e7c98f51390253a5263b0d096c3510fe".toList
  else 'x' :: content.map fun b => Char.ofNat b.toNat

def gzipHeader : FileContent := [0x1f, 0x8b, 8, 0, 0, 0, 0, 0, 0, 255]

/-- the digests of the two contents, gzip that stores its input, and a clock that stands still -/
def sampleHost : HistoryHost where
  calculateHash content := String.ofList (sampleDigest content)
  gzip content := gzipHeader ++ content
  gunzip raw := if raw.take 10 = gzipHeader then some (raw.drop 10) else none
  toRfc3339 _ := "1970-01-01T00:00:00+00:00"
  parseFromRfc3339 _ := some 0

theorem byteChar_injective : Function.Injective fun b : UInt8 => Char.ofNat b.toNat := by
  intro a b h
  have hv : ∀ n : Fin 256, (Char.ofNat n.val).toNat = n.val := by decide +kernel
  have hab : a.toNat = b.toNat := by
    calc a.toNat = (Char.ofNat a.toNat).toNat := (hv ⟨a.toNat, a.toNat_lt⟩).symm
      _ = (Char.ofNat b.toNat).toNat := congrArg Char.toNat h
      _ = b.toNat := hv ⟨b.toNat, b.toNat_lt⟩
  exact UInt8.toNat_inj.mp hab

theorem sampleDigest_head (content : FileContent) :
    (sampleDigest content).head? =
      some (if content = plainContent then '8'
        else if content = magicContent then 'e' else 'x') := by
  unfold sampleDigest
  split
  · decide +kernel
  · split
    · decide +kernel
    · rfl

theorem sampleDigest_injective : Function.Injective sampleDigest := by
  intro a b h
  have hhead := congrArg head? h
  rw [sampleDigest_head, sampleDigest_head] at hhead
  unfold sampleDigest at h
  by_cases ha : a = plainContent
  · by_cases hb : b = plainContent
    · rw [ha, hb]
    · rw [if_pos ha, if_neg hb] at hhead
      split at hhead <;> cases hhead
  by_cases hb : b = plainContent
  · rw [if_neg ha, if_pos hb] at hhead
    split at hhead <;> cases hhead
  rw [if_neg ha, if_neg hb] at h hhead
  by_cases ha' : a = magicContent
  · by_cases hb' : b = magicContent
    · rw [ha', hb']
    · rw [if_pos ha', if_neg hb'] at hhead
      cases hhead
  by_cases hb' : b = magicContent
  · rw [if_neg ha', if_pos hb'] at hhead
    cases hhead
  · rw [if_neg ha', if_neg hb'] at h
    exact byteChar_injective.list_map (cons.inj h).2

theorem sampleHost_lawful : sampleHost.Lawful where
  hash_injective a b h := sampleDigest_injective (String.ofList_injective h)
  gunzip_gzip _ := rfl
  isGzip_gzip content := by
    show isGzip (gzipHeader ++ content) = true
    simp [isGzip, gzipHeader]

def saveOf (content : FileContent) : SaveVersion where
  filePath := "notes.txt"
  content := content
  isDeleted := false
  branch := "main"
  minIntervalSecs := 0
  checkedAt := 0
  now := 0
  counter := 7

theorem content_returned_iff_plain :
    ∃ content, (∀ c, (newVersion sampleHost (saveOf plainContent), c) ∈
        (Run.run (step sampleHost) empty
          [.saveVersion (saveOf plainContent), .compressBlobs]).saved ↔ c = content) ∧
      ((Run.run (step sampleHost) empty
          [.saveVersion (saveOf plainContent), .compressBlobs]).repo.getVersionContent sampleHost
          "notes.txt" (newVersion sampleHost (saveOf plainContent)).id = .ok content ↔
        Recoverable sampleHost content) :=
  content_returned_iff sampleHost_lawful [.saveVersion (saveOf plainContent), .compressBlobs]
    "notes.txt" (newVersion sampleHost (saveOf plainContent)) (by decide +kernel)

/-- the two bytes of the magic number are saved and listed, and cannot be read back -/
theorem magic_content_lost :
    sampleHost.Lawful ∧
      newVersion sampleHost (saveOf magicContent) ∈
        (Run.run (step sampleHost) empty
          [.saveVersion (saveOf magicContent)]).repo.listVersions "notes.txt" ∧
      (newVersion sampleHost (saveOf magicContent), magicContent) ∈
        (Run.run (step sampleHost) empty [.saveVersion (saveOf magicContent)]).saved ∧
      (Run.run (step sampleHost) empty
          [.saveVersion (saveOf magicContent)]).repo.getVersionContent sampleHost "notes.txt"
          (newVersion sampleHost (saveOf magicContent)).id ≠ .ok magicContent :=
  ⟨sampleHost_lawful, by decide +kernel, by decide +kernel, by decide +kernel⟩

end HistoryLedger

end CcPanes

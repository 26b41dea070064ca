import CcPanes.History.VersionContent
import Mathlib.Data.List.TakeWhile

/-!
# Threads on the local history

The calls of `HistoryFileRepository` one step at a time, between the steps of the other threads.  The
database lock is held for one query or for one deletion of rows, and for no file operation: a save
looks for its blob, writes it and inserts its row, a cleanup deletes rows, asks for the digests that
are referenced, lists the directory and unlinks, a compression reads, writes a file beside the blob
and renames it.  `read_dir` may or may not return what comes later.
-/

namespace CcPanes
open HistoryFileRepository HistoryLedger List

/-- `with_extension("gz.tmp")` -/
def tmpPath (name : String) : String :=
  match name.toList.reverse.dropWhile (· ≠ '.') with
  | [] | [_] => name ++ ".gz.tmp"
  | _ :: stem => String.ofList stem.reverse ++ ".gz.tmp"

/-- where the call of a thread is; `undisturbed` says that no save has run beside a cleanup -/
inductive HistoryThread where
  | idle
  | checking (a : SaveVersion)
  | writing (a : SaveVersion)
  | inserting (a : SaveVersion)
  | querying (undisturbed : Bool)
  | listing (undisturbed : Bool) (referenced : List String)
  | unlinking (undisturbed : Bool) (referenced pending : List String)
  | compressing (pending : List String)
  | compressed (name : String) (raw : FileContent) (pending : List String)
  | replacing (name : String) (pending : List String)
deriving DecidableEq

namespace HistoryThread

def isSaving : HistoryThread → Bool
  | .checking _ | .writing _ | .inserting _ => true
  | _ => false

def undisturbed : HistoryThread → Bool
  | .querying u | .listing u _ | .unlinking u _ _ => u
  | _ => false

def disturb : HistoryThread → HistoryThread
  | .querying _ => .querying false
  | .listing _ referenced => .listing false referenced
  | .unlinking _ referenced pending => .unlinking false referenced pending
  | th => th

def sweeps : HistoryThread → Bool
  | .listing u _ | .unlinking u _ _ => u
  | _ => false

theorem disturb_undisturbed (th : HistoryThread) : th.disturb.undisturbed = false := by
  cases th <;> rfl

theorem undisturbed_of_sweeps {th : HistoryThread} (h : th.sweeps = true) :
    th.undisturbed = true := by
  cases th <;> first | exact h | cases h

theorem not_undisturbed_of_isSaving {th : HistoryThread} (h : th.isSaving = true) :
    th.undisturbed = false := by
  cases th <;> first | rfl | cases h

end HistoryThread

structure HistoryWorld extends HistoryLedger where
  threads : List HistoryThread
  /-- an undisturbed cleanup has just ended -/
  swept : Bool

/-- A step of the thread `t`: the first one of a call, or the next one.  `listed` and `measured` are
the directory as the sizes in it are read, `late` is a name that the listing returns though the file
came after it was opened. -/
inductive HistoryAction where
  | saveVersion (t : Nat) (a : SaveVersion)
  | cleanupOldVersions (t : Nat) (maxAgeDays maxVersionsPerFile : Nat) (now : Int)
  | cleanupByTotalSize (t : Nat) (maxTotalSize : Nat) (listed measured : List (String × FileContent))
  | compressBlobs (t : Nat)
  | advance (t : Nat) (late : Option String)

namespace HistoryWorld

variable (host : HistoryHost)

def fresh (n : Nat) : HistoryWorld where
  repo := HistoryFileRepository.empty
  saved := []
  threads := List.replicate n .idle
  swept := false

/-- the thread goes on with `th` -/
def become (w : HistoryWorld) (t : Nat) (th : HistoryThread) : HistoryWorld :=
  { w with threads := w.threads.set t th, swept := false }

def setBlobs (w : HistoryWorld) (blobs : List (String × FileContent)) : HistoryWorld :=
  { w with repo := { w.repo with blobs := blobs } }

def setVersions (w : HistoryWorld) (versions : List FileVersion) : HistoryWorld :=
  { w with repo := { w.repo with fileVersions := versions } }

def quiet (w : HistoryWorld) : Bool := !w.threads.any HistoryThread.isSaving

/-- the rows that `cleanup_old_versions` keeps -/
def youngVersions (repo : HistoryFileRepository) (maxAgeDays maxVersionsPerFile : Nat) (now : Int) :
    List FileVersion :=
  let cutoff := host.toRfc3339 (now - maxAgeDays * 86400 * 1000000000)
  let filePaths := (repo.fileVersions.map FileVersion.filePath).dedup
  (filePaths.foldl (cleanupFile cutoff maxVersionsPerFile) repo).fileVersions

def totalSize (listed : List (String × FileContent)) : Nat :=
  (listed.map fun b => b.2.length).sum

/-- the rows that `cleanup_by_total_size` keeps -/
def fittingVersions (repo : HistoryFileRepository) (maxTotalSize : Nat)
    (listed measured : List (String × FileContent)) : List FileVersion :=
  let rows := repo.fileVersions.insertionSort fun a b => a.id ≤ b.id
  (freeOldest (totalSize listed - maxTotalSize) rows 0 ⟨repo.fileVersions, measured⟩).fileVersions

def nextName (late : Option String) (pending : List String) : Option (String × List String) :=
  match late, pending with
  | some name, pending => some (name, pending)
  | none, name :: rest => some (name, rest)
  | none, [] => none

def advance (w : HistoryWorld) (t : Nat) (late : Option String) : HistoryThread → HistoryWorld
  | .idle => w
  | .checking a =>
    if (BlobStore.read w.repo.blobs (host.calculateHash a.content)).isSome then
      w.become t (.inserting a)
    else w.become t (.writing a)
  | .writing a =>
    (w.setBlobs (BlobStore.write w.repo.blobs (host.calculateHash a.content) a.content)).become t
      (.inserting a)
  | .inserting a =>
    match w.repo.insertVersion (newVersion host a) with
    | (.ok (some v), repo) =>
      { w with repo := repo, saved := (v, a.content) :: w.saved }.become t .idle
    | _ => w.become t .idle
  | .querying u => w.become t (.listing u (w.repo.fileVersions.map FileVersion.hash))
  | .listing u referenced => w.become t (.unlinking u referenced (w.repo.blobs.map Prod.fst))
  | .unlinking u referenced pending =>
    match nextName late pending with
    | none => { w.become t .idle with swept := u }
    | some (name, rest) =>
      if isDbFile name || referenced.contains name then w.become t (.unlinking u referenced rest)
      else
        (w.setBlobs (BlobStore.remove w.repo.blobs name)).become t (.unlinking u referenced rest)
  | .compressing pending =>
    match nextName late pending with
    | none => w.become t .idle
    | some (name, rest) =>
      if isDbFile name then w.become t (.compressing rest)
      else
        match BlobStore.read w.repo.blobs name with
        | none => w.become t .idle
        | some raw =>
          if compressible host name raw then w.become t (.compressed name raw rest)
          else w.become t (.compressing rest)
  | .compressed name raw pending =>
    (w.setBlobs (BlobStore.write w.repo.blobs (tmpPath name) (host.gzip raw))).become t
      (.replacing name pending)
  | .replacing name pending =>
    match BlobStore.read w.repo.blobs (tmpPath name) with
    | none => w.become t .idle
    | some gz =>
      (w.setBlobs (BlobStore.write (BlobStore.remove w.repo.blobs (tmpPath name)) name gz)).become t
        (.compressing pending)

def step (w : HistoryWorld) : HistoryAction → HistoryWorld
  | .saveVersion t a =>
    match w.threads[t]? with
    | some .idle =>
      if !a.isDeleted && w.repo.skipsSave host a then w
      else { w with threads := w.threads.map HistoryThread.disturb }.become t (.checking a)
    | _ => w
  | .cleanupOldVersions t maxAgeDays maxVersionsPerFile now =>
    match w.threads[t]? with
    | some .idle =>
      (w.setVersions (youngVersions host w.repo maxAgeDays maxVersionsPerFile now)).become t
        (.querying w.quiet)
    | _ => w
  | .cleanupByTotalSize t maxTotalSize listed measured =>
    match w.threads[t]? with
    | some .idle =>
      if totalSize listed ≤ maxTotalSize then { w with swept := w.quiet }
      else
        (w.setVersions (fittingVersions w.repo maxTotalSize listed measured)).become t
          (.querying w.quiet)
    | _ => w
  | .compressBlobs t =>
    match w.threads[t]? with
    | some .idle => w.become t (.compressing (w.repo.blobs.map Prod.fst))
    | _ => w
  | .advance t late =>
    match w.threads[t]? with
    | some th => w.advance host t late th
    | none => w

/-! ## no version without its blob -/

def Referenced (repo : HistoryFileRepository) (name : String) : Prop :=
  ∃ v ∈ repo.fileVersions, v.hash = name

/-- neither a file of the database nor one that `compress_blobs` is writing -/
def BlobFile (name : String) : Prop :=
  isDbFile name = false ∧ ∀ content, name ≠ tmpPath (host.calculateHash content)

/-- every blob is referenced, or still to be looked at -/
def Covered (repo : HistoryFileRepository) (pending : List String) : Prop :=
  ∀ name, (BlobStore.read repo.blobs name).isSome = true → BlobFile host name →
    name ∈ pending ∨ Referenced repo name

/-- when no call is under way, the blob of each version decodes to the content it was saved with;
when a cleanup has ended that no save ran beside, every blob is referenced -/
def Sound (w : HistoryWorld) : Prop :=
  ((∀ th ∈ w.threads, th = .idle) → ∀ v ∈ w.repo.fileVersions, ∃ content raw,
      (v, content) ∈ w.saved ∧ BlobStore.read w.repo.blobs v.hash = some raw ∧
        decodeBlob host raw = .ok content) ∧
    (w.swept = true → Covered host w.repo [])

/-- the blob is referenced, or a save that has found or written it is about to refer to it -/
def Needed (w : HistoryWorld) (name : String) : Prop :=
  Referenced w.repo name ∨ ∃ a, .inserting a ∈ w.threads ∧ host.calculateHash a.content = name

/-- an undisturbed cleanup has asked for the digests that are referenced -/
def Sweeping (w : HistoryWorld) : Prop := ∃ th ∈ w.threads, th.sweeps = true

def KeepsDigests (w : HistoryWorld) (versions : List FileVersion) : Prop :=
  ∀ v ∈ w.repo.fileVersions, ∃ v' ∈ versions, v'.hash = v.hash

/-- A save is not given a content that `get_version_content` mistakes for gzip; no blob is unlinked
that is needed; while a cleanup sweeps, no other cleanup takes a digest its last version and no
compression brings a blob back that has none; and a cleanup that finds the directory small enough
finds no orphan. -/
def Careful (w : HistoryWorld) : HistoryAction → Prop
  | .saveVersion _ a => Recoverable host a.content
  | .cleanupOldVersions t maxAgeDays maxVersionsPerFile now =>
    w.threads[t]? = some .idle → w.Sweeping →
      w.KeepsDigests (youngVersions host w.repo maxAgeDays maxVersionsPerFile now)
  | .cleanupByTotalSize t maxTotalSize listed measured =>
    w.threads[t]? = some .idle →
      if totalSize listed ≤ maxTotalSize then w.quiet = true → Covered host w.repo []
      else w.Sweeping → w.KeepsDigests (fittingVersions w.repo maxTotalSize listed measured)
  | .compressBlobs _ => True
  | .advance t late =>
    match w.threads[t]? with
    | some (.unlinking _ referenced pending) => ∀ name rest,
      nextName late pending = some (name, rest) → isDbFile name = false → name ∉ referenced →
        ¬ w.Needed host name
    | some (.replacing name _) => w.Sweeping → Referenced w.repo name
    | _ => True

/-- a file holds the content of its digest, or the compressed content that is to replace it -/
def FileOk (name : String) (raw : FileContent) : Prop :=
  BlobStore.Represents host.calculateHash (Encodes host) name raw ∨
    ∃ content, name = tmpPath (host.calculateHash content) ∧ isGzip content = false ∧
      raw = host.gzip content

structure RowsOk (l : HistoryLedger) : Prop where
  created : ∀ v ∈ l.repo.fileVersions, ∃ content, (v, content) ∈ l.saved
  digest : ∀ v content, (v, content) ∈ l.saved → v.hash = host.calculateHash content
  recoverable : ∀ v content, (v, content) ∈ l.saved → Recoverable host content
  stored : ∀ v ∈ l.repo.fileVersions, (BlobStore.read l.repo.blobs v.hash).isSome = true

def ThreadOk (repo : HistoryFileRepository) : HistoryThread → Prop
  | .idle | .querying _ | .compressing _ => True
  | .checking a | .writing a => Recoverable host a.content
  | .inserting a => Recoverable host a.content ∧
      (BlobStore.read repo.blobs (host.calculateHash a.content)).isSome = true
  | .listing u referenced => u = true → ∀ name ∈ referenced, Referenced repo name
  | .unlinking u referenced pending => u = true →
      (∀ name ∈ referenced, Referenced repo name) ∧ Covered host repo pending
  | .compressed name raw _ => name = host.calculateHash raw ∧ isGzip raw = false
  | .replacing name _ => ∃ content, name = host.calculateHash content

structure Inv (w : HistoryWorld) : Prop where
  rows : RowsOk host w.toHistoryLedger
  files : BlobStore.Every (FileOk host) w.repo.blobs
  threads : ∀ th ∈ w.threads, ThreadOk host w.repo th
  undisturbed : ∀ th ∈ w.threads, th.undisturbed = true → ∀ th' ∈ w.threads, th'.isSaving = false
  swept : w.swept = true → Covered host w.repo []

section
variable {host} {w : HistoryWorld}

/-! ## the names -/

def DotFree (host : HistoryHost) : Prop := ∀ content, '.' ∉ (host.calculateHash content).toList

theorem tmpPath_of_dotFree {name : String} (h : '.' ∉ name.toList) :
    tmpPath name = name ++ ".gz.tmp" := by
  have hnil : name.toList.reverse.dropWhile (· ≠ '.') = [] := by
    rw [dropWhile_eq_nil_iff]
    intro c hc
    have hne : c ≠ '.' := fun heq => h (heq ▸ mem_reverse.mp hc)
    simpa using hne
  rw [tmpPath, hnil]

theorem tmpPath_ne (hdot : DotFree host) (content content' : FileContent) :
    host.calculateHash content ≠ tmpPath (host.calculateHash content') := by
  intro heq
  apply hdot content
  rw [heq, tmpPath_of_dotFree (hdot content'), String.toList_append]
  exact mem_append_right _ (by decide)

theorem tmpPath_injective (hdot : DotFree host) {content content' : FileContent}
    (h : tmpPath (host.calculateHash content) = tmpPath (host.calculateHash content')) :
    host.calculateHash content = host.calculateHash content' := by
  rw [tmpPath_of_dotFree (hdot content), tmpPath_of_dotFree (hdot content')] at h
  have hlist := congrArg String.toList h
  rw [String.toList_append, String.toList_append] at hlist
  exact String.toList_injective (append_cancel_right hlist)

theorem encodes_tmp (hdot : DotFree host) (hlaw : host.Lawful) {content raw : FileContent}
    (h : FileOk host (tmpPath (host.calculateHash content)) raw) : Encodes host content raw := by
  rcases h with ⟨content', hname, -⟩ | ⟨content', hname, hraw, rfl⟩
  · exact absurd hname.symm (tmpPath_ne hdot content' content)
  · rw [hlaw.hash_injective (tmpPath_injective hdot hname)]
    exact .inr ⟨hraw, rfl⟩

theorem raw_of_compressible (hlaw : host.Lawful) {name : String} {raw : FileContent}
    (h : FileOk host name raw) (hc : compressible host name raw = true) :
    name = host.calculateHash raw ∧ isGzip raw = false := by
  unfold compressible at hc
  rw [Bool.and_eq_true, Bool.and_eq_true, Bool.and_eq_true, Bool.not_eq_true',
    Bool.not_eq_true'] at hc
  have hraw : isGzip raw = false := hc.1.1.2
  rcases h with ⟨content, rfl, rfl | ⟨-, rfl⟩⟩ | ⟨content, -, -, rfl⟩
  · exact ⟨rfl, hraw⟩
  all_goals
    rw [hlaw.isGzip_gzip] at hraw
    cases hraw

theorem nextName_cases {late : Option String} {pending : List String} {name : String}
    {rest : List String} (h : nextName late pending = some (name, rest)) :
    ∀ n ∈ pending, n = name ∨ n ∈ rest := by
  intro n hn
  cases late with
  | some late =>
    cases h
    exact .inr hn
  | none =>
    cases pending with
    | nil => cases h
    | cons head tail =>
      cases h
      exact mem_cons.mp hn

theorem nextName_none {late : Option String} {pending : List String}
    (h : nextName late pending = none) : pending = [] := by
  cases late with
  | some late => cases h
  | none =>
    cases pending with
    | nil => rfl
    | cons head tail => cases h

/-! ## what a change of the repository means to the threads -/

structure Stable (host : HistoryHost) (w : HistoryWorld) (repo : HistoryFileRepository) : Prop where
  awaited : ∀ a, .inserting a ∈ w.threads →
    (BlobStore.read w.repo.blobs (host.calculateHash a.content)).isSome = true →
      (BlobStore.read repo.blobs (host.calculateHash a.content)).isSome = true
  referenced : w.Sweeping → ∀ name, Referenced w.repo name → Referenced repo name
  covered : w.Sweeping → ∀ name, (BlobStore.read repo.blobs name).isSome = true →
    BlobFile host name →
      (BlobStore.read w.repo.blobs name).isSome = true ∨ Referenced repo name

theorem Stable.refl : Stable host w w.repo where
  awaited _ _ h := h
  referenced _ _ h := h
  covered _ _ h _ := .inl h

theorem Stable.coveredBy {repo : HistoryFileRepository} (h : Stable host w repo)
    (hsweep : w.Sweeping) {pending : List String} (hc : Covered host w.repo pending) :
    Covered host repo pending := by
  intro name hsome hblob
  rcases h.covered hsweep name hsome hblob with hold | href
  · exact (hc name hold hblob).imp_right (h.referenced hsweep name)
  · exact .inr href

theorem Stable.threadOk {repo : HistoryFileRepository} (h : Stable host w repo) {th : HistoryThread}
    (hmem : th ∈ w.threads) (hok : ThreadOk host w.repo th) : ThreadOk host repo th := by
  have hsweep : th.sweeps = true → w.Sweeping := fun hs => ⟨th, hmem, hs⟩
  cases th with
  | inserting a => exact ⟨hok.1, h.awaited a hmem hok.2⟩
  | listing u referenced =>
    intro hu name hname
    exact h.referenced (hsweep hu) name (hok hu name hname)
  | unlinking u referenced pending =>
    intro hu
    obtain ⟨href, hc⟩ := hok hu
    exact ⟨fun name hname => h.referenced (hsweep hu) name (href name hname),
      h.coveredBy (hsweep hu) hc⟩
  | _ => exact hok

theorem Inv.not_sweeping (h : Inv host w) {th : HistoryThread} (hmem : th ∈ w.threads)
    (hsaving : th.isSaving = true) : ¬ w.Sweeping := by
  rintro ⟨th', hmem', hsweeps⟩
  have hnot := h.undisturbed th' hmem' (HistoryThread.undisturbed_of_sweeps hsweeps) th hmem
  rw [hsaving] at hnot
  cases hnot

/-- **One thread goes on**: what is to be shown -/
theorem Inv.update (h : Inv host w) {l : HistoryLedger} (t : Nat) {th : HistoryThread} {swept : Bool}
    (hstable : Stable host w l.repo) (hrows : RowsOk host l)
    (hfiles : BlobStore.Every (FileOk host) l.repo.blobs) (hth : ThreadOk host l.repo th)
    (hquiet : th.undisturbed = true → ∀ th' ∈ w.threads, th'.isSaving = false)
    (hsaving : th.isSaving = true → ∀ th' ∈ w.threads, th'.undisturbed = false)
    (hswept : swept = true → Covered host l.repo []) :
    Inv host ⟨l, w.threads.set t th, swept⟩ where
  rows := hrows
  files := hfiles
  threads := by
    intro th' hmem
    rcases mem_or_eq_of_mem_set hmem with hold | rfl
    · exact hstable.threadOk hold (h.threads th' hold)
    · exact hth
  undisturbed := by
    intro th₁ h₁ hu th₂ h₂
    rcases mem_or_eq_of_mem_set h₁ with hold₁ | rfl
    · rcases mem_or_eq_of_mem_set h₂ with hold₂ | rfl
      · exact h.undisturbed th₁ hold₁ hu th₂ hold₂
      · by_contra hs
        rw [hsaving (Bool.not_eq_false _ ▸ hs) th₁ hold₁] at hu
        cases hu
    · rcases mem_or_eq_of_mem_set h₂ with hold₂ | rfl
      · exact hquiet hu th₂ hold₂
      · by_contra hs
        rw [HistoryThread.not_undisturbed_of_isSaving (Bool.not_eq_false _ ▸ hs)] at hu
        cases hu
  swept := hswept

theorem Inv.goOn (h : Inv host w) (t : Nat) {th : HistoryThread} (hth : ThreadOk host w.repo th)
    (hquiet : th.undisturbed = true → ∀ th' ∈ w.threads, th'.isSaving = false)
    (hsaving : th.isSaving = true → ∀ th' ∈ w.threads, th'.undisturbed = false) :
    Inv host (w.become t th) :=
  h.update t .refl h.rows h.files hth hquiet hsaving nofun

theorem Inv.disturbed (h : Inv host w) {th : HistoryThread} (hmem : th ∈ w.threads)
    (hsaving : th.isSaving = true) : ∀ th' ∈ w.threads, th'.undisturbed = false := by
  intro th' hmem'
  by_contra hu
  have hnot := h.undisturbed th' hmem' (Bool.not_eq_false _ ▸ hu) th hmem
  rw [hsaving] at hnot
  cases hnot

theorem RowsOk.setBlobs (h : RowsOk host w.toHistoryLedger)
    {blobs : List (String × FileContent)}
    (hstored : ∀ content, (BlobStore.read w.repo.blobs (host.calculateHash content)).isSome = true →
      (BlobStore.read blobs (host.calculateHash content)).isSome = true ∨
        ¬ Referenced w.repo (host.calculateHash content)) :
    RowsOk host (w.setBlobs blobs).toHistoryLedger := { h with
  stored := by
    intro v hv
    obtain ⟨content, hc⟩ := h.created v hv
    have hsome := h.stored v hv
    show (BlobStore.read blobs v.hash).isSome = true
    rw [h.digest v content hc] at hsome ⊢
    exact (hstored content hsome).resolve_right fun hno => hno ⟨v, hv, h.digest v content hc⟩ }

theorem vacuous {p : Prop} (h : false = true) : p := (Bool.false_ne_true h).elim

theorem writing_inv (h : Inv host w) {t : Nat} {a : SaveVersion}
    (ht : w.threads[t]? = some (.writing a)) (late : Option String) :
    Inv host (w.advance host t late (.writing a)) := by
  have hmem := mem_of_getElem? ht
  have hread : ∀ name, (BlobStore.read w.repo.blobs name).isSome = true →
      (BlobStore.read (BlobStore.write w.repo.blobs (host.calculateHash a.content) a.content)
        name).isSome = true := by
    intro name hname
    rw [BlobStore.read_write]
    split
    · rfl
    · exact hname
  refine h.update t ⟨fun a' _ hs => hread _ hs, fun hsweep => ?_, fun hsweep => ?_⟩
    (h.rows.setBlobs fun content hs => .inl (hread _ hs))
    (h.files.write (.inl ⟨a.content, rfl, .inl rfl⟩)) ⟨h.threads _ hmem, ?_⟩ vacuous
    (fun _ => h.disturbed hmem rfl) vacuous
  · exact absurd hsweep (h.not_sweeping hmem rfl)
  · exact absurd hsweep (h.not_sweeping hmem rfl)
  · show (BlobStore.read (BlobStore.write _ _ _) _).isSome = true
    rw [BlobStore.read_write, if_pos rfl]
    rfl

theorem inserting_inv (h : Inv host w) {t : Nat} {a : SaveVersion}
    (ht : w.threads[t]? = some (.inserting a)) (late : Option String) :
    Inv host (w.advance host t late (.inserting a)) := by
  have hmem := mem_of_getElem? ht
  obtain ⟨hrec, hsome⟩ := h.threads _ hmem
  rw [advance]
  unfold insertVersion
  split
  next v repo heq =>
    split at heq
    · cases heq
    cases heq
    have hrow : ∀ v ∈ w.repo.fileVersions ++ [newVersion host a],
        v ∈ w.repo.fileVersions ∨ v = newVersion host a := fun v hv =>
      (mem_append.mp hv).imp_right mem_singleton.mp
    refine h.update t ⟨fun _ _ hs => hs, ?_, fun _ _ hs _ => .inl hs⟩ ⟨?_, ?_, ?_, ?_⟩ h.files
      trivial nofun nofun nofun
    · rintro - name ⟨v, hv, hname⟩
      exact ⟨v, mem_append_left _ hv, hname⟩
    · intro v hv
      rcases hrow v hv with hold | rfl
      · obtain ⟨content, hc⟩ := h.rows.created v hold
        exact ⟨content, .tail _ hc⟩
      · exact ⟨a.content, .head _⟩
    · intro v content hc
      rcases mem_cons.mp hc with heq | hc
      · cases heq
        rfl
      · exact h.rows.digest v content hc
    · intro v content hc
      rcases mem_cons.mp hc with heq | hc
      · cases heq
        exact hrec
      · exact h.rows.recoverable v content hc
    · intro v hv
      rcases hrow v hv with hold | rfl
      · exact h.rows.stored v hold
      · exact hsome
  next => exact h.goOn t trivial nofun nofun

theorem unlinking_inv (h : Inv host w) {t : Nat} {u : Bool} {referenced pending : List String}
    (ht : w.threads[t]? = some (.unlinking u referenced pending)) {late : Option String}
    (hc : Careful host w (.advance t late)) :
    Inv host (w.advance host t late (.unlinking u referenced pending)) := by
  have hmem := mem_of_getElem? ht
  have hok := h.threads _ hmem
  have hquiet := h.undisturbed _ hmem
  unfold Careful at hc
  simp only [ht] at hc
  rw [advance]
  split
  next hnone =>
    refine h.update t .refl h.rows h.files trivial vacuous vacuous fun hu => ?_
    rw [← nextName_none hnone]
    exact (hok hu).2
  next name rest hnext =>
    have hrest := nextName_cases hnext
    split
    next hkeep =>
      refine h.goOn t (fun hu => ⟨(hok hu).1, fun n hs hblob => ?_⟩) hquiet vacuous
      rcases (hok hu).2 n hs hblob with hn | href
      · rcases hrest n hn with rfl | hn
        · rw [hblob.1, Bool.false_or, contains_iff_mem] at hkeep
          exact .inr ((hok hu).1 n hkeep)
        · exact .inl hn
      · exact .inr href
    next hgo =>
      rw [Bool.or_eq_true, not_or, Bool.not_eq_true, contains_iff_mem] at hgo
      have hneeded := hc name rest hnext hgo.1 hgo.2
      have hread : ∀ n, (BlobStore.read (BlobStore.remove w.repo.blobs name) n).isSome = true →
          n ≠ name ∧ (BlobStore.read w.repo.blobs n).isSome = true := by
        intro n hs
        rw [BlobStore.read_remove] at hs
        split at hs
        · cases hs
        next hne => exact ⟨hne, hs⟩
      have hstays : ∀ n, n ≠ name → (BlobStore.read w.repo.blobs n).isSome = true →
          (BlobStore.read (BlobStore.remove w.repo.blobs name) n).isSome = true := by
        intro n hne hs
        rw [BlobStore.read_remove, if_neg hne]
        exact hs
      refine h.update t ⟨fun a ha hs => hstays _ (fun heq => hneeded (.inr ⟨a, ha, heq⟩)) hs,
        fun _ _ href => href, fun _ n hs _ => .inl (hread n hs).2⟩ (h.rows.setBlobs ?_)
        (h.files.remove name) (fun hu => ⟨(hok hu).1, fun n hs hblob => ?_⟩) hquiet vacuous vacuous
      · intro content hs
        by_cases hne : host.calculateHash content = name
        · exact .inr fun href => hneeded (.inl (hne ▸ href))
        · exact .inl (hstays _ hne hs)
      obtain ⟨hne, hold⟩ := hread n hs
      rcases (hok hu).2 n hold hblob with hn | href
      · exact .inl ((hrest n hn).resolve_left hne)
      · exact .inr href

theorem deleteRows_inv (h : Inv host w) (t : Nat) {versions : List FileVersion}
    (hsub : ∀ v ∈ versions, v ∈ w.repo.fileVersions)
    (hkeeps : w.Sweeping → w.KeepsDigests versions) :
    Inv host ((w.setVersions versions).become t (.querying w.quiet)) := by
  refine h.update t ⟨fun _ _ hs => hs, ?_, fun _ _ hs _ => .inl hs⟩
    ⟨fun v hv => h.rows.created v (hsub v hv), h.rows.digest, h.rows.recoverable,
      fun v hv => h.rows.stored v (hsub v hv)⟩ h.files trivial ?_ nofun nofun
  · rintro hsweep name ⟨v, hv, rfl⟩
    exact hkeeps hsweep v hv
  intro hquiet th hth
  have hnone : (w.threads.any HistoryThread.isSaving) = false := by
    simpa [quiet, HistoryThread.undisturbed] using hquiet
  have hth' := any_eq_false.mp hnone th hth
  simpa using hth'

theorem compressing_inv (hlaw : host.Lawful) (h : Inv host w) {t : Nat} {pending : List String}
    (late : Option String) : Inv host (w.advance host t late (.compressing pending)) := by
  rw [advance]
  split
  · exact h.goOn t trivial vacuous vacuous
  next name rest hnext =>
    split
    · exact h.goOn t trivial vacuous vacuous
    split
    · exact h.goOn t trivial vacuous vacuous
    next raw hread =>
      split
      next hc => exact h.goOn t (raw_of_compressible hlaw (h.files name raw hread) hc) vacuous vacuous
      next => exact h.goOn t trivial vacuous vacuous

theorem compressed_inv (h : Inv host w) {t : Nat} {name : String} {raw : FileContent}
    {pending : List String} (ht : w.threads[t]? = some (.compressed name raw pending))
    (late : Option String) : Inv host (w.advance host t late (.compressed name raw pending)) := by
  obtain ⟨rfl, hraw⟩ := h.threads _ (mem_of_getElem? ht)
  have hread : ∀ n, (BlobStore.read w.repo.blobs n).isSome = true →
      (BlobStore.read (BlobStore.write w.repo.blobs (tmpPath (host.calculateHash raw))
        (host.gzip raw)) n).isSome = true := by
    intro n hs
    rw [BlobStore.read_write]
    split
    · rfl
    · exact hs
  refine h.update t ⟨fun _ _ hs => hread _ hs, fun _ _ href => href, fun _ n hs hblob => .inl ?_⟩
    (h.rows.setBlobs fun _ hs => .inl (hread _ hs)) (h.files.write (.inr ⟨raw, rfl, hraw, rfl⟩))
    ⟨raw, rfl⟩ vacuous vacuous vacuous
  · have hs' : (BlobStore.read (BlobStore.write w.repo.blobs (tmpPath (host.calculateHash raw))
        (host.gzip raw)) n).isSome = true := hs
    rw [BlobStore.read_write, if_neg (hblob.2 raw)] at hs'
    exact hs'

theorem replacing_inv (hdot : DotFree host) (hlaw : host.Lawful) (h : Inv host w) {t : Nat}
    {name : String} {pending : List String} (ht : w.threads[t]? = some (.replacing name pending))
    {late : Option String} (hc : Careful host w (.advance t late)) :
    Inv host (w.advance host t late (.replacing name pending)) := by
  obtain ⟨content, rfl⟩ := h.threads _ (mem_of_getElem? ht)
  unfold Careful at hc
  simp only [ht] at hc
  rw [advance]
  split
  · exact h.goOn t trivial vacuous vacuous
  next gz hgz =>
    have hread : ∀ n, BlobStore.read (BlobStore.write (BlobStore.remove w.repo.blobs
        (tmpPath (host.calculateHash content))) (host.calculateHash content) gz) n =
          if n = host.calculateHash content then some gz
          else if n = tmpPath (host.calculateHash content) then none
          else BlobStore.read w.repo.blobs n := by
      intro n
      rw [BlobStore.read_write, BlobStore.read_remove]
    have hstays : ∀ content', (BlobStore.read w.repo.blobs
        (host.calculateHash content')).isSome = true → (BlobStore.read (BlobStore.write
          (BlobStore.remove w.repo.blobs (tmpPath (host.calculateHash content)))
          (host.calculateHash content) gz) (host.calculateHash content')).isSome = true := by
      intro content' hs
      rw [hread, if_neg (tmpPath_ne hdot content' content)]
      split
      · rfl
      · exact hs
    refine h.update t ⟨fun a _ hs => hstays _ hs, fun _ _ href => href, fun hsweep n hs _ => ?_⟩
      (h.rows.setBlobs fun content' hs => .inl (hstays content' hs))
      ((h.files.remove _).write (.inl ⟨content, rfl, encodes_tmp hdot hlaw (h.files _ gz hgz)⟩))
      trivial vacuous vacuous vacuous
    have hs' : (BlobStore.read (BlobStore.write (BlobStore.remove w.repo.blobs
        (tmpPath (host.calculateHash content))) (host.calculateHash content) gz) n).isSome =
          true := hs
    rw [hread] at hs'
    split at hs'
    next heq => exact .inr (heq ▸ hc hsweep)
    next =>
      split at hs'
      · cases hs'
      · exact .inl hs'

theorem advance_inv (hdot : DotFree host) (hlaw : host.Lawful) (h : Inv host w) {t : Nat}
    {late : Option String} {th : HistoryThread} (ht : w.threads[t]? = some th)
    (hc : Careful host w (.advance t late)) : Inv host (w.advance host t late th) := by
  have hmem := mem_of_getElem? ht
  have hok := h.threads th hmem
  cases th with
  | idle => exact h
  | checking a =>
    rw [advance]
    split
    next hsome => exact h.goOn t ⟨hok, hsome⟩ vacuous fun _ => h.disturbed hmem rfl
    next => exact h.goOn t hok vacuous fun _ => h.disturbed hmem rfl
  | writing a => exact writing_inv h ht late
  | inserting a => exact inserting_inv h ht late
  | querying u =>
    refine h.goOn t (fun _ name hname => ?_) (h.undisturbed (.querying u) hmem) vacuous
    obtain ⟨v, hv, rfl⟩ := mem_map.mp hname
    exact ⟨v, hv, rfl⟩
  | listing u referenced =>
    exact h.goOn t (fun hu => ⟨hok hu, fun name hs _ => .inl (BlobStore.mem_names _ hs)⟩)
      (h.undisturbed (.listing u referenced) hmem) vacuous
  | unlinking u referenced pending => exact unlinking_inv h ht hc
  | compressing pending => exact compressing_inv hlaw h late
  | compressed name raw pending => exact compressed_inv h ht late
  | replacing name pending => exact replacing_inv hdot hlaw h ht hc

theorem Inv.disturb (h : Inv host w) :
    Inv host { w with threads := w.threads.map HistoryThread.disturb } := { h with
  threads := by
    intro th' hmem
    obtain ⟨th, hth, rfl⟩ := mem_map.mp hmem
    have hok := h.threads th hth
    cases th with
    | listing u referenced | unlinking u referenced pending => exact nofun
    | _ => exact hok
  undisturbed := by
    intro th' hmem hu
    obtain ⟨th, -, rfl⟩ := mem_map.mp hmem
    rw [HistoryThread.disturb_undisturbed] at hu
    cases hu }

/-- **With care, every step of every thread keeps the invariant** -/
theorem step_inv (hdot : DotFree host) (hlaw : host.Lawful) (w : HistoryWorld)
    (action : HistoryAction) (h : Inv host w) (hc : Careful host w action) :
    Inv host (w.step host action) := by
  cases action with
  | saveVersion t a =>
    rw [step]
    split
    · split
      · exact h
      · refine h.disturb.goOn t hc nofun fun _ th hth => ?_
        obtain ⟨th', -, rfl⟩ := mem_map.mp hth
        exact HistoryThread.disturb_undisturbed th'
    · exact h
  | cleanupOldVersions t maxAgeDays maxVersionsPerFile now =>
    rw [step]
    split
    next hidle => exact deleteRows_inv h t (foldl_cleanupFile_prunes _ _ _ _).1 (hc hidle)
    next => exact h
  | cleanupByTotalSize t maxTotalSize listed measured =>
    rw [step]
    split
    next hidle =>
      have hsmall := hc hidle
      split
      next hle =>
        rw [if_pos hle] at hsmall
        exact ⟨h.rows, h.files, h.threads, h.undisturbed, hsmall⟩
      next hle =>
        rw [if_neg hle] at hsmall
        exact deleteRows_inv h t (freeOldest_prunes _ _ _ ⟨w.repo.fileVersions, measured⟩).1 hsmall
    next => exact h
  | compressBlobs t =>
    rw [step]
    split
    · exact h.goOn t trivial nofun nofun
    · exact h
  | advance t late =>
    rw [step]
    split
    next th ht => exact advance_inv hdot hlaw h ht hc
    next => exact h

theorem fresh_inv (n : Nat) : Inv host (fresh n) where
  rows := ⟨nofun, nofun, nofun, nofun⟩
  files := BlobStore.Every.nil
  threads := by
    intro th hth
    rw [eq_of_mem_replicate hth]
    trivial
  undisturbed := by
    intro th hth hu
    rw [eq_of_mem_replicate hth] at hu
    cases hu
  swept := nofun

theorem Inv.sound (hdot : DotFree host) (hlaw : host.Lawful) (h : Inv host w) : Sound host w := by
  refine ⟨fun _ v hv => ?_, h.swept⟩
  obtain ⟨content, hc⟩ := h.rows.created v hv
  obtain ⟨raw, hread⟩ := Option.isSome_iff_exists.mp (h.rows.stored v hv)
  have hdigest := h.rows.digest v content hc
  refine ⟨content, raw, hc, hread, (decodeBlob_eq_iff hlaw ?_).mpr (h.rows.recoverable v content hc)⟩
  rcases h.files v.hash raw hread with ⟨content', hname, henc⟩ | ⟨content', hname, -⟩
  · rw [hlaw.hash_injective (hdigest.symm.trans hname)]
    exact henc
  · exact absurd (hdigest.symm.trans hname) (tmpPath_ne hdot content content')

/-- **No dangling version**: in a run of any threads whose steps are careful, a version keeps its
blob and a cleanup leaves no orphan. -/
theorem no_dangling (hdot : DotFree host) (hlaw : host.Lawful) (n : Nat)
    (actions : List HistoryAction) (hc : Run.StepsOk (step host) (Careful host) (fresh n) actions) :
    Run.Along (step host) (Sound host) (fresh n) actions :=
  (Run.along_of_inv (step_inv hdot hlaw) (fresh_inv n) hc).mono fun _ h => h.sound hdot hlaw

end

/-! ## a cleanup beside a save -/

/-- the digest of the text, and for the rest its bytes as characters that are no dots -/
def dotFreeDigest (content : FileContent) : List Char :=
  if content = plainContent then
    "8f434346648f6b96df89dda901c5176b10a6d83961dd3c1ac88b59b2dc327aa4".toList
  else 'x' :: content.map fun b => Char.ofNat (b.toNat + 256)

def threadHost : HistoryHost :=
  { sampleHost with calculateHash := fun content => String.ofList (dotFreeDigest content) }

theorem wideChar_injective : Function.Injective fun b : UInt8 => Char.ofNat (b.toNat + 256) := by
  intro a b h
  have hv : ∀ n : Fin 256, (Char.ofNat (n.val + 256)).toNat = n.val + 256 := by decide +kernel
  have hab : a.toNat + 256 = b.toNat + 256 := by
    calc a.toNat + 256 = (Char.ofNat (a.toNat + 256)).toNat := (hv ⟨a.toNat, a.toNat_lt⟩).symm
      _ = (Char.ofNat (b.toNat + 256)).toNat := congrArg Char.toNat h
      _ = b.toNat + 256 := hv ⟨b.toNat, b.toNat_lt⟩
  exact UInt8.toNat_inj.mp (Nat.add_right_cancel hab)

theorem dotFreeDigest_head (content : FileContent) : (dotFreeDigest content).head? =
    some (if content = plainContent then '8' else 'x') := by
  unfold dotFreeDigest
  split
  · decide +kernel
  · rfl

theorem dotFreeDigest_injective : Function.Injective dotFreeDigest := by
  intro a b h
  have hhead := congrArg head? h
  rw [dotFreeDigest_head, dotFreeDigest_head] at hhead
  by_cases ha : a = plainContent
  · by_cases hb : b = plainContent
    · rw [ha, hb]
    · rw [if_pos ha, if_neg hb] at hhead
      cases hhead
  by_cases hb : b = plainContent
  · rw [if_neg ha, if_pos hb] at hhead
    cases hhead
  · unfold dotFreeDigest at h
    rw [if_neg ha, if_neg hb] at h
    exact wideChar_injective.list_map (cons.inj h).2

theorem threadHost_lawful : threadHost.Lawful := { sampleHost_lawful with
  hash_injective _ _ h := dotFreeDigest_injective (String.ofList_injective h) }

theorem threadHost_dotFree : DotFree threadHost := by
  intro content hmem
  rw [show threadHost.calculateHash content = String.ofList (dotFreeDigest content) from rfl,
    String.toList_ofList, dotFreeDigest] at hmem
  split at hmem
  · exact absurd hmem (by decide +kernel)
  have hv : ∀ n : Fin 256, Char.ofNat (n.val + 256) ≠ '.' := by decide +kernel
  rcases mem_cons.mp hmem with hx | hmem
  · cases hx
  · obtain ⟨b, -, hb⟩ := mem_map.mp hmem
    exact hv ⟨b.toNat, b.toNat_lt⟩ hb

theorem careful_of_referenced {host : HistoryHost} {w : HistoryWorld} {t : Nat} (u : Bool)
    (referenced pending : List String)
    (ht : w.threads[t]? = some (.unlinking u referenced pending))
    (hall : ∀ name ∈ pending, name ∈ referenced) : Careful host w (.advance t none) := by
  unfold Careful
  simp only [ht]
  intro name rest hnext _ hno
  cases pending with
  | nil => cases hnext
  | cons head tail =>
    cases hnext
    exact absurd (hall name (mem_cons_self ..)) hno

/-- a version is saved, and a cleanup finds its blob referenced -/
theorem no_dangling_kept : Run.Along (step threadHost) (Sound threadHost) (fresh 2)
    [.saveVersion 0 (saveOf plainContent), .advance 0 none, .advance 0 none, .advance 0 none,
      .cleanupOldVersions 1 30 50 0, .advance 1 none, .advance 1 none, .advance 1 none,
      .advance 1 none] := by
  refine no_dangling threadHost_dotFree threadHost_lawful 2 _ ⟨?_, trivial, trivial, trivial, ?_,
    trivial, trivial, ?_, ?_, trivial⟩
  · exact nofun
  · rintro - ⟨th, hth, hsweeps⟩
    exfalso
    revert hsweeps
    revert th
    decide +kernel
  · exact careful_of_referenced true [threadHost.calculateHash plainContent]
      [threadHost.calculateHash plainContent] (by decide +kernel) fun name hname => hname
  · exact careful_of_referenced true [threadHost.calculateHash plainContent] []
      (by decide +kernel) nofun

/-- the blob is written, collected as an orphan, and referenced -/
theorem version_dangles : threadHost.Lawful ∧ DotFree threadHost ∧
    ¬ Run.Along (step threadHost) (Sound threadHost) (fresh 2)
      [.saveVersion 0 (saveOf plainContent), .advance 0 none, .advance 0 none,
        .cleanupOldVersions 1 30 50 0, .advance 1 none, .advance 1 none, .advance 1 none,
        .advance 1 none, .advance 0 none] := by
  refine ⟨threadHost_lawful, threadHost_dotFree, fun h => ?_⟩
  obtain ⟨-, raw, -, hread, -⟩ := h.last.1 (by decide +kernel)
    (newVersion threadHost (saveOf plainContent)) (by decide +kernel)
  have hnone : BlobStore.read (Run.run (step threadHost) (fresh 2)
      [.saveVersion 0 (saveOf plainContent), .advance 0 none, .advance 0 none,
        .cleanupOldVersions 1 30 50 0, .advance 1 none, .advance 1 none, .advance 1 none,
        .advance 1 none, .advance 0 none]).repo.blobs
          (newVersion threadHost (saveOf plainContent)).hash = none := by decide +kernel
  rw [hnone] at hread
  cases hread

end HistoryWorld

end CcPanes

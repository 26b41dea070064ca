import CcPanes.History.HistoryLabels
import Mathlib.Data.List.Pairwise
import Mathlib.Data.String.Basic

/-!
# Rolling a project back to a label

A project whose file events all reach the history: what `restore_to_label` makes of its files.  A
label refers to the newest version of every file, deleted or not; a tombstone carries the content of
the version before it, and the content of a file that comes back unchanged is not saved again.  So
what the history holds of a file (`heldAfter`) is what it last held when it existed, and a rollback
writes this also when the file was deleted before the label.
-/

namespace CcPanes
open HistoryFileRepository HistoryLedger HistoryService List Option Function

inductive ProjectEvent where
  | changed (relative : String) (content : FileContent) (clock : SaveClock)
  | removed (relative : String) (clock : SaveClock)
  | labelled (name source : String) (stamp : LabelStamp)

structure ProjectHistory extends HistoryLedger where
  labels : List HistoryLabel
  files : String → Option FileContent

namespace ProjectHistory

variable (host : HistoryHost) (config : HistoryConfig) (branch : String)

def empty : ProjectHistory where
  repo := HistoryFileRepository.empty
  saved := []
  labels := []
  files _ := none

def observed (relative : String) (content : FileContent) : ObservedFile where
  isDir := false
  relative := some relative
  escapes := false
  size := some content.length
  content := some content

def step (w : ProjectHistory) : ProjectEvent → ProjectHistory
  | .changed relative content clock =>
    { w with
      toHistoryLedger := processFileChanged host config branch w.toHistoryLedger
        (observed relative content) clock
      files := Function.update w.files (slashed relative) (some content) }
  | .removed relative clock =>
    { w with
      toHistoryLedger := processFileRemoved host config branch w.toHistoryLedger
        (some relative) clock
      files := Function.update w.files (slashed relative) none }
  | .labelled name source stamp =>
    { w with labels := createAutoLabel w.repo w.labels name source branch stamp }

/-- a label, further events, and the rollback to the label -/
def rollback (events further : List ProjectEvent) (name source : String)
    (stamp before : LabelStamp) (writable : String → Bool) :
    Except String (String → Option FileContent) :=
  let w := Run.run (step host config branch) empty
    (events ++ .labelled name source stamp :: further)
  (restoreToLabel host w.repo w.labels branch before writable w.files stamp.id).2

/-! ## what the events say -/

def noteFile (files : String → Option FileContent) : ProjectEvent → String → Option FileContent
  | .changed relative content _ => Function.update files (slashed relative) (some content)
  | .removed relative _ => Function.update files (slashed relative) none
  | .labelled _ _ _ => files

def filesAfter (events : List ProjectEvent) : String → Option FileContent :=
  events.foldl noteFile fun _ => none

/-- what `get_version_content` gives back of a content -/
def readBack (content : FileContent) : Option FileContent :=
  if isGzip content then host.gunzip content else some content

/-- the content of the newest version of each file -/
def noteHeld (held : String → Option FileContent) : ProjectEvent → String → Option FileContent
  | .changed relative content _ => Function.update held (slashed relative) (some content)
  | .removed relative _ => Function.update held (slashed relative)
      ((held (slashed relative)).map fun content => (readBack host content).getD content)
  | .labelled _ _ _ => held

def heldAfter (events : List ProjectEvent) : String → Option FileContent :=
  events.foldl (noteHeld host) fun _ => none

def Existed (events : List ProjectEvent) (p : String) : Prop :=
  ∃ relative content clock, .changed relative content clock ∈ events ∧ slashed relative = p

/-- the filters of the history let the event pass -/
def Recorded : ProjectEvent → Prop
  | .changed relative content _ =>
    shouldIgnore (slashed relative) config.ignorePatterns = false ∧
      content.length ≤ config.maxFileSize ∧ isBinary content = false
  | .removed relative _ => shouldIgnore (slashed relative) config.ignorePatterns = false
  | .labelled _ _ _ => True

/-- the file of an event, and the id that is drawn for its version -/
def stampOf : ProjectEvent → Option (String × String)
  | .changed relative _ clock => some (slashed relative, versionId clock.now clock.counter)
  | .removed relative clock => some (slashed relative, versionId clock.now clock.counter)
  | .labelled _ _ _ => none

def Before (e e' : ProjectEvent) : Prop :=
  ∀ p i i', stampOf e = some (p, i) → stampOf e' = some (p, i') → i < i'

def Chronological (events : List ProjectEvent) : Prop := events.Pairwise Before

/-- every file of the label has its content back, and no file that was deleted before the label is
brought back -/
def RollsBack (events further : List ProjectEvent)
    (result : Except String (String → Option FileContent)) : Prop :=
  ∃ after, result = .ok after ∧
    (∀ p content, filesAfter events p = some content → after p = some content) ∧
    ∀ p, Existed events p → filesAfter events p = none →
      filesAfter (events ++ further) p = none → after p = none

/-- the rollback writes to a file whose newest version at the label is `content` -/
def Rewrites (writable : String → Bool) (p : String) (content : FileContent) : Prop :=
  writable p = true ∧ (readBack host content).isSome = true

/-- A file of the label that is rewritten is not mistaken for gzip, one that is not rewritten has
its content still, and a file that is missing at the label and at the rollback is not rewritten. -/
def Unharmed (events further : List ProjectEvent) (writable : String → Bool) : Prop :=
  (∀ p content, filesAfter events p = some content →
    (Rewrites host writable p content → readBack host content = some content) ∧
      (¬ Rewrites host writable p content → filesAfter (events ++ further) p = some content)) ∧
  ∀ p content, filesAfter events p = none → heldAfter host events p = some content →
    filesAfter (events ++ further) p = none → ¬ Rewrites host writable p content

/-! ## the newest version of a file -/

section
variable {host : HistoryHost} {config : HistoryConfig} {branch : String} {v : FileVersion}
  {a : SaveVersion} {content : FileContent} {label : HistoryLabel} {relative : String}
  {e : ProjectEvent}

structure Newest (repo : HistoryFileRepository) (p : String) (v : FileVersion) : Prop where
  mem : v ∈ repo.fileVersions
  path : v.filePath = p
  newest : ∀ v' ∈ repo.fileVersions, v'.filePath = p → v'.id ≤ v.id

/-- the rows of a repository whose newest versions have the contents `held` -/
structure Holds (host : HistoryHost) (branch : String) (held : String → Option FileContent)
    (l : HistoryLedger) : Prop where
  ledger : Inv host l
  branch : ∀ v ∈ l.repo.fileVersions, v.branch = branch
  newest : ∀ p content, held p = some content → ∃ v, Newest l.repo p v ∧ (v, content) ∈ l.saved
  known : ∀ v ∈ l.repo.fileVersions, ∃ content, held v.filePath = some content

variable {held : String → Option FileContent} {l : HistoryLedger}

theorem Newest.unique (h : Inv host l) {p : String} {v v' : FileVersion} (hv : Newest l.repo p v)
    (hv' : Newest l.repo p v') : v = v' := by
  refine h.key v hv.mem v' hv'.mem (hv.path.trans hv'.path.symm) ?_
  exact le_antisymm (hv'.newest v hv.mem hv.path) (hv.newest v' hv'.mem hv'.path)

theorem latest_eq (h : Holds host branch held l) {p : String} (hv : Newest l.repo p v) :
    l.repo.latest p branch = some v := by
  unfold latest
  have hall : ∀ v' ∈ l.repo.fileVersions.filter fun v' => v'.filePath = p && v'.branch = branch,
      v' ∈ l.repo.fileVersions ∧ v'.filePath = p := by
    intro v' hv'
    obtain ⟨hmem, hp⟩ := mem_filter.mp hv'
    rw [Bool.and_eq_true, decide_eq_true_eq] at hp
    exact ⟨hmem, hp.1⟩
  have hin : v ∈ l.repo.fileVersions.filter fun v' => v'.filePath = p && v'.branch = branch :=
    mem_filter.mpr ⟨hv.mem, by simp [hv.path, h.branch v hv.mem]⟩
  generalize l.repo.fileVersions.filter (fun v' => v'.filePath = p && v'.branch = branch) = rows
    at hall hin
  have hsort := pairwise_insertionSort (fun a b : FileVersion => b.id ≤ a.id) rows
  have hmem := (mem_insertionSort (r := fun a b : FileVersion => b.id ≤ a.id)).mpr hin
  cases hrows : rows.insertionSort fun a b => b.id ≤ a.id with
  | nil =>
    rw [hrows] at hmem
    cases hmem
  | cons v' =>
    have hv' : v' ∈ rows := by
      rw [← mem_insertionSort (r := fun a b : FileVersion => b.id ≤ a.id), hrows]
      exact mem_cons_self ..
    rw [hrows] at hmem hsort
    have hle : v.id ≤ v'.id := by
      obtain rfl | htail := mem_cons.mp hmem
      · exact le_rfl
      · exact (pairwise_cons.mp hsort).1 v htail
    have hnew : Newest l.repo p v' :=
      ⟨(hall v' hv').1, (hall v' hv').2, fun u hu hpath => (hv.newest u hu hpath).trans hle⟩
    rw [head?_cons, Newest.unique h.ledger hnew hv]

theorem getLast?_listVersions (h : Inv host l) {p : String} (hv : Newest l.repo p v) :
    (l.repo.listVersions p).getLast? = some v := by
  have hin : v ∈ l.repo.listVersions p := mem_listVersions.mpr ⟨hv.mem, hv.path⟩
  have hsort : (l.repo.listVersions p).Pairwise fun a b => a.id ≤ b.id :=
    pairwise_insertionSort _ _
  have hne : l.repo.listVersions p ≠ [] := ne_nil_of_mem hin
  rw [getLast?_eq_getLast_of_ne_nil hne]
  have hlast := mem_listVersions.mp (getLast_mem hne)
  have hle : v.id ≤ ((l.repo.listVersions p).getLast hne).id := List.Pairwise.rel_getLast hsort hin
  congr 1
  exact Newest.unique h
    ⟨hlast.1, hlast.2, fun u hu hpath => (hv.newest u hu hpath).trans hle⟩ hv

theorem getVersionContent_toOption (hlaw : host.Lawful) (h : Inv host l)
    (hv : v ∈ l.repo.fileVersions) (hc : (v, content) ∈ l.saved) :
    (l.repo.getVersionContent host v.filePath v.id).toOption = readBack host content := by
  obtain ⟨raw, hread⟩ := isSome_iff_exists.mp (h.stored v hv)
  rw [getVersionContent_eq h (mem_listVersions.mpr ⟨hv, rfl⟩) hread]
  rw [h.digest v content hc] at hread
  obtain rfl | ⟨hraw, rfl⟩ := h.blobs.represents hlaw.hash_injective hread
  · unfold decodeBlob readBack
    split
    · cases host.gunzip raw <;> rfl
    · rfl
  · unfold decodeBlob readBack
    rw [hraw, hlaw.isGzip_gzip, hlaw.gunzip_gzip]
    rfl

theorem Holds.save (h : Holds host branch held l) (hbranch : a.branch = branch)
    (hskip : (!a.isDeleted && l.repo.skipsSave host a) = false)
    (hid : ∀ v ∈ l.repo.fileVersions, v.filePath = a.filePath → v.id < (newVersion host a).id) :
    Holds host branch (Function.update held a.filePath (some a.content)) (l.save host a) := by
  obtain ⟨repo', hsave, hrows⟩ := saveVersion_inserts hskip fun v hv hpath =>
    ne_of_lt (hid v hv hpath)
  have hrepo : (l.save host a).repo = repo' := by rw [HistoryLedger.save, hsave]
  have hsaved : (l.save host a).saved = (newVersion host a, a.content) :: l.saved := by
    rw [HistoryLedger.save, hsave]
  have hmem : ∀ v, v ∈ (l.save host a).repo.fileVersions ↔
      v ∈ l.repo.fileVersions ∨ v = newVersion host a := by
    intro v
    rw [hrepo, hrows, mem_append, mem_singleton]
  refine ⟨h.ledger.save a, ?_, ?_, ?_⟩
  · intro v hv
    obtain hv | rfl := (hmem v).mp hv
    · exact h.branch v hv
    · exact hbranch
  · intro p content hp
    rw [hsaved]
    by_cases hpath : p = a.filePath
    · subst hpath
      rw [update_self] at hp
      cases hp
      refine ⟨newVersion host a, ⟨(hmem _).mpr (.inr rfl), rfl, ?_⟩, mem_cons_self ..⟩
      intro v hv hv'
      obtain hv | rfl := (hmem v).mp hv
      · exact le_of_lt (hid v hv hv')
      · exact le_rfl
    · rw [update_of_ne hpath] at hp
      obtain ⟨v, hv, hc⟩ := h.newest p content hp
      refine ⟨v, ⟨(hmem v).mpr (.inl hv.mem), hv.path, ?_⟩, mem_cons_of_mem _ hc⟩
      intro v' hv' hpath'
      obtain hv' | rfl := (hmem v').mp hv'
      · exact hv.newest v' hv' hpath'
      · exact absurd hpath'.symm hpath
  · intro v hv
    by_cases hpath : v.filePath = a.filePath
    · rw [hpath, update_self]
      exact ⟨a.content, rfl⟩
    rw [update_of_ne hpath]
    obtain hv | rfl := (hmem v).mp hv
    · exact h.known v hv
    · exact absurd rfl hpath

theorem Holds.skipped (hlaw : host.Lawful) (h : Holds host branch held l)
    (hbranch : a.branch = branch) (hinterval : a.minIntervalSecs = 0)
    (hskip : l.repo.skipsSave host a = true) : held a.filePath = some a.content := by
  unfold skipsSave at hskip
  rw [hbranch, hinterval] at hskip
  cases hlatest : l.repo.latest a.filePath branch with
  | none =>
    rw [hlatest] at hskip
    cases hskip
  | some v =>
    rw [hlatest] at hskip
    have hhash : v.hash = host.calculateHash a.content := by simpa using hskip
    have hmem : v ∈ l.repo.fileVersions ∧ v.filePath = a.filePath := by
      have hv := mem_of_head? hlatest
      rw [mem_insertionSort, mem_filter, Bool.and_eq_true, decide_eq_true_eq] at hv
      exact ⟨hv.1, hv.2.1⟩
    obtain ⟨content, hc⟩ := h.known v hmem.1
    rw [hmem.2] at hc
    obtain ⟨v', hv', hsaved⟩ := h.newest a.filePath content hc
    have hvv : v = v' := by
      rw [latest_eq h hv'] at hlatest
      exact (some.inj hlatest).symm
    have hdigest := h.ledger.digest v' content hsaved
    rw [← hvv, hhash] at hdigest
    rw [hc, hlaw.hash_injective hdigest]

theorem save_skipped (hskip : (!a.isDeleted && l.repo.skipsSave host a) = true) :
    l.save host a = l := by
  unfold HistoryLedger.save saveVersion
  rw [if_pos hskip]

theorem mem_save (hv : v ∈ (l.save host a).repo.fileVersions) :
    v ∈ l.repo.fileVersions ∨ v = newVersion host a := by
  have hv' : v ∈ (l.repo.saveVersion host a).2.fileVersions := hv
  obtain ⟨-, hrows⟩ | ⟨-, hrows, -⟩ := saveVersion_cases host l.repo a
  · rw [hrows] at hv'
    exact .inl hv'
  · rw [hrows, mem_append, mem_singleton] at hv'
    exact hv'

/-! ## one event -/

variable {p : String} {clock : SaveClock}

def Older (l : HistoryLedger) (p : String) (clock : SaveClock) : Prop :=
  ∀ v ∈ l.repo.fileVersions, v.filePath = p → v.id < versionId clock.now clock.counter

theorem Holds.changed (hlaw : host.Lawful) (h : Holds host branch held l) (hold : Older l p clock)
    (content : FileContent) :
    Holds host branch (Function.update held p (some content))
      (l.save host (saveArgs p content false branch 0 clock)) := by
  cases hskip : l.repo.skipsSave host (saveArgs p content false branch 0 clock) with
  | false => exact h.save (a := saveArgs p content false branch 0 clock) rfl hskip hold
  | true =>
    have hheld : held p = some content :=
      h.skipped (a := saveArgs p content false branch 0 clock) hlaw rfl rfl hskip
    rw [save_skipped (a := saveArgs p content false branch 0 clock) hskip, ← hheld, update_eq_self]
    exact h

theorem Holds.removed (hlaw : host.Lawful) (h : Holds host branch held l) (hold : Older l p clock)
    (hp : slashed relative = p) (henabled : config.enabled = true)
    (hnot : shouldIgnore p config.ignorePatterns = false) :
    Holds host branch
      (Function.update held p ((held p).map fun content => (readBack host content).getD content))
      (processFileRemoved host config branch l (some relative) clock) := by
  unfold processFileRemoved
  dsimp only
  rw [hp, henabled, hnot, Bool.not_true, if_neg Bool.false_ne_true, if_neg Bool.false_ne_true]
  cases hheld : held p with
  | none =>
    have hlast : (l.repo.listVersions p).getLast? = none := by
      rw [getLast?_eq_none_iff, eq_nil_iff_forall_not_mem]
      intro v hv
      obtain ⟨hmem, hpath⟩ := mem_listVersions.mp hv
      obtain ⟨content, hc⟩ := h.known v hmem
      rw [hpath, hheld] at hc
      cases hc
    rw [hlast, map_none, ← hheld, update_eq_self]
    exact h
  | some content =>
    obtain ⟨v, hv, hsaved⟩ := h.newest p content hheld
    have hread := getVersionContent_toOption hlaw h.ledger hv.mem hsaved
    rw [hv.path] at hread
    rw [getLast?_listVersions h.ledger hv]
    dsimp only
    cases hc : l.repo.getVersionContent host p v.id with
    | error =>
      rw [hc] at hread
      have hsame : (some content).map (fun content => (readBack host content).getD content) =
          held p := by
        rw [hheld, map_some, ← hread]
        rfl
      rw [hsame, update_eq_self]
      exact h
    | ok content' =>
      rw [hc] at hread
      have hsame : (some content).map (fun content => (readBack host content).getD content) =
          some content' := by
        rw [map_some, ← hread]
        rfl
      rw [hsame]
      exact h.save (a := saveArgs p content' true branch 0 clock) rfl rfl hold

structure Tracked (host : HistoryHost) (branch : String) (events : List ProjectEvent)
    (w : ProjectHistory) : Prop where
  holds : Holds host branch (heldAfter host events) w.toHistoryLedger
  files : w.files = filesAfter events
  drawn : ∀ v ∈ w.repo.fileVersions, ∃ e ∈ events, stampOf e = some (v.filePath, v.id)

theorem filesAfter_snoc (events : List ProjectEvent) (e : ProjectEvent) :
    filesAfter (events ++ [e]) = noteFile (filesAfter events) e := by
  rw [filesAfter, foldl_append]
  rfl

theorem heldAfter_snoc (events : List ProjectEvent) (e : ProjectEvent) :
    heldAfter host (events ++ [e]) = noteHeld host (heldAfter host events) e := by
  rw [heldAfter, foldl_append]
  rfl

variable {events : List ProjectEvent} {w : ProjectHistory}

theorem Tracked.older (h : Tracked host branch events w) (hbefore : ∀ e' ∈ events, Before e' e)
    (hstamp : stampOf e = some (p, versionId clock.now clock.counter)) :
    Older w.toHistoryLedger p clock := by
  intro v hv hpath
  obtain ⟨e', he', hstamp'⟩ := h.drawn v hv
  rw [hpath] at hstamp'
  exact hbefore e' he' p _ _ hstamp' hstamp

theorem drawn_snoc {l' : HistoryLedger} (h : Tracked host branch events w)
    (hnew : ∀ v ∈ l'.repo.fileVersions,
      v ∈ w.repo.fileVersions ∨ stampOf e = some (v.filePath, v.id)) :
    ∀ v ∈ l'.repo.fileVersions, ∃ e' ∈ events ++ [e], stampOf e' = some (v.filePath, v.id) := by
  intro v hv
  obtain hv | hstamp := hnew v hv
  · obtain ⟨e', he', hstamp⟩ := h.drawn v hv
    exact ⟨e', mem_append_left _ he', hstamp⟩
  · exact ⟨e, mem_append_right _ (mem_singleton_self e), hstamp⟩

theorem processFileChanged_eq (henabled : config.enabled = true)
    (hinterval : config.minSaveIntervalSecs = 0)
    (hrec : Recorded config (.changed relative content clock)) :
    processFileChanged host config branch l (observed relative content) clock =
      l.save host (saveArgs (slashed relative) content false branch 0 clock) := by
  obtain ⟨hnot, hsize, htext⟩ := hrec
  have hlen : ((some content.length).any fun len => len > config.maxFileSize) = false := by
    rw [any_some, decide_eq_false_iff_not]
    omega
  unfold processFileChanged observed
  simp only [Bool.false_eq_true, if_false, henabled, Bool.not_true, hnot, hlen, htext, hinterval]

theorem mem_processFileRemoved
    (hv : v ∈ (processFileRemoved host config branch l (some relative) clock).repo.fileVersions) :
    v ∈ l.repo.fileVersions ∨
      v.filePath = slashed relative ∧ v.id = versionId clock.now clock.counter := by
  unfold processFileRemoved at hv
  dsimp only at hv
  split at hv
  · exact .inl hv
  split at hv
  · exact .inl hv
  split at hv
  · exact .inl hv
  split at hv
  · exact .inl hv
  · obtain hv | rfl := mem_save hv
    · exact .inl hv
    · exact .inr ⟨rfl, rfl⟩

theorem step_tracked (hlaw : host.Lawful) (henabled : config.enabled = true)
    (hinterval : config.minSaveIntervalSecs = 0) (h : Tracked host branch events w)
    (hrec : Recorded config e) (hbefore : ∀ e' ∈ events, Before e' e) :
    Tracked host branch (events ++ [e]) (step host config branch w e) := by
  cases e with
  | changed relative content clock =>
    have hproc : processFileChanged host config branch w.toHistoryLedger
        (observed relative content) clock = _ := processFileChanged_eq henabled hinterval hrec
    refine ⟨?_, ?_, ?_⟩
    · rw [heldAfter_snoc]
      show Holds host branch _ (processFileChanged host config branch w.toHistoryLedger
        (observed relative content) clock)
      rw [hproc]
      exact h.holds.changed hlaw (h.older hbefore rfl) content
    · rw [filesAfter_snoc, ← h.files]
      rfl
    refine drawn_snoc h ?_
    intro v hv
    have hv' : v ∈ (processFileChanged host config branch w.toHistoryLedger
      (observed relative content) clock).repo.fileVersions := hv
    rw [hproc] at hv'
    obtain hv | rfl := mem_save hv'
    · exact .inl hv
    · exact .inr rfl
  | removed =>
    refine ⟨?_, ?_, ?_⟩
    · rw [heldAfter_snoc]
      exact h.holds.removed hlaw (h.older hbefore rfl) rfl henabled hrec
    · rw [filesAfter_snoc, ← h.files]
      rfl
    refine drawn_snoc h ?_
    intro v hv
    obtain hv | ⟨hpath, hid⟩ := mem_processFileRemoved hv
    · exact .inl hv
    · rw [hpath, hid]
      exact .inr rfl
  | labelled =>
    refine ⟨?_, ?_, ?_⟩
    · rw [heldAfter_snoc]
      exact h.holds
    · rw [filesAfter_snoc]
      exact h.files
    · exact drawn_snoc h fun v hv => .inl hv

/-! ## any events -/

theorem empty_tracked : Tracked host branch [] empty where
  holds := ⟨Inv.empty, nofun, nofun, nofun⟩
  files := rfl
  drawn := nofun

theorem run_tracked (hlaw : host.Lawful) (henabled : config.enabled = true)
    (hinterval : config.minSaveIntervalSecs = 0) (events : List ProjectEvent)
    (hrec : ∀ e ∈ events, Recorded config e) (hchron : Chronological events) :
    Tracked host branch events (Run.run (step host config branch) empty events) := by
  revert hrec hchron
  refine Run.history_induct (I := fun events => (∀ e ∈ events, Recorded config e) →
    Chronological events → Tracked host branch events
      (Run.run (step host config branch) empty events)) (fun _ _ => empty_tracked) ?_ events
  intro events e ih hrec hchron
  obtain ⟨hpre, -, hlast⟩ := pairwise_append.mp hchron
  rw [Run.run_snoc]
  refine step_tracked hlaw henabled hinterval
    (ih (fun e' he' => hrec e' (mem_append_left _ he')) hpre)
    (hrec e (mem_append_right _ (mem_singleton_self e))) ?_
  exact fun e' he' => hlast e' he' e (mem_singleton_self e)

def Grows (l l' : HistoryLedger) : Prop :=
  (∀ v ∈ l.repo.fileVersions, v ∈ l'.repo.fileVersions) ∧ ∀ x ∈ l.saved, x ∈ l'.saved

theorem Grows.refl (l : HistoryLedger) : Grows l l := ⟨fun _ hv => hv, fun _ hx => hx⟩

theorem Grows.trans {l₁ l₂ l₃ : HistoryLedger} (h₁ : Grows l₁ l₂) (h₂ : Grows l₂ l₃) :
    Grows l₁ l₃ :=
  ⟨fun v hv => h₂.1 v (h₁.1 v hv), fun x hx => h₂.2 x (h₁.2 x hx)⟩

theorem save_grows (l : HistoryLedger) (a : SaveVersion) : Grows l (l.save host a) := by
  constructor
  · intro v hv
    show v ∈ (l.repo.saveVersion host a).2.fileVersions
    obtain ⟨-, hrows⟩ | ⟨-, hrows, -⟩ := saveVersion_cases host l.repo a
    · rw [hrows]
      exact hv
    · rw [hrows]
      exact mem_append_left _ hv
  · intro x hx
    unfold HistoryLedger.save
    split
    · exact mem_cons_of_mem _ hx
    · exact hx

theorem processFileChanged_grows (l : HistoryLedger) (file : ObservedFile) (clock : SaveClock) :
    Grows l (processFileChanged host config branch l file clock) := by
  unfold processFileChanged
  split
  · exact Grows.refl l
  split
  · exact Grows.refl l
  split_ifs
  · exact Grows.refl l
  · exact Grows.refl l
  · exact Grows.refl l
  · exact Grows.refl l
  · split
    · exact Grows.refl l
    · split
      · exact Grows.refl l
      · exact save_grows l _

theorem processFileRemoved_grows (l : HistoryLedger) (relative : Option String)
    (clock : SaveClock) : Grows l (processFileRemoved host config branch l relative clock) := by
  unfold processFileRemoved
  split
  · exact Grows.refl l
  split_ifs
  · exact Grows.refl l
  · exact Grows.refl l
  split
  · exact Grows.refl l
  · split
    · exact Grows.refl l
    · exact save_grows l _

theorem step_grows (w : ProjectHistory) (e : ProjectEvent) :
    Grows w.toHistoryLedger (step host config branch w e).toHistoryLedger := by
  cases e with
  | changed => exact processFileChanged_grows _ _ _
  | removed => exact processFileRemoved_grows _ _ _
  | labelled => exact Grows.refl _

theorem run_grows (w : ProjectHistory) (events : List ProjectEvent) :
    Grows w.toHistoryLedger (Run.run (step host config branch) w events).toHistoryLedger :=
  Run.run_inv (I := fun w' : ProjectHistory => Grows w.toHistoryLedger w'.toHistoryLedger)
    (fun w' e h => h.trans (step_grows w' e)) (Grows.refl _) events

theorem run_labelled (events : List ProjectEvent)
    (hfresh : ∀ name source stamp, .labelled name source stamp ∈ events → stamp.id ≠ label.id)
    (hlabel : Labelled w.labels label) :
    Labelled (Run.run (step host config branch) w events).labels label := by
  induction events generalizing w with
  | nil => exact hlabel
  | cons e events ih =>
    refine ih (fun name source stamp hmem => hfresh name source stamp (mem_cons_of_mem _ hmem))
      ?_
    cases e with
    | changed => exact hlabel
    | removed => exact hlabel
    | labelled name source stamp =>
      exact hlabel.putLabel (hfresh name source stamp (mem_cons_self ..))

/-! ## the rollback -/

theorem beforeRollback_labelled {repo : HistoryFileRepository} {labels : List HistoryLabel}
    {before : LabelStamp} (hlabel : Labelled labels label) (hne : before.id ≠ label.id) :
    Labelled (beforeRollback repo labels branch before) label := by
  unfold beforeRollback
  split
  · exact hlabel
  · exact hlabel.putLabel hne

def restorable (host : HistoryHost) (events : List ProjectEvent) (p : String) :
    Option FileContent :=
  (heldAfter host events p).bind (readBack host)

theorem restoreToLabel_apply (hlaw : host.Lawful) (h : Tracked host branch events w)
    {w' : ProjectHistory} (hinv : Inv host w'.toHistoryLedger)
    (hgrows : Grows w.toHistoryLedger w'.toHistoryLedger)
    (hsnaps : label.fileSnapshots = getAllLatestSnapshots w.repo)
    (hlabel : Labelled w'.labels label) {before : LabelStamp} (hne : before.id ≠ label.id)
    (writable : String → Bool) :
    ∃ after, (restoreToLabel host w'.repo w'.labels branch before writable w'.files label.id).2 =
        .ok after ∧
      ∀ p, after p =
        if writable p = true then (restorable host events p).or (w'.files p) else w'.files p := by
  have hl : Labelled (beforeRollback w'.repo w'.labels branch before) label :=
    beforeRollback_labelled hlabel hne
  unfold restoreToLabel
  dsimp only
  rw [listLabels_find? hl.1 hl.2]
  refine ⟨_, rfl, fun p => ?_⟩
  rw [foldl_writeSnapshot host writable (restorable host events)]
  · by_cases hw : writable p = true
    · by_cases hex : ∃ snap ∈ label.fileSnapshots, snap.filePath = p
      · rw [if_pos ⟨hex, hw⟩, if_pos hw]
      -- a file without a snapshot has no version
      have hnone : restorable host events p = none := by
        cases hheld : heldAfter host events p with
        | none => rw [restorable, hheld, bind_none]
        | some content =>
          obtain ⟨v, hv, -⟩ := h.holds.newest p content hheld
          refine absurd ⟨⟨v.filePath, v.id⟩, ?_, hv.path⟩ hex
          rw [hsnaps, mem_getAllLatestSnapshots]
          refine ⟨v, hv.mem, fun v' hv' hpath => ?_, rfl⟩
          exact hv.newest v' hv' (hpath.trans hv.path)
      rw [if_neg fun h => hex h.1, if_pos hw, hnone, none_or]
    · rw [if_neg fun h => hw h.2, if_neg hw]
  · intro snap hsnap
    rw [hsnaps, mem_getAllLatestSnapshots] at hsnap
    obtain ⟨v, hv, hmax, rfl⟩ := hsnap
    obtain ⟨content, hheld⟩ := h.holds.known v hv
    obtain ⟨v', hv', hsaved⟩ := h.holds.newest v.filePath content hheld
    have hvv : v = v' := Newest.unique h.holds.ledger ⟨hv, rfl, hmax⟩ hv'
    rw [← hvv] at hsaved
    rw [getVersionContent_toOption hlaw hinv (hgrows.1 v hv) (hgrows.2 _ hsaved), restorable, hheld,
      bind_some]

theorem existed_iff (events : List ProjectEvent) (p : String) :
    Existed events p ↔ ∃ content, heldAfter host events p = some content := by
  refine Run.history_induct (I := fun events => Existed events p ↔
    ∃ content, heldAfter host events p = some content) ?_ ?_ events
  · constructor
    · rintro ⟨_, _, _, hmem, -⟩
      cases hmem
    · rintro ⟨content, h⟩
      cases h
  intro events e ih
  have hexisted : Existed (events ++ [e]) p ↔ Existed events p ∨ Existed [e] p := by
    unfold Existed
    simp only [mem_append, or_and_right, exists_or]
  rw [hexisted, ih, heldAfter_snoc]
  cases e with
  | changed relative content clock =>
    by_cases hp : p = slashed relative
    · subst hp
      simp [Existed, noteHeld]
    have hne : ¬ Existed [.changed relative content clock] p := by
      rintro ⟨_, _, _, hmem, rfl⟩
      cases mem_singleton.mp hmem
      exact hp rfl
    rw [noteHeld, update_of_ne hp]
    exact ⟨fun h => h.resolve_right hne, .inl⟩
  | removed relative clock =>
    have hne : ¬ Existed [.removed relative clock] p := by
      rintro ⟨_, _, _, hmem, -⟩
      cases mem_singleton.mp hmem
    rw [noteHeld]
    by_cases hp : p = slashed relative
    · subst hp
      simp [hne]
    · rw [update_of_ne hp]
      exact ⟨fun h => h.resolve_right hne, .inl⟩
  | labelled name source stamp =>
    have hne : ¬ Existed [.labelled name source stamp] p := by
      rintro ⟨_, _, _, hmem, -⟩
      cases mem_singleton.mp hmem
    exact ⟨fun h => h.resolve_right hne, .inl⟩

theorem heldAfter_of_file (events : List ProjectEvent)
    (hfile : filesAfter events p = some content) : heldAfter host events p = some content := by
  revert hfile
  refine Run.history_induct (I := fun events => filesAfter events p = some content →
    heldAfter host events p = some content) nofun ?_ events
  intro events e ih hfile
  rw [filesAfter_snoc] at hfile
  rw [heldAfter_snoc]
  cases e with
  | changed relative =>
    rw [noteFile] at hfile
    rw [noteHeld]
    by_cases hp : p = slashed relative
    · subst hp
      rw [update_self] at hfile ⊢
      exact hfile
    · rw [update_of_ne hp] at hfile ⊢
      exact ih hfile
  | removed relative =>
    rw [noteFile] at hfile
    rw [noteHeld]
    by_cases hp : p = slashed relative
    · subst hp
      rw [update_self] at hfile
      cases hfile
    · rw [update_of_ne hp] at hfile ⊢
      exact ih hfile
  | labelled => exact ih hfile

variable (branch) in
theorem rollback_apply (hlaw : host.Lawful) (henabled : config.enabled = true)
    (hinterval : config.minSaveIntervalSecs = 0) (events further : List ProjectEvent)
    (name source : String) (stamp before : LabelStamp)
    (hrec : ∀ e ∈ events ++ further, Recorded config e)
    (hchron : Chronological (events ++ further))
    (hfresh : ∀ name source s, .labelled name source s ∈ further → s.id ≠ stamp.id)
    (hbefore : before.id ≠ stamp.id) (writable : String → Bool) :
    ∃ after, rollback host config branch events further name source stamp before writable =
        .ok after ∧
      ∀ p, after p =
        if writable p = true then
          (restorable host events p).or (filesAfter (events ++ further) p)
        else filesAfter (events ++ further) p := by
  obtain ⟨hpre, hpost, hcross⟩ := pairwise_append.mp hchron
  have hw : Tracked host branch events (Run.run (step host config branch) empty events) :=
    run_tracked hlaw henabled hinterval events (fun e he => hrec e (mem_append_left _ he)) hpre
  have hall : Tracked host branch (events ++ .labelled name source stamp :: further)
      (Run.run (step host config branch) empty
        (events ++ .labelled name source stamp :: further)) := by
    refine run_tracked hlaw henabled hinterval _ ?_ ?_
    · intro e he
      rw [mem_append, mem_cons] at he
      obtain he | rfl | he := he
      · exact hrec e (mem_append_left _ he)
      · trivial
      · exact hrec e (mem_append_right _ he)
    · refine pairwise_append.mpr ⟨hpre, pairwise_cons.mpr ⟨nofun, hpost⟩, ?_⟩
      intro e he e' he'
      obtain rfl | he' := mem_cons.mp he'
      · nofun
      · exact hcross e he e' he'
  have hfiles : filesAfter (events ++ .labelled name source stamp :: further) =
      filesAfter (events ++ further) := by
    rw [filesAfter, filesAfter, foldl_append, foldl_append]
    rfl
  rw [← hfiles, ← hall.files]
  rw [Run.run_append, Run.run_cons] at hall ⊢
  unfold rollback
  rw [Run.run_append, Run.run_cons]
  have hlabel : Labelled (Run.run (step host config branch)
      (step host config branch (Run.run (step host config branch) empty events)
        (.labelled name source stamp)) further).labels
      (autoLabel name source branch stamp
        (getAllLatestSnapshots (Run.run (step host config branch) empty events).repo)) :=
    run_labelled further hfresh (putLabel_labelled _ _)
  exact restoreToLabel_apply hlaw hw hall.holds.ledger
    ((step_grows _ (.labelled name source stamp)).trans (run_grows _ further)) rfl hlabel hbefore
    writable

end

/-- When all files of a project are recorded, a rollback gives back the state of the label exactly
if it harms no file. -/
theorem rolls_back_iff (hlaw : host.Lawful) (henabled : config.enabled = true)
    (hinterval : config.minSaveIntervalSecs = 0) (events further : List ProjectEvent)
    (name source : String) (stamp before : LabelStamp)
    (hrec : ∀ e ∈ events ++ further, Recorded config e)
    (hchron : Chronological (events ++ further))
    (hfresh : ∀ name source s, .labelled name source s ∈ further → s.id ≠ stamp.id)
    (hbefore : before.id ≠ stamp.id) (writable : String → Bool) :
    RollsBack events further
        (rollback host config branch events further name source stamp before writable) ↔
      Unharmed host events further writable := by
  obtain ⟨after, hok, hafter⟩ := rollback_apply branch hlaw henabled hinterval events further
    name source stamp before hrec hchron hfresh hbefore writable
  rw [hok]
  have hwritten : ∀ p content, heldAfter host events p = some content →
      (Rewrites host writable p content → after p = readBack host content) ∧
        (¬ Rewrites host writable p content → after p = filesAfter (events ++ further) p) := by
    intro p content hheld
    rw [hafter p, restorable, hheld, bind_some]
    constructor
    · rintro ⟨hw, hread⟩
      obtain ⟨content', hread⟩ := isSome_iff_exists.mp hread
      rw [if_pos hw, hread, some_or]
    intro hnot
    by_cases hw : writable p = true
    · cases hread : readBack host content with
      | none => rw [if_pos hw, none_or]
      | some => exact absurd ⟨hw, by rw [hread]; rfl⟩ hnot
    · rw [if_neg hw]
  constructor
  · rintro ⟨after', heq, hkept, hgone⟩
    cases heq
    refine ⟨fun p content hfile => ?_, fun p content hfile hheld hnow hrewrites => ?_⟩
    · obtain ⟨hyes, hno⟩ := hwritten p content (heldAfter_of_file events hfile)
      constructor
      · intro hrewrites
        rw [← hyes hrewrites]
        exact hkept p content hfile
      · intro hnot
        rw [← hno hnot]
        exact hkept p content hfile
    · have hback := (hwritten p content hheld).1 hrewrites
      rw [hgone p ((existed_iff events p).mpr ⟨content, hheld⟩) hfile hnow] at hback
      have hread := hrewrites.2
      rw [← hback] at hread
      cases hread
  rintro ⟨hkept, hgone⟩
  refine ⟨after, rfl, fun p content hfile => ?_, fun p hexisted hfile hnow => ?_⟩
  · obtain ⟨hyes, hno⟩ := hwritten p content (heldAfter_of_file events hfile)
    obtain ⟨hread, hstill⟩ := hkept p content hfile
    by_cases hrewrites : Rewrites host writable p content
    · rw [hyes hrewrites]
      exact hread hrewrites
    · rw [hno hrewrites]
      exact hstill hrewrites
  · obtain ⟨content, hheld⟩ := (existed_iff events p).mp hexisted
    rw [(hwritten p content hheld).2 (hgone p content hfile hheld hnow)]
    exact hnow

/-! ## a deleted file -/

def sampleConfig : HistoryConfig where
  enabled := true
  ignorePatterns := []
  maxFileSize := 5 * 1024 * 1024
  minSaveIntervalSecs := 0

def sampleCreated : ProjectEvent := .changed "notes.txt" plainContent ⟨0, 0, 7⟩

def sampleRemoved : ProjectEvent := .removed "notes.txt" ⟨0, 0, 8⟩

def sampleStamp : LabelStamp := ⟨"0b8f", "1970-01-01T00:00:00+00:00"⟩

def sampleBefore : LabelStamp := ⟨"7c21", "1970-01-01T00:00:00+00:00"⟩

theorem sample_recorded : ∀ e ∈ [sampleCreated, sampleRemoved], Recorded sampleConfig e := by
  intro e he
  obtain rfl | he := mem_cons.mp he
  · exact ⟨by decide +kernel, by decide, by decide⟩
  · rw [mem_singleton.mp he]
    show shouldIgnore (slashed "notes.txt") [] = false
    decide +kernel

theorem sample_chronological : Chronological [sampleCreated, sampleRemoved] := by
  refine pairwise_pair.mpr ?_
  intro p i i' h h'
  cases h
  cases h'
  decide +kernel

theorem sample_slashed : slashed "notes.txt" = "notes.txt" := by decide +kernel

theorem sample_files : filesAfter [sampleCreated] =
    Function.update (fun _ => none) "notes.txt" (some plainContent) := by
  show noteFile (fun _ => none) (.changed "notes.txt" plainContent ⟨0, 0, 7⟩) = _
  rw [noteFile, sample_slashed]

theorem sample_held : heldAfter sampleHost [sampleCreated] =
    Function.update (fun _ => none) "notes.txt" (some plainContent) := by
  show noteHeld sampleHost (fun _ => none) (.changed "notes.txt" plainContent ⟨0, 0, 7⟩) = _
  rw [noteHeld, sample_slashed]

/-- a file that is deleted after the label comes back -/
theorem rolls_back_iff_created : RollsBack [sampleCreated] [sampleRemoved]
    (rollback sampleHost sampleConfig "main" [sampleCreated] [sampleRemoved] "claude" "session"
      sampleStamp sampleBefore fun _ => true) := by
  refine (rolls_back_iff sampleHost sampleConfig "main" sampleHost_lawful rfl rfl [sampleCreated]
    [sampleRemoved] "claude" "session" sampleStamp sampleBefore sample_recorded
    sample_chronological ?_ (by decide) _).mpr ⟨?_, ?_⟩
  · intro name source s hmem
    cases mem_singleton.mp hmem
  · intro p content hfile
    rw [sample_files] at hfile
    by_cases hp : p = "notes.txt"
    · rw [hp, update_self] at hfile
      cases hfile
      exact ⟨fun _ => rfl, fun hnot => absurd ⟨rfl, rfl⟩ hnot⟩
    · rw [update_of_ne hp] at hfile
      cases hfile
  · intro p content hfile hheld
    rw [sample_files] at hfile
    rw [sample_held, hfile] at hheld
    cases hheld

/-- a file that was deleted before the label comes back too -/
theorem deleted_file_resurrected :
    sampleHost.Lawful ∧ (∀ e ∈ [sampleCreated, sampleRemoved], Recorded sampleConfig e) ∧
      Chronological [sampleCreated, sampleRemoved] ∧
      ¬ RollsBack [sampleCreated, sampleRemoved] []
        (rollback sampleHost sampleConfig "main" [sampleCreated, sampleRemoved] [] "claude"
          "session" sampleStamp sampleBefore fun _ => true) := by
  refine ⟨sampleHost_lawful, sample_recorded, sample_chronological, ?_⟩
  rintro ⟨after, hok, -, hgone⟩
  have hback : (rollback sampleHost sampleConfig "main" [sampleCreated, sampleRemoved] [] "claude"
      "session" sampleStamp sampleBefore fun _ => true).toOption.bind (fun after =>
        after "notes.txt") = some plainContent := by decide +kernel
  have hnone : after "notes.txt" = none := by
    refine hgone "notes.txt" ⟨"notes.txt", plainContent, ⟨0, 0, 7⟩, ?_, ?_⟩ ?_ ?_
    · exact mem_cons_self ..
    · decide +kernel
    · decide +kernel
    · decide +kernel
  rw [hok] at hback
  have hsome : after "notes.txt" = some plainContent := hback
  rw [hnone] at hsome
  cases hsome

end ProjectHistory

end CcPanes
